/-
# Cortex.TradingLoop -- the trading loop and the dead-man switch beside it

`start` sets the dead-man switch ticking on a thread of its own; `run_loop` processes one
market tick after the other, and each one that is processed ends in a heartbeat.  Here the
two go at once, in any order: a switch that ticks between two market ticks, during one, or
after the loop has ended.

* `attempts_inside_tick`: a step of the plan is attempted only if the last market tick was
  completed long enough ago, so never before the first; and once the loop has ended, by
  whatever exception, the switch ticks at most once more.
* `prompt_loop_rearms`: a loop that completes its ticks in less than the grace and two
  escalation periods is never liquidated, and is armed again at the first tick of the
  switch within the grace period; one that has reached the second step never is.
* `slow_loop_notifies`: between the first escalation period and the second, every
  iteration of a healthy loop runs the first step of the plan.

Times are exact numbers; in doubles a step can be due a unit in the last place early.
-/
import CentaurApex.Cortex.TradingDaemon
import CentaurApex.Doomsday.Heartbeats

namespace CentaurApex.Cortex

open CentaurApex.Theory
open CentaurApex.Theory.Python
open CentaurApex.Theory.ExtNum (fin)
open CentaurApex.Adapters
open CentaurApex.Doomsday

set_option autoImplicit false

/-! ## The loop -/

/-- The thread of the switch: in its sleep, after which it ticks, or gone. -/
inductive SwitchThread where
  | asleep
  | exited
  deriving DecidableEq, Repr

/-- A daemon that has been started. -/
structure TradingLoop where
  daemon : TradingDaemon
  running : Bool
  /-- `run_loop` has left its `for`. -/
  ended : Bool
  stopRequested : Bool
  thread : SwitchThread

inductive LoopAct where
  /-- The source yields a market tick. -/
  | tick (tick : Tick)
  /-- The source is exhausted. -/
  | exhausted
  /-- The source raises, or a `KeyboardInterrupt` arrives. -/
  | breaksOff
  /-- `stop`. -/
  | stop
  /-- The thread of the switch wakes up.  The switch has no hooks. -/
  | switch (now : ℚ) (submit : Nat → Except String ConversionOrder) (formatFloat : ℚ → String)

/-- The clock at the end of a market tick that was processed, and the steps that the
switch attempted. -/
structure LoopReply where
  completed : Option ℚ
  attempts : List Attempt

def LoopReply.idle : LoopReply := ⟨none, []⟩

namespace TradingLoop

/-- `start`, once the session is open and the first heartbeat is answered. -/
def start (d : TradingDaemon) : TradingLoop :=
  { daemon := d, running := true, ended := false, stopRequested := false, thread := .asleep }

/-- The `finally` of `run_loop`. -/
def finish (s : TradingLoop) : TradingLoop := { s with ended := true, stopRequested := true }

/-- The switch of the loop. -/
abbrev dormant (s : TradingLoop) :
    DeadManSwitchDaemon (defaultDoomsdayConfig s.daemon.heartbeatInterval) := s.daemon.dormant

/-- One round of the switch's `_run_loop`, which looks at the request to stop only after
it has ticked. -/
def wake (s : TradingLoop) (now : ℚ) (outside : Outside) : List Attempt × TradingLoop :=
  let ticked := s.dormant.tick now outside
  (ticked.attempts, { s with
    daemon := { s.daemon with dormant := ticked.daemon }
    thread := match ticked.result with
      | .ok _ => if s.stopRequested then .exited else .asleep
      | .error _ => .exited })

end TradingLoop

open TradingLoop

def tradingLoop (rt : Runtime) : Machine TradingLoop LoopAct LoopReply where
  step s
    | .tick tick =>
        if s.ended then (.idle, s)
        else if ¬ s.running then (.idle, s.finish)
        else
          match s.daemon.processTick rt tick with
          | (.ok (), d) => (⟨some tick.clock, []⟩, { s with daemon := d })
          | (.error _, d) => (.idle, { s with daemon := d }.finish)
    | .exhausted => (.idle, if s.ended then s else s.finish)
    | .breaksOff => (.idle, if s.ended then s else s.finish)
    | .stop => (.idle, { s with running := false })
    | .switch now submit formatFloat =>
        match s.thread with
        | .exited => (.idle, s)
        | .asleep =>
            let woken := s.wake now ⟨fun _ => .ok (), submit, formatFloat⟩
            (⟨none, woken.1⟩, woken.2)

/-- A step of the loop as it happened. -/
abbrev LoopEvent : Type := Event TradingLoop LoopAct LoopReply

/-! ## A market tick leaves the switch alone, but for the heartbeat -/

section Processed

variable (rt : Runtime) {d : TradingDaemon}

theorem applyApprovedProposal_keeps (d : TradingDaemon) (proposal : Dict) (notional : Json) :
    ∃ portfolio, (d.applyApprovedProposal proposal notional).2 = { d with portfolio } := by
  unfold TradingDaemon.applyApprovedProposal
  dsimp only
  split
  · exact ⟨d.portfolio, rfl⟩
  · exact ⟨_, rfl⟩

theorem applyExecution_keeps (d : TradingDaemon) (receipt : ExecutionReceipt)
    (intent : UniversalOrderIntent) (notional : Json) :
    ∃ portfolio, (d.applyExecution receipt intent notional).2 = { d with portfolio } := by
  unfold TradingDaemon.applyExecution
  split
  · exact ⟨_, rfl⟩
  · exact applyApprovedProposal_keeps d _ _
  · exact ⟨d.portfolio, rfl⟩

theorem execute_keeps (d : TradingDaemon) (adapter : ExchangeAdapter)
    (intent : UniversalOrderIntent) (notional : Json) :
    ∃ portfolio orders, (d.execute adapter intent notional).2 = { d with portfolio, orders } := by
  unfold TradingDaemon.execute
  dsimp only
  split
  · exact ⟨d.portfolio, _, rfl⟩
  · obtain ⟨portfolio, after⟩ := applyExecution_keeps { d with orders := d.orders ++ [intent] }
      ‹_› intent notional
    exact ⟨portfolio, _, after⟩

theorem handleApproved_keeps (verdict : Json) (proposal : Dict) :
    ∃ portfolio orders, (d.handleApproved rt verdict proposal).2 =
      { d with portfolio, orders } := by
  unfold TradingDaemon.handleApproved
  split
  · exact ⟨d.portfolio, d.orders, rfl⟩
  · split
    · obtain ⟨portfolio, after⟩ := applyApprovedProposal_keeps d proposal ‹_›
      exact ⟨portfolio, d.orders, after⟩
    · dsimp only
      split
      · exact ⟨d.portfolio, d.orders, rfl⟩
      · exact ⟨d.portfolio, d.orders, rfl⟩
      · exact execute_keeps d _ _ _

/-- Without a governance key the switch refuses to stand down. -/
theorem handleVerdict_keeps (unset : d.dormant.governanceKey = none) (verdict : Json)
    (proposal : Dict) (clock : ℚ) :
    ∃ portfolio orders, (d.handleVerdict rt verdict proposal clock).2 =
      { d with portfolio, orders } := by
  unfold TradingDaemon.handleVerdict
  split
  · exact ⟨d.portfolio, d.orders, rfl⟩
  · exact handleApproved_keeps rt verdict proposal
  · split
    · exact ⟨d.portfolio, d.orders, rfl⟩
    · simp only [DeadManSwitchDaemon.disarm_without_key unset]
      exact ⟨d.portfolio, d.orders, rfl⟩
    · exact ⟨d.portfolio, d.orders, rfl⟩

theorem act_keeps (unset : d.dormant.governanceKey = none) (tick : Tick) :
    ∃ portfolio orders, (d.act rt tick).2 = { d with portfolio, orders } := by
  unfold TradingDaemon.act
  split
  · exact ⟨d.portfolio, d.orders, rfl⟩
  · exact ⟨d.portfolio, d.orders, rfl⟩
  · split
    · exact ⟨d.portfolio, d.orders, rfl⟩
    · exact handleVerdict_keeps rt unset _ _ _

/-- **A market tick that raises leaves the switch as it was; one that is completed is a
heartbeat.** -/
theorem processTick_keeps (unset : d.dormant.governanceKey = none) (tick : Tick) :
    ∃ portfolio orders,
      ((∃ e, (d.processTick rt tick) = (.error e, { d with portfolio, orders })) ∨
        ∃ journal, d.processTick rt tick = (.ok (), { d with
          portfolio, orders
          dormant := { d.dormant with lastBeat := some tick.clock, journal } })) := by
  obtain ⟨portfolio, orders, after⟩ := act_keeps rt unset tick
  refine ⟨portfolio, orders, ?_⟩
  unfold TradingDaemon.processTick
  cases acted : d.act rt tick with
  | mk result d' =>
      rw [acted] at after
      obtain rfl : d' = _ := after
      cases result with
      | error e => exact .inl ⟨e, rfl⟩
      | ok _ =>
          obtain ⟨beaten, accepted⟩ :=
            DeadManSwitchDaemon.beat_unsigned rfl d.dormant tick.clock false
          obtain ⟨journal, rfl⟩ := beat_ok accepted
          refine .inr ⟨journal, ?_⟩
          simp only [accepted]

end Processed

/-! ## One step of the loop -/

section Step

variable (rt : Runtime) {s : TradingLoop}

/-- What a step of the loop can do to the switch: nothing, a heartbeat, or a tick. -/
inductive LoopCase (s : TradingLoop) : LoopAct → LoopReply → TradingLoop → Prop where
  /-- The switch is left alone; if the loop ends, the switch is asked to stop. -/
  | rests (act : LoopAct) (portfolio : Portfolio) (orders : List UniversalOrderIntent)
      (running ended stopRequested : Bool)
      (stops : ended = s.ended ∧ stopRequested = s.stopRequested ∨
        ended = true ∧ stopRequested = true)
      (quiet : ∀ now submit formatFloat, act = .switch now submit formatFloat →
        s.thread = .exited) :
      LoopCase s act .idle { s with
        daemon := { s.daemon with portfolio, orders }, running, ended, stopRequested }
  | beats (tick : Tick) (goesOn : s.ended = false) (portfolio : Portfolio)
      (orders : List UniversalOrderIntent)
      (journal : Journal (defaultDoomsdayConfig s.daemon.heartbeatInterval).maxJournalEntries
        Doomsday.Transition) :
      LoopCase s (.tick tick) ⟨some tick.clock, []⟩ { s with daemon := { s.daemon with
        portfolio, orders, dormant := { s.dormant with lastBeat := some tick.clock, journal } } }
  | wakes (now : ℚ) (submit : Nat → Except String ConversionOrder) (formatFloat : ℚ → String)
      (asleep : s.thread = .asleep) :
      LoopCase s (.switch now submit formatFloat)
        ⟨none, (s.wake now ⟨fun _ => .ok (), submit, formatFloat⟩).1⟩
        (s.wake now ⟨fun _ => .ok (), submit, formatFloat⟩).2

theorem loop_cases (unset : s.dormant.governanceKey = none) (act : LoopAct) :
    LoopCase s act ((tradingLoop rt).step s act).1 ((tradingLoop rt).step s act).2 := by
  have rests : ∀ act, (∀ now submit formatFloat, act ≠ .switch now submit formatFloat) →
      LoopCase s act .idle s ∧ LoopCase s act .idle s.finish := fun act other =>
    ⟨.rests act s.daemon.portfolio s.daemon.orders s.running s.ended s.stopRequested
        (.inl ⟨rfl, rfl⟩) (fun now submit formatFloat same => absurd same (other _ _ _)),
      .rests act s.daemon.portfolio s.daemon.orders s.running true true (.inr ⟨rfl, rfl⟩)
        (fun now submit formatFloat same => absurd same (other _ _ _))⟩
  cases act with
  | tick tick =>
      obtain ⟨same, finished⟩ := rests (.tick tick) (by simp)
      simp only [tradingLoop]
      split
      · exact same
      · rename_i goesOn
        split
        · exact finished
        · obtain ⟨portfolio, orders, raised | beaten⟩ := processTick_keeps rt unset tick
          · obtain ⟨e, after⟩ := raised
            simp only [after]
            exact
              .rests (.tick tick) portfolio orders s.running true true (.inr ⟨rfl, rfl⟩) (by simp)
          · obtain ⟨journal, after⟩ := beaten
            simp only [after]
            exact .beats tick (by simpa using goesOn) portfolio orders journal
  | exhausted =>
      obtain ⟨same, finished⟩ := rests .exhausted (by simp)
      simp only [tradingLoop]
      split
      · exact same
      · exact finished
  | breaksOff =>
      obtain ⟨same, finished⟩ := rests .breaksOff (by simp)
      simp only [tradingLoop]
      split
      · exact same
      · exact finished
  | stop =>
      exact .rests .stop s.daemon.portfolio s.daemon.orders false s.ended s.stopRequested
        (.inl ⟨rfl, rfl⟩) (by simp)
  | switch now submit formatFloat =>
      simp only [tradingLoop]
      cases thread : s.thread with
      | exited =>
          exact .rests _ s.daemon.portfolio s.daemon.orders s.running s.ended s.stopRequested
            (.inl ⟨rfl, rfl⟩) fun _ _ _ _ => thread
      | asleep => exact .wakes now submit formatFloat thread

theorem switch_step (asleep : s.thread = .asleep) (now : ℚ)
    (submit : Nat → Except String ConversionOrder) (formatFloat : ℚ → String) :
    (tradingLoop rt).step s (.switch now submit formatFloat) =
      (⟨none, (s.wake now ⟨fun _ => .ok (), submit, formatFloat⟩).1⟩,
        (s.wake now ⟨fun _ => .ok (), submit, formatFloat⟩).2) := by
  simp only [tradingLoop, asleep]

end Step

/-! ## Whole runs -/

/-- The clocks at which market ticks were completed. -/
def completedAt (past : List LoopEvent) : List ℚ := past.filterMap fun e => e.reply.completed

/-- The switch ticks, with the loop over. -/
def LoopEvent.isLate (e : LoopEvent) : Bool :=
  match e.input with
  | .switch _ _ _ => e.before.ended && e.before.thread = .asleep
  | _ => false

/-- What holds of the loop after some steps. -/
structure OnWatch (interval : HeartbeatInterval) (past : List LoopEvent) (s : TradingLoop) :
    Prop where
  interval : s.daemon.heartbeatInterval = interval
  unset : s.dormant.governanceKey = none
  lastBeat : s.dormant.lastBeat = (completedAt past).getLast?
  stopped : s.ended = true → s.stopRequested = true
  once : past.countP LoopEvent.isLate ≤ if s.thread = .asleep then 0 else 1

section Run

variable {interval : HeartbeatInterval} {past : List LoopEvent} {s : TradingLoop}

theorem completedAt_concat (past : List LoopEvent) (e : LoopEvent) :
    completedAt (past ++ [e]) = completedAt past ++ e.reply.completed.toList := by
  simp only [completedAt, List.filterMap_append, List.filterMap_cons, List.filterMap_nil]
  cases e.reply.completed <;> rfl

theorem countLate_concat (past : List LoopEvent) (e : LoopEvent) :
    (past ++ [e]).countP LoopEvent.isLate =
      past.countP LoopEvent.isLate + if e.isLate then 1 else 0 := by
  rw [List.countP_append, List.countP_singleton]

theorem onWatch_step (rt : Runtime) (act : LoopAct) (watch : OnWatch interval past s) :
    OnWatch interval (past ++ [(tradingLoop rt).event s act]) ((tradingLoop rt).step s act).2 := by
  have case := loop_cases rt watch.unset act
  rw [Machine.event]
  generalize ((tradingLoop rt).step s act).1 = reply at case ⊢
  generalize ((tradingLoop rt).step s act).2 = s' at case ⊢
  have once := watch.once
  cases case with
  | rests _ portfolio orders running ended stopRequested stops quiet =>
      refine ⟨watch.interval, watch.unset, ?_, ?_, ?_⟩
      · rw [completedAt_concat]
        exact watch.lastBeat.trans (by rw [LoopReply.idle, Option.toList_none, List.append_nil])
      · rintro hasEnded
        rcases stops with ⟨rfl, rfl⟩ | ⟨_, stops⟩
        · exact watch.stopped hasEnded
        · exact stops
      · rw [countLate_concat, if_neg, Nat.add_zero]
        · exact once
        · cases act <;> simp [LoopEvent.isLate]
          exact fun _ => by rw [quiet _ _ _ rfl]; decide
  | beats tick goesOn portfolio orders journal =>
      refine ⟨watch.interval, watch.unset, ?_, watch.stopped, ?_⟩
      · rw [completedAt_concat]
        simp
      · rw [countLate_concat, if_neg (by simp [LoopEvent.isLate]), Nat.add_zero]
        exact once
  | wakes now submit formatFloat asleep =>
      have case := s.dormant.tick_cases now ⟨fun _ => .ok (), submit, formatFloat⟩
      refine ⟨watch.interval, (tick_governanceKey case).trans watch.unset, ?_, watch.stopped, ?_⟩
      · rw [completedAt_concat]
        exact (tick_lastBeat case).trans
          (by rw [watch.lastBeat, Option.toList_none, List.append_nil])
      · rw [countLate_concat, LoopEvent.isLate]
        rw [if_pos asleep] at once
        cases hasEnded : s.ended with
        | false =>
            simp only [Bool.false_and, Bool.false_eq_true, if_false]
            omega
        | true =>
            have gone : (s.wake now ⟨fun _ => .ok (), submit, formatFloat⟩).2.thread ≠ .asleep := by
              simp only [wake, watch.stopped hasEnded, if_true]
              split <;> decide
            rw [if_neg gone]
            simp only [asleep, decide_true, Bool.and_self, if_true]
            omega

theorem onWatch_start {d : TradingDaemon}
    (new : d.dormant = .new (defaultDoomsdayConfig d.heartbeatInterval) none) :
    OnWatch d.heartbeatInterval [] (start d) :=
  ⟨rfl, by rw [start, TradingLoop.dormant, new]; rfl, by rw [start, TradingLoop.dormant, new]; rfl,
    fun hasEnded => (nomatch hasEnded), Nat.le_refl 0⟩

/-- Every step of a run is a step from a loop that is on watch. -/
theorem onWatch_split (rt : Runtime) {d : TradingDaemon}
    (new : d.dormant = .new (defaultDoomsdayConfig d.heartbeatInterval) none) {acts : List LoopAct}
    {past later : List LoopEvent} {e : LoopEvent}
    (split : (tradingLoop rt).trace (start d) acts = past ++ e :: later) :
    OnWatch d.heartbeatInterval past e.before ∧ LoopCase e.before e.input e.reply e.after := by
  obtain ⟨watch, step⟩ := (tradingLoop rt).history_split
    (fun past s act watch => onWatch_step rt act watch) (onWatch_start new) split
  have case := loop_cases rt watch.unset e.input
  refine ⟨watch, ?_⟩
  rw [step]
  exact case

/-- **Only inside a market tick is a step attempted**: one with number `j` when the last
market tick was completed at least the grace period and `j` escalation periods ago, of
three and of six heartbeats, as exact numbers.  Once the loop has ended, whatever ended it,
the switch ticks at most once more. -/
theorem attempts_inside_tick (rt : Runtime) (d : TradingDaemon)
    (new : d.dormant = .new (defaultDoomsdayConfig d.heartbeatInterval) none)
    (acts : List LoopAct) :
    (∀ past e later, (tradingLoop rt).trace (start d) acts = past ++ e :: later →
      ∀ a ∈ e.reply.attempts, ∃ now submit formatFloat completed,
        e.input = .switch now submit formatFloat ∧
        (completedAt past).getLast? = some completed ∧
        d.heartbeatInterval.val * fin 3 + fin (a.number : ℚ) * (d.heartbeatInterval.val * fin 6) ≤
          fin (now - completed)) ∧
      ((tradingLoop rt).trace (start d) acts).countP LoopEvent.isLate ≤ 1 := by
  constructor
  · intro past e later split a member
    obtain ⟨watch, case⟩ := onWatch_split rt new split
    generalize e.input = input, e.reply = reply, e.after = after at *
    cases case with
    | rests => cases member
    | beats => cases member
    | wakes now submit formatFloat asleep =>
        have due :=
          tick_due (e.before.dormant.tick_cases now ⟨fun _ => .ok (), submit, formatFloat⟩)
          a member
        cases beaten : (completedAt past).getLast? with
        | none =>
            have never : e.before.dormant.elapsed now = fin 0 := by
              rw [DeadManSwitchDaemon.elapsed, watch.lastBeat, beaten]
              simp
            rw [never] at due
            exact absurd due (DeadManConfig.not_dueAfter_zero _ (le_refl 0) a.number)
        | some completed =>
            refine ⟨now, submit, formatFloat, completed, rfl, rfl, ?_⟩
            rw [DeadManSwitchDaemon.elapsed, watch.lastBeat, beaten] at due
            rw [← watch.interval]
            exact due
  · have watch := (tradingLoop rt).history_invariant
      (fun past s act watch => onWatch_step rt act watch) (onWatch_start new) acts
    exact watch.once.trans (by split <;> decide)

end Run

/-! ## A loop that is prompt enough -/

/-- The step of the plan that a prompt loop may come to. -/
def notifyStep : EscalationStep := { plainStep .notify with channels := ["ops-slack"] }

section Early

variable {interval : HeartbeatInterval}
  {d d' : DeadManSwitchDaemon (defaultDoomsdayConfig interval)}

/-- A switch that has come to the first step of its plan at most. -/
structure Early (d : DeadManSwitchDaemon (defaultDoomsdayConfig interval)) : Prop where
  grounded : Grounded d
  below : d.stepIndex ≤ 1
  alive : d.state ≠ .liquidating ∧ d.state ≠ .dormant

theorem early_new (governanceKey : Option String) :
    Early (.new (defaultDoomsdayConfig interval) governanceKey) :=
  ⟨⟨fun _ => rfl, Nat.zero_le _⟩, Nat.zero_le 1, by simp [DeadManSwitchDaemon.new]⟩

/-- The step with number one. -/
theorem first_of_plan {step : EscalationStep}
    (member : (step, 1) ∈ (defaultDoomsdayConfig interval).numbered) : step = notifyStep := by
  have first := (DeadManConfig.mem_steps_iff _).mpr ⟨member, Nat.zero_lt_one, Nat.le_refl 1⟩
  rw [DeadManConfig.steps_singleton _ (by simp [defaultDoomsdayConfig])] at first
  exact congrArg Prod.fst (List.mem_singleton.mp first)

/-- **While its second step is not due, the switch stays early**: it attempts the first at
most. -/
theorem tick_early (early : Early d) {now : ℚ} {outside : Outside} {attempts : List Attempt}
    (hookless : ∀ number, outside.hook number = .ok ())
    (young : ¬ (defaultDoomsdayConfig interval).DueAfter (d.elapsed now) 2)
    (case : d.TickCase now outside attempts d') :
    Early d' ∧ ∀ a ∈ attempts, a.number = 1 ∧ a.step = notifyStep := by
  have grounded := (tick_advance rfl early.grounded case).grounded
  cases case with
  | off disabled => exact absurd disabled (DeadManConfig.not_disabled rfl)
  | keeps idle => exact ⟨early, by simp⟩
  | watches state late =>
      exact ⟨⟨grounded, early.below, by simp [DeadManSwitchDaemon.moved]⟩, by simp⟩
  | resumes state fresh =>
      exact ⟨⟨grounded, Nat.zero_le 1, by simp [DeadManSwitchDaemon.moved]⟩, by simp⟩
  | escalates state late =>
      exact ⟨⟨grounded, early.below, by simp [DeadManSwitchDaemon.moved]⟩, by simp⟩
  | aborts state fresh below =>
      exact ⟨⟨grounded, Nat.zero_le 1, by simp [DeadManSwitchDaemon.moved]⟩, by simp⟩
  | executes state hi k bound due steps ran =>
      have small : hi ≤ 1 := by
        by_contra more
        exact young (DeadManConfig.DueAfter.mono due (by omega) (le_refl _))
      have first : k = 1 := by
        have := ran.some_
        have := ran.due
        omega
      refine ⟨⟨grounded, ?_, ?_⟩, fun a member => ?_⟩
      · rw [ran.stepIndex, first]
      · rcases ran.ending with ⟨_, _, state, _⟩ | ⟨last, _, _⟩ | ⟨step, member, raised, _, _⟩
        · rw [state]
          decide
        · rw [first] at last
          simp [defaultDoomsdayConfig] at last
        · rw [first] at member raised
          obtain rfl := first_of_plan member
          exact absurd (by simp [Outside.raises, notifyStep, plainStep, hookless]) raised
      · rw [ran.attempts, first] at member
        obtain ⟨step, inside, rfl⟩ := List.mem_map.mp member
        obtain ⟨numbered, _, upTo⟩ := (DeadManConfig.mem_steps_iff _).mp inside
        have positive := (DeadManConfig.number_of_mem _ numbered).1
        have one : step.2 = 1 := by omega
        obtain ⟨step, number⟩ := step
        obtain rfl : number = 1 := one
        exact ⟨rfl, first_of_plan numbered⟩
  | waits state unsettled young => exact absurd state early.alive.1
  | ends state finished detail => exact absurd state early.alive.1

/-- Within the grace period of a heartbeat, an early switch is armed by its next tick. -/
theorem tick_early_fresh (early : Early d) {now : ℚ} (outside : Outside)
    (fresh : d.elapsed now ≤ (defaultDoomsdayConfig interval).gracePeriod) :
    (d.tick now outside).daemon.state = .armed ∧ (d.tick now outside).daemon.stepIndex = 0 := by
  have enabled : (defaultDoomsdayConfig interval).escalationEnabled = true := rfl
  cases state : d.state with
  | armed =>
      have late : ¬ d.elapsed now > (defaultDoomsdayConfig interval).gracePeriod :=
        fun late => ExtNum.not_le_of_lt late fresh
      rw [DeadManSwitchDaemon.tick_armed enabled now outside state, if_neg late]
      exact ⟨state, early.grounded.rest (.inl state)⟩
  | watching =>
      rw [DeadManSwitchDaemon.tick_watching enabled now outside state, if_pos fresh,
        DeadManSwitchDaemon.move_eq now _ (by rw [state]; decide)]
      exact ⟨rfl, rfl⟩
  | escalating =>
      rw [tick_aborts enabled state fresh (Nat.lt_succ_of_le early.below) outside]
      exact ⟨rfl, rfl⟩
  | liquidating => exact absurd state early.alive.1
  | dormant => exact absurd state early.alive.2

end Early

section Prompt

variable {interval : HeartbeatInterval} {past : List LoopEvent} {s : TradingLoop}

/-- When the switch ticks, its second step is not due. -/
def InTime (interval : HeartbeatInterval) (past : List LoopEvent) (e : LoopEvent) : Prop :=
  ∀ now submit formatFloat completed, e.input = .switch now submit formatFloat →
    (completedAt past).getLast? = some completed →
      ¬ interval.val * fin 3 + fin 2 * (interval.val * fin 6) ≤ fin (now - completed)

/-- Every tick of the switch in a run is in time. -/
def PromptRun (interval : HeartbeatInterval) (events : List LoopEvent) : Prop :=
  ∀ past e later, events = past ++ e :: later → InTime interval past e

theorem PromptRun.of_append {events more : List LoopEvent}
    (prompt : PromptRun interval (events ++ more)) : PromptRun interval events := by
  rintro past e later rfl
  exact prompt past e (later ++ more) (by rw [List.append_assoc, List.cons_append])

/-- The time since the last market tick, as the switch reads it. -/
theorem OnWatch.elapsed (watch : OnWatch interval past s) {completed : ℚ}
    (last : (completedAt past).getLast? = some completed) (now : ℚ) :
    s.dormant.elapsed now = fin (now - completed) := by
  rw [DeadManSwitchDaemon.elapsed, watch.lastBeat, last]
  rfl

/-- In time, the second step is not due. -/
theorem InTime.young {e : LoopEvent} (inTime : InTime interval past e)
    (watch : OnWatch interval past e.before) {now : ℚ} {submit : Nat → Except String ConversionOrder}
    {formatFloat : ℚ → String} (input : e.input = .switch now submit formatFloat) :
    ¬ (defaultDoomsdayConfig e.before.daemon.heartbeatInterval).DueAfter
      (e.before.dormant.elapsed now) 2 := by
  cases last : (completedAt past).getLast? with
  | none =>
      have never : e.before.dormant.elapsed now = fin 0 := by
        rw [DeadManSwitchDaemon.elapsed, watch.lastBeat, last]
        simp
      rw [never]
      exact DeadManConfig.not_dueAfter_zero _ (le_refl 0) 2
  | some completed =>
      rw [watch.elapsed last, watch.interval]
      exact inTime now submit formatFloat completed input last

/-- What a step of a prompt loop does to the switch. -/
theorem early_step {e : LoopEvent} (watch : OnWatch interval past e.before)
    (inTime : InTime interval past e) (case : LoopCase e.before e.input e.reply e.after)
    (early : Early e.before.dormant) :
    Early e.after.dormant ∧ ∀ a ∈ e.reply.attempts, a.number = 1 ∧ a.step = notifyStep := by
  obtain ⟨before, input, reply, after⟩ := e
  dsimp only at case watch early ⊢
  cases case with
  | rests =>
      obtain ⟨grounded, below, alive⟩ := early
      exact ⟨⟨⟨grounded.rest, grounded.bound⟩, below, alive⟩, by simp [LoopReply.idle]⟩
  | beats =>
      obtain ⟨grounded, below, alive⟩ := early
      exact ⟨⟨⟨grounded.rest, grounded.bound⟩, below, alive⟩, by simp⟩
  | wakes now submit formatFloat asleep =>
      exact tick_early early (fun _ => rfl) (inTime.young watch rfl)
        (before.dormant.tick_cases now ⟨fun _ => .ok (), submit, formatFloat⟩)

/-- Of a run of a prompt loop: it is on watch, and its switch is early. -/
theorem early_run (rt : Runtime) {d : TradingDaemon}
    (new : d.dormant = .new (defaultDoomsdayConfig d.heartbeatInterval) none) {acts : List LoopAct}
    (prompt : PromptRun d.heartbeatInterval ((tradingLoop rt).trace (start d) acts)) :
    Early ((tradingLoop rt).run (start d) acts).dormant := by
  have holds := (tradingLoop rt).history_invariant
    (P := fun past s => OnWatch d.heartbeatInterval past s ∧
      (PromptRun d.heartbeatInterval past → Early s.dormant))
    (fun past s act ⟨watch, early⟩ => ⟨onWatch_step rt act watch, fun prompt =>
      (early_step (e := (tradingLoop rt).event s act) watch (prompt past _ [] rfl)
        (loop_cases rt watch.unset act) (early prompt.of_append)).1⟩)
    ⟨onWatch_start new, fun _ => by rw [start, TradingLoop.dormant, new]; exact early_new none⟩ acts
  exact holds.2 prompt

/-- **A prompt loop is armed again**: if the second step of the plan is never due when the
switch ticks, the switch does not liquidate, attempts its first step at most, and is armed
by each tick within the grace period of a market tick. -/
theorem prompt_loop_rearms (rt : Runtime) (d : TradingDaemon)
    (new : d.dormant = .new (defaultDoomsdayConfig d.heartbeatInterval) none)
    (acts : List LoopAct)
    (prompt : PromptRun d.heartbeatInterval ((tradingLoop rt).trace (start d) acts))
    (past later : List LoopEvent) (e : LoopEvent)
    (split : (tradingLoop rt).trace (start d) acts = past ++ e :: later) :
    (e.after.dormant.state ≠ .liquidating ∧ e.after.dormant.state ≠ .dormant) ∧
      (∀ a ∈ e.reply.attempts, a.number = 1 ∧ a.step = notifyStep) ∧
      ∀ now submit formatFloat completed, e.input = .switch now submit formatFloat →
        e.before.thread = .asleep → (completedAt past).getLast? = some completed →
          fin (now - completed) ≤ d.heartbeatInterval.val * fin 3 →
            e.after.dormant.state = .armed ∧ e.after.dormant.stepIndex = 0 := by
  obtain ⟨watch, case⟩ := onWatch_split rt new split
  obtain ⟨first, rest, rfl, before, after⟩ := (tradingLoop rt).trace_eq_append split
  obtain ⟨step, _⟩ := (tradingLoop rt).trace_eq_cons after
  have same : e.before = (tradingLoop rt).run (start d) first := by
    rw [step]
    rfl
  have inTime := prompt past e later split
  rw [split] at prompt
  have early : Early e.before.dormant := by
    rw [same]
    exact early_run rt new (by rw [before]; exact prompt.of_append)
  obtain ⟨earlyAfter, attempts⟩ := early_step watch inTime case early
  refine ⟨earlyAfter.alive, attempts, fun now submit formatFloat completed input asleep last fresh =>
    ?_⟩
  have woken : e.after = (e.before.wake now ⟨fun _ => .ok (), submit, formatFloat⟩).2 := by
    have stepped : e.after = ((tradingLoop rt).step ((tradingLoop rt).run (start d) first)
      e.input).2 := congrArg Event.after step
    rw [stepped, input, ← same, switch_step rt asleep]
  rw [woken]
  refine tick_early_fresh early _ ?_
  rw [watch.elapsed last, watch.interval]
  exact fresh

end Prompt

/-! ## A healthy loop that is slow -/

section Window

variable {interval : HeartbeatInterval}
  {d : DeadManSwitchDaemon (defaultDoomsdayConfig interval)}

theorem periods_eq {h : ℚ} (value : interval.val = fin h) :
    (defaultDoomsdayConfig interval).gracePeriod = fin (h * 3) ∧
      (defaultDoomsdayConfig interval).escalationPeriod = fin (h * 6) := by
  constructor
  · show interval.val * fin ((3 : ℕ) : ℚ) = _
    rw [value, ExtNum.fin_mul_fin]
    norm_num
  · show interval.val * fin ((6 : ℕ) : ℚ) = _
    rw [value, ExtNum.fin_mul_fin]
    norm_num

theorem runPlan_notify {outside : Outside} (hookless : ∀ number, outside.hook number = .ok ())
    (now : ℚ) :
    ∃ journal, d.runPlan now outside [(notifyStep, 1)] =
      ([⟨notifyStep, 1, none, none⟩], { d with stepIndex := 1, journal }) := by
  simp [DeadManSwitchDaemon.runPlan, DeadManSwitchDaemon.executeStep, notifyStep, plainStep, hookless,
    DeadManSwitchDaemon.closeStep, DeadManSwitchDaemon.note, defaultDoomsdayConfig]

/-- The grace period and an escalation period are over, but not a second one. -/
def InWindow (interval : HeartbeatInterval) (x : ℚ) : Prop :=
  interval.val * fin 3 + interval.val * fin 6 < fin x ∧
    ¬ interval.val * fin 3 + fin 2 * (interval.val * fin 6) ≤ fin x

/-- The interval of a window is finite. -/
theorem InWindow.finite {x : ℚ} (window : InWindow interval x) :
    ∃ h : ℚ, 0 < h ∧ interval.val = fin h ∧ 9 * h < x ∧ x < 15 * h := by
  obtain ⟨late, young⟩ := window
  obtain ⟨h, positive⟩ := interval
  cases h with
  | nan => exact absurd positive (ExtNum.not_lt_nan _)
  | negInf => exact positive.elim
  | posInf =>
      have scaled : ∀ q : ℚ, 0 < q → (ExtNum.posInf * fin q : ExtNum ℚ) = ExtNum.posInf :=
        fun q positive => if_pos positive
      rw [scaled 3 (by norm_num), scaled 6 (by norm_num)] at late
      exact absurd late (ExtNum.not_posInf_lt _)
  | fin h =>
      simp only [ExtNum.fin_mul_fin, ExtNum.fin_add_fin, ExtNum.fin_lt_fin, ExtNum.fin_le_fin]
        at late young positive
      exact ⟨h, positive, rfl, by linarith, by linarith⟩

/-- A tick past the grace period and an escalation period. -/
theorem tick_late {now : ℚ} (outside : Outside)
    (lost : d.elapsed now > (defaultDoomsdayConfig interval).gracePeriod)
    (long : d.elapsed now > (defaultDoomsdayConfig interval).gracePeriod +
      (defaultDoomsdayConfig interval).escalationPeriod) :
    (d.state = .armed → d.tick now outside =
      .returned [] (d.move now .watching "heartbeat lost").2) ∧
    (d.state = .watching → d.tick now outside =
      .returned [] (d.move now .escalating "plan armed").2) ∧
    (d.state = .escalating → d.tick now outside = d.tickPlan now outside) := by
  have enabled : (defaultDoomsdayConfig interval).escalationEnabled = true := rfl
  have stale := ExtNum.not_le_of_lt lost
  rw [DeadManSwitchDaemon.tick, if_neg (DeadManConfig.not_disabled enabled)]
  refine ⟨fun state => ?_, fun state => ?_, fun state => ?_⟩
  · simp only [state, if_pos lost]
  · simp only [state, stale, if_pos long, if_false]
  · simp only [state, stale, false_and, if_false]

/-- A tick in the window: from armed over watching to escalating, then the first step. -/
theorem tick_window {now x : ℚ} (outside : Outside)
    (hookless : ∀ number, outside.hook number = .ok ()) (elapsed : d.elapsed now = fin x)
    (window : InWindow interval x) :
    (d.state = .armed → (d.tick now outside).attempts = [] ∧
      (d.tick now outside).daemon = d.moved now .watching "heartbeat lost") ∧
    (d.state = .watching → (d.tick now outside).attempts = [] ∧
      (d.tick now outside).daemon = d.moved now .escalating "plan armed") ∧
    (d.state = .escalating → d.stepIndex = 0 →
      (d.tick now outside).attempts = [⟨notifyStep, 1, none, none⟩] ∧
        ∃ journal, (d.tick now outside).daemon = { d with stepIndex := 1, journal }) ∧
    (d.state = .escalating → d.stepIndex = 1 → (d.tick now outside).attempts = [] ∧
      (d.tick now outside).daemon = d) := by
  obtain ⟨h, positive, value, late, young⟩ := window.finite
  obtain ⟨grace, period⟩ := periods_eq value
  have lost : d.elapsed now > (defaultDoomsdayConfig interval).gracePeriod := by
    rw [elapsed, grace, gt_iff_lt, ExtNum.fin_lt_fin]
    linarith
  have long : d.elapsed now > (defaultDoomsdayConfig interval).gracePeriod +
      (defaultDoomsdayConfig interval).escalationPeriod := by
    rw [elapsed, grace, period, ExtNum.fin_add_fin, gt_iff_lt, ExtNum.fin_lt_fin]
    linarith
  -- the quotient is the number of the last step that is due
  have quotient : intFloorDiv (d.elapsed now - (defaultDoomsdayConfig interval).gracePeriod)
      (defaultDoomsdayConfig interval).escalationPeriod = .ok 1 := by
    have nonzero : fin (h * 6) ≠ (fin 0 : ExtNum ℚ) := fun zero => by
      have := ExtNum.fin.inj zero
      linarith
    rw [elapsed, grace, period, ExtNum.fin_sub_fin, intFloorDiv, if_neg nonzero]
    refine congrArg Except.ok (Int.floor_eq_iff.mpr ⟨?_, ?_⟩)
    · rw [le_div_iff₀ (by linarith)]
      push_cast
      linarith
    · rw [div_lt_iff₀ (by linarith)]
      push_cast
      linarith
  obtain ⟨armed, watching, escalating⟩ := tick_late (d := d) outside lost long
  refine ⟨fun state => ?_, fun state => ?_, fun state first => ?_, fun state first => ?_⟩
  · have allowed : EscalationState.watching ∈ transitions d.state := by
      rw [state]
      decide
    rw [armed state, DeadManSwitchDaemon.move_eq now _ allowed]
    exact ⟨rfl, rfl⟩
  · have allowed : EscalationState.escalating ∈ transitions d.state := by
      rw [state]
      decide
    rw [watching state, DeadManSwitchDaemon.move_eq now _ allowed]
    exact ⟨rfl, rfl⟩
  · obtain ⟨journal, ran⟩ := runPlan_notify (d := d) hookless now
    have due : (defaultDoomsdayConfig interval).steps 0 1 = [(notifyStep, 1)] :=
      DeadManConfig.steps_singleton _ (by simp [defaultDoomsdayConfig])
    rw [escalating state]
    simp only [DeadManSwitchDaemon.tickPlan, quotient, first]
    rw [if_neg (by decide), show min (1 : ℤ).toNat (defaultDoomsdayConfig interval).plan.length = 1
      from rfl, due, ran]
    exact ⟨rfl, journal, by rw [state, Ticked.returned]⟩
  · rw [escalating state]
    simp only [DeadManSwitchDaemon.tickPlan, quotient, first]
    rw [if_pos (by decide)]
    exact ⟨rfl, rfl⟩

/-- A tick raises only where a period is no finite number. -/
theorem tick_returns {h : ℚ} (positive : 0 < h) (value : interval.val = fin h) (now : ℚ)
    (outside : Outside) : ∃ state, (d.tick now outside).result = .ok state := by
  obtain ⟨grace, period⟩ := periods_eq value
  have nonzero : fin (h * 6) ≠ (fin 0 : ExtNum ℚ) := fun zero => by
    have := ExtNum.fin.inj zero
    linarith
  have plan : ∃ state, (d.tickPlan now outside).result = .ok state := by
    unfold DeadManSwitchDaemon.tickPlan
    rw [DeadManSwitchDaemon.elapsed, grace, period, ExtNum.fin_sub_fin, intFloorDiv,
      if_neg nonzero]
    dsimp only
    split <;> exact ⟨_, rfl⟩
  unfold DeadManSwitchDaemon.tick
  split
  · exact ⟨_, rfl⟩
  · split
    · exact ⟨_, rfl⟩
    · split <;> exact ⟨_, rfl⟩
    · split
      · exact ⟨_, rfl⟩
      · exact plan
    · exact ⟨_, rfl⟩
    · exact ⟨_, rfl⟩

/-- Up to the end of the first escalation period, a switch that is not escalating does
not begin to. -/
theorem tick_early_still {now x : ℚ} (outside : Outside) (elapsed : d.elapsed now = fin x)
    (soon : fin x ≤ interval.val * fin 3 + interval.val * fin 6) (grounded : Grounded d)
    (resting : d.state = .armed ∨ d.state = .watching) :
    (d.tick now outside).attempts = [] ∧ Grounded (d.tick now outside).daemon ∧
      ((d.tick now outside).daemon.state = .armed ∨
        (d.tick now outside).daemon.state = .watching) := by
  have enabled : (defaultDoomsdayConfig interval).escalationEnabled = true := rfl
  have advance := tick_advance enabled grounded (d.tick_cases now outside)
  have young : ¬ d.elapsed now > (defaultDoomsdayConfig interval).gracePeriod +
      (defaultDoomsdayConfig interval).escalationPeriod := by
    rw [elapsed]
    exact fun late => ExtNum.not_le_of_lt late soon
  refine ⟨advance.quiet (by rcases resting with state | state <;> rw [state] <;> decide),
    advance.grounded, ?_⟩
  rcases resting with state | state
  · rw [DeadManSwitchDaemon.tick_armed enabled now outside state]
    split
    · rw [DeadManSwitchDaemon.move_eq now _ (by rw [state]; decide)]
      exact .inr rfl
    · exact .inl state
  · rw [DeadManSwitchDaemon.tick_watching enabled now outside state, if_neg young]
    split
    · rw [DeadManSwitchDaemon.move_eq now _ (by rw [state]; decide)]
      exact .inl rfl
    · exact .inr state

end Window

section Slow

variable (rt : Runtime) {interval : HeartbeatInterval} {s : TradingLoop} {beat : ℚ}

/-- Ticks of the switch, each so long after the heartbeat. -/
def Wakings (beat : ℚ) (P : ℚ → Prop) (acts : List LoopAct) : Prop :=
  ∀ act ∈ acts, ∃ now submit formatFloat, act = .switch now submit formatFloat ∧ P (now - beat)

/-- The steps attempted in some part of a run. -/
def attemptsOf (events : List LoopEvent) : List Attempt := events.flatMap fun e => e.reply.attempts

/-- A loop whose switch ticks on, with the time of its last heartbeat. -/
structure Alive (interval : HeartbeatInterval) (beat : ℚ) (s : TradingLoop) : Prop where
  interval : s.daemon.heartbeatInterval = interval
  asleep : s.thread = .asleep
  wanted : s.stopRequested = false
  lastBeat : s.dormant.lastBeat = some beat

theorem Alive.elapsed (alive : Alive interval beat s) (now : ℚ) :
    s.dormant.elapsed now = fin (now - beat) := by
  rw [DeadManSwitchDaemon.elapsed, alive.lastBeat]
  rfl

/-- The loop stays alive over a tick of the switch. -/
theorem Alive.wake (alive : Alive interval beat s) {h : ℚ} (positive : 0 < h)
    (value : interval.val = fin h) (now : ℚ) (outside : Outside) :
    Alive interval beat (s.wake now outside).2 := by
  obtain ⟨rfl, asleep, wanted, lastBeat⟩ := alive
  obtain ⟨state, returned⟩ := tick_returns (d := s.dormant) positive value now outside
  refine ⟨rfl, ?_, wanted, (tick_lastBeat (s.dormant.tick_cases now outside)).trans lastBeat⟩
  simp only [TradingLoop.wake, returned, wanted, Bool.false_eq_true, if_false]

theorem attemptsOf_switch (asleep : s.thread = .asleep) (now : ℚ)
    (submit : Nat → Except String ConversionOrder) (formatFloat : ℚ → String)
    (acts : List LoopAct) :
    attemptsOf ((tradingLoop rt).trace s (.switch now submit formatFloat :: acts)) =
      (s.dormant.tick now ⟨fun _ => .ok (), submit, formatFloat⟩).attempts ++
        attemptsOf ((tradingLoop rt).trace
          (s.wake now ⟨fun _ => .ok (), submit, formatFloat⟩).2 acts) := by
  rw [Machine.trace, Machine.event, switch_step rt asleep]
  rfl

theorem run_switch (asleep : s.thread = .asleep) (now : ℚ)
    (submit : Nat → Except String ConversionOrder) (formatFloat : ℚ → String)
    (acts : List LoopAct) :
    (tradingLoop rt).run s (.switch now submit formatFloat :: acts) =
      (tradingLoop rt).run (s.wake now ⟨fun _ => .ok (), submit, formatFloat⟩).2 acts := by
  rw [Machine.run, switch_step rt asleep]

variable {h : ℚ} (positive : 0 < h) (value : interval.val = fin h)
include positive value

/-- A switch that has attempted its first step waits for the next heartbeat. -/
theorem window_done {acts : List LoopAct} (inside : Wakings beat (InWindow interval) acts) :
    ∀ s, Alive interval beat s → s.dormant.state = .escalating → s.dormant.stepIndex = 1 →
      attemptsOf ((tradingLoop rt).trace s acts) = [] := by
  induction acts with
  | nil => exact fun _ _ _ _ => rfl
  | cons act acts ih =>
      intro s alive escalating first
      obtain ⟨⟨now, submit, formatFloat, rfl, window⟩, rest⟩ := List.forall_mem_cons.mp inside
      have after := alive.wake positive value now ⟨fun _ => .ok (), submit, formatFloat⟩
      have window' : InWindow s.daemon.heartbeatInterval (now - beat) := alive.interval ▸ window
      obtain ⟨_, _, _, done⟩ := tick_window ⟨fun _ => .ok (), submit, formatFloat⟩ (fun _ => rfl)
        (alive.elapsed now) window'
      obtain ⟨none_, same⟩ := done escalating first
      rw [attemptsOf_switch rt alive.asleep, none_, List.nil_append]
      refine ih rest _ after ?_ ?_
      · exact (congrArg DeadManSwitchDaemon.state same).trans escalating
      · exact (congrArg DeadManSwitchDaemon.stepIndex same).trans first

/-- **In the window the switch attempts its first step, once**: at the third tick at the
latest. -/
theorem window_attempts {acts : List LoopAct} (inside : Wakings beat (InWindow interval) acts) :
    ∀ s, Alive interval beat s → s.dormant.stepIndex = 0 →
      (s.dormant.state = .armed ∧ 3 ≤ acts.length ∨ s.dormant.state = .watching ∧ 2 ≤ acts.length ∨
        s.dormant.state = .escalating ∧ 1 ≤ acts.length) →
      attemptsOf ((tradingLoop rt).trace s acts) = [⟨notifyStep, 1, none, none⟩] := by
  induction acts with
  | nil =>
      intro s alive zero enough
      simp at enough
  | cons act acts ih =>
      intro s alive zero enough
      obtain ⟨⟨now, submit, formatFloat, rfl, window⟩, rest⟩ := List.forall_mem_cons.mp inside
      have after := alive.wake positive value now ⟨fun _ => .ok (), submit, formatFloat⟩
      have window' : InWindow s.daemon.heartbeatInterval (now - beat) := alive.interval ▸ window
      obtain ⟨armed, watching, escalating, _⟩ :=
        tick_window ⟨fun _ => .ok (), submit, formatFloat⟩ (fun _ => rfl) (alive.elapsed now)
          window'
      rw [attemptsOf_switch rt alive.asleep]
      simp only [List.length_cons] at enough
      rcases enough with ⟨state, enough⟩ | ⟨state, enough⟩ | ⟨state, _⟩
      · obtain ⟨none_, moved⟩ := armed state
        rw [none_, List.nil_append]
        exact ih rest _ after ((congrArg DeadManSwitchDaemon.stepIndex moved).trans zero)
          (.inr (.inl ⟨congrArg DeadManSwitchDaemon.state moved, by omega⟩))
      · obtain ⟨none_, moved⟩ := watching state
        rw [none_, List.nil_append]
        exact ih rest _ after ((congrArg DeadManSwitchDaemon.stepIndex moved).trans zero)
          (.inr (.inr ⟨congrArg DeadManSwitchDaemon.state moved, by omega⟩))
      · obtain ⟨first, journal, executed⟩ := escalating state zero
        rw [first, window_done rt positive value rest _ after
          ((congrArg DeadManSwitchDaemon.state executed).trans state)
          (congrArg DeadManSwitchDaemon.stepIndex executed), List.append_nil]

/-- Until the window the switch only waits. -/
theorem before_window {acts : List LoopAct}
    (soon : Wakings beat (fun x => fin x ≤ interval.val * fin 3 + interval.val * fin 6) acts) :
    ∀ s, Alive interval beat s → Grounded s.dormant →
      (s.dormant.state = .armed ∨ s.dormant.state = .watching) →
      attemptsOf ((tradingLoop rt).trace s acts) = [] ∧
        Alive interval beat ((tradingLoop rt).run s acts) ∧
        Grounded ((tradingLoop rt).run s acts).dormant ∧
        (((tradingLoop rt).run s acts).dormant.state = .armed ∨
          ((tradingLoop rt).run s acts).dormant.state = .watching) := by
  induction acts with
  | nil => exact fun s alive grounded resting => ⟨rfl, alive, grounded, resting⟩
  | cons act acts ih =>
      intro s alive grounded resting
      obtain ⟨⟨now, submit, formatFloat, rfl, early⟩, rest⟩ := List.forall_mem_cons.mp soon
      have after := alive.wake positive value now ⟨fun _ => .ok (), submit, formatFloat⟩
      have early' : fin (now - beat) ≤ s.daemon.heartbeatInterval.val * fin 3 +
          s.daemon.heartbeatInterval.val * fin 6 := by
        rw [alive.interval]
        exact early
      obtain ⟨none_, groundedAfter, restingAfter⟩ :=
        tick_early_still ⟨fun _ => .ok (), submit, formatFloat⟩ (alive.elapsed now) early'
          grounded resting
      rw [attemptsOf_switch rt alive.asleep, none_, List.nil_append, run_switch rt alive.asleep]
      exact ih rest _ after groundedAfter restingAfter

end Slow

/-- Within the grace period nothing is attempted, and the switch is armed. -/
theorem fresh_tick {interval : HeartbeatInterval}
    {d : DeadManSwitchDaemon (defaultDoomsdayConfig interval)} (early : Early d) {h x : ℚ}
    (positive : 0 < h) (value : interval.val = fin h) {now : ℚ} (outside : Outside)
    (hookless : ∀ number, outside.hook number = .ok ()) (elapsed : d.elapsed now = fin x)
    (fresh : x ≤ h * 3) :
    (d.tick now outside).attempts = [] ∧ Grounded (d.tick now outside).daemon ∧
      (d.tick now outside).daemon.state = .armed := by
  obtain ⟨grace, period⟩ := periods_eq value
  have notDue : ∀ j : ℕ, 0 < j → ¬ (defaultDoomsdayConfig interval).DueAfter (d.elapsed now) j := by
    intro j some_ due
    have one : (1 : ℚ) ≤ j := by exact_mod_cast some_
    rw [DeadManConfig.DueAfter, elapsed, grace, period, ExtNum.fin_mul_fin, ExtNum.fin_add_fin,
      ExtNum.fin_le_fin] at due
    nlinarith
  have case := d.tick_cases now outside
  obtain ⟨after, attempts⟩ := tick_early early hookless (notDue 2 (by decide)) case
  refine ⟨List.eq_nil_iff_forall_not_mem.mpr fun a member => ?_, after.grounded,
    (tick_early_fresh early outside ?_).1⟩
  · have due := tick_due case a member
    rw [(attempts a member).1] at due
    exact notDue 1 (by decide) due
  · rw [elapsed, grace, ExtNum.fin_le_fin]
    exact fresh

/-- **A slow loop notifies, every time**: after a market tick of a prompt loop, a tick of
the switch within the grace period, any number until the first escalation period is over,
and three or more before the second is, attempt the first step of the plan exactly once. -/
theorem slow_loop_notifies (rt : Runtime) (d : TradingDaemon)
    (new : d.dormant = .new (defaultDoomsdayConfig d.heartbeatInterval) none)
    (acts : List LoopAct)
    (prompt : PromptRun d.heartbeatInterval ((tradingLoop rt).trace (start d) acts)) (beat : ℚ)
    (completed : (completedAt ((tradingLoop rt).trace (start d) acts)).getLast? = some beat)
    (asleep : ((tradingLoop rt).run (start d) acts).thread = .asleep)
    (wanted : ((tradingLoop rt).run (start d) acts).stopRequested = false)
    (now : ℚ) (submit : Nat → Except String ConversionOrder) (formatFloat : ℚ → String)
    (fresh : fin (now - beat) ≤ d.heartbeatInterval.val * fin 3)
    (before inside : List LoopAct)
    (soon : Wakings beat (fun x => fin x ≤ d.heartbeatInterval.val * fin 3 +
      d.heartbeatInterval.val * fin 6) before)
    (window : Wakings beat (InWindow d.heartbeatInterval) inside) (three : 3 ≤ inside.length) :
    attemptsOf ((tradingLoop rt).trace ((tradingLoop rt).run (start d) acts)
      (.switch now submit formatFloat :: (before ++ inside))) = [⟨notifyStep, 1, none, none⟩] := by
  have watch := (tradingLoop rt).history_invariant
    (fun past s act watch => onWatch_step rt act watch) (onWatch_start new) acts
  have alive : Alive d.heartbeatInterval beat ((tradingLoop rt).run (start d) acts) :=
    ⟨watch.interval, asleep, wanted, watch.lastBeat.trans completed⟩
  have early := early_run rt new prompt
  obtain ⟨act, member⟩ := List.exists_mem_of_length_pos (show 0 < inside.length by omega)
  obtain ⟨_, _, _, _, inWindow⟩ := window act member
  obtain ⟨h, positive, value, _⟩ := inWindow.finite
  generalize (tradingLoop rt).run (start d) acts = s at alive early asleep ⊢
  have value' : s.daemon.heartbeatInterval.val = fin h := by rw [alive.interval, value]
  rw [value, ExtNum.fin_mul_fin, ExtNum.fin_le_fin] at fresh
  obtain ⟨none_, grounded, armed⟩ := fresh_tick early positive value'
    ⟨fun _ => .ok (), submit, formatFloat⟩ (fun _ => rfl) (alive.elapsed now) fresh
  -- the first tick arms the switch, the others until the window leave it at rest
  have woken := alive.wake positive value now ⟨fun _ => .ok (), submit, formatFloat⟩
  obtain ⟨quiet, aliveBefore, groundedBefore, resting⟩ := before_window rt positive value soon _
    woken grounded (.inl armed)
  have zero := groundedBefore.rest resting
  rw [attemptsOf_switch rt asleep, none_, List.nil_append, (tradingLoop rt).trace_append,
    attemptsOf, List.flatMap_append]
  rw [attemptsOf] at quiet
  rw [quiet, List.nil_append]
  refine window_attempts rt positive value window _ aliveBefore zero ?_
  rcases resting with state | state
  · exact .inl ⟨state, three⟩
  · exact .inr (.inl ⟨state, by omega⟩)

/-! ## Poles: one bullish tick -/

namespace BullishTick

def answered : Tick := tick ⟨.emergencyLiquidationAll, "EmergencyHalt"⟩

/-- The tick is completed, at time zero. -/
theorem answered_completed :
    completedAt ((tradingLoop runtime).trace (start daemon) [.tick answered]) = [0] ∧
      ((tradingLoop runtime).run (start daemon) [.tick answered]).thread = .asleep ∧
      ((tradingLoop runtime).run (start daemon) [.tick answered]).stopRequested = false := by
  obtain ⟨timestamp, proposal, emits⟩ := emits ⟨.emergencyLiquidationAll, "EmergencyHalt"⟩
  have acted : daemon.act runtime answered = (.ok (), daemon) := by
    rw [TradingDaemon.act, answered, emits]
    exact handleVerdict_answer runtime daemon
      (.ok (.evaluateProposal ⟨.emergencyLiquidationAll, "EmergencyHalt"⟩)) proposal 0
  obtain ⟨portfolio, orders, ⟨e, raised⟩ | ⟨journal, beaten⟩⟩ :=
    processTick_keeps (d := daemon) runtime rfl answered
  · have processed := raised
    rw [TradingDaemon.processTick, acted] at processed
    obtain ⟨dormant, accepted⟩ :=
      DeadManSwitchDaemon.beat_unsigned rfl daemon.dormant answered.clock false
    simp only [accepted] at processed
    cases processed
  · have step : (tradingLoop runtime).step (start daemon) (.tick answered) =
        (⟨some 0, []⟩, { start daemon with daemon := { daemon with
          portfolio, orders, dormant := { daemon.dormant with lastBeat := some 0, journal } } }) := by
      simp only [tradingLoop, start, Bool.false_eq_true, not_true_eq_false, if_false, beaten]
      rfl
    simp only [Machine.trace, Machine.run, Machine.event, step, completedAt, List.filterMap_cons,
      List.filterMap_nil]
    exact ⟨trivial, rfl, rfl⟩

/-- Before the switch has ticked, a run is prompt. -/
theorem answered_prompt : PromptRun daemon.heartbeatInterval
    ((tradingLoop runtime).trace (start daemon) [.tick answered]) := by
  intro past e later split now submit formatFloat completed input
  cases past with
  | nil =>
      obtain ⟨rfl, _⟩ := List.cons.inj split
      cases input
  | cons first past =>
      obtain ⟨_, rest⟩ := List.cons.inj split
      cases past <;> cases rest

def noOrder : Nat → Except String ConversionOrder := fun _ => .error "no order"

def wakingAt (now : ℚ) : LoopAct := .switch now noOrder fun _ => ""

end BullishTick

/-- Satisfiable pole: with a heartbeat of five seconds, three ticks of the switch before
the next minute notify. -/
theorem minute_loop_notifies :
    attemptsOf ((tradingLoop BullishTick.runtime).trace
      ((tradingLoop BullishTick.runtime).run (start BullishTick.daemon)
        [.tick BullishTick.answered])
      (BullishTick.wakingAt 10 :: ([BullishTick.wakingAt 40] ++
        [BullishTick.wakingAt 46, BullishTick.wakingAt 50, BullishTick.wakingAt 55]))) =
      [⟨notifyStep, 1, none, none⟩] := by
  obtain ⟨completed, asleep, wanted⟩ := BullishTick.answered_completed
  refine slow_loop_notifies BullishTick.runtime BullishTick.daemon rfl [.tick BullishTick.answered]
    BullishTick.answered_prompt 0 (by rw [completed]; rfl) asleep wanted 10 BullishTick.noOrder
    (fun _ => "") ?_ [BullishTick.wakingAt 40] _ ?_ ?_ (le_refl 3)
  · show fin (10 - 0 : ℚ) ≤ fin 5 * fin 3
    rw [ExtNum.fin_mul_fin, ExtNum.fin_le_fin]
    norm_num
  · intro act member
    obtain rfl := List.mem_singleton.mp member
    refine ⟨40, _, _, rfl, ?_⟩
    show fin (40 - 0 : ℚ) ≤ fin 5 * fin 3 + fin 5 * fin 6
    rw [ExtNum.fin_mul_fin, ExtNum.fin_mul_fin, ExtNum.fin_add_fin, ExtNum.fin_le_fin]
    norm_num
  · have inside : ∀ x : ℚ, 45 < x → x < 75 → InWindow BullishTick.daemon.heartbeatInterval x := by
      intro x late young
      show fin 5 * fin 3 + fin 5 * fin 6 < fin x ∧
        ¬ fin 5 * fin 3 + fin 2 * (fin 5 * fin 6) ≤ fin x
      simp only [ExtNum.fin_mul_fin, ExtNum.fin_add_fin, ExtNum.fin_lt_fin, ExtNum.fin_le_fin]
      constructor <;> linarith
    intro act member
    simp only [List.mem_cons, List.not_mem_nil, or_false] at member
    rcases member with rfl | rfl | rfl <;>
      exact ⟨_, _, _, rfl, inside _ (by norm_num) (by norm_num)⟩

/-- Satisfiable pole: ten seconds after the tick the switch ticks, and is armed. -/
theorem armed_after_tick :
    ((tradingLoop BullishTick.runtime).run (start BullishTick.daemon)
      [.tick BullishTick.answered, BullishTick.wakingAt 10]).dormant.state = .armed := by
  obtain ⟨completed, asleep, _⟩ := BullishTick.answered_completed
  have first : (completedAt ((tradingLoop BullishTick.runtime).trace (start BullishTick.daemon)
      [.tick BullishTick.answered])).getLast? = some 0 := by
    rw [completed]
    rfl
  have fresh : fin (10 - 0 : ℚ) ≤ BullishTick.daemon.heartbeatInterval.val * fin 3 := by
    show fin (10 - 0 : ℚ) ≤ fin 5 * fin 3
    rw [ExtNum.fin_mul_fin, ExtNum.fin_le_fin]
    norm_num
  refine ((prompt_loop_rearms BullishTick.runtime BullishTick.daemon rfl
    [.tick BullishTick.answered, BullishTick.wakingAt 10] ?_ [_] [] _ rfl).2.2 10 BullishTick.noOrder
    (fun _ => "") 0 rfl asleep first fresh).1
  intro past e later split now submit formatFloat beat input last
  match past with
  | [] =>
      obtain ⟨rfl, _⟩ := List.cons.inj split
      cases input
  | [tick] =>
      obtain ⟨rfl, rest⟩ := List.cons.inj split
      obtain ⟨rfl, _⟩ := List.cons.inj rest
      obtain rfl := Option.some.inj (first.symm.trans last)
      obtain ⟨rfl, _⟩ := LoopAct.switch.inj input
      show ¬ fin 5 * fin 3 + fin 2 * (fin 5 * fin 6) ≤ fin (10 - 0 : ℚ)
      simp only [ExtNum.fin_mul_fin, ExtNum.fin_add_fin, ExtNum.fin_le_fin]
      norm_num
  | _ :: _ :: _ =>
      have length := congrArg List.length split
      simp [Machine.trace] at length

/-- Satisfiable pole: the loop breaks off after one tick, and the switch wakes up twice. -/
theorem broken_off_stops_switch :
    ((tradingLoop BullishTick.runtime).trace (start BullishTick.daemon)
      [.tick BullishTick.answered, .breaksOff, BullishTick.wakingAt 100,
        BullishTick.wakingAt 200]).countP LoopEvent.isLate ≤ 1 :=
  (attempts_inside_tick BullishTick.runtime BullishTick.daemon rfl _).2

end CentaurApex.Cortex
