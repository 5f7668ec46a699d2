/-
# Doomsday.Liquidation -- when the switch falls dormant, and what a refused disarm leaves

Dormant is the last rung: the switch falls there from liquidating, when no order is
pending or when the liquidation grace has run out.

* `dormant_honest`: it falls there with every acquisition of the plan made and
  settled, or after the grace, in every run in which no step fails that an
  acquisition waits for, and no failed order is taken for a settled one
  (`SafeEvent`).
* `refused_disarm_iff`: a `disarm` that does not arm the switch leaves it as it was
  exactly when it is refused, or finds nothing to reset.

`Winding` is the invariant behind the first: which steps of the escalation have
recorded an order, and since when the switch liquidates.
-/
import CentaurApex.Doomsday.Escalation

namespace CentaurApex.Doomsday

open CentaurApex.Theory
open CentaurApex.Theory.ExtNum (fin posInf negInf)
open CentaurApex.Theory.Python

set_option autoImplicit false

/-! ## Disarm -/

section Disarm

variable {config : DeadManConfig}

/-- The switch after a call of `disarm`. -/
def disarmed (d : DeadManSwitchDaemon config) (now : ℚ) (key : String) :
    DeadManSwitchDaemon config :=
  ((deadManMachine config).step d (.disarm now key)).2

/-- A `disarm` that does not arm the switch changes nothing. -/
def RefusedUnchanged (d : DeadManSwitchDaemon config) (now : ℚ) (key : String) : Prop :=
  (disarmed d now key).state ≠ .armed → disarmed d now key = d

/-- The key is refused, the switch can still be armed, or there is nothing to reset. -/
def Spared (d : DeadManSwitchDaemon config) (now : ℚ) (key : String) : Prop :=
  d.governanceKey ≠ some key ∨ d.state ≠ .liquidating ∧ d.state ≠ .dormant ∨
    d.stepIndex = 0 ∧ d.liquidatingSince = none ∧ d.lastBeat = some now

/-- Where the move to armed is not allowed, the ladder is reset all the same. -/
theorem disarmed_past {d : DeadManSwitchDaemon config} {key : String}
    (accepted : d.governanceKey = some key) (past : d.state = .liquidating ∨ d.state = .dormant)
    (now : ℚ) : disarmed d now key =
      { d with stepIndex := 0, liquidatingSince := none, lastBeat := some now } := by
  have stays : EscalationState.armed ∉ transitions d.state := by
    rcases past with state | state <;> rw [state] <;> decide
  simp only [disarmed, deadManMachine, DeadManSwitchDaemon.disarm, accepted, ne_eq,
    not_true_eq_false, if_false, DeadManSwitchDaemon.move, if_neg stays, Called.ofExcept]

theorem disarmed_arms {d : DeadManSwitchDaemon config} {key : String}
    (accepted : d.governanceKey = some key)
    (before : d.state ≠ .liquidating ∧ d.state ≠ .dormant) (now : ℚ) :
    (disarmed d now key).state = .armed := by
  simp only [disarmed, deadManMachine, DeadManSwitchDaemon.disarm, accepted, ne_eq,
    not_true_eq_false, if_false, DeadManSwitchDaemon.move, Called.ofExcept]
  cases state : d.state with
  | armed => simp [transitions, state]
  | watching => simp [transitions]
  | escalating => simp [transitions]
  | liquidating => exact absurd state before.1
  | dormant => exact absurd state before.2

theorem refused_iff_spared (d : DeadManSwitchDaemon config) (now : ℚ) (key : String) :
    RefusedUnchanged d now key ↔ Spared d now key := by
  by_cases accepted : d.governanceKey = some key
  · by_cases before : d.state ≠ .liquidating ∧ d.state ≠ .dormant
    · exact iff_of_true (fun other => absurd (disarmed_arms accepted before now) other)
        (Or.inr (Or.inl before))
    · have past : d.state = .liquidating ∨ d.state = .dormant := by
        by_contra neither
        exact before (not_or.mp neither)
      have notArmed : d.state ≠ .armed := by
        rcases past with state | state <;> rw [state] <;> decide
      rw [RefusedUnchanged, disarmed_past accepted past]
      constructor
      · intro unchanged
        have same := unchanged notArmed
        exact Or.inr (Or.inr ⟨(congrArg DeadManSwitchDaemon.stepIndex same).symm,
          (congrArg DeadManSwitchDaemon.liquidatingSince same).symm,
          (congrArg DeadManSwitchDaemon.lastBeat same).symm⟩)
      · rintro (other | other | ⟨index, since, beat⟩) _
        · exact absurd accepted other
        · exact absurd other before
        · rw [← index, ← since, ← beat]
  · exact iff_of_true (fun _ => step_disarm_refused accepted now) (Or.inl accepted)

/-- **A disarm that does not arm the switch leaves it as it was exactly when it is
spared**; and after any number of spared ones the next tick goes as it would have. -/
theorem refused_disarm_iff (config : DeadManConfig) (d : DeadManSwitchDaemon config) :
    (∀ now key, RefusedUnchanged d now key ↔ Spared d now key) ∧
      ∀ disarms : List (ℚ × String),
        d.state = .liquidating ∨ d.state = .dormant → (∀ c ∈ disarms, Spared d c.1 c.2) →
          (deadManMachine config).run d (disarms.map fun c => .disarm c.1 c.2) = d := by
  refine ⟨refused_iff_spared d, fun disarms past spared => ?_⟩
  induction disarms with
  | nil => rfl
  | cons c disarms ih =>
      obtain ⟨first, rest⟩ := List.forall_mem_cons.mp spared
      have notArmed : (disarmed d c.1 c.2).state ≠ .armed := by
        by_cases accepted : d.governanceKey = some c.2
        · rw [disarmed_past accepted past]
          rcases past with state | state <;> simp [state]
        · rw [disarmed, step_disarm_refused accepted]
          rcases past with state | state <;> simp [state]
      have unchanged : ((deadManMachine config).step d (.disarm c.1 c.2)).2 = d :=
        (refused_iff_spared d c.1 c.2).mpr first notArmed
      rw [List.map_cons, Machine.run, unchanged]
      exact ih rest

end Disarm

/-! ## Dormancy -/

section Dormancy

variable {config : DeadManConfig}

/-- When ticks read the clock. -/
def tickTimes (past : List (DeadManEvent config)) : List ℚ :=
  past.filterMap fun e =>
    match e.input with
    | .tick now _ => some now
    | _ => none

/-- When the switch began to liquidate. -/
def liquidated (past : List (DeadManEvent config)) : List ℚ :=
  past.filterMap fun e =>
    match e.input with
    | .tick now _ =>
        if e.before.state = .escalating ∧ e.after.state = .liquidating then some now else none
    | _ => none

/-- The step keeps an acquisition of the plan from being made: its own, when the
oracle takes no order; a later one, when it raises. -/
def Misses (config : DeadManConfig) (outside : Outside) (s : EscalationStep × Nat) : Prop :=
  s.1.step = .acquireAssets ∧ outside.order s.1 s.2 = none ∨
    outside.raises s.1 s.2 ≠ none ∧
      ∃ later ∈ config.numbered, s.2 < later.2 ∧ later.1.step = .acquireAssets

/-- No step due keeps an acquisition from being made, and a liquidating switch finds no
failed order alone: others are pending, or the grace has run out. -/
def SafeEvent (e : DeadManEvent config) : Prop :=
  ∀ now outside, e.input = .tick now outside →
    (e.before.state = .escalating → ∀ s ∈ e.before.stepsDue now, ¬ Misses config outside s) ∧
    (e.before.state = .liquidating →
      e.before.pending = true ∨ e.before.graceElapsed now ∨
        ∀ o ∈ e.before.orders, o.status ≠ .failed)

/-- More than the liquidation grace has passed since the switch began to liquidate. -/
def AfterGrace (past : List (DeadManEvent config)) (e : DeadManEvent config) : Prop :=
  ∃ now outside, e.input = .tick now outside ∧
    ∃ t ∈ liquidated past, fin (now - t) > config.liquidationGrace

/-- Every acquisition of the plan was made in the escalation, and every order is settled. -/
def AllAcquired (past : List (DeadManEvent config)) (e : DeadManEvent config) : Prop :=
  (∀ s ∈ config.numbered, s.1.step = .acquireAssets →
    ∃ a ∈ epochAttempts past, a.label = s ∧ ∃ order, a.order = some order ∧
      ∃ o ∈ e.before.orders, o.orderId = order.orderId) ∧
  ∀ o ∈ e.before.orders, o.status = .settled

/-- What a run of safe events keeps. -/
structure Winding (past : List (DeadManEvent config)) (d : DeadManSwitchDaemon config) : Prop where
  timer : d.state ≠ .liquidating → d.state ≠ .dormant → d.liquidatingSince = none
  ordered : ∀ a ∈ epochAttempts past, a.step.step = .acquireAssets → a.order ≠ none
  kept : ∀ a ∈ epochAttempts past, ∀ order, a.order = some order →
    ∃ o ∈ d.orders, o.orderId = order.orderId
  acquired : d.state = .liquidating → ∀ s ∈ config.numbered, s.1.step = .acquireAssets →
    ∃ a ∈ epochAttempts past, a.label = s
  entered : d.state = .liquidating →
    ∃ t ∈ liquidated past, ∀ since, d.liquidatingSince = some since → t ≤ since

theorem mem_liquidated_append {past : List (DeadManEvent config)} {t : ℚ}
    (member : t ∈ liquidated past) (e : DeadManEvent config) : t ∈ liquidated (past ++ [e]) := by
  rw [liquidated, List.filterMap_append]
  exact List.mem_append_left _ member

theorem mem_tickTimes_of_liquidated {past : List (DeadManEvent config)} {t : ℚ}
    (member : t ∈ liquidated past) : t ∈ tickTimes past := by
  obtain ⟨e, inside, eq⟩ := List.mem_filterMap.mp member
  refine List.mem_filterMap.mpr ⟨e, inside, ?_⟩
  cases input : e.input with
  | tick now outside =>
      rw [input] at eq
      dsimp only at eq ⊢
      split at eq
      · exact eq
      · cases eq
  | beat now signed =>
      rw [input] at eq
      cases eq
  | disarm now key =>
      rw [input] at eq
      cases eq
  | orderStatus index status =>
      rw [input] at eq
      cases eq

theorem orders_kept (orders : List ConversionOrder) :
    ∀ o ∈ orders, ∃ o' ∈ orders, o'.orderId = o.orderId := fun o member => ⟨o, member, rfl⟩

/-- A call that attempts no step. -/
theorem Winding.of_quiet {past : List (DeadManEvent config)} {d d' : DeadManSwitchDaemon config}
    (winding : Winding past d) (e : DeadManEvent config) (after : e.after = d')
    (quiet : e.reply.attempts = []) (state : d'.state = .liquidating → d.state = .liquidating)
    (orders : ∀ o ∈ d.orders, ∃ o' ∈ d'.orders, o'.orderId = o.orderId)
    (timer : d'.state ≠ .liquidating → d'.state ≠ .dormant → d'.liquidatingSince = none)
    (since : ∀ s, d'.liquidatingSince = some s →
      d.liquidatingSince = some s ∨ ∀ t ∈ tickTimes past, t ≤ s) :
    Winding (past ++ [e]) d' := by
  have attempts : ∀ a ∈ epochAttempts (past ++ [e]), a ∈ epochAttempts past := by
    intro a member
    rw [epochAttempts_append, quiet, List.append_nil] at member
    split at member
    · cases member
    · exact member
  refine ⟨timer, fun a member => winding.ordered a (attempts a member),
    fun a member order eq => ?_, fun liquidating s member acquires => ?_, fun liquidating => ?_⟩
  · obtain ⟨o, inside, same⟩ := winding.kept a (attempts a member) order eq
    obtain ⟨o', inside', same'⟩ := orders o inside
    exact ⟨o', inside', same'.trans same⟩
  · obtain ⟨a, inside, label⟩ := winding.acquired (state liquidating) s member acquires
    refine ⟨a, ?_, label⟩
    have noEntry : ¬ Enters e := by
      intro enters
      exact absurd (liquidating.symm.trans (after ▸ enters.2)) (by decide)
    rw [epochAttempts_append, if_neg noEntry, quiet, List.append_nil]
    exact inside
  · obtain ⟨t, member, before⟩ := winding.entered (state liquidating)
    refine ⟨t, mem_liquidated_append member e, fun s eq => ?_⟩
    rcases since s eq with same | later
    · exact before s same
    · exact later t (mem_tickTimes_of_liquidated member)

theorem mem_recorded {attempts : List Attempt} {a : Attempt} {order : ConversionOrder}
    (member : a ∈ attempts) (eq : a.order = some order) : order ∈ recorded attempts :=
  List.mem_filterMap.mpr ⟨a, member, eq⟩

/-- Where no step due misses an acquisition, none lies beyond the step that ended the
plan. -/
theorem acquisition_reached {d : DeadManSwitchDaemon config} {now : ℚ} {outside : Outside}
    {hi k : Nat} {ran : List Attempt × DeadManSwitchDaemon config}
    (spec : DeadManSwitchDaemon.PlanRan now outside d.stepIndex hi k d ran)
    (safe : ∀ s ∈ config.steps d.stepIndex hi, ¬ Misses config outside s)
    (liquidating : ran.2.state = .liquidating) {s : EscalationStep × Nat}
    (member : s ∈ config.numbered) (acquires : s.1.step = .acquireAssets) : s.2 ≤ k := by
  cases spec.ending with
  | stopped last more state since => exact absurd (state.symm.trans liquidating) (by decide)
  | complete last state since =>
      rw [last]
      exact (config.number_of_mem member).2
  | failed step failedAt raised state since =>
      by_contra beyond
      have here : (step, k) ∈ config.steps d.stepIndex hi :=
        config.mem_steps_iff.mpr ⟨failedAt, spec.some_, spec.due⟩
      exact safe _ here (Or.inr ⟨raised, s, member, not_le.mp beyond, acquires⟩)

/-- A tick that attempts steps. -/
theorem Winding.of_ran {past : List (DeadManEvent config)} {d : DeadManSwitchDaemon config}
    (winding : Winding past d) (order : InOrder past d) (escalating : d.state = .escalating)
    {now : ℚ} {outside : Outside} {hi k : Nat} (bound : hi ≤ config.plan.length)
    {ran : List Attempt × DeadManSwitchDaemon config}
    (spec : DeadManSwitchDaemon.PlanRan now outside d.stepIndex hi k d ran)
    (safe : ∀ s ∈ config.steps d.stepIndex hi, ¬ Misses config outside s)
    (e : DeadManEvent config) (input : e.input = .tick now outside) (before : e.before = d)
    (attempts : e.reply.attempts = ran.1) (after : e.after = ran.2) :
    Winding (past ++ [e]) ran.2 := by
  have noEntry : ¬ Enters e := fun enters => enters.1 (before ▸ escalating)
  have epoch : epochAttempts (past ++ [e]) = epochAttempts past ++ ran.1 := by
    rw [epochAttempts_append, if_neg noEntry, attempts]
  have labels : (epochAttempts (past ++ [e])).map Attempt.label = config.steps 0 k := by
    rw [epoch, List.map_append, order.planned escalating, spec.attempts, map_label_attempt,
      config.steps_append (Nat.zero_le _) spec.some_.le (spec.due.trans bound)]
  have entry : ran.2.state = .liquidating → now ∈ liquidated (past ++ [e]) := by
    intro liquidating
    rw [liquidated, List.filterMap_append]
    refine List.mem_append_right _ (List.mem_filterMap.mpr ⟨e, List.mem_singleton_self _, ?_⟩)
    rw [input]
    exact if_pos ⟨before ▸ escalating, after ▸ liquidating⟩
  have idle : d.liquidatingSince = none :=
    winding.timer (by rw [escalating]; decide) (by rw [escalating]; decide)
  have within : ∀ s ∈ config.steps d.stepIndex k, s ∈ config.steps d.stepIndex hi := by
    intro s member
    rw [← config.steps_append spec.some_.le spec.due bound]
    exact List.mem_append_left _ member
  refine ⟨?_, ?_, ?_, ?_, ?_⟩
  · -- the timer runs only once the plan is complete
    intro other _
    cases spec.ending with
    | stopped last more state since => exact since.trans idle
    | complete last state since => exact absurd state other
    | failed step member raised state since => exact absurd state other
  · intro a member acquires
    rw [epoch] at member
    rcases List.mem_append.mp member with earlier | here
    · exact winding.ordered a earlier acquires
    · rw [spec.attempts] at here
      obtain ⟨s, inside, rfl⟩ := List.mem_map.mp here
      exact fun none_ => safe s (within s inside) (Or.inl ⟨acquires, none_⟩)
  · intro a member ordered eq
    rw [epoch] at member
    rw [spec.orders]
    rcases List.mem_append.mp member with earlier | here
    · obtain ⟨o, inside, same⟩ := winding.kept a earlier ordered eq
      exact ⟨o, List.mem_append_left _ inside, same⟩
    · exact ⟨ordered, List.mem_append_right _ (mem_recorded here eq), rfl⟩
  · intro liquidating s member acquires
    have inReach := acquisition_reached spec safe liquidating member acquires
    have inEpoch : s ∈ (epochAttempts (past ++ [e])).map Attempt.label := by
      rw [labels]
      exact config.mem_steps_iff.mpr ⟨member, (config.number_of_mem member).1, inReach⟩
    obtain ⟨a, inside, label⟩ := List.mem_map.mp inEpoch
    exact ⟨a, inside, label⟩
  · intro liquidating
    refine ⟨now, entry liquidating, fun since eq => ?_⟩
    cases spec.ending with
    | stopped last more state same => exact absurd (state.symm.trans liquidating) (by decide)
    | complete last state same =>
        rw [same] at eq
        exact (Option.some.inj eq).le
    | failed step member raised state same =>
        rw [same, idle] at eq
        cases eq

theorem tick_winding (enabled : config.escalationEnabled = true)
    {past : List (DeadManEvent config)} {d d' : DeadManSwitchDaemon config}
    (winding : Winding past d) (order : InOrder past d) {now : ℚ} {outside : Outside}
    {attempts : List Attempt} (case : d.TickCase now outside attempts d') (e : DeadManEvent config)
    (input : e.input = .tick now outside) (before : e.before = d)
    (reply : e.reply.attempts = attempts) (after : e.after = d')
    (later : ∀ t ∈ tickTimes past, t ≤ now) (safe : SafeEvent e) :
    Winding (past ++ [e]) d' := by
  have same := orders_kept d.orders
  have idle : ∀ {state : EscalationState}, d.state = state → state ≠ .liquidating →
      state ≠ .dormant → d.liquidatingSince = none := fun eq first second =>
    winding.timer (eq ▸ first) (eq ▸ second)
  have timed : ∀ s, some (d.liquidatingSince.getD now) = some s →
      d.liquidatingSince = some s ∨ ∀ t ∈ tickTimes past, t ≤ s := by
    intro s eq
    obtain rfl := Option.some.inj eq
    cases since : d.liquidatingSince with
    | some s => exact Or.inl rfl
    | none => exact Or.inr later
  cases case with
  | off disabled => exact absurd disabled (DeadManConfig.not_disabled enabled)
  | keeps _ => exact winding.of_quiet e after reply id same winding.timer fun s => Or.inl
  | watches state late =>
      exact winding.of_quiet e after reply (fun other => by cases other) same
        (fun _ _ => idle state (by decide) (by decide)) fun s => Or.inl
  | resumes state fresh =>
      exact winding.of_quiet e after reply (fun other => by cases other) same
        (fun _ _ => rfl) fun s other => by cases other
  | escalates state late =>
      exact winding.of_quiet e after reply (fun other => by cases other) same
        (fun _ _ => idle state (by decide) (by decide)) fun s => Or.inl
  | aborts state fresh below =>
      exact winding.of_quiet e after reply (fun other => by cases other) same
        (fun _ _ => idle state (by decide) (by decide)) fun s => Or.inl
  | executes state hi k bound due steps ran =>
      have calm := (safe now outside input).1 (before ▸ state)
      rw [before, steps] at calm
      exact winding.of_ran order state bound ran calm e input before reply after
  | waits state unsettled young =>
      exact winding.of_quiet e after reply (fun _ => state) same
        (fun other _ => absurd state other) timed
  | ends state finished detail =>
      exact winding.of_quiet e after reply (fun other => by cases other) same
        (fun _ other => absurd rfl other) timed

/-- **What any safe call keeps**, on a clock that does not go back. -/
theorem step_winding (enabled : config.escalationEnabled = true)
    {past : List (DeadManEvent config)} {d : DeadManSwitchDaemon config}
    (winding : Winding past d) (order : InOrder past d) (call : DeadManCall)
    (clock : (tickTimes (past ++ [(deadManMachine config).event d call])).Pairwise (· ≤ ·))
    (safe : SafeEvent ((deadManMachine config).event d call)) :
    Winding (past ++ [(deadManMachine config).event d call])
      ((deadManMachine config).step d call).2 := by
  have same := orders_kept d.orders
  cases call with
  | beat now signed =>
      obtain ⟨quiet, lastBeat, journal, after⟩ := step_beat d now signed
      rw [after]
      exact winding.of_quiet _ after quiet id same winding.timer fun s => Or.inl
  | disarm now key =>
      obtain ⟨quiet, after | ⟨journal, after⟩⟩ := step_disarm d now key
      · rw [after]
        exact winding.of_quiet _ after quiet id same winding.timer fun s => Or.inl
      · rw [after]
        refine winding.of_quiet _ after quiet (fun liquidating => ?_) same (fun _ _ => rfl)
          fun s other => by cases other
        dsimp only at liquidating
        split at liquidating
        · cases liquidating
        · exact liquidating
  | tick now outside =>
      refine tick_winding enabled winding order (d.tick_cases now outside) _ rfl rfl rfl rfl ?_ safe
      rw [tickTimes, List.filterMap_append] at clock
      intro t member
      exact (List.pairwise_append.mp clock).2.2 t member now (List.mem_singleton_self _)
  | orderStatus index status =>
      refine winding.of_quiet _ rfl rfl id (fun o member => ?_) winding.timer fun s => Or.inl
      obtain ⟨i, inside, rfl⟩ := List.mem_iff_getElem.mp member
      have inside' : i < (d.setStatus index status).orders.length := by
        rw [DeadManSwitchDaemon.setStatus, List.length_modify]
        exact inside
      refine ⟨(d.setStatus index status).orders[i], List.getElem_mem _, ?_⟩
      simp only [DeadManSwitchDaemon.setStatus, List.getElem_modify]
      split <;> rfl

theorem winding_new (governanceKey : Option String) :
    Winding [] (DeadManSwitchDaemon.new config governanceKey) :=
  ⟨fun _ _ => rfl, fun _ member => (by cases member), fun _ member => (by cases member),
    fun other => (by cases other), fun other => (by cases other)⟩

theorem tick_dormant {d d' : DeadManSwitchDaemon config} {now : ℚ} {outside : Outside}
    {attempts : List Attempt} (case : d.TickCase now outside attempts d')
    (liquidating : d.state = .liquidating) (dormant : d'.state = .dormant) :
    d.pending = false ∨ d.graceElapsed now := by
  cases case with
  | off disabled => cases dormant
  | keeps idle => exact absurd liquidating idle
  | watches state late => cases dormant
  | resumes state fresh => cases dormant
  | escalates state late => cases dormant
  | aborts state fresh below => cases dormant
  | executes state hi k bound due steps ran =>
      exact absurd (state.symm.trans liquidating) (by decide)
  | waits state unsettled young => exact absurd (state.symm.trans dormant) (by decide)
  | ends state finished detail => exact finished

/-- Only a tick ends the liquidation: with nothing pending, or after the grace. -/
theorem step_dormant {d : DeadManSwitchDaemon config} {call : DeadManCall}
    (liquidating : d.state = .liquidating)
    (dormant : ((deadManMachine config).step d call).2.state = .dormant) :
    ∃ now outside, call = .tick now outside ∧ (d.pending = false ∨ d.graceElapsed now) := by
  cases call with
  | beat now signed =>
      obtain ⟨_, lastBeat, journal, after⟩ := step_beat d now signed
      rw [after] at dormant
      exact absurd (liquidating.symm.trans dormant) (by decide)
  | disarm now key =>
      obtain ⟨_, after | ⟨journal, after⟩⟩ := step_disarm d now key
      · rw [after] at dormant
        exact absurd (liquidating.symm.trans dormant) (by decide)
      · rw [after] at dormant
        dsimp only at dormant
        split at dormant
        · cases dormant
        · exact absurd (liquidating.symm.trans dormant) (by decide)
  | tick now outside =>
      exact ⟨now, outside, rfl, tick_dormant (d.tick_cases now outside) liquidating dormant⟩
  | orderStatus index status => exact absurd (liquidating.symm.trans dormant) (by decide)

/-- The grace that has run out began when the switch began to liquidate, or later. -/
theorem afterGrace {past : List (DeadManEvent config)} {e : DeadManEvent config}
    (winding : Winding past e.before) (liquidating : e.before.state = .liquidating) {now : ℚ}
    {outside : Outside} (input : e.input = .tick now outside)
    (elapsed : e.before.graceElapsed now) : AfterGrace past e := by
  obtain ⟨t, member, before⟩ := winding.entered liquidating
  refine ⟨now, outside, input, t, member, ?_⟩
  unfold DeadManSwitchDaemon.graceElapsed at elapsed
  cases since : e.before.liquidatingSince with
  | none =>
      rw [since, Option.getD_none] at elapsed
      exact absurd elapsed (config.not_liquidationGrace_lt (sub_self now).le)
  | some s =>
      rw [since, Option.getD_some] at elapsed
      exact ExtNum.lt_fin_of_le elapsed (sub_le_sub_left (before s since) now)

/-- Where nothing is pending and nothing has failed, every acquisition is settled. -/
theorem allAcquired {past : List (DeadManEvent config)} {e : DeadManEvent config}
    (winding : Winding past e.before) (liquidating : e.before.state = .liquidating)
    (settled : e.before.pending = false) (unfailed : ∀ o ∈ e.before.orders, o.status ≠ .failed) :
    AllAcquired past e := by
  refine ⟨fun s member acquires => ?_, fun o member => ?_⟩
  · obtain ⟨a, inside, label⟩ := winding.acquired liquidating s member acquires
    have type : a.step.step = .acquireAssets := by
      rw [← acquires, ← label]
      rfl
    obtain ⟨order, eq⟩ := Option.ne_none_iff_exists'.mp (winding.ordered a inside type)
    exact ⟨a, inside, label, order, eq, winding.kept a inside order eq⟩
  · have noneSubmitted : ∀ o ∈ e.before.orders, o.status ≠ .submitted := by
      simpa [DeadManSwitchDaemon.pending] using settled
    cases status : o.status with
    | submitted => exact absurd status (noneSubmitted o member)
    | settled => rfl
    | failed => exact absurd status (unfailed o member)

/-- The history of the switch and, on safe events and a clock that does not go back,
its winding. -/
theorem step_history (enabled : config.escalationEnabled = true)
    (past : List (DeadManEvent config)) (d : DeadManSwitchDaemon config) (call : DeadManCall)
    (history : InOrder past d ∧ ((tickTimes past).Pairwise (· ≤ ·) →
      (∀ e ∈ past, SafeEvent e) → Winding past d)) :
    InOrder (past ++ [(deadManMachine config).event d call])
        ((deadManMachine config).step d call).2 ∧
      ((tickTimes (past ++ [(deadManMachine config).event d call])).Pairwise (· ≤ ·) →
        (∀ e ∈ past ++ [(deadManMachine config).event d call], SafeEvent e) →
          Winding (past ++ [(deadManMachine config).event d call])
            ((deadManMachine config).step d call).2) := by
  obtain ⟨order, winding⟩ := history
  refine ⟨step_inOrder enabled past d call order, fun clock safe => ?_⟩
  have earlier : (tickTimes past).Pairwise (· ≤ ·) := by
    rw [tickTimes, List.filterMap_append] at clock
    exact (List.pairwise_append.mp clock).1
  exact step_winding enabled
    (winding earlier fun e member => safe e (List.mem_append_left _ member)) order call clock
    (safe _ (List.mem_append_right _ (List.mem_singleton_self _)))

/-- **The switch falls dormant honestly**: after the liquidation grace, or with every
acquisition of the plan made and every order settled, in every run of safe events. -/
theorem dormant_honest (config : DeadManConfig) (governanceKey : Option String)
    (calls : List DeadManCall)
    (clock : (tickTimes ((deadManMachine config).trace (.new config governanceKey)
      calls)).Pairwise (· ≤ ·))
    (safe : ∀ e ∈ (deadManMachine config).trace (.new config governanceKey) calls, SafeEvent e) :
    ∀ past e later,
      (deadManMachine config).trace (.new config governanceKey) calls = past ++ e :: later →
        e.before.state = .liquidating → e.after.state = .dormant →
          AfterGrace past e ∨ AllAcquired past e := by
  intro past e later split liquidating dormant
  by_cases enabled : config.escalationEnabled = true
  · obtain ⟨⟨_, winding⟩, step⟩ := (deadManMachine config).history_split (step_history enabled)
      ⟨inOrder_new governanceKey, fun _ _ => winding_new governanceKey⟩ split
    rw [split] at clock safe
    rw [tickTimes, List.filterMap_append] at clock
    have wound := winding (List.pairwise_append.mp clock).1 fun e member =>
      safe e (List.mem_append_left _ member)
    have falls : ((deadManMachine config).step e.before e.input).2.state = .dormant := by
      rw [step] at dormant
      exact dormant
    obtain ⟨now, outside, input, finished⟩ := step_dormant liquidating falls
    by_cases grace : e.before.graceElapsed now
    · exact Or.inl (afterGrace wound liquidating input grace)
    · have settled : e.before.pending = false := finished.resolve_right grace
      have calm := (safe e (List.mem_append_right _ List.mem_cons_self) now outside input).2
        liquidating
      rcases calm with pending | finished | unfailed
      · rw [settled] at pending
        cases pending
      · exact absurd finished grace
      · exact Or.inr (allAcquired wound liquidating settled unfailed)
  · -- a switch that may not escalate never liquidates
    have armed := ((deadManMachine config).history_split (P := fun _ d => d.state = .armed)
      (fun _ d call => step_disabled (Bool.eq_false_iff.mpr enabled) d call) rfl split).1
    exact absurd (armed.symm.trans liquidating) (by decide)

end Dormancy

/-! ## Poles -/

namespace Drill

/-- The first hook fails, and the switch is ticked once more. -/
def failing : List DeadManCall := silence ++ [.tick 10 broken]

/-- The whole plan at one tick; then its order settles. -/
def settling : List DeadManCall := silence ++ [.tick 40 calm, .orderStatus 0 .settled]

theorem calm_not_misses (config : DeadManConfig) (s : EscalationStep × Nat) :
    ¬ Misses config calm s := by
  rintro (⟨acquires, none_⟩ | ⟨raises, _⟩)
  · rw [Outside.order, acquires] at none_
    cases none_
  · refine raises ?_
    unfold Outside.raises
    cases s.1.step <;> rfl

/-- A drill in which everything goes well outside, and no order fails, is safe. -/
theorem safe {calls : List DeadManCall}
    (well : ∀ call ∈ calls, ∀ now outside, call = .tick now outside → outside = calm)
    (unfailed : ∀ e ∈ machine.trace (.new (config plan) none) calls,
      ∀ o ∈ e.before.orders, o.status ≠ .failed) :
    ∀ e ∈ machine.trace (.new (config plan) none) calls, SafeEvent e := by
  intro e member now outside input
  obtain ⟨_, sent, _⟩ := machine.trace_invariant_of (P := fun _ => True) (fun _ _ _ _ => trivial)
    trivial well e member
  obtain rfl := sent now outside input
  exact ⟨fun _ s _ => calm_not_misses _ s, fun _ => Or.inr (Or.inr (unfailed e member))⟩

end Drill

/-- Refuting pole: after a failed notification the switch falls dormant at once, with
nothing acquired. -/
theorem dormant_without_orders :
    ¬ ∀ (config : DeadManConfig) (governanceKey : Option String) (calls : List DeadManCall),
      (tickTimes ((deadManMachine config).trace (.new config governanceKey) calls)).Pairwise
        (· ≤ ·) →
      ∀ past e later,
        (deadManMachine config).trace (.new config governanceKey) calls = past ++ e :: later →
          e.before.state = .liquidating → e.after.state = .dormant →
            AfterGrace past e ∨ AllAcquired past e := by
  intro honest
  have split : (deadManMachine (Drill.config Drill.plan)).trace (.new _ none)
      (Drill.failing ++ [.tick 10 Drill.calm]) =
        Drill.machine.trace (.new _ none) Drill.failing ++
          Drill.last Drill.failing (.tick 10 Drill.calm) :: [] := rfl
  have liquidated10 : liquidated (Drill.machine.trace (.new _ none) Drill.failing) = [10] := by
    decide +kernel
  have attempted : (epochAttempts (Drill.machine.trace (.new _ none) Drill.failing)).map
      Attempt.label = [(Drill.step .notify, 1)] := by decide +kernel
  rcases honest (Drill.config Drill.plan) none _ (by decide +kernel) _ _ _ split
    (by decide +kernel) (by decide +kernel) with after | ⟨acquired, _⟩
  · obtain ⟨now, outside, input, t, member, finished⟩ := after
    obtain ⟨rfl, _⟩ := DeadManCall.tick.inj input
    rw [liquidated10, List.mem_singleton] at member
    subst member
    exact absurd finished (by decide +kernel)
  · obtain ⟨a, member, label, _⟩ := acquired (Drill.step .acquireAssets, 4) (by decide +kernel) rfl
    have inEpoch := List.mem_map_of_mem (f := Attempt.label) member
    rw [attempted, label] at inEpoch
    exact absurd inEpoch (by decide +kernel)

/-- Satisfiable pole: a plan worked through, its order settled. -/
theorem dormant_honest_drill :
    AfterGrace (Drill.machine.trace (.new _ none) Drill.settling)
        (Drill.last Drill.settling (.tick 41 Drill.calm)) ∨
      AllAcquired (Drill.machine.trace (.new _ none) Drill.settling)
        (Drill.last Drill.settling (.tick 41 Drill.calm)) := by
  have well : ∀ call ∈ Drill.settling ++ [.tick 41 Drill.calm], ∀ now outside,
      call = .tick now outside → outside = Drill.calm := by
    simp [Drill.settling, Drill.silence]
  have split : (deadManMachine (Drill.config Drill.plan)).trace (.new _ none)
      (Drill.settling ++ [.tick 41 Drill.calm]) =
        Drill.machine.trace (.new _ none) Drill.settling ++
          Drill.last Drill.settling (.tick 41 Drill.calm) :: [] := rfl
  exact dormant_honest (Drill.config Drill.plan) none (Drill.settling ++ [.tick 41 Drill.calm])
    (by decide +kernel) (Drill.safe well (by decide +kernel)) _ _ _ split (by decide +kernel)
    (by decide +kernel)

/-- Refuting pole: a liquidating switch forgets since when, though its state is kept. -/
theorem disarm_forgets_timer :
    ¬ ∀ (config : DeadManConfig) (governanceKey : Option String) (calls : List DeadManCall)
        (now : ℚ) (key : String),
      RefusedUnchanged ((deadManMachine config).run (.new config governanceKey) calls) now key := by
  intro unchanged
  have same := unchanged (Drill.config Drill.plan) (some "multisig")
    (Drill.silence ++ [.tick 40 Drill.calm]) 50 "multisig" (by decide +kernel)
  have since := congrArg DeadManSwitchDaemon.liquidatingSince same
  exact absurd since (by decide +kernel)

end CentaurApex.Doomsday
