/-
# Doomsday.Completion -- when the ladder is climbed to its end

Once every step of the plan is overdue, each tick takes the switch a rung higher
until it liquidates (`tick_climbs`): an escalating switch attempts what is left of
its plan, and the plan ends with its last step or with the first that raises.  So
three ticks are enough from any rung (`completes_iff`) -- if the plan has a last
step.  The empty plan, which is the default, has none: the loop that would move the
switch on does not run, and it escalates for good (`empty_plan_stays`).
-/
import CentaurApex.Doomsday.Escalation

namespace CentaurApex.Doomsday

open CentaurApex.Theory
open CentaurApex.Theory.ExtNum (fin posInf)
open CentaurApex.Theory.Python

set_option autoImplicit false

section Completion

variable {config : DeadManConfig}

/-! ## Overdue ticks -/

/-- The last step of the plan has been due for more than a period, at `now`, by a
heartbeat at `b`. -/
def DeadManConfig.Overdue (config : DeadManConfig) (b now : ℚ) : Prop :=
  fin (now - b) >
    config.gracePeriod + fin ((config.plan.length + 1 : Nat) : ℚ) * config.escalationPeriod

instance (b now : ℚ) : Decidable (config.Overdue b now) := inferInstanceAs (Decidable (_ < _))

/-- No heartbeat, no disarm: overdue ticks, and orders that change at the oracle. -/
def SilentCall (config : DeadManConfig) (b : ℚ) : DeadManCall → Prop
  | .tick now _ => config.Overdue b now
  | .orderStatus _ _ => True
  | .beat _ _ => False
  | .disarm _ _ => False

instance (b : ℚ) : (call : DeadManCall) → Decidable (SilentCall config b call)
  | .tick now _ => inferInstanceAs (Decidable (config.Overdue b now))
  | .orderStatus _ _ => isTrue trivial
  | .beat _ _ => isFalse id
  | .disarm _ _ => isFalse id

def DeadManCall.isTick : DeadManCall → Bool
  | .tick _ _ => true
  | _ => false

/-- What an overdue tick finds: the periods are numbers, and the quotient is above the
length of the plan. -/
theorem DeadManConfig.Overdue.spec {b now : ℚ} (overdue : config.Overdue b now) :
    fin (now - b) > config.gracePeriod ∧
      fin (now - b) > config.gracePeriod + config.escalationPeriod ∧
      ∃ stepNo : ℤ, intFloorDiv (fin (now - b) - config.gracePeriod) config.escalationPeriod =
        .ok stepNo ∧ (config.plan.length : ℤ) < stepNo := by
  unfold DeadManConfig.Overdue at overdue
  rcases config.periods with ⟨g, e, _, he, grace, escalation⟩ | ⟨grace, escalation⟩
  · rw [grace, escalation] at overdue ⊢
    simp only [gt_iff_lt, ExtNum.fin_mul_fin, ExtNum.fin_add_fin, ExtNum.fin_lt_fin,
      ExtNum.fin_sub_fin] at overdue ⊢
    have number : (1 : ℚ) ≤ ((config.plan.length + 1 : Nat) : ℚ) := by
      exact_mod_cast Nat.succ_pos _
    have period : e ≤ ((config.plan.length + 1 : Nat) : ℚ) * e := le_mul_of_one_le_left he.le number
    have nonzero : fin e ≠ (fin 0 : ExtNum ℚ) := fun zero => he.ne' (ExtNum.fin.inj zero)
    refine ⟨by linarith, by linarith, ⌊(now - b - g) / e⌋, if_neg nonzero, ?_⟩
    have quotient : ((config.plan.length + 1 : Nat) : ℤ) ≤ ⌊(now - b - g) / e⌋ := by
      rw [Int.le_floor, le_div_iff₀ he]
      push_cast at overdue ⊢
      linarith
    omega
  · -- an infinite grace period is never over
    rw [grace, escalation] at overdue
    cases product : fin ((config.plan.length + 1 : Nat) : ℚ) * posInf <;>
      rw [product] at overdue <;> exact overdue.elim

/-! ## An unfinished plan -/

/-- While the switch escalates, some step of its plan is left. -/
structure Unfinished (d : DeadManSwitchDaemon config) : Prop where
  grounded : Grounded d
  left : d.state = .escalating → config.plan ≠ [] → d.stepIndex < config.plan.length

theorem unfinished_new (governanceKey : Option String) :
    Unfinished (DeadManSwitchDaemon.new config governanceKey) :=
  ⟨⟨fun _ => rfl, Nat.zero_le _⟩, fun entered => (by cases entered)⟩

theorem tick_left {d d' : DeadManSwitchDaemon config} {now : ℚ} {outside : Outside}
    {attempts : List Attempt} (case : d.TickCase now outside attempts d')
    (unfinished : Unfinished d) (escalating : d'.state = .escalating) (plan : config.plan ≠ []) :
    d'.stepIndex < config.plan.length := by
  cases case with
  | off disabled => cases escalating
  | keeps idle => exact unfinished.left escalating plan
  | watches state late => cases escalating
  | resumes state fresh => cases escalating
  | escalates state late =>
      have zero : d.stepIndex = 0 := unfinished.grounded.rest (Or.inr state)
      exact zero ▸ List.length_pos_of_ne_nil plan
  | aborts state fresh below => cases escalating
  | executes state hi k bound due steps ran =>
      cases ran.ending with
      | stopped last more state since =>
          rw [ran.stepIndex]
          exact more
      | complete last state since =>
          rw [state] at escalating
          cases escalating
      | failed step member raised state since =>
          rw [state] at escalating
          cases escalating
  | waits state unsettled young => exact unfinished.left escalating plan
  | ends state finished detail => cases escalating

theorem step_unfinished (enabled : config.escalationEnabled = true)
    (d : DeadManSwitchDaemon config) (call : DeadManCall) (unfinished : Unfinished d) :
    Unfinished ((deadManMachine config).step d call).2 := by
  refine ⟨(step_advance enabled unfinished.grounded call).grounded, fun escalating plan => ?_⟩
  cases call with
  | beat now signed =>
      obtain ⟨_, lastBeat, journal, after⟩ := step_beat d now signed
      rw [after] at escalating ⊢
      exact unfinished.left escalating plan
  | disarm now key =>
      obtain ⟨_, after | ⟨journal, after⟩⟩ := step_disarm d now key
      · rw [after] at escalating ⊢
        exact unfinished.left escalating plan
      · rw [after]
        exact List.length_pos_of_ne_nil plan
  | tick now outside => exact tick_left (d.tick_cases now outside) unfinished escalating plan
  | orderStatus index status => exact unfinished.left escalating plan

/-! ## The climb -/

/-- The rungs below liquidating, counted; liquidating and dormant are the top. -/
def rung : EscalationState → Nat
  | .armed => 0
  | .watching => 1
  | .escalating => 2
  | .liquidating => 3
  | .dormant => 3

theorem three_le_rung {state : EscalationState} :
    3 ≤ rung state ↔ state = .liquidating ∨ state = .dormant := by
  cases state <;> decide

/-- An escalating switch with an overdue plan attempts all that is left of it. -/
theorem tick_liquidates (enabled : config.escalationEnabled = true)
    {d : DeadManSwitchDaemon config} (escalating : d.state = .escalating)
    (left : d.stepIndex < config.plan.length) {b now : ℚ} (beaten : d.lastBeat = some b)
    (overdue : config.Overdue b now) (outside : Outside) :
    (d.tick now outside).daemon.state = .liquidating := by
  obtain ⟨grace, -, stepNo, quotient, above⟩ := overdue.spec
  have elapsed : d.elapsed now = fin (now - b) := by
    rw [DeadManSwitchDaemon.elapsed, beaten, Option.getD_some]
  have stale : ¬ (fin (now - b) ≤ config.gracePeriod ∧ d.canAbort = true) :=
    fun abort => ExtNum.not_le_of_lt grace abort.1
  have all : min stepNo.toNat config.plan.length = config.plan.length := by omega
  have behind : ¬ stepNo ≤ d.stepIndex := by omega
  obtain ⟨k, ran⟩ := DeadManSwitchDaemon.runPlan_ran now outside (le_refl _) left escalating
  rw [DeadManSwitchDaemon.tick, if_neg (DeadManConfig.not_disabled enabled)]
  simp only [escalating, elapsed, if_neg stale, DeadManSwitchDaemon.tickPlan, quotient,
    if_neg behind, all, Ticked.returned]
  cases ran.ending with
  | stopped last more state since => exact absurd last more.ne
  | complete last state since => exact state
  | failed step member raised state since => exact state

/-- **An overdue tick climbs.** -/
theorem tick_climbs (enabled : config.escalationEnabled = true) (plan : config.plan ≠ [])
    {d : DeadManSwitchDaemon config} (unfinished : Unfinished d) {b now : ℚ}
    (beaten : d.lastBeat = some b) (overdue : config.Overdue b now) (outside : Outside) :
    min 3 (rung d.state + 1) ≤ rung (d.tick now outside).daemon.state := by
  obtain ⟨grace, escalation, -⟩ := overdue.spec
  have elapsed : d.elapsed now = fin (now - b) := by
    rw [DeadManSwitchDaemon.elapsed, beaten, Option.getD_some]
  rw [← elapsed] at grace escalation
  cases state : d.state with
  | armed =>
      have climbed : (d.tick now outside).daemon.state = .watching := by
        rw [DeadManSwitchDaemon.tick, if_neg (DeadManConfig.not_disabled enabled)]
        simp only [state, Ticked.returned, if_pos grace]
        rw [DeadManSwitchDaemon.move_eq now _ (by rw [state]; decide)]
        rfl
      rw [climbed]
      decide
  | watching =>
      have climbed : (d.tick now outside).daemon.state = .escalating := by
        rw [DeadManSwitchDaemon.tick, if_neg (DeadManConfig.not_disabled enabled)]
        simp only [state, Ticked.returned, if_neg (ExtNum.not_le_of_lt grace), if_pos escalation]
        rw [DeadManSwitchDaemon.move_eq now _ (by rw [state]; decide)]
        rfl
      rw [climbed]
      decide
  | escalating =>
      rw [tick_liquidates enabled state (unfinished.left state plan) beaten overdue outside]
      decide
  | liquidating =>
      rw [DeadManSwitchDaemon.tick, if_neg (DeadManConfig.not_disabled enabled)]
      simp only [state, Ticked.returned]
      split
      · rw [DeadManSwitchDaemon.move_eq now _
          (by rw [DeadManSwitchDaemon.startTimer, state]; decide)]
        exact Nat.min_le_left _ _
      · rw [DeadManSwitchDaemon.startTimer, state]
        decide
  | dormant =>
      rw [DeadManSwitchDaemon.tick, if_neg (DeadManConfig.not_disabled enabled)]
      simp only [state, Ticked.returned]
      decide

/-- **Silence climbs a rung a tick.** -/
theorem silence_climbs (enabled : config.escalationEnabled = true) (plan : config.plan ≠ [])
    {d : DeadManSwitchDaemon config} (unfinished : Unfinished d) {b : ℚ}
    (beaten : d.lastBeat = some b) {silence : List DeadManCall}
    (silent : ∀ call ∈ silence, SilentCall config b call) :
    min 3 (rung d.state + silence.countP DeadManCall.isTick) ≤
      rung ((deadManMachine config).run d silence).state := by
  induction silence generalizing d with
  | nil => exact Nat.min_le_right _ _
  | cons call silence ih =>
      obtain ⟨first, rest⟩ := List.forall_mem_cons.mp silent
      have next := step_unfinished enabled d call unfinished
      rw [List.countP_cons, Machine.run]
      cases call with
      | beat now signed => exact first.elim
      | disarm now key => exact first.elim
      | tick now outside =>
          have climbed := tick_climbs enabled plan unfinished beaten first outside
          have later := ih next ((tick_lastBeat (d.tick_cases now outside)).trans beaten) rest
          have one : (if (DeadManCall.tick now outside).isTick = true then 1 else 0) = 1 := rfl
          have same : ((deadManMachine config).step d (.tick now outside)).2 =
            (d.tick now outside).daemon := rfl
          rw [one]
          rw [same] at later ⊢
          omega
      | orderStatus index status => exact ih next beaten rest

/-! ## The empty plan -/

theorem tick_empty_plan (empty : config.plan = []) {d d' : DeadManSwitchDaemon config} {now : ℚ}
    {outside : Outside} {attempts : List Attempt} (case : d.TickCase now outside attempts d')
    (low : rung d.state < 3) : rung d'.state < 3 := by
  cases case with
  | executes state hi k bound due steps ran =>
      -- the loop would have to attempt a step
      have some_ := (ran.some_.trans_le ran.due).trans_le bound
      rw [empty] at some_
      exact absurd some_ (Nat.not_lt_zero _)
  | waits state unsettled young =>
      rw [state] at low
      exact absurd low (by decide)
  | ends state finished detail =>
      rw [state] at low
      exact absurd low (by decide)
  | off disabled => exact (by decide : rung .armed < 3)
  | keeps idle => exact low
  | watches state late => exact (by decide : rung .watching < 3)
  | resumes state fresh => exact (by decide : rung .armed < 3)
  | escalates state late => exact (by decide : rung .escalating < 3)
  | aborts state fresh below => exact (by decide : rung .armed < 3)

/-- Without a step to fail or to be the last, no call makes the switch liquidate. -/
theorem step_empty_plan (empty : config.plan = []) (d : DeadManSwitchDaemon config)
    (call : DeadManCall) (low : rung d.state < 3) :
    rung ((deadManMachine config).step d call).2.state < 3 := by
  cases call with
  | beat now signed =>
      obtain ⟨_, lastBeat, journal, after⟩ := step_beat d now signed
      rw [after]
      exact low
  | disarm now key =>
      obtain ⟨_, after | ⟨journal, after⟩⟩ := step_disarm d now key
      · rw [after]
        exact low
      · rw [after]
        dsimp only
        split
        · decide
        · exact low
  | orderStatus index status => exact low
  | tick now outside => exact tick_empty_plan empty (d.tick_cases now outside) low

/-- **With the empty plan the switch never liquidates.** -/
theorem empty_plan_stays (empty : config.plan = []) {d : DeadManSwitchDaemon config}
    (low : rung d.state < 3) (calls : List DeadManCall) :
    rung ((deadManMachine config).run d calls).state < 3 :=
  (deadManMachine config).run_invariant (P := fun d => rung d.state < 3)
    (fun d call => step_empty_plan empty d call) low calls

/-! ## Completion -/

/-- **The ladder is climbed to its end, unless the plan is empty**: from armed, watching
or escalating, with a heartbeat recorded, three overdue ticks without a heartbeat or
a disarm end in liquidating or dormant. -/
theorem completes_iff (config : DeadManConfig) (enabled : config.escalationEnabled = true)
    (governanceKey : Option String) (calls silence : List DeadManCall) (b : ℚ)
    (d : DeadManSwitchDaemon config)
    (run : (deadManMachine config).run (.new config governanceKey) calls = d)
    (climbing : d.state = .armed ∨ d.state = .watching ∨ d.state = .escalating)
    (beaten : d.lastBeat = some b) (silent : ∀ call ∈ silence, SilentCall config b call)
    (three : 3 ≤ silence.countP DeadManCall.isTick) :
    (((deadManMachine config).run d silence).state = .liquidating ∨
        ((deadManMachine config).run d silence).state = .dormant) ↔
      config.plan ≠ [] := by
  rw [← three_le_rung]
  constructor
  · intro ended empty
    have low : rung d.state < 3 := by
      rcases climbing with state | state | state <;> rw [state] <;> decide
    exact absurd ended (not_le.mpr (empty_plan_stays empty low silence))
  · intro plan
    have unfinished : Unfinished d := by
      rw [← run]
      exact (deadManMachine config).run_invariant (step_unfinished enabled)
        (unfinished_new governanceKey) calls
    have climbed := silence_climbs enabled plan unfinished beaten silent
    omega

end Completion

/-! ### Poles -/

namespace Drill

/-- Three ticks after the last step is overdue. -/
def overdueTicks : List DeadManCall := [.tick 40 calm, .tick 41 calm, .tick 42 calm]

end Drill

/-- Satisfiable pole: five steps at the first of the ticks, and the conversion is awaited. -/
theorem completes_drill :
    (Drill.machine.run (Drill.after Drill.silence) Drill.overdueTicks).state = .liquidating ∨
      (Drill.machine.run (Drill.after Drill.silence) Drill.overdueTicks).state = .dormant :=
  (completes_iff (Drill.config Drill.plan) rfl none Drill.silence Drill.overdueTicks 0 _ rfl
    (by decide +kernel) (by decide +kernel) (by decide +kernel) (by decide)).mpr (by decide)

/-- Refuting pole: the default plan leaves the switch escalating. -/
theorem empty_plan_incomplete :
    ¬ ∀ (config : DeadManConfig) (governanceKey : Option String)
        (calls silence : List DeadManCall) (b : ℚ), config.escalationEnabled = true →
      (((deadManMachine config).run (.new config governanceKey) calls).state = .armed ∨
        ((deadManMachine config).run (.new config governanceKey) calls).state = .watching ∨
        ((deadManMachine config).run (.new config governanceKey) calls).state = .escalating) →
      ((deadManMachine config).run (.new config governanceKey) calls).lastBeat = some b →
      (∀ call ∈ silence, SilentCall config b call) →
      silence.countP DeadManCall.isTick = 3 →
        ((deadManMachine config).run (.new config governanceKey) (calls ++ silence)).state =
            .liquidating ∨
          ((deadManMachine config).run (.new config governanceKey) (calls ++ silence)).state =
            .dormant := by
  intro completes
  have ended := completes (Drill.config []) none [.beat 0 false] Drill.overdueTicks 0 rfl
    (by decide +kernel) (by decide +kernel) (by decide +kernel) (by decide)
  exact absurd ended (by decide +kernel)

end CentaurApex.Doomsday
