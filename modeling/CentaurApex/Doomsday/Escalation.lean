/-
# Doomsday.Escalation -- the plan in order, and the point of no return

The switch as a machine over `beat`, `disarm`, `tick` and the changes of its
orders at the oracle.  `tick_cases` says once what a tick can do, and
`runPlan_ran` what its loop over the plan does: it attempts the steps that
follow `_step_index`, up to the last that is due or the first that raises.

* `plan_in_order`: within an escalation the steps attempted are the first
  `_step_index` of the plan, each once and in order, none before it is due and
  none outside an escalation.
* `abort_threshold`: below the threshold a beat and a tick within the grace
  period bring the switch back to armed; at the threshold, and from liquidating
  on, no beats and ticks do.

Times are exact numbers.  In doubles a step can be due a unit in the last place early: with a
heartbeat of 0.7 seconds, step 4 after 18.899999999999995 of them and not after 18.9.
-/
import CentaurApex.Cortex.TradingDaemon
import CentaurApex.Doomsday.Daemon
import CentaurApex.Theory.Machine
import Mathlib.Data.List.Basic
import Mathlib.Algebra.Order.Floor.Ring
import Mathlib.Data.Rat.Floor

namespace CentaurApex.Doomsday

open CentaurApex.Theory
open CentaurApex.Theory.ExtNum (fin posInf negInf)
open CentaurApex.Theory.Python

set_option autoImplicit false

/-! ## Due steps -/

namespace DeadManConfig

variable (config : DeadManConfig)

/-- Step number `j` is due after so much time without a heartbeat. -/
def DueAfter (elapsed : ExtNum ℚ) (j : Nat) : Prop :=
  config.gracePeriod + fin (j : ℚ) * config.escalationPeriod ≤ elapsed

/-- The periods are positive numbers, or infinite together. -/
theorem periods :
    (∃ g e : ℚ, 0 < g ∧ 0 < e ∧ config.gracePeriod = fin g ∧ config.escalationPeriod = fin e) ∨
      (config.gracePeriod = posInf ∧ config.escalationPeriod = posInf) := by
  have grace : (0 : ℚ) < config.graceMultiplier := by exact_mod_cast config.grace_pos
  have escalation : (0 : ℚ) < config.escalationMultiplier := by exact_mod_cast config.escalation_pos
  have positive := config.interval_pos
  unfold gracePeriod escalationPeriod
  cases interval : config.heartbeatInterval with
  | nan =>
      rw [interval] at positive
      exact absurd positive (ExtNum.not_lt_nan _)
  | negInf =>
      rw [interval] at positive
      exact positive.elim
  | posInf =>
      exact Or.inr ⟨if_pos grace, if_pos escalation⟩
  | fin q =>
      rw [interval, ExtNum.fin_lt_fin] at positive
      exact Or.inl ⟨_, _, mul_pos positive grace, mul_pos positive escalation, rfl, rfl⟩

/-- The quotient of a tick counts the steps that are due. -/
theorem dueAfter_iff {x : ℚ} {stepNo : ℤ}
    (quotient : intFloorDiv (fin x - config.gracePeriod) config.escalationPeriod = .ok stepNo)
    (j : Nat) : config.DueAfter (fin x) j ↔ (j : ℤ) ≤ stepNo := by
  rcases config.periods with ⟨g, e, _, he, grace, escalation⟩ | ⟨grace, escalation⟩
  · have nonzero : fin e ≠ (fin 0 : ExtNum ℚ) := fun zero => he.ne' (ExtNum.fin.inj zero)
    rw [grace, escalation, ExtNum.fin_sub_fin, intFloorDiv, if_neg nonzero] at quotient
    obtain rfl := Except.ok.inj quotient
    rw [DueAfter, grace, escalation, ExtNum.fin_mul_fin, ExtNum.fin_add_fin, ExtNum.fin_le_fin,
      Int.le_floor, le_div_iff₀ he, Int.cast_natCast]
    constructor <;> intro h <;> linarith
  · rw [grace, escalation] at quotient
    cases quotient

/-- Where a step is due, the earlier ones are. -/
theorem DueAfter.mono {config : DeadManConfig} {x y : ℚ} {i j : Nat}
    (due : config.DueAfter (fin x) j) (earlier : i ≤ j) (longer : x ≤ y) :
    config.DueAfter (fin y) i := by
  have number : (i : ℚ) ≤ j := by exact_mod_cast earlier
  unfold DueAfter at due ⊢
  rcases config.periods with ⟨g, e, _, he, grace, escalation⟩ | ⟨grace, escalation⟩
  · rw [grace, escalation, ExtNum.fin_mul_fin, ExtNum.fin_add_fin, ExtNum.fin_le_fin] at due ⊢
    have scaled := mul_le_mul_of_nonneg_right number he.le
    linarith
  · -- an infinite grace period is never over
    rw [grace] at due
    cases product : fin (j : ℚ) * config.escalationPeriod <;> rw [product] at due <;> cases due

/-- The liquidation grace is positive. -/
theorem not_liquidationGrace_lt {x : ℚ} (nonpos : x ≤ 0) : ¬ config.liquidationGrace < fin x := by
  have multiplier : (0 : ℚ) < config.liquidationGraceMultiplier := by
    exact_mod_cast config.liquidation_pos
  unfold liquidationGrace
  rcases config.periods with ⟨g, e, hg, _, grace, _⟩ | ⟨grace, _⟩
  · rw [grace, ExtNum.fin_mul_fin, ExtNum.fin_lt_fin]
    have := mul_pos hg multiplier
    linarith
  · have infinite : (posInf * fin (config.liquidationGraceMultiplier : ℚ) : ExtNum ℚ) = posInf :=
      if_pos multiplier
    rw [grace, infinite]
    exact ExtNum.not_posInf_lt _

theorem not_dueAfter_zero {x : ℚ} (nonpos : x ≤ 0) (j : Nat) : ¬ config.DueAfter (fin x) j := by
  intro due
  have none_ := due.mono (Nat.zero_le j) nonpos
  unfold DueAfter at none_
  rcases config.periods with ⟨g, e, hg, _, grace, escalation⟩ | ⟨grace, escalation⟩
  · rw [grace, escalation, ExtNum.fin_mul_fin, ExtNum.fin_add_fin, ExtNum.fin_le_fin] at none_
    norm_num at none_
    linarith
  · rw [grace, escalation] at none_
    cases none_

theorem not_disabled {config : DeadManConfig} (enabled : config.escalationEnabled = true) :
    ¬ config.escalationEnabled = false := by
  rw [enabled]
  decide

/-! ## The numbered steps -/

@[simp] theorem length_numbered : config.numbered.length = config.plan.length :=
  List.length_zipIdx

/-- The first steps of the plan. -/
theorem steps_zero (k : Nat) : config.steps 0 k = (config.plan.take k).zipIdx 1 := by
  rw [steps, List.drop_zero, numbered]
  refine List.ext_getElem (by simp) fun i first second => ?_
  simp only [List.getElem_take, List.getElem_zipIdx]

theorem steps_eq_nil {lo hi : Nat} (le : hi ≤ lo) : config.steps lo hi = [] := by
  rw [steps, List.drop_eq_nil_iff, List.length_take]
  omega

/-- The first of the steps, and the others. -/
theorem steps_eq_cons {lo hi : Nat} (lt : lo < hi) (bound : hi ≤ config.plan.length) :
    config.steps lo hi = (config.plan[lo], lo + 1) :: config.steps (lo + 1) hi := by
  have inside : lo < (config.numbered.take hi).length := by
    rw [List.length_take, length_numbered]
    omega
  rw [steps, steps, List.drop_eq_getElem_cons inside, List.getElem_take]
  simp only [numbered, List.getElem_zipIdx, Nat.add_comm]

theorem steps_append {lo mid hi : Nat} (first : lo ≤ mid) (second : mid ≤ hi)
    (bound : hi ≤ config.plan.length) :
    config.steps lo mid ++ config.steps mid hi = config.steps lo hi := by
  have taken : config.numbered.take mid = (config.numbered.take hi).take mid := by
    rw [List.take_take, Nat.min_eq_left second]
  have long : lo ≤ ((config.numbered.take hi).take mid).length := by
    simp only [List.length_take, length_numbered]
    omega
  unfold steps
  rw [taken, ← List.drop_append_of_le_length long, List.take_append_drop]

theorem steps_prefix {lo hi hi' : Nat} (le : hi ≤ hi') (bound : hi' ≤ config.plan.length) :
    config.steps lo hi <+: config.steps lo hi' := by
  rcases Nat.le_total lo hi with after | before
  · exact ⟨_, config.steps_append after le bound⟩
  · rw [config.steps_eq_nil before]
    exact List.nil_prefix

theorem mem_numbered_of_mem_steps {lo hi : Nat} {s : EscalationStep × Nat}
    (member : s ∈ config.steps lo hi) : s ∈ config.numbered :=
  List.mem_of_mem_take (List.mem_of_mem_drop member)

/-- A step is among others by its number. -/
theorem mem_steps_iff {lo hi : Nat} {s : EscalationStep × Nat} :
    s ∈ config.steps lo hi ↔ s ∈ config.numbered ∧ lo < s.2 ∧ s.2 ≤ hi := by
  constructor
  · intro member
    refine ⟨config.mem_numbered_of_mem_steps member, ?_⟩
    obtain ⟨i, inside, rfl⟩ := List.mem_iff_getElem.mp member
    simp only [steps, List.length_drop, List.length_take] at inside
    simp only [steps, numbered, List.getElem_drop, List.getElem_take, List.getElem_zipIdx]
    omega
  · rintro ⟨member, after, upTo⟩
    obtain ⟨i, inside, rfl⟩ := List.mem_iff_getElem.mp member
    simp only [numbered, List.getElem_zipIdx] at after upTo
    rw [length_numbered] at inside
    refine List.mem_iff_getElem.mpr ⟨i - lo, ?_, ?_⟩
    · simp only [steps, List.length_drop, List.length_take, length_numbered]
      omega
    · simp only [steps, List.getElem_drop, List.getElem_take]
      congr 1
      omega

theorem number_of_mem {s : EscalationStep × Nat} (member : s ∈ config.numbered) :
    0 < s.2 ∧ s.2 ≤ config.plan.length := by
  have all : config.numbered = config.steps 0 config.plan.length := by
    rw [steps, List.drop_zero, List.take_of_length_le config.length_numbered.le]
  exact (config.mem_steps_iff.mp (all ▸ member)).2

theorem steps_singleton {lo : Nat} (bound : lo < config.plan.length) :
    config.steps lo (lo + 1) = [(config.plan[lo], lo + 1)] := by
  rw [steps_eq_cons config (Nat.lt_succ_self lo) bound, steps_eq_nil config (le_refl _)]

end DeadManConfig

/-! ## One step of the plan -/

/-- The exception a step ends in: the oracle's, where it acquires assets, else its
hook's. -/
def Outside.raises (outside : Outside) (step : EscalationStep) (number : Nat) : Option String :=
  match step.step, outside.submit number, outside.hook number with
  | .acquireAssets, .error exc, _ => some exc
  | _, _, .error exc => some exc
  | _, _, .ok () => none

/-- The order a step records. -/
def Outside.order (outside : Outside) (step : EscalationStep) (number : Nat) :
    Option ConversionOrder :=
  match step.step with
  | .acquireAssets => (outside.submit number).toOption
  | _ => none

/-- What comes of a step, whatever the daemon. -/
def Outside.attempt (outside : Outside) (s : EscalationStep × Nat) : Attempt :=
  ⟨s.1, s.2, outside.order s.1 s.2, outside.raises s.1 s.2⟩

/-- The orders recorded by some steps. -/
def recorded (attempts : List Attempt) : List ConversionOrder := attempts.filterMap Attempt.order

@[simp] theorem recorded_nil : recorded [] = [] := rfl

@[simp] theorem recorded_cons (a : Attempt) (attempts : List Attempt) :
    recorded (a :: attempts) = a.order.toList ++ recorded attempts := by
  cases order : a.order <;> simp [recorded, order]

namespace DeadManSwitchDaemon

variable {config : DeadManConfig}

/-- What neither a note nor a step changes. -/
structure SameLadder (d d' : DeadManSwitchDaemon config) : Prop where
  governanceKey : d'.governanceKey = d.governanceKey
  state : d'.state = d.state
  lastBeat : d'.lastBeat = d.lastBeat
  stepIndex : d'.stepIndex = d.stepIndex
  liquidatingSince : d'.liquidatingSince = d.liquidatingSince

/-- **What a step does**: its attempt depends on the outside alone; to the daemon it
adds its order. -/
theorem executeStep_spec (d : DeadManSwitchDaemon config) (now : ℚ) (outside : Outside)
    (step : EscalationStep) (number : Nat) :
    (d.executeStep now outside step number).1 = outside.attempt (step, number) ∧
      SameLadder d (d.executeStep now outside step number).2 ∧
      (d.executeStep now outside step number).2.orders =
        d.orders ++ (outside.order step number).toList := by
  unfold executeStep Outside.attempt Outside.raises Outside.order
  cases type : step.step <;> cases hook : outside.hook number <;>
    cases submit : outside.submit number <;>
      exact ⟨rfl, ⟨rfl, rfl, rfl, rfl, rfl⟩, by simp [note, recordOrder, Except.toOption]⟩

/-! ## The loop over the plan -/

/-- The daemon after an allowed move. -/
def moved (d : DeadManSwitchDaemon config) (now : ℚ) (target : EscalationState) (detail : String) :
    DeadManSwitchDaemon config :=
  { d with
    journal := d.journal.push ⟨d.state.value, target.value, now, detail⟩
    state := target }

theorem move_eq {d : DeadManSwitchDaemon config} {target : EscalationState} (now : ℚ)
    (detail : String) (allowed : target ∈ transitions d.state) :
    d.move now target detail = (true, d.moved now target detail) :=
  if_pos allowed

/-- How the loop ended: at the last step due, at the end of the plan, or at a step
that raised. -/
inductive PlanEnd (now : ℚ) (outside : Outside) (hi k : Nat) (d d' : DeadManSwitchDaemon config) :
    Prop where
  | stopped (last : k = hi) (more : k < config.plan.length) (state : d'.state = .escalating)
      (since : d'.liquidatingSince = d.liquidatingSince)
  | complete (last : k = config.plan.length) (state : d'.state = .liquidating)
      (since : d'.liquidatingSince = some now)
  | failed (step : EscalationStep) (member : (step, k) ∈ config.numbered)
      (raised : outside.raises step k ≠ none) (state : d'.state = .liquidating)
      (since : d'.liquidatingSince = d.liquidatingSince)

/-- The loop over the steps `lo + 1, …, hi` attempted those up to `k`. -/
structure PlanRan (now : ℚ) (outside : Outside) (lo hi k : Nat) (d : DeadManSwitchDaemon config)
    (ran : List Attempt × DeadManSwitchDaemon config) : Prop where
  attempts : ran.1 = (config.steps lo k).map outside.attempt
  some_ : lo < k
  due : k ≤ hi
  governanceKey : ran.2.governanceKey = d.governanceKey
  lastBeat : ran.2.lastBeat = d.lastBeat
  stepIndex : ran.2.stepIndex = k
  orders : ran.2.orders = d.orders ++ recorded ran.1
  ending : PlanEnd now outside hi k d ran.2

section First

variable {now : ℚ} {outside : Outside} {lo hi : Nat} {d d' : DeadManSwitchDaemon config}
  (inside : lo < config.plan.length)
  (same : SameLadder { d with stepIndex := lo + 1 } d')
  (orders : d'.orders = d.orders ++ (outside.order config.plan[lo] (lo + 1)).toList)
include inside same orders

/-- The loop ended with its first step: the daemon moved, or stays. -/
theorem PlanRan.of_first (lt : lo < hi) {d'' : DeadManSwitchDaemon config}
    (state : EscalationState) (since : Option ℚ) (error : Option String)
    (journal : Journal config.maxJournalEntries Transition)
    (after : d'' = { d' with
      state := state, liquidatingSince := since, lastError := error, journal := journal })
    (ending : PlanEnd now outside hi (lo + 1) d d'') :
    PlanRan now outside lo hi (lo + 1) d ([outside.attempt (config.plan[lo], lo + 1)], d'') := by
  subst after
  refine ⟨?_, Nat.lt_succ_self lo, lt, same.governanceKey, same.lastBeat, same.stepIndex, ?_,
    ending⟩
  · rw [config.steps_singleton inside]
    rfl
  · rw [recorded_cons, recorded_nil, List.append_nil]
    exact orders

/-- The loop went on behind its first step. -/
theorem PlanRan.cons (bound : hi ≤ config.plan.length) {k : Nat}
    {others : List Attempt × DeadManSwitchDaemon config}
    (ran : PlanRan now outside (lo + 1) hi k d' others) :
    PlanRan now outside lo hi k d
      (outside.attempt (config.plan[lo], lo + 1) :: others.1, others.2) := by
  have reached : lo < k := Nat.lt_of_succ_lt ran.some_
  refine ⟨?_, reached, ran.due, ran.governanceKey.trans same.governanceKey,
    ran.lastBeat.trans same.lastBeat, ran.stepIndex, ?_, ?_⟩
  · rw [config.steps_eq_cons reached (ran.due.trans bound), List.map_cons, ran.attempts]
  · rw [ran.orders, orders, List.append_assoc, recorded_cons]
    rfl
  · cases ran.ending with
    | stopped last more state since =>
        exact .stopped last more state (since.trans same.liquidatingSince)
    | complete last state since => exact .complete last state since
    | failed step member raised state since =>
        exact .failed step member raised state (since.trans same.liquidatingSince)

end First

/-- **What the loop of a tick does.** -/
theorem runPlan_ran (now : ℚ) (outside : Outside) {hi : Nat} (bound : hi ≤ config.plan.length)
    {lo : Nat} {d : DeadManSwitchDaemon config} (lt : lo < hi) (escalating : d.state = .escalating) :
    ∃ k, PlanRan now outside lo hi k d (d.runPlan now outside (config.steps lo hi)) := by
  induction n : hi - lo generalizing lo d with
  | zero => omega
  | succ n ih =>
      have inside : lo < config.plan.length := by omega
      obtain ⟨attempt, same, orders⟩ := executeStep_spec { d with stepIndex := lo + 1 } now outside
        config.plan[lo] (lo + 1)
      have state := same.state.trans escalating
      have liquidates : EscalationState.liquidating ∈ transitions .escalating := by decide
      rw [config.steps_eq_cons lt bound]
      simp only [runPlan, attempt]
      cases raises : outside.raises config.plan[lo] (lo + 1) with
      | some exc =>
          have raised : (outside.attempt (config.plan[lo], lo + 1)).raised = some exc := raises
          have member : (config.plan[lo], lo + 1) ∈ config.numbered :=
            config.mem_numbered_of_mem_steps
              (config.steps_singleton inside ▸ List.mem_singleton_self _)
          simp only [raised, failPlan]
          rw [move_eq now _ (by rw [state]; exact liquidates)]
          refine ⟨lo + 1, .of_first inside same orders lt _ _ _ _ rfl ?_⟩
          exact .failed config.plan[lo] member (by rw [raises]; exact Option.some_ne_none exc) rfl
            same.liquidatingSince
      | none =>
          have calm : (outside.attempt (config.plan[lo], lo + 1)).raised = none := raises
          simp only [calm, closeStep]
          by_cases complete : lo + 1 = config.plan.length
          · -- the last step of the plan: nothing is left of the loop
            rw [if_pos complete, config.steps_eq_nil (by omega), runPlan,
              move_eq now _ (by rw [state]; exact liquidates)]
            exact ⟨lo + 1, .of_first inside same orders lt _ _ _ _ rfl (.complete complete rfl rfl)⟩
          · rw [if_neg complete]
            by_cases more : lo + 1 < hi
            · obtain ⟨k, ran⟩ := ih more state (by omega)
              exact ⟨k, .cons inside same orders bound ran⟩
            · rw [config.steps_eq_nil (by omega), runPlan]
              exact ⟨lo + 1, .of_first inside same orders lt _ _ _ _ rfl
                (.stopped (by omega) (by omega) state same.liquidatingSince)⟩

/-! ## What a tick does -/

/-- The steps an escalating switch would attempt at a tick. -/
def stepsDue (d : DeadManSwitchDaemon config) (now : ℚ) : List (EscalationStep × Nat) :=
  match intFloorDiv (d.elapsed now - config.gracePeriod) config.escalationPeriod with
  | .error _ => []
  | .ok stepNo => config.steps d.stepIndex (min stepNo.toNat config.plan.length)

/-! ### The arms of `tick` -/

section Arms

variable {d : DeadManSwitchDaemon config} (enabled : config.escalationEnabled = true) (now : ℚ)
  (outside : Outside)
include enabled

theorem tick_armed (state : d.state = .armed) :
    (d.tick now outside).daemon =
      if d.elapsed now > config.gracePeriod then (d.move now .watching "heartbeat lost").2
      else d := by
  rw [tick, if_neg (DeadManConfig.not_disabled enabled)]
  simp only [state, Ticked.returned]

theorem tick_watching (state : d.state = .watching) :
    (d.tick now outside).daemon =
      if d.elapsed now ≤ config.gracePeriod then
        { (d.move now .armed "heartbeat resumed").2 with stepIndex := 0, liquidatingSince := none }
      else if d.elapsed now > config.gracePeriod + config.escalationPeriod then
        (d.move now .escalating "plan armed").2
      else d := by
  have allowed : EscalationState.armed ∈ transitions d.state := by
    rw [state]
    decide
  rw [tick, if_neg (DeadManConfig.not_disabled enabled), move_eq now _ allowed]
  simp only [state, Ticked.returned, if_true]
  split <;> rfl

theorem tick_escalating (state : d.state = .escalating) :
    (d.tick now outside).daemon =
      if d.elapsed now ≤ config.gracePeriod ∧ d.canAbort then
        { (d.move now .armed "heartbeat resumed").2 with stepIndex := 0 }
      else (d.runPlan now outside (d.stepsDue now)).2 := by
  have allowed : EscalationState.armed ∈ transitions d.state := by
    rw [state]
    decide
  rw [tick, if_neg (DeadManConfig.not_disabled enabled), move_eq now _ allowed]
  simp only [state, Ticked.returned, if_true]
  split
  · rfl
  · unfold tickPlan stepsDue
    cases intFloorDiv (d.elapsed now - config.gracePeriod) config.escalationPeriod with
    | error e => rfl
    | ok stepNo =>
        dsimp only
        split
        · rename_i behind
          have none_ : min stepNo.toNat config.plan.length ≤ d.stepIndex := by omega
          rw [config.steps_eq_nil none_]
          rfl
        · rfl

theorem tick_liquidating (state : d.state = .liquidating) :
    (d.tick now outside).daemon =
      if ¬ d.pending ∨ d.graceElapsed now then
        ((d.startTimer now).move now .dormant (if ¬ d.pending then
          "conversions settled or none required"
        else "liquidation grace elapsed (orders unsettled, evidence sealed)")).2
      else d.startTimer now := by
  rw [tick, if_neg (DeadManConfig.not_disabled enabled)]
  simp only [state, Ticked.returned]

theorem tick_dormant_eq (state : d.state = .dormant) : (d.tick now outside).daemon = d := by
  rw [tick, if_neg (DeadManConfig.not_disabled enabled)]
  simp only [state, Ticked.returned]

end Arms

/-- The ways a tick goes: the steps it attempts, and the daemon after it. -/
inductive TickCase (d : DeadManSwitchDaemon config) (now : ℚ) (outside : Outside) :
    List Attempt → DeadManSwitchDaemon config → Prop where
  | off (disabled : config.escalationEnabled = false) :
      TickCase d now outside [] { d with state := .armed }
  | keeps (idle : d.state ≠ .liquidating) : TickCase d now outside [] d
  | watches (state : d.state = .armed) (late : d.elapsed now > config.gracePeriod) :
      TickCase d now outside [] (d.moved now .watching "heartbeat lost")
  | resumes (state : d.state = .watching) (fresh : d.elapsed now ≤ config.gracePeriod) :
      TickCase d now outside [] { d.moved now .armed "heartbeat resumed" with
        stepIndex := 0, liquidatingSince := none }
  | escalates (state : d.state = .watching)
      (late : d.elapsed now > config.gracePeriod + config.escalationPeriod) :
      TickCase d now outside [] (d.moved now .escalating "plan armed")
  | aborts (state : d.state = .escalating) (fresh : d.elapsed now ≤ config.gracePeriod)
      (below : d.stepIndex < config.abortableUntilStep) :
      TickCase d now outside [] { d.moved now .armed "heartbeat resumed" with stepIndex := 0 }
  | executes (state : d.state = .escalating) (hi k : Nat) (bound : hi ≤ config.plan.length)
      (due : config.DueAfter (d.elapsed now) hi)
      (steps : d.stepsDue now = config.steps d.stepIndex hi)
      (ran : PlanRan now outside d.stepIndex hi k d
        (d.runPlan now outside (config.steps d.stepIndex hi))) :
      TickCase d now outside (d.runPlan now outside (config.steps d.stepIndex hi)).1
        (d.runPlan now outside (config.steps d.stepIndex hi)).2
  | waits (state : d.state = .liquidating) (unsettled : d.pending = true)
      (young : ¬ d.graceElapsed now) :
      TickCase d now outside [] (d.startTimer now)
  | ends (state : d.state = .liquidating) (finished : d.pending = false ∨ d.graceElapsed now)
      (detail : String) :
      TickCase d now outside [] ((d.startTimer now).moved now .dormant detail)

/-- **A tick goes one of these ways.** -/
theorem tick_cases (d : DeadManSwitchDaemon config) (now : ℚ) (outside : Outside) :
    TickCase d now outside (d.tick now outside).attempts (d.tick now outside).daemon := by
  unfold tick
  split
  · rename_i disabled
    exact .off disabled
  · cases state : d.state with
    | armed =>
        dsimp only [Ticked.returned]
        split
        · rename_i late
          rw [move_eq now _ (by rw [state]; decide)]
          exact .watches state late
        · exact .keeps (by rw [state]; decide)
    | watching =>
        dsimp only
        split
        · rename_i fresh
          rw [move_eq now _ (by rw [state]; decide)]
          exact .resumes state fresh
        · dsimp only [Ticked.returned]
          split
          · rename_i late
            rw [move_eq now _ (by rw [state]; decide)]
            exact .escalates state late
          · exact .keeps (by rw [state]; decide)
    | escalating =>
        dsimp only
        split
        · rename_i abort
          rw [move_eq now _ (by rw [state]; decide)]
          exact .aborts state abort.1 (of_decide_eq_true abort.2)
        · unfold tickPlan
          cases quotient : intFloorDiv (d.elapsed now - config.gracePeriod)
              config.escalationPeriod with
          | error e => exact .keeps (by rw [state]; decide)
          | ok stepNo =>
              dsimp only
              split
              · exact .keeps (by rw [state]; decide)
              · rename_i ahead
                by_cases lt : d.stepIndex < min stepNo.toNat config.plan.length
                · obtain ⟨k, ran⟩ := runPlan_ran now outside (min_le_right _ _) lt state
                  refine .executes state _ k (min_le_right _ _) ?_ ?_ ran
                  · refine (config.dueAfter_iff quotient _).mpr ?_
                    omega
                  · rw [stepsDue, quotient]
                · rw [config.steps_eq_nil (not_lt.mp lt)]
                  exact .keeps (by rw [state]; decide)
    | liquidating =>
        dsimp only [Ticked.returned]
        split
        · rename_i finished
          rw [move_eq now _ (by rw [startTimer, state]; decide)]
          exact .ends state (finished.imp Bool.eq_false_iff.mpr id) _
        · rename_i young
          rw [not_or, not_not] at young
          exact .waits state young.1 young.2
    | dormant => exact .keeps (by rw [state]; decide)

end DeadManSwitchDaemon

/-! ## The switch as a machine -/

/-- A call of the switch, with the clock it reads; or an order that changes at the
oracle. -/
inductive DeadManCall where
  | beat (now : ℚ) (signed : Bool)
  | disarm (now : ℚ) (governanceKey : String)
  | tick (now : ℚ) (outside : Outside)
  | orderStatus (index : Nat) (status : ConversionStatus)

structure Called where
  result : Except PyError (Option EscalationState)
  attempts : List Attempt

/-- A call that returns nothing or raises, and changes nothing when it raises. -/
def Called.ofExcept {config : DeadManConfig} (d : DeadManSwitchDaemon config) :
    Except PyError (DeadManSwitchDaemon config) → Called × DeadManSwitchDaemon config
  | .ok d' => (⟨.ok none, []⟩, d')
  | .error e => (⟨.error e, []⟩, d)

def DeadManSwitchDaemon.setStatus {config : DeadManConfig} (d : DeadManSwitchDaemon config)
    (index : Nat) (status : ConversionStatus) : DeadManSwitchDaemon config :=
  { d with orders := d.orders.modify index fun order => { order with status := status } }

def deadManMachine (config : DeadManConfig) :
    Machine (DeadManSwitchDaemon config) DeadManCall Called where
  step d
    | .beat now signed => Called.ofExcept d (d.beat now signed)
    | .disarm now governanceKey => Called.ofExcept d (d.disarm now governanceKey)
    | .tick now outside =>
        let ticked := d.tick now outside
        (⟨ticked.result.map some, ticked.attempts⟩, ticked.daemon)
    | .orderStatus index status => (⟨.ok none, []⟩, d.setStatus index status)

abbrev DeadManEvent (config : DeadManConfig) : Type :=
  Event (DeadManSwitchDaemon config) DeadManCall Called

section Machine

variable {config : DeadManConfig}

/-- A beat moves the last heartbeat, and at most leaves a note. -/
theorem beat_ok {d d' : DeadManSwitchDaemon config} {now : ℚ} {signed : Bool}
    (beaten : d.beat now signed = .ok d') :
    ∃ journal, d' = { d with lastBeat := some now, journal := journal } := by
  unfold DeadManSwitchDaemon.beat at beaten
  split at beaten
  · cases beaten
  · obtain rfl := Except.ok.inj beaten
    split
    · exact ⟨_, rfl⟩
    · exact ⟨d.journal, rfl⟩

/-- An accepted `disarm` resets the ladder, and arms from watching and escalating. -/
theorem disarm_ok {d d' : DeadManSwitchDaemon config} {now : ℚ} {key : String}
    (disarmed : d.disarm now key = .ok d') :
    ∃ journal, d' = { d with
      state := if EscalationState.armed ∈ transitions d.state then .armed else d.state
      journal := journal
      stepIndex := 0
      liquidatingSince := none
      lastBeat := some now } := by
  unfold DeadManSwitchDaemon.disarm at disarmed
  split at disarmed
  · cases disarmed
  · obtain rfl := Except.ok.inj disarmed
    unfold DeadManSwitchDaemon.move
    split
    · exact ⟨_, rfl⟩
    · exact ⟨d.journal, rfl⟩

/-- A beat touches the last heartbeat and the journal. -/
theorem step_beat (d : DeadManSwitchDaemon config) (now : ℚ) (signed : Bool) :
    ((deadManMachine config).step d (.beat now signed)).1.attempts = [] ∧
      ∃ lastBeat journal, ((deadManMachine config).step d (.beat now signed)).2 =
        { d with lastBeat := lastBeat, journal := journal } := by
  cases beaten : d.beat now signed with
  | error e =>
      simp only [deadManMachine, beaten, Called.ofExcept, true_and]
      exact ⟨d.lastBeat, d.journal, rfl⟩
  | ok d' =>
      obtain ⟨journal, rfl⟩ := beat_ok beaten
      simp only [deadManMachine, beaten, Called.ofExcept, true_and]
      exact ⟨some now, journal, rfl⟩

/-- A `disarm` changes nothing or resets the ladder. -/
theorem step_disarm (d : DeadManSwitchDaemon config) (now : ℚ) (key : String) :
    ((deadManMachine config).step d (.disarm now key)).1.attempts = [] ∧
      (((deadManMachine config).step d (.disarm now key)).2 = d ∨
        ∃ journal, ((deadManMachine config).step d (.disarm now key)).2 = { d with
          state := if EscalationState.armed ∈ transitions d.state then .armed else d.state
          journal := journal
          stepIndex := 0
          liquidatingSince := none
          lastBeat := some now }) := by
  cases disarmed : d.disarm now key with
  | error e =>
      simp only [deadManMachine, disarmed, Called.ofExcept, true_and]
      exact Or.inl trivial
  | ok d' =>
      obtain ⟨journal, rfl⟩ := disarm_ok disarmed
      simp only [deadManMachine, disarmed, Called.ofExcept, true_and]
      exact Or.inr ⟨journal, rfl⟩

theorem step_disarm_refused {d : DeadManSwitchDaemon config} {key : String}
    (refused : d.governanceKey ≠ some key) (now : ℚ) :
    ((deadManMachine config).step d (.disarm now key)).2 = d := by
  simp only [deadManMachine, DeadManSwitchDaemon.disarm, if_pos refused, Called.ofExcept]

/-- A switch that may not escalate stays armed. -/
theorem step_disabled (disabled : config.escalationEnabled = false)
    (d : DeadManSwitchDaemon config) (call : DeadManCall) (armed : d.state = .armed) :
    ((deadManMachine config).step d call).2.state = .armed := by
  cases call with
  | beat now signed =>
      obtain ⟨_, lastBeat, journal, after⟩ := step_beat d now signed
      rw [after]
      exact armed
  | disarm now key =>
      obtain ⟨_, after | ⟨journal, after⟩⟩ := step_disarm d now key
      · rw [after]
        exact armed
      · rw [after]
        exact (ite_eq_left_iff.mpr fun _ => armed)
  | tick now outside =>
      simp only [deadManMachine, DeadManSwitchDaemon.tick, if_pos disabled]
      rfl
  | orderStatus index status => exact armed

/-! ## Escalations in a history -/

/-- The switch begins to escalate. -/
def Enters (e : DeadManEvent config) : Prop :=
  e.before.state ≠ .escalating ∧ e.after.state = .escalating

instance (e : DeadManEvent config) : Decidable (Enters e) := inferInstanceAs (Decidable (_ ∧ _))

/-- The steps attempted since the switch last began to escalate. -/
def epochAttempts (past : List (DeadManEvent config)) : List Attempt :=
  past.foldl (fun attempts e => if Enters e then [] else attempts ++ e.reply.attempts) []

theorem epochAttempts_append (past : List (DeadManEvent config)) (e : DeadManEvent config) :
    epochAttempts (past ++ [e]) =
      if Enters e then [] else epochAttempts past ++ e.reply.attempts := by
  rw [epochAttempts, List.foldl_append]
  rfl

/-- The events of one escalation. -/
theorem epochAttempts_inside (past : List (DeadManEvent config)) {enter : DeadManEvent config}
    (enters : Enters enter) (inside : List (DeadManEvent config))
    (escalating : ∀ e ∈ inside, e.before.state = .escalating) :
    epochAttempts (past ++ enter :: inside) = inside.flatMap (·.reply.attempts) := by
  induction inside using List.reverseRecOn with
  | nil => rw [epochAttempts_append, if_pos enters, List.flatMap_nil]
  | append_singleton inside e ih =>
      have last : e.before.state = .escalating := escalating e (by simp)
      have others := ih fun e member => escalating e (List.mem_append_left _ member)
      rw [← List.cons_append, ← List.append_assoc, epochAttempts_append, others,
        if_neg fun enters => enters.1 last, List.flatMap_append, List.flatMap_singleton]

/-- A step and its number. -/
def Attempt.label (a : Attempt) : EscalationStep × Nat := (a.step, a.number)

/-- How far an escalation got with a call: re-arming resets the index. -/
def reached (d d' : DeadManSwitchDaemon config) : Nat :=
  if d'.state = .armed then d.stepIndex else d'.stepIndex

/-- When the accepted beats and disarms of a history read the clock. -/
def signsOfLife (past : List (DeadManEvent config)) : List ℚ :=
  past.filterMap fun e =>
    match e.input, e.reply.result with
    | .beat now _, .ok _ => some now
    | .disarm now _, .ok _ => some now
    | _, _ => none

/-! ## The plan in order -/

/-- What holds of the step index between calls. -/
structure Grounded (d : DeadManSwitchDaemon config) : Prop where
  rest : d.state = .armed ∨ d.state = .watching → d.stepIndex = 0
  bound : d.stepIndex ≤ config.plan.length

/-- What a call does to the plan: outside an escalation nothing, within one it goes on
where the last call stopped. -/
structure Advance (d : DeadManSwitchDaemon config) (attempts : List Attempt)
    (d' : DeadManSwitchDaemon config) : Prop where
  quiet : d.state ≠ .escalating → attempts = []
  begins : d.state ≠ .escalating → d'.state = .escalating → d'.stepIndex = 0
  goesOn : d.state = .escalating →
    attempts.map Attempt.label = config.steps d.stepIndex (reached d d')
  grows : d.state = .escalating → d.stepIndex ≤ reached d d'
  bounded : d.state = .escalating → reached d d' ≤ config.plan.length
  grounded : Grounded d'

/-- A call that leaves state and step index alone. -/
theorem Advance.of_same {d d' : DeadManSwitchDaemon config} (grounded : Grounded d)
    (state : d'.state = d.state) (stepIndex : d'.stepIndex = d.stepIndex) : Advance d [] d' := by
  have same : reached d d' = d.stepIndex := by
    unfold reached
    split
    · rfl
    · exact stepIndex
  refine ⟨fun _ => rfl, fun other entered => absurd (state ▸ entered) other, fun _ => ?_,
    fun _ => same.ge, fun _ => same.le.trans grounded.bound, ⟨?_, ?_⟩⟩
  · rw [same, config.steps_eq_nil (le_refl _)]
    rfl
  · rw [state, stepIndex]
    exact grounded.rest
  · rw [stepIndex]
    exact grounded.bound

/-- A call that arms and resets the step index. -/
theorem Advance.of_armed {d d' : DeadManSwitchDaemon config} (grounded : Grounded d)
    (state : d'.state = .armed) (stepIndex : d'.stepIndex = 0) : Advance d [] d' := by
  have same : reached d d' = d.stepIndex := if_pos state
  refine ⟨fun _ => rfl, fun _ _ => stepIndex, fun _ => ?_, fun _ => same.ge,
    fun _ => same.le.trans grounded.bound, ⟨fun _ => stepIndex, ?_⟩⟩
  · rw [same, config.steps_eq_nil (le_refl _)]
    rfl
  · rw [stepIndex]
    exact Nat.zero_le _

/-- A call outside an escalation that leaves the step index at zero, or ends. -/
theorem Advance.of_resting {d d' : DeadManSwitchDaemon config} (other : d.state ≠ .escalating)
    (bound : d'.stepIndex ≤ config.plan.length) (low : d'.stepIndex = 0 ∨ d'.state = .dormant) :
    Advance d [] d' := by
  refine ⟨fun _ => rfl, fun _ entered => ?_, fun escalating => absurd escalating other,
    fun escalating => absurd escalating other, fun escalating => absurd escalating other,
    ⟨fun rest => ?_, bound⟩⟩
  · rcases low with zero | dormant
    · exact zero
    · rw [dormant] at entered
      cases entered
  · rcases low with zero | dormant
    · exact zero
    · rw [dormant] at rest
      rcases rest with rest | rest <;> cases rest

theorem map_label_attempt (outside : Outside) (steps : List (EscalationStep × Nat)) :
    (steps.map outside.attempt).map Attempt.label = steps := by
  rw [List.map_map]
  exact List.map_id steps

theorem PlanEnd.state {now : ℚ} {outside : Outside} {hi k : Nat}
    {d d' : DeadManSwitchDaemon config} (ending : DeadManSwitchDaemon.PlanEnd now outside hi k d d') :
    d'.state = .escalating ∨ d'.state = .liquidating := by
  cases ending with
  | stopped _ _ state _ => exact Or.inl state
  | complete _ state _ => exact Or.inr state
  | failed _ _ _ state _ => exact Or.inr state

theorem tick_advance (enabled : config.escalationEnabled = true) {d d' : DeadManSwitchDaemon config}
    (grounded : Grounded d) {now : ℚ} {outside : Outside} {attempts : List Attempt}
    (case : d.TickCase now outside attempts d') : Advance d attempts d' := by
  cases case with
  | off disabled => exact absurd disabled (DeadManConfig.not_disabled enabled)
  | keeps idle => exact .of_same grounded rfl rfl
  | watches state late =>
      exact .of_resting (by rw [state]; decide) grounded.bound (Or.inl (grounded.rest (Or.inl state)))
  | resumes state fresh => exact .of_armed grounded rfl rfl
  | escalates state late =>
      exact .of_resting (by rw [state]; decide) grounded.bound (Or.inl (grounded.rest (Or.inr state)))
  | aborts state fresh below => exact .of_armed grounded rfl rfl
  | executes state hi k bound due steps ran =>
      have ended := PlanEnd.state ran.ending
      have same : reached d (d.runPlan now outside (config.steps d.stepIndex hi)).2 = k := by
        rw [reached, if_neg (by rcases ended with other | other <;> rw [other] <;> decide)]
        exact ran.stepIndex
      refine ⟨fun other => absurd state other, fun other _ => absurd state other, fun _ => ?_,
        fun _ => ?_, fun _ => ?_, ⟨fun rest => ?_, ?_⟩⟩
      · rw [same, ran.attempts, map_label_attempt]
      · rw [same]
        exact ran.some_.le
      · rw [same]
        exact ran.due.trans bound
      · rcases ended with other | other <;> rw [other] at rest <;> simp at rest
      · rw [ran.stepIndex]
        exact ran.due.trans bound
  | waits state unsettled young => exact .of_same grounded rfl rfl
  | ends state finished detail =>
    exact .of_resting (by rw [state]; decide) grounded.bound (Or.inr rfl)

/-- **What any call does to the plan.** -/
theorem step_advance (enabled : config.escalationEnabled = true) {d : DeadManSwitchDaemon config}
    (grounded : Grounded d) (call : DeadManCall) :
    Advance d ((deadManMachine config).step d call).1.attempts
      ((deadManMachine config).step d call).2 := by
  cases call with
  | beat now signed =>
      obtain ⟨quiet, lastBeat, journal, after⟩ := step_beat d now signed
      rw [quiet, after]
      exact .of_same grounded rfl rfl
  | disarm now key =>
      obtain ⟨quiet, after | ⟨journal, after⟩⟩ := step_disarm d now key
      · rw [quiet, after]
        exact .of_same grounded rfl rfl
      · rw [quiet, after]
        by_cases arms : EscalationState.armed ∈ transitions d.state ∨ d.state = .armed
        · refine .of_armed grounded ?_ rfl
          rcases arms with arms | armed
          · exact if_pos arms
          · exact (ite_eq_right_iff.mpr fun _ => armed.symm).trans armed
        · refine .of_resting (fun escalating => arms (Or.inl ?_)) (Nat.zero_le _) (Or.inl rfl)
          rw [escalating]
          decide
  | tick now outside => exact tick_advance enabled grounded (d.tick_cases now outside)
  | orderStatus index status => exact .of_same grounded rfl rfl

/-- What holds of the switch and its history. -/
structure InOrder (past : List (DeadManEvent config)) (d : DeadManSwitchDaemon config) : Prop where
  grounded : Grounded d
  planned : d.state = .escalating →
    (epochAttempts past).map Attempt.label = config.steps 0 d.stepIndex
  lastBeat : d.lastBeat = (signsOfLife past).getLast?

theorem inOrder_new (governanceKey : Option String) :
    InOrder [] (DeadManSwitchDaemon.new config governanceKey) :=
  ⟨⟨fun _ => rfl, Nat.zero_le _⟩, fun entered => (by cases entered), rfl⟩

theorem tick_lastBeat {d d' : DeadManSwitchDaemon config} {now : ℚ} {outside : Outside}
    {attempts : List Attempt} (case : d.TickCase now outside attempts d') :
    d'.lastBeat = d.lastBeat := by
  cases case with
  | executes state hi k bound due steps ran => exact ran.lastBeat
  | _ => rfl

/-- The last heartbeat is the last sign of life. -/
theorem step_lastBeat (d : DeadManSwitchDaemon config) (call : DeadManCall) :
    ((deadManMachine config).step d call).2.lastBeat =
      (signsOfLife [(deadManMachine config).event d call]).getLast?.or d.lastBeat := by
  cases call with
  | beat now signed =>
      cases beaten : d.beat now signed with
      | error e => simp [deadManMachine, Machine.event, signsOfLife, beaten, Called.ofExcept]
      | ok d' =>
          obtain ⟨journal, rfl⟩ := beat_ok beaten
          simp [deadManMachine, Machine.event, signsOfLife, beaten, Called.ofExcept]
  | disarm now key =>
      cases disarmed : d.disarm now key with
      | error e => simp [deadManMachine, Machine.event, signsOfLife, disarmed, Called.ofExcept]
      | ok d' =>
          obtain ⟨journal, rfl⟩ := disarm_ok disarmed
          simp [deadManMachine, Machine.event, signsOfLife, disarmed, Called.ofExcept]
  | tick now outside => exact tick_lastBeat (d.tick_cases now outside)
  | orderStatus index status => rfl

/-- With a call within an escalation, the steps attempted are those up to where it got. -/
theorem InOrder.upTo (enabled : config.escalationEnabled = true)
    {past : List (DeadManEvent config)} {d : DeadManSwitchDaemon config} (order : InOrder past d)
    (escalating : d.state = .escalating) (call : DeadManCall) :
    reached d ((deadManMachine config).step d call).2 ≤ config.plan.length ∧
      (epochAttempts past ++ ((deadManMachine config).step d call).1.attempts).map Attempt.label =
        config.steps 0 (reached d ((deadManMachine config).step d call).2) := by
  have advance := step_advance enabled order.grounded call
  have bounded := advance.bounded escalating
  refine ⟨bounded, ?_⟩
  rw [List.map_append, order.planned escalating, advance.goesOn escalating]
  exact config.steps_append (Nat.zero_le _) (advance.grows escalating) bounded

theorem step_inOrder (enabled : config.escalationEnabled = true)
    (past : List (DeadManEvent config)) (d : DeadManSwitchDaemon config) (call : DeadManCall)
    (order : InOrder past d) :
    InOrder (past ++ [(deadManMachine config).event d call])
      ((deadManMachine config).step d call).2 := by
  have advance := step_advance enabled order.grounded call
  refine ⟨advance.grounded, fun escalating => ?_, ?_⟩
  · rw [epochAttempts_append]
    by_cases inside : d.state = .escalating
    · have same : reached d ((deadManMachine config).step d call).2 =
          ((deadManMachine config).step d call).2.stepIndex :=
        if_neg (by rw [escalating]; decide)
      rw [if_neg fun enters => enters.1 inside, ← same]
      exact (order.upTo enabled inside call).2
    · rw [if_pos ⟨inside, escalating⟩, advance.begins inside escalating,
        config.steps_eq_nil (le_refl _)]
      rfl
  · rw [step_lastBeat, order.lastBeat, signsOfLife, signsOfLife, signsOfLife, List.filterMap_append,
      List.getLast?_append]

/-- A step number of an attempt is due by every sign of life there was. -/
def AttemptDue (past : List (DeadManEvent config)) (e : DeadManEvent config) (a : Attempt) : Prop :=
  ∃ now outside, e.input = .tick now outside ∧ signsOfLife past ≠ [] ∧
    ∀ t ∈ signsOfLife past, config.DueAfter (fin (now - t)) a.number

theorem tick_due {d d' : DeadManSwitchDaemon config} {now : ℚ} {outside : Outside}
    {attempts : List Attempt} (case : d.TickCase now outside attempts d') :
    ∀ a ∈ attempts, config.DueAfter (d.elapsed now) a.number := by
  intro a member
  cases case with
  | executes state hi k bound due steps ran =>
      rw [ran.attempts] at member
      obtain ⟨s, inside, rfl⟩ := List.mem_map.mp member
      have number := (config.mem_steps_iff.mp inside).2.2
      exact due.mono (number.trans ran.due) (le_refl _)
  | _ => cases member

/-- Only a tick attempts steps, and only those that are due. -/
theorem step_due {d : DeadManSwitchDaemon config} {call : DeadManCall} {a : Attempt}
    (member : a ∈ ((deadManMachine config).step d call).1.attempts) :
    ∃ now outside, call = .tick now outside ∧ config.DueAfter (d.elapsed now) a.number := by
  cases call with
  | beat now signed =>
      rw [(step_beat d now signed).1] at member
      cases member
  | disarm now key =>
      rw [(step_disarm d now key).1] at member
      cases member
  | orderStatus index status => cases member
  | tick now outside => exact ⟨now, outside, rfl, tick_due (d.tick_cases now outside) a member⟩

theorem le_last {times : List ℚ} (sorted : times.Pairwise (· ≤ ·)) {last : ℚ}
    (getLast : times.getLast? = some last) : ∀ t ∈ times, t ≤ last := by
  obtain ⟨front, rfl⟩ := List.getLast?_eq_some_iff.mp getLast
  intro t member
  rcases List.mem_append.mp member with earlier | here
  · exact (List.pairwise_append.mp sorted).2.2 t earlier last (List.mem_singleton_self _)
  · exact (List.mem_singleton.mp here).le

/-- A step due by the last sign of life is due by all of them. -/
theorem due_of_all {past : List (DeadManEvent config)} {d : DeadManSwitchDaemon config} {now : ℚ}
    {j : Nat} (clock : (signsOfLife past).Pairwise (· ≤ ·))
    (lastBeat : d.lastBeat = (signsOfLife past).getLast?)
    (due : config.DueAfter (d.elapsed now) j) :
    signsOfLife past ≠ [] ∧ ∀ t ∈ signsOfLife past, config.DueAfter (fin (now - t)) j := by
  unfold DeadManSwitchDaemon.elapsed at due
  cases last : d.lastBeat with
  | none =>
      rw [last, Option.getD_none] at due
      exact absurd due (config.not_dueAfter_zero (sub_self now).le j)
  | some b =>
      rw [last, Option.getD_some] at due
      have getLast := lastBeat.symm.trans last
      refine ⟨fun empty => ?_, fun t member => ?_⟩
      · rw [empty] at getLast
        cases getLast
      · exact due.mono (le_refl j) (sub_le_sub_left (le_last clock getLast t member) now)

/-- **The plan is worked through in order**: an escalation that got to step `k` has
attempted exactly the first `k` steps of the plan, each when it was due, in exact
numbers, and nothing is attempted outside one. -/
theorem plan_in_order (config : DeadManConfig) (enabled : config.escalationEnabled = true)
    (governanceKey : Option String) (calls : List DeadManCall)
    (clock : (signsOfLife ((deadManMachine config).trace (.new config governanceKey)
      calls)).Pairwise (· ≤ ·)) :
    (∀ past enter inside e later,
      (deadManMachine config).trace (.new config governanceKey) calls =
          past ++ enter :: (inside ++ e :: later) →
        Enters enter → (∀ x ∈ inside ++ [e], x.before.state = .escalating) →
          reached e.before e.after ≤ config.plan.length ∧
          ((inside ++ [e]).flatMap (·.reply.attempts)).map Attempt.label =
            (config.plan.take (reached e.before e.after)).zipIdx 1) ∧
      ∀ past e later,
        (deadManMachine config).trace (.new config governanceKey) calls = past ++ e :: later →
          ∀ a ∈ e.reply.attempts, e.before.state = .escalating ∧ AttemptDue past e a := by
  refine ⟨fun past enter inside e later split enters escalating => ?_,
    fun past e later split a member => ?_⟩
  · have split' : (deadManMachine config).trace (.new config governanceKey) calls =
        (past ++ enter :: inside) ++ e :: later := by
      rw [split, List.append_assoc]
      rfl
    obtain ⟨order, step⟩ := (deadManMachine config).history_split (step_inOrder enabled)
      (inOrder_new governanceKey) split'
    have here : e.before.state = .escalating := escalating e (by simp)
    have earlier := epochAttempts_inside past enters inside fun x member =>
      escalating x (List.mem_append_left _ member)
    have upTo := order.upTo enabled here e.input
    rw [earlier] at upTo
    rw [List.flatMap_append, List.flatMap_singleton, ← config.steps_zero, step]
    exact upTo
  · obtain ⟨order, step⟩ := (deadManMachine config).history_split (step_inOrder enabled)
      (inOrder_new governanceKey) split
    have advance := step_advance enabled order.grounded e.input
    rw [step] at member
    refine ⟨?_, ?_⟩
    · by_contra other
      have none_ := advance.quiet other
      simp only [Machine.event] at member
      rw [none_] at member
      cases member
    · obtain ⟨now, outside, input, due⟩ := step_due member
      rw [split, signsOfLife, List.filterMap_append] at clock
      obtain ⟨some_, all⟩ := due_of_all (List.pairwise_append.mp clock).1 order.lastBeat due
      exact ⟨now, outside, input, some_, all⟩

/-! ## The abort threshold -/

/-- The switch will not be armed again by beats and ticks. -/
def Irreversible (d : DeadManSwitchDaemon config) : Prop :=
  d.state = .escalating ∧ config.abortableUntilStep ≤ d.stepIndex ∨
    d.state = .liquidating ∨ d.state = .dormant

theorem tick_irreversible (enabled : config.escalationEnabled = true)
    {d d' : DeadManSwitchDaemon config} {now : ℚ} {outside : Outside} {attempts : List Attempt}
    (case : d.TickCase now outside attempts d') (holds : Irreversible d) : Irreversible d' := by
  have other : d.state ≠ .armed ∧ d.state ≠ .watching := by
    rcases holds with ⟨state, _⟩ | state | state <;> rw [state] <;> decide
  have past : d.state = .escalating → config.abortableUntilStep ≤ d.stepIndex := by
    intro escalating
    rcases holds with ⟨_, past⟩ | state | state
    · exact past
    · exact absurd (escalating.symm.trans state) (by decide)
    · exact absurd (escalating.symm.trans state) (by decide)
  cases case with
  | off disabled => exact absurd disabled (DeadManConfig.not_disabled enabled)
  | keeps idle => exact holds
  | watches state late => exact absurd state other.1
  | resumes state fresh => exact absurd state other.2
  | escalates state late => exact absurd state other.2
  | aborts state fresh below => exact absurd below (not_lt.mpr (past state))
  | executes state hi k bound due steps ran =>
      rcases PlanEnd.state ran.ending with still | ended
      · refine Or.inl ⟨still, ?_⟩
        rw [ran.stepIndex]
        exact (past state).trans ran.some_.le
      · exact Or.inr (Or.inl ended)
  | waits state unsettled young => exact Or.inr (Or.inl state)
  | ends state finished detail => exact Or.inr (Or.inr rfl)

/-- No call but `disarm` undoes it. -/
theorem step_irreversible (enabled : config.escalationEnabled = true)
    (d : DeadManSwitchDaemon config) (call : DeadManCall) (noDisarm : ∀ now key, call ≠ .disarm now key)
    (holds : Irreversible d) : Irreversible ((deadManMachine config).step d call).2 := by
  cases call with
  | beat now signed =>
      obtain ⟨_, lastBeat, journal, after⟩ := step_beat d now signed
      rw [after]
      exact holds
  | disarm now key => exact absurd rfl (noDisarm now key)
  | orderStatus index status => exact holds
  | tick now outside => exact tick_irreversible enabled (d.tick_cases now outside) holds

theorem tick_aborts (enabled : config.escalationEnabled = true) {d : DeadManSwitchDaemon config}
    (escalating : d.state = .escalating) {now : ℚ} (fresh : d.elapsed now ≤ config.gracePeriod)
    (below : d.stepIndex < config.abortableUntilStep) (outside : Outside) :
    (d.tick now outside).daemon =
      { d.moved now .armed "heartbeat resumed" with stepIndex := 0 } := by
  rw [DeadManSwitchDaemon.tick, if_neg (DeadManConfig.not_disabled enabled)]
  simp only [escalating]
  rw [if_pos ⟨fresh, decide_eq_true below⟩,
    DeadManSwitchDaemon.move_eq now _ (by rw [escalating]; decide)]
  rfl

theorem beat_escalating {d : DeadManSwitchDaemon config} (escalating : d.state = .escalating)
    {signed : Bool} (accepted : config.strictHeartbeatSigning = false ∨ signed = true) (now : ℚ) :
    d.beat now signed = .ok { d with lastBeat := some now } := by
  have signs : (config.strictHeartbeatSigning && !signed) = false := by
    rcases accepted with lax | signed
    · rw [lax]
      rfl
    · rw [signed]
      exact Bool.and_false _
  have notArmed : d.state ≠ .armed := by
    rw [escalating]
    decide
  simp only [DeadManSwitchDaemon.beat, signs, Bool.false_eq_true, if_false, if_neg notArmed]

/-- The steps attempted in an escalation are counted by the step index. -/
theorem InOrder.attempted {past : List (DeadManEvent config)} {d : DeadManSwitchDaemon config}
    (order : InOrder past d) (escalating : d.state = .escalating) :
    (epochAttempts past).length = d.stepIndex := by
  have labels := congrArg List.length (order.planned escalating)
  rw [List.length_map, config.steps_zero, List.length_zipIdx, List.length_take,
    Nat.min_eq_left order.grounded.bound] at labels
  exact labels

/-- **Where the switch can be armed again**: by a beat and a tick within the grace
period while fewer steps than the threshold have been attempted; by no beats and
ticks from then on, and by none once it liquidates, however few steps there were. -/
theorem abort_threshold (config : DeadManConfig) (enabled : config.escalationEnabled = true)
    (governanceKey : Option String) (calls : List DeadManCall) (d : DeadManSwitchDaemon config)
    (run : (deadManMachine config).run (.new config governanceKey) calls = d) :
    (d.state = .escalating →
      (epochAttempts ((deadManMachine config).trace (.new config governanceKey) calls)).length <
        config.abortableUntilStep →
      ∀ t t' signed outside, config.strictHeartbeatSigning = false ∨ signed = true →
        fin (t' - t) ≤ config.gracePeriod →
          ((deadManMachine config).run d [.beat t signed, .tick t' outside]).state = .armed ∧
          ((deadManMachine config).run d [.beat t signed, .tick t' outside]).stepIndex = 0) ∧
    (d.state = .escalating ∧ config.abortableUntilStep ≤
        (epochAttempts ((deadManMachine config).trace (.new config governanceKey) calls)).length ∨
      d.state = .liquidating →
      ∀ later : List DeadManCall, (∀ call ∈ later, ∀ now key, call ≠ .disarm now key) →
        ((deadManMachine config).run d later).state ≠ .armed) := by
  have order : InOrder ((deadManMachine config).trace (.new config governanceKey) calls) d := by
    rw [← run]
    exact (deadManMachine config).history_invariant (step_inOrder enabled)
      (inOrder_new governanceKey) calls
  refine ⟨fun escalating below t t' signed outside accepted within => ?_,
    fun past later noDisarm armed => ?_⟩
  · rw [order.attempted escalating] at below
    simp only [Machine.run, deadManMachine, beat_escalating escalating accepted, Called.ofExcept]
    rw [tick_aborts enabled (d := { d with lastBeat := some t }) escalating within below]
    exact ⟨rfl, rfl⟩
  · have start : Irreversible d := by
      rcases past with ⟨escalating, past⟩ | liquidating
      · rw [order.attempted escalating] at past
        exact Or.inl ⟨escalating, past⟩
      · exact Or.inr (Or.inl liquidating)
    rcases (deadManMachine config).run_invariant_of (step_irreversible enabled) start noDisarm with
      ⟨state, _⟩ | state | state <;> rw [state] at armed <;> cases armed

end Machine

/-! ## Poles: a drill -/

namespace Drill

open CentaurApex.Cortex (plainStep defaultDoomsdayConfig)

/-- A plain step; an acquisition buys USDT. -/
def step (type : StepType) : EscalationStep :=
  { plainStep type with assetOut := some "USDT" }

/-- The default settings, with a beat every second: three seconds of grace, six
between steps. -/
def config (plan : List EscalationStep) : DeadManConfig :=
  { defaultDoomsdayConfig ⟨fin 1, ExtNum.fin_lt_fin.mpr one_pos⟩ with plan := plan }

/-- Everything outside goes well. -/
def calm : Outside where
  hook _ := .ok ()
  submit _ := .ok ⟨"sim-1", "1", "PORTFOLIO", "USDT", fin 1, .submitted⟩
  formatFloat _ := "50.0"

/-- Every hook raises. -/
def broken : Outside := { calm with hook := fun _ => .error "hook down" }

def plan : List EscalationStep :=
  [step .notify, step .haltPlacements, step .reduceExposure, step .acquireAssets, step .seal]

/-- One beat, and silence until the switch escalates. -/
def silence : List DeadManCall := [.beat 0 false, .tick 4 calm, .tick 10 calm]

def machine : Machine (DeadManSwitchDaemon (config plan)) DeadManCall Called :=
  deadManMachine (config plan)

/-- The switch after some calls. -/
def after (calls : List DeadManCall) : DeadManSwitchDaemon (config plan) :=
  machine.run (.new (config plan) none) calls

/-- The last of some calls. -/
def last (calls : List DeadManCall) (call : DeadManCall) : DeadManEvent (config plan) :=
  machine.event (after calls) call

/-- A drill of two ticks that find steps due. -/
def climb : List DeadManCall := silence ++ [.tick 15 calm, .tick 21 calm]

theorem climb_trace : machine.trace (.new (config plan) none) climb =
    machine.trace (.new (config plan) none) [.beat 0 false, .tick 4 calm] ++
      last [.beat 0 false, .tick 4 calm] (.tick 10 calm) ::
        ([last silence (.tick 15 calm)] ++
          last (silence ++ [.tick 15 calm]) (.tick 21 calm) :: []) := rfl

end Drill

/-- Satisfiable pole: an escalation that attempts two steps at one tick and the third
at the next. -/
theorem plan_in_order_drill :
    (([Drill.last Drill.silence (.tick 15 Drill.calm)] ++
        [Drill.last (Drill.silence ++ [.tick 15 Drill.calm]) (.tick 21 Drill.calm)]).flatMap
      (·.reply.attempts)).map Attempt.label = (Drill.plan.take 3).zipIdx 1 := by
  have escalating : ∀ x ∈ [Drill.last Drill.silence (.tick 15 Drill.calm)] ++
      [Drill.last (Drill.silence ++ [.tick 15 Drill.calm]) (.tick 21 Drill.calm)],
      x.before.state = .escalating := by decide +kernel
  have attempted := ((plan_in_order (Drill.config Drill.plan) rfl none Drill.climb
    (by decide +kernel)).1 _ _ _ _ _ Drill.climb_trace (by decide +kernel) escalating).2
  have three : reached (Drill.last (Drill.silence ++ [.tick 15 Drill.calm])
        (.tick 21 Drill.calm)).before
      (Drill.last (Drill.silence ++ [.tick 15 Drill.calm]) (.tick 21 Drill.calm)).after = 3 := by
    decide +kernel
  rw [three] at attempted
  exact attempted

/-- Refuting pole: a first step that fails ends the escalation below the threshold,
and no beat arms the switch again. -/
theorem failed_step_not_armed :
    ¬ ∀ (config : DeadManConfig) (governanceKey : Option String) (calls : List DeadManCall)
        (t t' : ℚ) (signed : Bool) (outside : Outside), config.escalationEnabled = true →
      ((deadManMachine config).run (.new config governanceKey) calls).state = .liquidating →
      (epochAttempts ((deadManMachine config).trace (.new config governanceKey) calls)).length <
        config.abortableUntilStep →
      config.strictHeartbeatSigning = false ∨ signed = true → fin (t' - t) ≤ config.gracePeriod →
        ((deadManMachine config).run (.new config governanceKey)
          (calls ++ [.beat t signed, .tick t' outside])).state = .armed := by
  intro rearms
  have armed := rearms (Drill.config Drill.plan) none (Drill.silence ++ [.tick 10 Drill.broken])
    11 11 false Drill.calm rfl (by decide +kernel) (by decide +kernel) (Or.inl rfl)
    (by decide +kernel)
  exact absurd armed (by decide +kernel)

/-- Satisfiable pole: one step attempted, then a beat. -/
theorem abort_threshold_drill :
    (Drill.machine.run (Drill.after (Drill.silence ++ [.tick 10 Drill.calm]))
      [.beat 11 false, .tick 12 Drill.calm]).state = .armed := by
  have rearms := (abort_threshold (Drill.config Drill.plan) rfl none
    (Drill.silence ++ [.tick 10 Drill.calm]) _ rfl).1
  have accepted : (Drill.config Drill.plan).strictHeartbeatSigning = false ∨ false = true :=
    Or.inl rfl
  have escalating : (Drill.after (Drill.silence ++ [.tick 10 Drill.calm])).state = .escalating := by
    decide +kernel
  exact (rearms escalating (by decide +kernel) 11 12 false Drill.calm accepted
    (by decide +kernel)).1

end CentaurApex.Doomsday
