/-
# Doomsday.Heartbeats -- what heartbeats do past the point of no return

Past the abort threshold a beat no longer arms the switch, but it still moves the
time from which the remaining steps are scheduled.  Two continuations of one run
that differ in their beats only (`DifferInBeats`) are followed side by side: the
daemons differ in the last heartbeat and in nothing else (`beaten`), for as long as
the ticks find the same steps due.

* `tick_beaten`: a tick goes the same in both exactly when the same steps are due in
  both, or a step due in both raises (`SameDueAt`).
* `beats_without_influence_iff`: so the continuations attempt the same steps at the
  same ticks and liquidate at the same tick exactly when that holds at every tick.
-/
import CentaurApex.Doomsday.Escalation

namespace CentaurApex.Doomsday

open CentaurApex.Theory
open CentaurApex.Theory.ExtNum (fin posInf negInf)
open CentaurApex.Theory.Python

set_option autoImplicit false

namespace DeadManSwitchDaemon

variable {config : DeadManConfig}

/-- The daemon with another last heartbeat. -/
def beaten (d : DeadManSwitchDaemon config) (lastBeat : Option ℚ) : DeadManSwitchDaemon config :=
  { d with lastBeat := lastBeat }

/-! ## The plan does not look at the last heartbeat -/

theorem executeStep_beaten (d : DeadManSwitchDaemon config) (lastBeat : Option ℚ) (now : ℚ)
    (outside : Outside) (step : EscalationStep) (number : Nat) :
    (d.beaten lastBeat).executeStep now outside step number =
      ((d.executeStep now outside step number).1,
        (d.executeStep now outside step number).2.beaten lastBeat) := by
  unfold executeStep
  cases step.step <;> cases outside.hook number <;> cases outside.submit number <;> rfl

theorem move_beaten (d : DeadManSwitchDaemon config) (lastBeat : Option ℚ) (now : ℚ)
    (target : EscalationState) (detail : String) :
    ((d.beaten lastBeat).move now target detail).2 =
      (d.move now target detail).2.beaten lastBeat := by
  unfold move beaten
  dsimp only
  split <;> rfl

theorem failPlan_beaten (d : DeadManSwitchDaemon config) (lastBeat : Option ℚ) (now : ℚ)
    (number : Nat) (exc : String) :
    (d.beaten lastBeat).failPlan now number exc = (d.failPlan now number exc).beaten lastBeat :=
  move_beaten { d with lastError := some ("step " ++ toString number ++ " failed: " ++ exc) }
    lastBeat now .liquidating ("plan failed: " ++ exc)

theorem closeStep_beaten (d : DeadManSwitchDaemon config) (lastBeat : Option ℚ) (now : ℚ)
    (number : Nat) :
    (d.beaten lastBeat).closeStep now number = (d.closeStep now number).beaten lastBeat := by
  unfold closeStep
  split
  · exact move_beaten { d with liquidatingSince := some now } lastBeat now _ _
  · rfl

theorem runPlan_beaten (now : ℚ) (outside : Outside) (lastBeat : Option ℚ)
    (steps : List (EscalationStep × Nat)) (d : DeadManSwitchDaemon config) :
    (d.beaten lastBeat).runPlan now outside steps =
      ((d.runPlan now outside steps).1, (d.runPlan now outside steps).2.beaten lastBeat) := by
  induction steps generalizing d with
  | nil => rfl
  | cons s steps ih =>
      obtain ⟨step, number⟩ := s
      have executed : executeStep { d.beaten lastBeat with stepIndex := number } now outside step
          number = _ := executeStep_beaten { d with stepIndex := number } lastBeat now outside step
        number
      simp only [runPlan, executed]
      cases (executeStep { d with stepIndex := number } now outside step number).1.raised with
      | some exc => simp only [failPlan_beaten]
      | none => simp only [closeStep_beaten, ih]

/-! ## How far the loop gets -/

/-- The first step of the loop. -/
theorem runPlan_cons (now : ℚ) (outside : Outside) (s : EscalationStep × Nat)
    (steps : List (EscalationStep × Nat)) (d : DeadManSwitchDaemon config) :
    d.runPlan now outside (s :: steps) =
      let executed := (executeStep { d with stepIndex := s.2 } now outside s.1 s.2).2
      match outside.raises s.1 s.2 with
      | some exc => ([outside.attempt s], executed.failPlan now s.2 exc)
      | none =>
          let others := (executed.closeStep now s.2).runPlan now outside steps
          (outside.attempt s :: others.1, others.2) := by
  obtain ⟨step, number⟩ := s
  obtain ⟨attempt, _⟩ := executeStep_spec { d with stepIndex := number } now outside step number
  simp only [runPlan, attempt]
  rfl

/-- Behind a step that raises the loop attempts nothing. -/
theorem runPlan_append_of_raises (now : ℚ) (outside : Outside)
    {steps : List (EscalationStep × Nat)} (others : List (EscalationStep × Nat))
    (raises : ∃ s ∈ steps, outside.raises s.1 s.2 ≠ none) (d : DeadManSwitchDaemon config) :
    d.runPlan now outside (steps ++ others) = d.runPlan now outside steps := by
  induction steps generalizing d with
  | nil =>
      obtain ⟨s, member, _⟩ := raises
      cases member
  | cons s steps ih =>
      rw [List.cons_append, runPlan_cons, runPlan_cons]
      cases here : outside.raises s.1 s.2 with
      | some exc => rfl
      | none =>
          obtain ⟨s', member, raised⟩ := raises
          rcases List.mem_cons.mp member with rfl | later
          · exact absurd here raised
          · simp only [ih ⟨s', later, raised⟩]

/-- Where none of the first steps raises, the loop gets to the next. -/
theorem runPlan_append_of_calm (now : ℚ) (outside : Outside)
    {steps : List (EscalationStep × Nat)} (others : List (EscalationStep × Nat))
    (calm : ∀ s ∈ steps, outside.raises s.1 s.2 = none) (d : DeadManSwitchDaemon config) :
    ∃ d' : DeadManSwitchDaemon config, (d.runPlan now outside (steps ++ others)).1 =
      steps.map outside.attempt ++ (d'.runPlan now outside others).1 := by
  induction steps generalizing d with
  | nil => exact ⟨d, rfl⟩
  | cons s steps ih =>
      obtain ⟨first, rest⟩ := List.forall_mem_cons.mp calm
      rw [List.cons_append, runPlan_cons, first]
      obtain ⟨d', eq⟩ := ih rest _
      exact ⟨d', congrArg (List.cons (outside.attempt s)) eq⟩

theorem runPlan_ne_nil (now : ℚ) (outside : Outside) (s : EscalationStep × Nat)
    (steps : List (EscalationStep × Nat)) (d : DeadManSwitchDaemon config) :
    (d.runPlan now outside (s :: steps)).1 ≠ [] := by
  rw [runPlan_cons]
  cases outside.raises s.1 s.2 <;> exact List.cons_ne_nil _ _

/-! ## Two lists of due steps -/

/-- The same steps are due, or a step due in both raises. -/
def DueAlike (outside : Outside) (due due' : List (EscalationStep × Nat)) : Prop :=
  due = due' ∨ ∃ s ∈ due, s ∈ due' ∧ outside.raises s.1 s.2 ≠ none

theorem DueAlike.symm {outside : Outside} {due due' : List (EscalationStep × Nat)}
    (alike : DueAlike outside due due') : DueAlike outside due' due := by
  rcases alike with same | ⟨s, first, second, raises⟩
  · exact Or.inl same.symm
  · exact Or.inr ⟨s, second, first, raises⟩

/-- **The loop does the same on both lists exactly when they are alike**, one being the
beginning of the other. -/
theorem runPlan_prefix (now : ℚ) (outside : Outside) {due due' : List (EscalationStep × Nat)}
    (begins : due <+: due') (d : DeadManSwitchDaemon config) :
    (DueAlike outside due due' → d.runPlan now outside due' = d.runPlan now outside due) ∧
      ((d.runPlan now outside due').1.length = (d.runPlan now outside due).1.length →
        DueAlike outside due due') := by
  obtain ⟨others, rfl⟩ := begins
  by_cases raises : ∃ s ∈ due, outside.raises s.1 s.2 ≠ none
  · refine ⟨fun _ => runPlan_append_of_raises now outside others raises d, fun _ => ?_⟩
    obtain ⟨s, member, raised⟩ := raises
    exact Or.inr ⟨s, member, List.mem_append_left _ member, raised⟩
  · have calm : ∀ s ∈ due, outside.raises s.1 s.2 = none := by
      simpa using raises
    refine ⟨fun alike => ?_, fun lengths => ?_⟩
    · rcases alike with same | ⟨s, member, _, raised⟩
      · rw [← same]
      · exact absurd (calm s member) raised
    · cases others with
      | nil => exact Or.inl (List.append_nil _).symm
      | cons s others =>
          obtain ⟨d', eq⟩ := runPlan_append_of_calm now outside (s :: others) calm d
          obtain ⟨d'', eq'⟩ := runPlan_append_of_calm now outside [] calm d
          rw [List.append_nil] at eq'
          have more := List.length_pos_iff.mpr (runPlan_ne_nil now outside s others d')
          rw [eq, eq', runPlan, List.append_nil, List.length_append] at lengths
          omega

theorem stepsDue_eq (d : DeadManSwitchDaemon config) (now : ℚ) :
    ∃ hi ≤ config.plan.length, d.stepsDue now = config.steps d.stepIndex hi := by
  unfold stepsDue
  cases intFloorDiv (d.elapsed now - config.gracePeriod) config.escalationPeriod with
  | error e => exact ⟨0, Nat.zero_le _, (config.steps_eq_nil (Nat.zero_le _)).symm⟩
  | ok stepNo => exact ⟨_, min_le_right _ _, rfl⟩

/-- Of the steps due by two heartbeats, the one list begins the other. -/
theorem stepsDue_prefix (d : DeadManSwitchDaemon config) (lastBeat : Option ℚ) (now : ℚ) :
    d.stepsDue now <+: (d.beaten lastBeat).stepsDue now ∨
      (d.beaten lastBeat).stepsDue now <+: d.stepsDue now := by
  obtain ⟨hi, bound, eq⟩ := d.stepsDue_eq now
  obtain ⟨hi', bound', eq'⟩ := (d.beaten lastBeat).stepsDue_eq now
  have sameIndex : (d.beaten lastBeat).stepIndex = d.stepIndex := rfl
  rw [sameIndex] at eq'
  rw [eq, eq']
  rcases Nat.le_total hi hi' with le | le
  · exact Or.inl (config.steps_prefix le bound')
  · exact Or.inr (config.steps_prefix le bound)

/-! ## A tick of both -/

/-- Where the switch escalates, its due steps are alike by either heartbeat. -/
def SameDueAt (d d' : DeadManSwitchDaemon config) (now : ℚ) (outside : Outside) : Prop :=
  d.state = .escalating → DueAlike outside (d.stepsDue now) (d'.stepsDue now)

theorem tick_past (enabled : config.escalationEnabled = true) {d : DeadManSwitchDaemon config}
    (escalating : d.state = .escalating) (past : config.abortableUntilStep ≤ d.stepIndex)
    (now : ℚ) (outside : Outside) :
    (d.tick now outside).attempts = (d.runPlan now outside (d.stepsDue now)).1 ∧
      (d.tick now outside).daemon = (d.runPlan now outside (d.stepsDue now)).2 := by
  have on := DeadManConfig.not_disabled enabled
  have cannot : ¬ (d.elapsed now ≤ config.gracePeriod ∧ d.canAbort = true) := fun abort =>
    absurd (of_decide_eq_true abort.2) (not_lt.mpr past)
  rw [tick, if_neg on]
  simp only [escalating, if_neg cannot, tickPlan, stepsDue]
  cases quotient : intFloorDiv (d.elapsed now - config.gracePeriod) config.escalationPeriod with
  | error e => exact ⟨rfl, rfl⟩
  | ok stepNo =>
      dsimp only
      split
      · rename_i none_
        rw [config.steps_eq_nil (by omega)]
        exact ⟨rfl, rfl⟩
      · exact ⟨rfl, rfl⟩

/-- A tick that does not look at the last heartbeat. -/
theorem tick_beaten_still (enabled : config.escalationEnabled = true)
    {d : DeadManSwitchDaemon config} (still : d.state = .liquidating ∨ d.state = .dormant)
    (lastBeat : Option ℚ) (now : ℚ) (outside : Outside) :
    ((d.beaten lastBeat).tick now outside).attempts = (d.tick now outside).attempts ∧
      ((d.beaten lastBeat).tick now outside).daemon =
        (d.tick now outside).daemon.beaten lastBeat := by
  have on := DeadManConfig.not_disabled enabled
  have same : (d.beaten lastBeat).state = d.state := rfl
  rw [tick, tick, if_neg on, if_neg on, same]
  rcases still with state | state
  · simp only [state]
    refine ⟨rfl, ?_⟩
    have finished : (¬ (d.beaten lastBeat).pending = true ∨ (d.beaten lastBeat).graceElapsed now) ↔
        (¬ d.pending = true ∨ d.graceElapsed now) := Iff.rfl
    by_cases ends : ¬ d.pending = true ∨ d.graceElapsed now
    · rw [if_pos ends, if_pos (finished.mpr ends)]
      exact move_beaten (d.startTimer now) lastBeat now _ _
    · rw [if_neg ends, if_neg (finished.not.mpr ends)]
      rfl
  · simp only [state]
    exact ⟨rfl, rfl⟩

/-- **A tick goes the same by either heartbeat exactly when the due steps are alike.** -/
theorem tick_beaten (enabled : config.escalationEnabled = true) {d : DeadManSwitchDaemon config}
    (holds : Irreversible d) (lastBeat : Option ℚ) (now : ℚ) (outside : Outside) :
    (SameDueAt d (d.beaten lastBeat) now outside →
      ((d.beaten lastBeat).tick now outside).attempts = (d.tick now outside).attempts ∧
        ((d.beaten lastBeat).tick now outside).daemon =
          (d.tick now outside).daemon.beaten lastBeat) ∧
      (((d.beaten lastBeat).tick now outside).attempts.length =
          (d.tick now outside).attempts.length →
        SameDueAt d (d.beaten lastBeat) now outside) := by
  rcases holds with ⟨escalating, past⟩ | still
  · obtain ⟨attempts, after⟩ := tick_past enabled escalating past now outside
    obtain ⟨attempts', after'⟩ :=
      tick_past (d := d.beaten lastBeat) enabled escalating past now outside
    rw [attempts, after, attempts', after', runPlan_beaten]
    rcases d.stepsDue_prefix lastBeat now with begins | begins
    · obtain ⟨same, alike⟩ := runPlan_prefix now outside begins d
      refine ⟨fun due => ?_, fun lengths _ => alike lengths⟩
      rw [same (due escalating)]
      exact ⟨rfl, rfl⟩
    · obtain ⟨same, alike⟩ := runPlan_prefix now outside begins d
      refine ⟨fun due => ?_, fun lengths _ => (alike lengths.symm).symm⟩
      rw [same (due escalating).symm]
      exact ⟨rfl, rfl⟩
  · refine ⟨fun _ => tick_beaten_still enabled still lastBeat now outside, fun _ escalating => ?_⟩
    rcases still with state | state <;> rw [state] at escalating <;> cases escalating

end DeadManSwitchDaemon

/-! ## Two continuations -/

section Continuations

variable {config : DeadManConfig}

/-- Two continuations that differ in their beats only.  The governance path is not
taken in either. -/
inductive DifferInBeats (governanceKey : Option String) :
    List DeadManCall → List DeadManCall → Prop where
  | nil : DifferInBeats governanceKey [] []
  | left (now : ℚ) (signed : Bool) {a b : List DeadManCall} (rest : DifferInBeats governanceKey a b) :
      DifferInBeats governanceKey (.beat now signed :: a) b
  | right (now : ℚ) (signed : Bool) {a b : List DeadManCall}
      (rest : DifferInBeats governanceKey a b) :
      DifferInBeats governanceKey a (.beat now signed :: b)
  | both (call : DeadManCall)
      (refused : ∀ now key, call = .disarm now key → governanceKey ≠ some key)
      {a b : List DeadManCall} (rest : DifferInBeats governanceKey a b) :
      DifferInBeats governanceKey (call :: a) (call :: b)

def isTick (e : DeadManEvent config) : Bool :=
  match e.input with
  | .tick _ _ => true
  | _ => false

def ticks (trace : List (DeadManEvent config)) : List (DeadManEvent config) := trace.filter isTick

/-- What is seen at each tick: the steps attempted, and the state it leads to. -/
def observed (trace : List (DeadManEvent config)) :
    List (List (EscalationStep × Nat) × EscalationState) :=
  (ticks trace).map fun e => (e.reply.attempts.map Attempt.label, e.after.state)

/-- Two ticks at one time find due steps alike. -/
def SameDue (e e' : DeadManEvent config) : Prop :=
  ∀ now outside, e.input = .tick now outside → e.before.SameDueAt e'.before now outside

theorem tick_governanceKey {d d' : DeadManSwitchDaemon config} {now : ℚ} {outside : Outside}
    {attempts : List Attempt} (case : d.TickCase now outside attempts d') :
    d'.governanceKey = d.governanceKey := by
  cases case with
  | executes state hi k bound due steps ran => exact ran.governanceKey
  | _ => rfl

theorem step_governanceKey (d : DeadManSwitchDaemon config) (call : DeadManCall) :
    ((deadManMachine config).step d call).2.governanceKey = d.governanceKey := by
  cases call with
  | beat now signed =>
      obtain ⟨_, lastBeat, journal, after⟩ := step_beat d now signed
      rw [after]
  | disarm now key =>
      obtain ⟨_, after | ⟨journal, after⟩⟩ := step_disarm d now key <;> rw [after]
  | tick now outside => exact tick_governanceKey (d.tick_cases now outside)
  | orderStatus index status => rfl

/-- A beat that finds the switch past the armed state moves the last heartbeat. -/
theorem step_beat_past {d : DeadManSwitchDaemon config} (notArmed : d.state ≠ .armed) (now : ℚ)
    (signed : Bool) :
    ∃ lastBeat, ((deadManMachine config).step d (.beat now signed)).2 = d.beaten lastBeat := by
  simp only [deadManMachine, DeadManSwitchDaemon.beat]
  split
  · exact ⟨d.lastBeat, rfl⟩
  · exact ⟨some now, rfl⟩

theorem Irreversible.notArmed {d : DeadManSwitchDaemon config} (holds : Irreversible d) :
    d.state ≠ .armed := by
  rcases holds with ⟨state, _⟩ | state | state <;> rw [state] <;> decide

theorem observed_tick (d : DeadManSwitchDaemon config) (now : ℚ) (outside : Outside)
    (later : List (DeadManEvent config)) :
    observed ((deadManMachine config).event d (.tick now outside) :: later) =
      ((d.tick now outside).attempts.map Attempt.label, (d.tick now outside).daemon.state) ::
        observed later := rfl

theorem ticks_tick (d : DeadManSwitchDaemon config) (now : ℚ) (outside : Outside)
    (later : List (DeadManEvent config)) :
    ticks ((deadManMachine config).event d (.tick now outside) :: later) =
      (deadManMachine config).event d (.tick now outside) :: ticks later := rfl

theorem sameDue_iff (d d' : DeadManSwitchDaemon config) (now : ℚ) (outside : Outside) :
    SameDue ((deadManMachine config).event d (.tick now outside))
        ((deadManMachine config).event d' (.tick now outside)) ↔
      d.SameDueAt d' now outside := by
  constructor
  · exact fun same => same now outside rfl
  · intro same now' outside' input
    obtain ⟨rfl, rfl⟩ := DeadManCall.tick.inj input
    exact same

/-- **The continuations side by side**: they show the same for as long as due steps are
alike, and no longer. -/
theorem observed_iff (enabled : config.escalationEnabled = true) {governanceKey : Option String}
    {a b : List DeadManCall} (differ : DifferInBeats governanceKey a b) :
    ∀ (d : DeadManSwitchDaemon config) (lastBeat : Option ℚ), d.governanceKey = governanceKey →
      Irreversible d →
        (observed ((deadManMachine config).trace d a) =
            observed ((deadManMachine config).trace (d.beaten lastBeat) b) ↔
          List.Forall₂ SameDue (ticks ((deadManMachine config).trace d a))
            (ticks ((deadManMachine config).trace (d.beaten lastBeat) b))) := by
  induction differ with
  | nil => exact fun _ _ _ _ => iff_of_true rfl List.Forall₂.nil
  | left now signed rest ih =>
      intro d lastBeat key holds
      obtain ⟨moved, after⟩ := step_beat_past holds.notArmed now signed
      rw [Machine.trace, after]
      exact ih (d.beaten moved) lastBeat key holds
  | right now signed rest ih =>
      intro d lastBeat key holds
      obtain ⟨moved, after⟩ :=
        step_beat_past (d := d.beaten lastBeat) holds.notArmed now signed
      rw [Machine.trace, after]
      exact ih d moved key holds
  | both call refused rest ih =>
      intro d lastBeat key holds
      cases call with
      | beat now signed =>
          obtain ⟨moved, after⟩ := step_beat_past holds.notArmed now signed
          obtain ⟨moved', after'⟩ :=
            step_beat_past (d := d.beaten lastBeat) holds.notArmed now signed
          rw [Machine.trace, Machine.trace, after, after']
          exact ih (d.beaten moved) moved' key holds
      | disarm now k =>
          have wrong : d.governanceKey ≠ some k := by
            rw [key]
            exact refused now k rfl
          rw [Machine.trace, Machine.trace, step_disarm_refused wrong,
            step_disarm_refused (d := d.beaten lastBeat) wrong]
          exact ih d lastBeat key holds
      | orderStatus index status => exact ih (d.setStatus index status) lastBeat key holds
      | tick now outside =>
          obtain ⟨same, alike⟩ := d.tick_beaten enabled holds lastBeat now outside
          have holds' := step_irreversible enabled d (.tick now outside)
            (fun _ _ other => by cases other) holds
          have key' := (step_governanceKey d (.tick now outside)).trans key
          rw [Machine.trace, Machine.trace, observed_tick, observed_tick, ticks_tick, ticks_tick,
            List.cons.injEq, List.forall₂_cons, sameDue_iff]
          by_cases due : d.SameDueAt (d.beaten lastBeat) now outside
          · obtain ⟨attempts, after⟩ := same due
            have tails := ih _ lastBeat key' holds'
            simp only [deadManMachine] at tails ⊢
            rw [after, attempts]
            exact and_congr (iff_of_true rfl due) tails
          · refine iff_of_false (fun shown => due (alike ?_)) (fun all => due all.1)
            have labels := congrArg List.length (Prod.mk.inj shown.1).1
            rw [List.length_map, List.length_map] at labels
            exact labels.symm

/-- **Past the point of no return beats have no influence exactly where due steps are
alike**: at every tick that finds the switch escalating, the last heartbeats of the two
continuations make the same steps due, or a step due by both raises. -/
theorem beats_without_influence_iff (config : DeadManConfig) (governanceKey : Option String)
    (calls : List DeadManCall) (d : DeadManSwitchDaemon config)
    (run : (deadManMachine config).run (.new config governanceKey) calls = d)
    (escalating : d.state = .escalating) (past : config.abortableUntilStep ≤ d.stepIndex)
    {a b : List DeadManCall} (differ : DifferInBeats governanceKey a b) :
    observed ((deadManMachine config).trace d a) = observed ((deadManMachine config).trace d b) ↔
      List.Forall₂ SameDue (ticks ((deadManMachine config).trace d a))
        (ticks ((deadManMachine config).trace d b)) := by
  by_cases enabled : config.escalationEnabled = true
  · have key : d.governanceKey = governanceKey := by
      rw [← run]
      exact (deadManMachine config).run_invariant
        (P := fun d => d.governanceKey = governanceKey)
        (fun d call key => (step_governanceKey d call).trans key) rfl calls
    exact observed_iff enabled differ d d.lastBeat key (Or.inl ⟨escalating, past⟩)
  · -- a switch that may not escalate never does
    have armed : d.state = .armed := by
      rw [← run]
      exact (deadManMachine config).run_invariant (P := fun d => d.state = .armed)
        (step_disabled (Bool.eq_false_iff.mpr enabled)) rfl calls
    exact absurd (armed.symm.trans escalating) (by decide)

end Continuations

/-! ## Poles -/

/-- Refuting pole: two steps in, a beat puts off the third. -/
theorem beat_puts_off_step :
    ¬ ∀ (config : DeadManConfig) (governanceKey : Option String) (calls : List DeadManCall)
        (d : DeadManSwitchDaemon config),
      (deadManMachine config).run (.new config governanceKey) calls = d →
      d.state = .escalating → config.abortableUntilStep ≤ d.stepIndex →
      ∀ a b : List DeadManCall, DifferInBeats governanceKey a b →
        observed ((deadManMachine config).trace d a) =
          observed ((deadManMachine config).trace d b) := by
  intro noInfluence
  have differ : DifferInBeats none [.tick 21 Drill.calm] [.beat 20 false, .tick 21 Drill.calm] :=
    .right 20 false (.both _ (fun _ _ other => by cases other) .nil)
  have same := noInfluence (Drill.config Drill.plan) none (Drill.silence ++ [.tick 15 Drill.calm])
    (Drill.after (Drill.silence ++ [.tick 15 Drill.calm])) rfl (by decide +kernel)
    (by decide +kernel) _ _ differ
  exact absurd same (by decide +kernel)

/-- Satisfiable pole: a beat that leaves the due steps alike leaves the run alike. -/
theorem beats_without_influence_drill :
    observed (Drill.machine.trace (Drill.after (Drill.silence ++ [.tick 15 Drill.calm]))
        [.tick 16 Drill.calm]) =
      observed (Drill.machine.trace (Drill.after (Drill.silence ++ [.tick 15 Drill.calm]))
        [.beat 15 false, .tick 16 Drill.calm]) := by
  have differ : DifferInBeats none [.tick 16 Drill.calm] [.beat 15 false, .tick 16 Drill.calm] :=
    .right 15 false (.both _ (fun _ _ other => by cases other) .nil)
  refine (beats_without_influence_iff (Drill.config Drill.plan) none
    (Drill.silence ++ [.tick 15 Drill.calm]) _ rfl (by decide +kernel) (by decide +kernel)
    differ).mpr (.cons ?_ .nil)
  intro now outside input _
  obtain ⟨rfl, rfl⟩ := DeadManCall.tick.inj input
  exact Or.inl (by decide +kernel)

end CentaurApex.Doomsday
