/-
# Doomsday.Journal -- the journal and the ladder

The journal forgets.  What it has forgotten is said by the same run under another
limit: no call looks at the journal, so a switch that keeps `n` entries goes through
the same states and keeps the newest `n` of the same entries (`step_relogged`).  The
list of all entries, whatever the limit, is a path from armed to the current state
(`Recorded.path`) along the edges of the ladder and the two ways back (`ladder`).

* `journal_of_run`: the journal of every run, at every limit, and the ladder it
  records;
* `step_dormant_stays`: the last rung is the last.
-/
import CentaurApex.Doomsday.Escalation
import CentaurApex.Theory.Bounded

namespace CentaurApex.Doomsday

open CentaurApex.Theory
open CentaurApex.Theory.ExtNum (fin)
open CentaurApex.Theory.Python

set_option autoImplicit false

/-! ## The ladder -/

/-- A rung up, or back from watching and escalating. -/
def ladder : List (EscalationState × EscalationState) :=
  [(.armed, .watching), (.watching, .escalating), (.escalating, .liquidating),
    (.liquidating, .dormant), (.watching, .armed), (.escalating, .armed)]

/-- The ends of an entry. -/
def Transition.edge (e : Transition) : String × String := (e.frm, e.target)

/-- An entry stays where it is, or is an edge of the ladder. -/
def OnLadder (e : Transition) : Prop :=
  e.frm = e.target ∨ ∃ edge ∈ ladder, e.edge = (edge.1.value, edge.2.value)

theorem mem_ladder {frm target : EscalationState} (allowed : target ∈ transitions frm) :
    (frm, target) ∈ ladder := by
  cases frm <;> cases target <;> revert allowed <;> decide

/-! ## The same switch with another journal -/

/-- The configuration with another limit for the journal. -/
def DeadManConfig.relimit (config : DeadManConfig) (limit : Nat) (large : 16 ≤ limit) :
    DeadManConfig :=
  { config with maxJournalEntries := limit, journal_pos := large }

namespace DeadManSwitchDaemon

variable {config : DeadManConfig}

/-- The daemon, had it recorded `all` under another limit. -/
def relog (d : DeadManSwitchDaemon config) (limit : Nat) (large : 16 ≤ limit)
    (all : List Transition) : DeadManSwitchDaemon (config.relimit limit large) where
  governanceKey := d.governanceKey
  state := d.state
  lastBeat := d.lastBeat
  stepIndex := d.stepIndex
  journal := .ofHistory limit all
  lastError := d.lastError
  orders := d.orders
  liquidatingSince := d.liquidatingSince

/-- What is recorded next. -/
theorem push_relog (d : DeadManSwitchDaemon config) (limit : Nat) (large : 16 ≤ limit)
    (all : List Transition) (e : Transition) :
    { d.relog limit large all with journal := (d.relog limit large all).journal.push e } =
      d.relog limit large (all ++ [e]) :=
  congrArg (fun journal : Journal limit Transition =>
      ({ d.relog limit large all with journal := journal } :
        DeadManSwitchDaemon (config.relimit limit large)))
    (Journal.push_ofHistory all e)

/-- Between `d` and `d'` the entries `more` were recorded. -/
structure Recorded (d : DeadManSwitchDaemon config) (more : List Transition)
    (d' : DeadManSwitchDaemon config) : Prop where
  path : Path d.state.value (more.map Transition.edge) d'.state.value
  onLadder : ∀ e ∈ more, OnLadder e

theorem Recorded.of_same {d d' : DeadManSwitchDaemon config} (state : d'.state = d.state) :
    Recorded d [] d' :=
  ⟨congrArg EscalationState.value state.symm, List.forall_mem_nil _⟩

theorem Recorded.append {d d' d'' : DeadManSwitchDaemon config} {more others : List Transition}
    (first : Recorded d more d') (second : Recorded d' others d'') :
    Recorded d (more ++ others) d'' := by
  refine ⟨?_, List.forall_mem_append.mpr ⟨first.onLadder, second.onLadder⟩⟩
  rw [List.map_append]
  exact Path.append second.path first.path

/-- What an operation `f` does to a switch it does under every limit, up to the entries
it records. -/
def Relogged (f : (config : DeadManConfig) → DeadManSwitchDaemon config →
      DeadManSwitchDaemon config) (d : DeadManSwitchDaemon config) : Prop :=
  ∃ more, Recorded d more (f config d) ∧ ∀ limit large all,
    f (config.relimit limit large) (d.relog limit large all) =
      (f config d).relog limit large (all ++ more)

theorem Relogged.comp {f g : (config : DeadManConfig) → DeadManSwitchDaemon config →
      DeadManSwitchDaemon config} {d : DeadManSwitchDaemon config} (first : Relogged f d)
    (second : Relogged g (f config d)) : Relogged (fun config d => g config (f config d)) d := by
  obtain ⟨more, recorded, same⟩ := first
  obtain ⟨others, recorded', same'⟩ := second
  refine ⟨more ++ others, recorded.append recorded', fun limit large all => ?_⟩
  dsimp only
  rw [same, same', List.append_assoc]

/-- An operation that records nothing. -/
theorem Relogged.of_same {f : (config : DeadManConfig) → DeadManSwitchDaemon config →
      DeadManSwitchDaemon config} {d : DeadManSwitchDaemon config}
    (state : (f config d).state = d.state)
    (same : ∀ limit large all, f (config.relimit limit large) (d.relog limit large all) =
      (f config d).relog limit large all) : Relogged f d := by
  refine ⟨[], .of_same state, fun limit large all => ?_⟩
  rw [same, List.append_nil]

/-- What an operation does may depend on anything but the journal and its limit. -/
theorem Relogged.ite {P : (config : DeadManConfig) → DeadManSwitchDaemon config → Prop}
    [∀ config d, Decidable (P config d)]
    {f g : (config : DeadManConfig) → DeadManSwitchDaemon config → DeadManSwitchDaemon config}
    {d : DeadManSwitchDaemon config}
    (same : ∀ limit large all, P (config.relimit limit large) (d.relog limit large all) ↔
      P config d) (pos : P config d → Relogged f d) (neg : ¬ P config d → Relogged g d) :
    Relogged (fun config d => if P config d then f config d else g config d) d := by
  by_cases holds : P config d
  · obtain ⟨more, recorded, same'⟩ := pos holds
    refine ⟨more, ?_, fun limit large all => ?_⟩
    · dsimp only
      rw [if_pos holds]
      exact recorded
    · dsimp only
      rw [if_pos holds, if_pos ((same limit large all).mpr holds)]
      exact same' limit large all
  · obtain ⟨more, recorded, same'⟩ := neg holds
    refine ⟨more, ?_, fun limit large all => ?_⟩
    · dsimp only
      rw [if_neg holds]
      exact recorded
    · dsimp only
      rw [if_neg holds, if_neg (holds ∘ (same limit large all).mp)]
      exact same' limit large all

/-- Operations that are the same in a state are under every limit. -/
theorem Relogged.congr {f g : (config : DeadManConfig) → DeadManSwitchDaemon config →
      DeadManSwitchDaemon config} {d : DeadManSwitchDaemon config} (relogged : Relogged g d)
    {at_ : EscalationState} (same : ∀ (config : DeadManConfig) (d : DeadManSwitchDaemon config),
      config.escalationEnabled = true → d.state = at_ → f config d = g config d)
    (enabled : config.escalationEnabled = true) (state : d.state = at_) : Relogged f d := by
  obtain ⟨more, recorded, same'⟩ := relogged
  refine ⟨more, ?_, fun limit large all => ?_⟩
  · rw [same config d enabled state]
    exact recorded
  · rw [same config d enabled state, same (config.relimit limit large) _ enabled state]
    exact same' limit large all

/-! ## The operations -/

theorem note_relogged (now : ℚ) (detail : String) (d : DeadManSwitchDaemon config) :
    Relogged (fun _ d => d.note now detail) d := by
  refine ⟨[⟨d.state.value, d.state.value, now, detail⟩], ⟨⟨rfl, rfl⟩, ?_⟩, fun limit large all => ?_⟩
  · exact List.forall_mem_singleton.mpr (Or.inl rfl)
  · exact d.push_relog limit large all _

theorem move_relogged (now : ℚ) (target : EscalationState) (detail : String)
    (d : DeadManSwitchDaemon config) : Relogged (fun _ d => (d.move now target detail).2) d := by
  by_cases allowed : target ∈ transitions d.state
  · refine ⟨[⟨d.state.value, target.value, now, detail⟩], ⟨?_, ?_⟩, fun limit large all => ?_⟩
    · dsimp only
      rw [move_eq now detail allowed]
      exact ⟨rfl, rfl⟩
    · exact List.forall_mem_singleton.mpr (Or.inr ⟨_, mem_ladder allowed, rfl⟩)
    · have allowed' : target ∈ transitions (d.relog limit large all).state := allowed
      dsimp only
      rw [move_eq now detail allowed, move_eq now detail allowed']
      exact ({ d with state := target }).push_relog limit large all _
  · have stays : d.move now target detail = (false, d) := if_neg allowed
    refine .of_same (by rw [stays]) fun limit large all => ?_
    have stays' : (d.relog limit large all).move now target detail = (false, _) := if_neg allowed
    rw [stays, stays']

/-- A step leaves its notes. -/
theorem executeStep_relogged (now : ℚ) (outside : Outside) (step : EscalationStep) (number : Nat)
    (d : DeadManSwitchDaemon config) :
    Relogged (fun _ d => (d.executeStep now outside step number).2) d := by
  have note_ (detail : String) (d : DeadManSwitchDaemon config) := note_relogged now detail d
  have noteTwice (first second : String) :
      Relogged (fun _ d => (d.note now first).note now second) d :=
    (note_ first d).comp (note_ second _)
  unfold executeStep
  cases step.step with
  | acquireAssets =>
      cases outside.submit number with
      | error exc => exact note_ _ d
      | ok order =>
          have recordOrder_ (d : DeadManSwitchDaemon config) :
              Relogged (fun _ d => d.recordOrder order) d :=
            .of_same rfl fun _ _ _ => rfl
          have all_ (first second : String) :
              Relogged (fun _ d => ((d.note now first).recordOrder order).note now second) d :=
            ((note_ first d).comp (recordOrder_ _)).comp (note_ second _)
          -- the name of the oracle is the same under every limit
          cases outside.hook number <;>
            obtain ⟨more, recorded, same⟩ := all_ _ _ <;> exact ⟨more, recorded, same⟩
  | _ => cases outside.hook number <;> exact noteTwice _ _

theorem executeStep_fst (now : ℚ) (outside : Outside) (step : EscalationStep) (number : Nat)
    (d : DeadManSwitchDaemon config) :
    (d.executeStep now outside step number).1 = outside.attempt (step, number) :=
  (executeStep_spec d now outside step number).1

theorem failPlan_relogged (now : ℚ) (number : Nat) (exc : String)
    (d : DeadManSwitchDaemon config) : Relogged (fun _ d => d.failPlan now number exc) d := by
  have failed : Relogged (fun _ d =>
      { d with lastError := some ("step " ++ toString number ++ " failed: " ++ exc) }) d :=
    .of_same rfl fun _ _ _ => rfl
  exact failed.comp (move_relogged now .liquidating ("plan failed: " ++ exc) _)

theorem closeStep_relogged (now : ℚ) (number : Nat) (d : DeadManSwitchDaemon config) :
    Relogged (fun _ d => d.closeStep now number) d := by
  have timed : Relogged (fun _ d => { d with liquidatingSince := some now }) d :=
    .of_same rfl fun _ _ _ => rfl
  exact .ite (fun _ _ _ => Iff.rfl) (fun _ => timed.comp (move_relogged now _ "plan complete" _))
    fun _ => .of_same rfl fun _ _ _ => rfl

theorem runPlan_relogged (now : ℚ) (outside : Outside) (steps : List (EscalationStep × Nat))
    (d : DeadManSwitchDaemon config) :
    Relogged (fun _ d => (d.runPlan now outside steps).2) d := by
  induction steps generalizing d with
  | nil => exact .of_same rfl fun _ _ _ => rfl
  | cons s steps ih =>
      obtain ⟨step, number⟩ := s
      have indexed : Relogged (fun _ d => { d with stepIndex := number }) d :=
        .of_same rfl fun _ _ _ => rfl
      have executed := indexed.comp (executeStep_relogged now outside step number _)
      simp only [runPlan, executeStep_fst]
      cases raised : (outside.attempt (step, number)).raised with
      | some exc => exact executed.comp (failPlan_relogged now number exc _)
      | none => exact (executed.comp (closeStep_relogged now number _)).comp (ih _)

theorem tick_relogged (enabled : config.escalationEnabled = true) (now : ℚ) (outside : Outside)
    (d : DeadManSwitchDaemon config) :
    Relogged (fun _ d => (d.tick now outside).daemon) d := by
  have move_ (target : EscalationState) (detail : String) (d : DeadManSwitchDaemon config) :=
    move_relogged now target detail d
  have same_ : Relogged (fun _ d => d) d := .of_same rfl fun _ _ _ => rfl
  cases state : d.state with
  | armed =>
      have arm : Relogged (fun config d => if d.elapsed now > config.gracePeriod then
          (d.move now .watching "heartbeat lost").2 else d) d :=
        .ite (fun _ _ _ => Iff.rfl) (fun _ => move_ _ _ d) fun _ => same_
      exact arm.congr (fun _ _ enabled state => tick_armed enabled now outside state) enabled state
  | watching =>
      have cleared (d : DeadManSwitchDaemon config) :
          Relogged (fun _ d => { d with stepIndex := 0, liquidatingSince := none }) d :=
        .of_same rfl fun _ _ _ => rfl
      have late : Relogged (fun config d =>
          if d.elapsed now > config.gracePeriod + config.escalationPeriod then
            (d.move now .escalating "plan armed").2 else d) d :=
        .ite (fun _ _ _ => Iff.rfl) (fun _ => move_ _ _ d) fun _ => same_
      have arm : Relogged (fun config d => if d.elapsed now ≤ config.gracePeriod then
            { (d.move now .armed "heartbeat resumed").2 with
              stepIndex := 0, liquidatingSince := none }
          else if d.elapsed now > config.gracePeriod + config.escalationPeriod then
            (d.move now .escalating "plan armed").2 else d) d :=
        .ite (fun _ _ _ => Iff.rfl) (fun _ => (move_ _ _ d).comp (cleared _)) fun _ => late
      exact arm.congr (fun _ _ enabled state => tick_watching enabled now outside state) enabled state
  | escalating =>
      have reset (d : DeadManSwitchDaemon config) :
          Relogged (fun _ d => { d with stepIndex := 0 }) d :=
        .of_same rfl fun _ _ _ => rfl
      have arm : Relogged (fun config d => if d.elapsed now ≤ config.gracePeriod ∧ d.canAbort then
            { (d.move now .armed "heartbeat resumed").2 with stepIndex := 0 }
          else (d.runPlan now outside (d.stepsDue now)).2) d :=
        .ite (fun _ _ _ => Iff.rfl) (fun _ => (move_ _ _ d).comp (reset _)) fun _ =>
          runPlan_relogged now outside (d.stepsDue now) d
      exact arm.congr (fun _ _ enabled state => tick_escalating enabled now outside state) enabled state
  | liquidating =>
      have timed : Relogged (fun _ d => d.startTimer now) d := .of_same rfl fun _ _ _ => rfl
      have arm : Relogged (fun _ d => if ¬ d.pending ∨ d.graceElapsed now then
            ((d.startTimer now).move now .dormant (if ¬ d.pending then
              "conversions settled or none required"
            else "liquidation grace elapsed (orders unsettled, evidence sealed)")).2
          else d.startTimer now) d :=
        .ite (fun _ _ _ => Iff.rfl) (fun _ => timed.comp (move_ _ _ _)) fun _ => timed
      exact arm.congr (fun _ _ enabled state => tick_liquidating enabled now outside state) enabled state
  | dormant =>
      exact same_.congr (fun _ _ enabled state => tick_dormant_eq enabled now outside state) enabled state

end DeadManSwitchDaemon

/-! ## Calls and runs -/

section Machine

variable {config : DeadManConfig}

open DeadManSwitchDaemon

theorem step_beat_eq (d : DeadManSwitchDaemon config) (now : ℚ) (signed : Bool) :
    ((deadManMachine config).step d (.beat now signed)).2 =
      if config.strictHeartbeatSigning && !signed then d
      else if d.state = .armed then { d with lastBeat := some now }.note now "armed heartbeat"
      else { d with lastBeat := some now } := by
  simp only [deadManMachine, beat]
  split <;> rfl

theorem step_disarm_eq (d : DeadManSwitchDaemon config) (now : ℚ) (key : String) :
    ((deadManMachine config).step d (.disarm now key)).2 =
      if d.governanceKey ≠ some key then d
      else { (d.move now .armed "governance disarmed").2 with
        stepIndex := 0, liquidatingSince := none, lastBeat := some now } := by
  simp only [deadManMachine, disarm]
  split <;> rfl

theorem step_relogged (enabled : config.escalationEnabled = true) (call : DeadManCall)
    (d : DeadManSwitchDaemon config) :
    Relogged (fun config d => ((deadManMachine config).step d call).2) d := by
  have same_ : Relogged (fun _ d => d) d := .of_same rfl fun _ _ _ => rfl
  cases call with
  | beat now signed =>
      have beaten : Relogged (fun _ d => { d with lastBeat := some now }) d :=
        .of_same rfl fun _ _ _ => rfl
      have noted : Relogged (fun _ d => if d.state = .armed then
          { d with lastBeat := some now }.note now "armed heartbeat"
          else { d with lastBeat := some now }) d :=
        .ite (fun _ _ _ => Iff.rfl) (fun _ => beaten.comp (note_relogged now _ _)) fun _ => beaten
      have arm : Relogged (fun config d => if config.strictHeartbeatSigning && !signed then d
          else if d.state = .armed then { d with lastBeat := some now }.note now "armed heartbeat"
          else { d with lastBeat := some now }) d :=
        .ite (fun _ _ _ => Iff.rfl) (fun _ => same_) fun _ => noted
      exact arm.congr (fun _ d _ _ => step_beat_eq d now signed) enabled rfl
  | disarm now key =>
      have reset (d : DeadManSwitchDaemon config) : Relogged (fun _ d => { d with
          stepIndex := 0, liquidatingSince := none, lastBeat := some now }) d :=
        .of_same rfl fun _ _ _ => rfl
      have arm : Relogged (fun _ d => if d.governanceKey ≠ some key then d
          else { (d.move now .armed "governance disarmed").2 with
            stepIndex := 0, liquidatingSince := none, lastBeat := some now }) d :=
        .ite (fun _ _ _ => Iff.rfl) (fun _ => same_) fun _ =>
          (move_relogged now .armed _ d).comp (reset _)
      exact arm.congr (fun _ d _ _ => step_disarm_eq d now key) enabled rfl
  | tick now outside => exact tick_relogged enabled now outside d
  | orderStatus index status => exact .of_same rfl fun _ _ _ => rfl

/-- **A run under every limit is one run**, up to what the journal has forgotten. -/
theorem run_relogged (enabled : config.escalationEnabled = true) (calls : List DeadManCall)
    (d : DeadManSwitchDaemon config) :
    Relogged (fun config d => (deadManMachine config).run d calls) d := by
  induction calls generalizing d with
  | nil => exact .of_same rfl fun _ _ _ => rfl
  | cons call calls ih => exact (step_relogged enabled call d).comp (ih _)

theorem new_relog (governanceKey : Option String) (limit : Nat) (large : 16 ≤ limit) :
    DeadManSwitchDaemon.new (config.relimit limit large) governanceKey =
      (DeadManSwitchDaemon.new config governanceKey).relog limit large [] :=
  congrArg (fun journal : Journal limit Transition =>
      ({ DeadManSwitchDaemon.new (config.relimit limit large) governanceKey with
        journal := journal } : DeadManSwitchDaemon (config.relimit limit large)))
    Journal.empty_eq_ofHistory

/-! ## The last rung -/

theorem step_dormant_stays (enabled : config.escalationEnabled = true)
    (d : DeadManSwitchDaemon config) (call : DeadManCall) (dormant : d.state = .dormant) :
    ((deadManMachine config).step d call).2.state = .dormant := by
  cases call with
  | beat now signed =>
      obtain ⟨_, lastBeat, journal, after⟩ := step_beat d now signed
      rw [after]
      exact dormant
  | disarm now key =>
      obtain ⟨_, after | ⟨journal, after⟩⟩ := step_disarm d now key
      · rw [after]
        exact dormant
      · have refused : EscalationState.armed ∉ transitions d.state := by
          rw [dormant]
          decide
        rw [after]
        exact (if_neg refused).trans dormant
  | tick now outside =>
      have stays : ((deadManMachine config).step d (.tick now outside)).2 = d :=
        tick_dormant_eq enabled now outside dormant
      rw [stays]
      exact dormant
  | orderStatus index status => exact dormant

/-! ## The journal -/

/-- The entries `all` are those a run recorded: the switch keeps the newest of them, as
many as its limit allows, and would under any other limit. -/
structure Chronicle (governanceKey : Option String) (calls : List DeadManCall)
    (d : DeadManSwitchDaemon config) (all : List Transition) : Prop where
  newest : d.journal.entries = all.rtake config.maxJournalEntries
  everyLimit : ∀ limit large, ((deadManMachine (config.relimit limit large)).run
    (.new _ governanceKey) calls).journal.entries = all.rtake limit
  path : Path EscalationState.armed.value (all.map Transition.edge) d.state.value
  onLadder : ∀ e ∈ all, OnLadder e

namespace Chronicle

variable {governanceKey : Option String} {calls : List DeadManCall}
  {d : DeadManSwitchDaemon config} {all : List Transition}
  (chronicle : Chronicle governanceKey calls d all)
include chronicle

theorem suffix : d.journal.entries <:+ all := by
  rw [chronicle.newest]
  exact Journal.rtake_suffix all

/-- The entries in the journal chain. -/
theorem chain : d.journal.entries.IsChain fun e f => e.target = f.frm := by
  have edges : (all.map Transition.edge).IsChain fun e f => e.2 = f.1 := chronicle.path.chain
  rw [List.isChain_map] at edges
  exact edges.suffix chronicle.suffix

/-- The newest entry leads to the current state. -/
theorem last (e : Transition) (newest : d.journal.entries.getLast? = some e) :
    e.target = d.state.value := by
  obtain ⟨older, split⟩ := chronicle.suffix
  refine chronicle.path.getLast e.edge ?_
  rw [List.getLast?_map, ← split, List.getLast?_append, newest]
  rfl

end Chronicle

/-- **The journal and the ladder.** -/
theorem journal_of_run (config : DeadManConfig) (enabled : config.escalationEnabled = true)
    (governanceKey : Option String) (calls : List DeadManCall) (d : DeadManSwitchDaemon config)
    (run : (deadManMachine config).run (.new config governanceKey) calls = d) :
    (∃ all, Chronicle governanceKey calls d all) ∧
      d.journal.entries.IsChain (fun e f => e.target = f.frm) ∧
      (∀ e, d.journal.entries.getLast? = some e → e.target = d.state.value) ∧
      (∀ e ∈ d.journal.entries, OnLadder e) ∧
      (d.state = .armed ∨ d.state = .watching → d.stepIndex = 0) ∧
      (d.state = .dormant → ∀ later, ((deadManMachine config).run d later).state = .dormant) := by
  obtain ⟨all, recorded, same⟩ := run_relogged enabled calls (.new config governanceKey)
  dsimp only at recorded same
  rw [run] at recorded same
  have under (limit : Nat) (large : 16 ≤ limit) :
      ((deadManMachine (config.relimit limit large)).run (.new _ governanceKey) calls) =
        d.relog limit large all := by
    rw [new_relog, same, List.nil_append]
  have chronicle : Chronicle governanceKey calls d all := by
    refine ⟨?_, fun limit large => ?_, recorded.path, recorded.onLadder⟩
    · have own := under config.maxJournalEntries config.journal_pos
      exact congrArg (fun d => d.journal.entries) (run.symm.trans own)
    · rw [under]
      rfl
  have grounded : Grounded d := by
    rw [← run]
    exact (deadManMachine config).run_invariant (P := Grounded)
      (fun d call grounded => (step_advance enabled grounded call).grounded)
      (inOrder_new governanceKey).grounded calls
  exact ⟨⟨all, chronicle⟩, chronicle.chain, chronicle.last,
    fun e member => chronicle.onLadder e (chronicle.suffix.subset member), grounded.rest,
    fun dormant later => (deadManMachine config).run_invariant
      (P := fun d => d.state = .dormant) (step_dormant_stays enabled) dormant later⟩

end Machine

/-! ### Poles -/

namespace Drill

/-- The drill with the smallest journal. -/
def forgetful : DeadManConfig := (config plan).relimit 16 (le_refl _)

/-- Beats, silence until the plan is complete, a settled order, and one tick more. -/
def wholeLadder : List DeadManCall :=
  [.beat 0 false, .beat 0 false, .beat 0 false] ++ silence ++
    [.tick 40 calm, .orderStatus 0 .settled, .tick 41 calm]

def dormant : DeadManSwitchDaemon forgetful :=
  (deadManMachine forgetful).run (.new forgetful none) wholeLadder

end Drill

/-- Satisfiable pole: the whole ladder, its first entries forgotten. -/
theorem journal_of_run_drill :
    (Drill.dormant.journal.entries.head?.map (·.detail) = some "armed heartbeat" ∧
      Drill.dormant.journal.entries.getLast?.map (·.target) = some "DORMANT") ∧
      Drill.dormant.journal.entries.IsChain (fun e f => e.target = f.frm) ∧
      ∀ later, ((deadManMachine Drill.forgetful).run Drill.dormant later).state = .dormant := by
  obtain ⟨_, chain, _, _, _, stays⟩ :=
    journal_of_run Drill.forgetful rfl none Drill.wholeLadder Drill.dormant rfl
  exact ⟨by decide +kernel, chain, stays (by decide +kernel)⟩

end CentaurApex.Doomsday
