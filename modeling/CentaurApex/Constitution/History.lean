/-
# Constitution.History -- the kernel's books over a whole run

The ghost history of a run is the list of its state changes
(`Machine.changes state`), computed from the states alone.  The kernel keeps four
things about it, updated at five places: `Journaled` says the counter and the
journal are the images of the history, one step keeps that (`Moves.journaled`),
so every run does (`journaled_run`).  The journal is a suffix of the history and
the history is a path, so the entries chain and end in the current state.

Counters saturate: `books_agree` reads both counters up to `u64::MAX`, and
`emergency_count_saturates` is the run on which that proviso is needed.
-/
import CentaurApex.Constitution.StateMachine

namespace CentaurApex.Constitution

open CentaurApex.Theory
open CentaurApex.Theory.ExtNum (fin)

set_option autoImplicit false

/-- The state changes of a run, in order. -/
def stateChanges (k : ConstitutionKernel) (calls : List KernelCall) :
    List (SystemOperationalState × SystemOperationalState) :=
  kernelMachine.changes ConstitutionKernel.state k calls

/-- The number of `EmergencyLiquidationAll` verdicts of a run. -/
def emergencyVerdicts (k : ConstitutionKernel) (calls : List KernelCall) : Nat :=
  (kernelMachine.trace k calls).countP fun e => e.reply.isEmergency

/-- The counter and the journal are the images of the history `all`. -/
structure Journaled (k : ConstitutionKernel)
    (all : List (SystemOperationalState × SystemOperationalState)) : Prop where
  count : k.transitionCount = .ofNat u64Max all.length
  history : k.transitionHistory = .ofHistory maxTransitionHistory all

theorem new_journaled (params : RiskParameters) : Journaled (.new params) [] :=
  ⟨rfl, Journal.empty_eq_ofHistory⟩

theorem Moves.journaled {k k' : ConstitutionKernel} (moves : Moves k k')
    {all : List (SystemOperationalState × SystemOperationalState)} (books : Journaled k all) :
    Journaled k' (all ++ Machine.change ConstitutionKernel.state k k') := by
  cases moves with
  | stay state count history =>
      rw [Machine.change, if_pos state.symm, List.append_nil]
      exact ⟨count.trans books.count, history.trans books.history⟩
  | move edge count history =>
      rw [Machine.change, if_neg edge.ne]
      refine ⟨?_, ?_⟩
      · rw [count, books.count, SatCounter.saturatingAdd_ofNat, List.length_append]
        rfl
      · rw [history, books.history, Journal.push_ofHistory]

/-- **The journal of a run is the journal of its state changes.** -/
theorem journaled_run (calls : List KernelCall) :
    ∀ (k : ConstitutionKernel) (all : List (SystemOperationalState × SystemOperationalState)),
      Journaled k all → Journaled (kernelMachine.run k calls) (all ++ stateChanges k calls) := by
  induction calls with
  | nil =>
      intro k all books
      rw [stateChanges, Machine.changes, List.append_nil]
      exact books
  | cons call calls ih =>
      intro k all books
      have next := ih _ _ ((step_moves k call).journaled books)
      rw [List.append_assoc] at next
      exact next

theorem stateChanges_edges (k : ConstitutionKernel) (calls : List KernelCall) :
    ∀ e ∈ stateChanges k calls, Edge e.1 e.2 := by
  refine Machine.forall_changes _ _ (fun k call moved => ?_) k calls
  cases step_moves k call with
  | stay state count history => exact absurd state.symm moved
  | move edge count history => exact edge

/-- A step enters `emergencyHalt` exactly when its verdict is an emergency. -/
theorem change_entered (k : ConstitutionKernel) (call : KernelCall) :
    (Machine.change ConstitutionKernel.state k (kernelMachine.step k call).2).countP
        (fun e => e.2 = .emergencyHalt) =
      (kernelMachine.step k call).1.isEmergency.toNat := by
  have entered := (step_emergency k call).entered
  unfold Machine.change
  by_cases same : k.state = (kernelMachine.step k call).2.state
  · rw [if_pos same]
    have quiet : (kernelMachine.step k call).1.isEmergency = false := by
      rw [← Bool.not_eq_true, entered]
      rintro ⟨out, halted⟩
      exact out (same.trans halted)
    rw [quiet]
    rfl
  · rw [if_neg same, List.countP_singleton]
    by_cases halted : (kernelMachine.step k call).2.state = .emergencyHalt
    · have out : k.state ≠ .emergencyHalt := fun was => same (was.trans halted.symm)
      rw [entered.mpr ⟨out, halted⟩]
      simp [halted]
    · have quiet : (kernelMachine.step k call).1.isEmergency = false := by
        rw [← Bool.not_eq_true, entered]
        exact fun both => halted both.2
      rw [quiet]
      simp [halted]

theorem emergencyVerdicts_cons (k : ConstitutionKernel) (call : KernelCall)
    (calls : List KernelCall) :
    emergencyVerdicts k (call :: calls) =
      (kernelMachine.step k call).1.isEmergency.toNat +
        emergencyVerdicts (kernelMachine.step k call).2 calls := by
  rw [emergencyVerdicts, emergencyVerdicts, Machine.trace, List.countP_cons, Machine.event,
    Nat.add_comm]
  cases (kernelMachine.step k call).1.isEmergency <;> rfl

theorem emergencyVerdicts_append (k : ConstitutionKernel) (calls calls' : List KernelCall) :
    emergencyVerdicts k (calls ++ calls') =
      emergencyVerdicts k calls + emergencyVerdicts (kernelMachine.run k calls) calls' := by
  rw [emergencyVerdicts, Machine.trace_append, List.countP_append]
  rfl

/-- **Emergency verdicts are entries into `emergencyHalt`.** -/
theorem emergencyVerdicts_eq (calls : List KernelCall) :
    ∀ k : ConstitutionKernel, emergencyVerdicts k calls =
      (stateChanges k calls).countP fun e => e.2 = .emergencyHalt := by
  induction calls with
  | nil => exact fun _ => rfl
  | cons call calls ih =>
      intro k
      have later := ih (kernelMachine.step k call).2
      rw [stateChanges] at later
      rw [emergencyVerdicts_cons, stateChanges, Machine.changes, List.countP_append,
        change_entered, later]

theorem emergencyCount_run (calls : List KernelCall) :
    ∀ (k : ConstitutionKernel) (n : Nat), k.emergencyCount = .ofNat u64Max n →
      (kernelMachine.run k calls).emergencyCount =
        .ofNat u64Max (n + emergencyVerdicts k calls) := by
  induction calls with
  | nil => exact fun _ _ count => count
  | cons call calls ih =>
      intro k n count
      have here : (kernelMachine.step k call).2.emergencyCount =
          .ofNat u64Max (n + (kernelMachine.step k call).1.isEmergency.toNat) := by
        rw [(step_emergency k call).count, count, SatCounter.saturatingAdd_ofNat]
      rw [emergencyVerdicts_cons, ← Nat.add_assoc]
      exact ih _ _ here

/-! ## The books -/

/-- What the books of a kernel say about the run that led to it. -/
structure BooksAgree (k : ConstitutionKernel)
    (changes : List (SystemOperationalState × SystemOperationalState)) (emergencies : Nat) :
    Prop where
  history : k.transitionHistory.entries = changes.rtake maxTransitionHistory
  count : k.transitionCount.val = min changes.length u64Max
  edges : ∀ e ∈ k.transitionHistory.entries, Edge e.1 e.2
  chain : k.transitionHistory.entries.IsChain fun e f => e.2 = f.1
  last : ∀ e, k.transitionHistory.entries.getLast? = some e → e.2 = k.state
  emergencyCount : k.emergencyCount.val = min emergencies u64Max
  halts : emergencies = changes.countP fun e => e.2 = .emergencyHalt

/-- **The books of every run agree with the run**, the counters up to `u64::MAX`. -/
theorem books_agree (params : RiskParameters) (calls : List KernelCall) :
    BooksAgree (kernelMachine.run (.new params) calls) (stateChanges (.new params) calls)
      (emergencyVerdicts (.new params) calls) := by
  have books := journaled_run calls (.new params) [] (new_journaled params)
  rw [List.nil_append] at books
  have entries : (kernelMachine.run (.new params) calls).transitionHistory.entries =
      (stateChanges (.new params) calls).rtake maxTransitionHistory := by
    rw [books.history]
    rfl
  have path := kernelMachine.path_changes ConstitutionKernel.state (.new params) calls
  have suffix : (stateChanges (.new params) calls).rtake maxTransitionHistory <:+
      stateChanges (.new params) calls := Journal.rtake_suffix _
  have emergencies := emergencyCount_run calls (.new params) 0 rfl
  refine ⟨entries, ?_, ?_, ?_, ?_, ?_, emergencyVerdicts_eq calls _⟩
  · rw [books.count]
    rfl
  · rw [entries]
    exact fun e member => stateChanges_edges _ _ e (suffix.subset member)
  · rw [entries]
    exact path.chain.suffix suffix
  · rw [entries]
    intro e last
    obtain ⟨front, split⟩ := suffix
    have : (stateChanges (.new params) calls).getLast? = some e := by
      rw [← split, List.getLast?_append, last]
      rfl
    exact path.getLast e this
  · rw [emergencies, Nat.zero_add]
    rfl

/-! ## Poles: past `u64::MAX` emergencies -/

namespace Saturation

/-- Halt, then recover in two phases. -/
def cycle : List KernelCall :=
  [.processProposal Sample.breach Sample.order, .attemptRecovery true, .attemptRecovery true]

def cycles : Nat → List KernelCall
  | 0 => []
  | n + 1 => cycle ++ cycles n

theorem cycle_run {k : ConstitutionKernel} (normal : k.state = .normal)
    (params : k.params = .default) :
    (kernelMachine.run k cycle).state = .normal ∧ (kernelMachine.run k cycle).params = .default ∧
      emergencyVerdicts k cycle = 1 := by
  have verdict : evaluateProposal Sample.breach Sample.order k.params = .emergencyLiquidationAll := by
    rw [params]
    decide +kernel
  have answer : k.processProposal Sample.breach Sample.order =
      (.emergencyLiquidationAll, k.countProposal.enterEmergency) := by
    rw [processProposal_trading (Or.inl normal), verdict]
    rfl
  obtain ⟨state, params', proposals, emergencies, transitions, history⟩ := k
  obtain rfl : state = .normal := normal
  refine ⟨?_, ?_, ?_⟩
  · simp only [cycle, Machine.run, kernelMachine, answer]
    rfl
  · simp only [cycle, Machine.run, kernelMachine, answer]
    exact params
  · simp only [cycle, emergencyVerdicts, Machine.trace, Machine.event, kernelMachine, answer]
    rfl

theorem emergencyVerdicts_cycles (n : Nat) :
    ∀ k : ConstitutionKernel, k.state = .normal → k.params = .default →
      emergencyVerdicts k (cycles n) = n := by
  induction n with
  | zero => exact fun _ _ _ => rfl
  | succ n ih =>
      intro k normal params
      obtain ⟨normal', params', once⟩ := cycle_run normal params
      rw [cycles, emergencyVerdicts_append, once, ih _ normal' params', Nat.add_comm]

end Saturation

/-- Refuting pole: after `u64::MAX + 1` halts the emergency counter is one
behind the emergencies it counts. -/
theorem emergency_count_saturates :
    ¬ ∀ (params : RiskParameters) (calls : List KernelCall),
      (kernelMachine.run (.new params) calls).emergencyCount.val =
        emergencyVerdicts (.new params) calls := by
  intro exact_
  have equal := exact_ .default (Saturation.cycles (u64Max + 1))
  have bounded := (kernelMachine.run (.new .default)
    (Saturation.cycles (u64Max + 1))).emergencyCount.val_le
  rw [equal, Saturation.emergencyVerdicts_cycles (u64Max + 1) (.new .default) rfl rfl] at bounded
  omega

end CentaurApex.Constitution
