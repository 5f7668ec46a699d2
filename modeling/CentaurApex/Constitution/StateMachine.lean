/-
# Constitution.StateMachine -- the kernel: four states, three counters, one journal

`ConstitutionKernel` wraps the gate in a state machine.  A drawdown breach halts
it; two valid proofs bring it back, one phase each; an approved proposal moves it
in and out of the soft band.  The counters saturate at `u64::MAX` and the journal
keeps the newest `maxTransitionHistory` transitions.

A call is one of two inputs (`KernelCall`), so a kernel is a `Machine` and its
runs are those of `Theory.Machine`.  What a call can do is said three times, each
time completely, and everything about runs follows from it:

* `processProposal_locked`, `processProposal_trading` (and, case by case,
  `processProposal_cases`): the verdict and the kernel left behind;
* `step_moves`: the state stays and the journal with it, or one edge of the
  documented machine is taken, counted and journaled;
* `step_emergency`: the emergency counter moves with the verdict and with the
  entry into `emergencyHalt`.
-/
import CentaurApex.Theory.Machine
import CentaurApex.Theory.Bounded
import CentaurApex.Constitution.Invariants

namespace CentaurApex.Constitution

open CentaurApex.Theory
open CentaurApex.Theory.ExtNum (fin)

set_option autoImplicit false

def maxTransitionHistory : Nat := 64

/-- `u64::MAX`. -/
def u64Max : Nat := 18446744073709551615

/-- A `u64` that is only ever bumped with `saturating_add`. -/
abbrev U64Counter := SatCounter u64Max

inductive SystemOperationalState where
  | normal
  | softDeleveraging
  | emergencyHalt
  | autonomousRecovery
  deriving DecidableEq, Repr

structure ConstitutionKernel where
  state : SystemOperationalState
  params : RiskParameters
  proposalCount : U64Counter
  emergencyCount : U64Counter
  transitionCount : U64Counter
  transitionHistory : Journal maxTransitionHistory (SystemOperationalState × SystemOperationalState)

namespace ConstitutionKernel

def new (params : RiskParameters) : ConstitutionKernel where
  state := .normal
  params := params
  proposalCount := .ofNat u64Max 0
  emergencyCount := .ofNat u64Max 0
  transitionCount := .ofNat u64Max 0
  transitionHistory := .empty

def recordTransition (k : ConstitutionKernel) (source target : SystemOperationalState) :
    ConstitutionKernel :=
  { k with
    transitionCount := k.transitionCount.saturatingAdd 1
    transitionHistory := k.transitionHistory.push (source, target) }

def enterEmergency (k : ConstitutionKernel) : ConstitutionKernel :=
  let halted := { k with emergencyCount := k.emergencyCount.saturatingAdd 1, state := .emergencyHalt }
  if k.state ≠ .emergencyHalt then halted.recordTransition k.state .emergencyHalt else halted

/-- The state update nested in the `Approved` arm of `process_proposal`. -/
def trackSoftBand (k : ConstitutionKernel) (portfolio : PortfolioState) : ConstitutionKernel :=
  if portfolio.highWaterMark > 0 then
    match k.state with
    | .softDeleveraging =>
        if portfolio.drawdown < k.params.maxDrawdownThreshold * fin (80 / 100) then
          { k.recordTransition .softDeleveraging .normal with state := .normal }
        else k
    | .normal =>
        if portfolio.drawdown ≥ k.params.maxDrawdownThreshold * fin (80 / 100) then
          { k.recordTransition .normal .softDeleveraging with state := .softDeleveraging }
        else k
    | .emergencyHalt => k
    | .autonomousRecovery => k
  else k

def countProposal (k : ConstitutionKernel) : ConstitutionKernel :=
  { k with proposalCount := k.proposalCount.saturatingAdd 1 }

def processProposal (k : ConstitutionKernel) (portfolio : PortfolioState)
    (proposal : TradeProposal) : ConstitutionVerdict × ConstitutionKernel :=
  let k := k.countProposal
  if k.state = .emergencyHalt ∨ k.state = .autonomousRecovery then
    (.rejected .maxDrawdownBreached, k)
  else
    match evaluateProposal portfolio proposal k.params with
    | .emergencyLiquidationAll => (.emergencyLiquidationAll, k.enterEmergency)
    | .rejected reasonCode =>
        if reasonCode = .maxDrawdownBreached then (.emergencyLiquidationAll, k.enterEmergency)
        else (.rejected reasonCode, k)
    | .approved adjustedNotional => (.approved adjustedNotional, k.trackSoftBand portfolio)

/-- Two-phase recovery: a valid proof advances one phase, an invalid one none. -/
def attemptRecovery (k : ConstitutionKernel) (cryptographicProofValid : Bool) :
    Bool × ConstitutionKernel :=
  if !cryptographicProofValid then (false, k)
  else
    match k.state with
    | .emergencyHalt =>
        (true, { k.recordTransition .emergencyHalt .autonomousRecovery with
          state := .autonomousRecovery })
    | .autonomousRecovery =>
        (true, { k.recordTransition .autonomousRecovery .normal with state := .normal })
    | .normal => (false, k)
    | .softDeleveraging => (false, k)

end ConstitutionKernel

open ConstitutionKernel

/-! ## The kernel as a machine -/

inductive KernelCall where
  | processProposal (portfolio : PortfolioState) (proposal : TradeProposal)
  | attemptRecovery (cryptographicProofValid : Bool)

inductive KernelReply where
  | verdict (v : ConstitutionVerdict)
  | recovered (success : Bool)
  deriving DecidableEq

def kernelMachine : Machine ConstitutionKernel KernelCall KernelReply where
  step k call :=
    match call with
    | .processProposal portfolio proposal =>
        ((.verdict (k.processProposal portfolio proposal).1),
          (k.processProposal portfolio proposal).2)
    | .attemptRecovery valid =>
        (.recovered (k.attemptRecovery valid).1, (k.attemptRecovery valid).2)

/-- Open for trading: the two states in which a proposal reaches the gate. -/
def SystemOperationalState.Trading (s : SystemOperationalState) : Prop :=
  s = .normal ∨ s = .softDeleveraging

instance (s : SystemOperationalState) : Decidable s.Trading :=
  inferInstanceAs (Decidable (_ ∨ _))

/-- The documented transitions. -/
inductive Edge : SystemOperationalState → SystemOperationalState → Prop where
  | soften : Edge .normal .softDeleveraging
  | harden : Edge .softDeleveraging .normal
  | haltNormal : Edge .normal .emergencyHalt
  | haltSoft : Edge .softDeleveraging .emergencyHalt
  | phaseOne : Edge .emergencyHalt .autonomousRecovery
  | phaseTwo : Edge .autonomousRecovery .normal

theorem Edge.ne {s t : SystemOperationalState} (edge : Edge s t) : s ≠ t := by
  cases edge <;> decide

/-! ## What one call does -/

theorem trading_iff {s : SystemOperationalState} :
    s.Trading ↔ ¬ (s = .emergencyHalt ∨ s = .autonomousRecovery) := by
  cases s <;> decide

/-- The kernel a verdict of the gate leaves behind. -/
def ConstitutionKernel.settle (k : ConstitutionKernel) (portfolio : PortfolioState) :
    ConstitutionVerdict → ConstitutionKernel
  | .emergencyLiquidationAll => k.enterEmergency
  | .rejected _ => k
  | .approved _ => k.trackSoftBand portfolio

/-- Locked, the kernel turns every proposal away. -/
theorem processProposal_locked {k : ConstitutionKernel} (locked : ¬ k.state.Trading)
    (portfolio : PortfolioState) (proposal : TradeProposal) :
    k.processProposal portfolio proposal = (.rejected .maxDrawdownBreached, k.countProposal) := by
  have guard : k.countProposal.state = .emergencyHalt ∨
      k.countProposal.state = .autonomousRecovery := by
    by_contra open_
    exact locked (trading_iff.mpr open_)
  rw [processProposal]
  exact if_pos guard

/-- **Open for trading, the kernel passes on the verdict of the gate.** -/
theorem processProposal_trading {k : ConstitutionKernel} (trading : k.state.Trading)
    (portfolio : PortfolioState) (proposal : TradeProposal) :
    k.processProposal portfolio proposal = (evaluateProposal portfolio proposal k.params,
      k.countProposal.settle portfolio (evaluateProposal portfolio proposal k.params)) := by
  have guard : ¬ (k.countProposal.state = .emergencyHalt ∨
      k.countProposal.state = .autonomousRecovery) := trading_iff.mp trading
  have params : k.countProposal.params = k.params := rfl
  simp only [processProposal, if_neg guard, params]
  cases verdict : evaluateProposal portfolio proposal k.params with
  | emergencyLiquidationAll => rfl
  | rejected code =>
      -- the gate never answers `MaxDrawdownBreached`, so that inner arm is dead
      exact if_neg (evaluate_rejected verdict).1
  | approved n => rfl

/-- Every way `process_proposal` can answer. -/
theorem processProposal_cases (k : ConstitutionKernel) (portfolio : PortfolioState)
    (proposal : TradeProposal) :
    (¬ k.state.Trading ∧
      k.processProposal portfolio proposal = (.rejected .maxDrawdownBreached, k.countProposal)) ∨
    (k.state.Trading ∧
      evaluateProposal portfolio proposal k.params = .emergencyLiquidationAll ∧
      k.processProposal portfolio proposal =
        (.emergencyLiquidationAll, k.countProposal.enterEmergency)) ∨
    (k.state.Trading ∧ ∃ code, evaluateProposal portfolio proposal k.params = .rejected code ∧
      k.processProposal portfolio proposal = (.rejected code, k.countProposal)) ∨
    (k.state.Trading ∧ ∃ n, evaluateProposal portfolio proposal k.params = .approved n ∧
      k.processProposal portfolio proposal =
        (.approved n, k.countProposal.trackSoftBand portfolio)) := by
  by_cases trading : k.state.Trading
  · have eq := processProposal_trading trading portfolio proposal
    cases verdict : evaluateProposal portfolio proposal k.params with
    | emergencyLiquidationAll =>
        rw [verdict] at eq
        exact Or.inr (Or.inl ⟨trading, rfl, eq⟩)
    | rejected code =>
        rw [verdict] at eq
        exact Or.inr (Or.inr (Or.inl ⟨trading, code, rfl, eq⟩))
    | approved n =>
        rw [verdict] at eq
        exact Or.inr (Or.inr (Or.inr ⟨trading, n, rfl, eq⟩))
  · exact Or.inl ⟨trading, processProposal_locked trading portfolio proposal⟩

/-- The state and its journal after a call: untouched, or moved along one edge,
the move counted and journaled. -/
inductive Moves (k k' : ConstitutionKernel) : Prop where
  | stay (state : k'.state = k.state) (count : k'.transitionCount = k.transitionCount)
      (history : k'.transitionHistory = k.transitionHistory)
  | move (edge : Edge k.state k'.state)
      (count : k'.transitionCount = k.transitionCount.saturatingAdd 1)
      (history : k'.transitionHistory = k.transitionHistory.push (k.state, k'.state))

/-- Counting the proposal is not a move. -/
theorem Moves.of_countProposal {k k' : ConstitutionKernel} (moves : Moves k.countProposal k') :
    Moves k k' := by
  cases moves with
  | stay state count history => exact .stay state count history
  | move edge count history => exact .move edge count history

theorem enterEmergency_moves {k : ConstitutionKernel} (trading : k.state.Trading) :
    Moves k k.enterEmergency ∧ k.enterEmergency.state = .emergencyHalt := by
  have notHalted : k.state ≠ .emergencyHalt := fun halted => trading_iff.mp trading (Or.inl halted)
  simp only [enterEmergency, if_pos notHalted]
  refine ⟨.move ?_ rfl rfl, rfl⟩
  show Edge k.state .emergencyHalt
  rcases trading with normal | soft
  · rw [normal]
    exact .haltNormal
  · rw [soft]
    exact .haltSoft

theorem trackSoftBand_moves (k : ConstitutionKernel) (portfolio : PortfolioState) :
    Moves k (k.trackSoftBand portfolio) := by
  unfold trackSoftBand
  split
  · cases state : k.state with
    | normal =>
        dsimp only
        split
        · exact .move (by rw [state]; exact .soften) rfl (by rw [state]; rfl)
        · exact .stay rfl rfl rfl
    | softDeleveraging =>
        dsimp only
        split
        · exact .move (by rw [state]; exact .harden) rfl (by rw [state]; rfl)
        · exact .stay rfl rfl rfl
    | emergencyHalt => exact .stay rfl rfl rfl
    | autonomousRecovery => exact .stay rfl rfl rfl
  · exact .stay rfl rfl rfl

/-- The soft band is left and entered among the trading states. -/
theorem trackSoftBand_trading {k : ConstitutionKernel} (trading : k.state.Trading)
    {portfolio : PortfolioState} : (k.trackSoftBand portfolio).state.Trading := by
  unfold trackSoftBand
  split
  · rcases trading with normal | soft
    · rw [normal]
      dsimp only
      split
      · exact Or.inr rfl
      · exact Or.inl normal
    · rw [soft]
      dsimp only
      split
      · exact Or.inl rfl
      · exact Or.inr soft
  · exact trading

theorem attemptRecovery_moves (k : ConstitutionKernel) (valid : Bool) :
    Moves k (k.attemptRecovery valid).2 := by
  cases valid with
  | false => exact .stay rfl rfl rfl
  | true =>
      simp only [attemptRecovery, Bool.not_true, Bool.false_eq_true, if_false]
      cases state : k.state with
      | emergencyHalt => exact .move (by rw [state]; exact .phaseOne) rfl (by rw [state]; rfl)
      | autonomousRecovery => exact .move (by rw [state]; exact .phaseTwo) rfl (by rw [state]; rfl)
      | normal => exact .stay rfl rfl rfl
      | softDeleveraging => exact .stay rfl rfl rfl

/-- **Every call leaves the state where it was, or takes one documented edge.** -/
theorem step_moves (k : ConstitutionKernel) (call : KernelCall) :
    Moves k (kernelMachine.step k call).2 := by
  cases call with
  | attemptRecovery valid => exact attemptRecovery_moves k valid
  | processProposal portfolio proposal =>
      show Moves k (k.processProposal portfolio proposal).2
      rcases processProposal_cases k portfolio proposal with
        ⟨_, eq⟩ | ⟨trading, _, eq⟩ | ⟨_, _, _, eq⟩ | ⟨_, _, _, eq⟩
      · rw [eq]
        exact .stay rfl rfl rfl
      · rw [eq]
        exact .of_countProposal (enterEmergency_moves (k := k.countProposal) trading).1
      · rw [eq]
        exact .stay rfl rfl rfl
      · rw [eq]
        exact .of_countProposal (trackSoftBand_moves k.countProposal portfolio)

/-! ## The parameters never change -/

theorem trackSoftBand_params (k : ConstitutionKernel) (portfolio : PortfolioState) :
    (k.trackSoftBand portfolio).params = k.params := by
  unfold trackSoftBand
  split
  · cases k.state <;> dsimp only <;> (try split) <;> rfl
  · rfl

theorem enterEmergency_params (k : ConstitutionKernel) : k.enterEmergency.params = k.params := by
  unfold enterEmergency
  dsimp only
  split <;> rfl

theorem step_params (k : ConstitutionKernel) (call : KernelCall) :
    (kernelMachine.step k call).2.params = k.params := by
  cases call with
  | attemptRecovery valid =>
      cases valid with
      | false => rfl
      | true =>
          show (k.attemptRecovery true).2.params = k.params
          simp only [attemptRecovery, Bool.not_true, Bool.false_eq_true, if_false]
          cases k.state <;> rfl
  | processProposal portfolio proposal =>
      show (k.processProposal portfolio proposal).2.params = k.params
      rcases processProposal_cases k portfolio proposal with
        ⟨_, eq⟩ | ⟨_, _, eq⟩ | ⟨_, _, _, eq⟩ | ⟨_, _, _, eq⟩ <;> rw [eq]
      · rfl
      · exact enterEmergency_params k.countProposal
      · rfl
      · exact trackSoftBand_params k.countProposal portfolio

/-- A reachable kernel judges by the parameters it was built with. -/
theorem reachable_params {params : RiskParameters} {k : ConstitutionKernel}
    (reachable : kernelMachine.Reachable (.new params) k) : k.params = params := by
  obtain ⟨calls, rfl⟩ := reachable
  exact kernelMachine.run_invariant (P := fun k => k.params = params)
    (fun k call kept => (step_params k call).trans kept) rfl calls

/-! ## Emergencies -/

def KernelReply.isEmergency : KernelReply → Bool
  | .verdict .emergencyLiquidationAll => true
  | _ => false

/-- The emergency counter, the verdict and the entry into `emergencyHalt` move
together. -/
structure EmergencyAgrees (k : ConstitutionKernel) (reply : KernelReply) (k' : ConstitutionKernel) :
    Prop where
  count : k'.emergencyCount = k.emergencyCount.saturatingAdd reply.isEmergency.toNat
  entered : reply.isEmergency = true ↔ k.state ≠ .emergencyHalt ∧ k'.state = .emergencyHalt

/-- A call that answers without an emergency, counts none and does not enter
`emergencyHalt`. -/
theorem EmergencyAgrees.of_none {k k' : ConstitutionKernel} {reply : KernelReply}
    (none_ : reply.isEmergency = false) (count : k'.emergencyCount = k.emergencyCount)
    (state : k'.state = .emergencyHalt → k.state = .emergencyHalt) :
    EmergencyAgrees k reply k' where
  count := by rw [none_, Bool.toNat_false, SatCounter.saturatingAdd_zero, count]
  entered := by
    rw [none_]
    exact ⟨fun impossible => by simp at impossible, fun ⟨out, entered⟩ => absurd (state entered) out⟩

theorem trackSoftBand_emergency (k : ConstitutionKernel) (portfolio : PortfolioState) :
    (k.trackSoftBand portfolio).emergencyCount = k.emergencyCount ∧
      ((k.trackSoftBand portfolio).state = .emergencyHalt → k.state = .emergencyHalt) := by
  unfold trackSoftBand
  split
  · cases state : k.state <;> dsimp only <;> (try split) <;> simp_all [recordTransition]
  · exact ⟨rfl, id⟩

theorem attemptRecovery_emergency (k : ConstitutionKernel) (valid : Bool) :
    (k.attemptRecovery valid).2.emergencyCount = k.emergencyCount ∧
      ((k.attemptRecovery valid).2.state = .emergencyHalt → k.state = .emergencyHalt) := by
  cases valid with
  | false => exact ⟨rfl, id⟩
  | true =>
      simp only [attemptRecovery, Bool.not_true, Bool.false_eq_true, if_false]
      cases state : k.state <;> simp [recordTransition, state]

theorem step_emergency (k : ConstitutionKernel) (call : KernelCall) :
    EmergencyAgrees k (kernelMachine.step k call).1 (kernelMachine.step k call).2 := by
  cases call with
  | attemptRecovery valid =>
      obtain ⟨count, state⟩ := attemptRecovery_emergency k valid
      exact .of_none rfl count state
  | processProposal portfolio proposal =>
      show EmergencyAgrees k (.verdict (k.processProposal portfolio proposal).1)
        (k.processProposal portfolio proposal).2
      rcases processProposal_cases k portfolio proposal with
        ⟨_, eq⟩ | ⟨trading, _, eq⟩ | ⟨_, code, _, eq⟩ | ⟨_, n, _, eq⟩ <;> rw [eq]
      · exact .of_none rfl rfl id
      · have notHalted : k.countProposal.state ≠ .emergencyHalt := fun halted =>
          trading_iff.mp trading (Or.inl halted)
        have halts := (enterEmergency_moves (k := k.countProposal) trading).2
        refine ⟨?_, fun _ => ⟨notHalted, halts⟩, fun _ => rfl⟩
        simp only [enterEmergency, if_pos notHalted]
        rfl
      · exact .of_none rfl rfl id
      · obtain ⟨count, state⟩ := trackSoftBand_emergency k.countProposal portfolio
        exact .of_none rfl count state

end CentaurApex.Constitution
