/-
# Constitution.Invariants -- the risk gate

`evaluate_proposal` judges one proposal against one portfolio: numerical
validity, then the drawdown circuit breaker, then the leverage ceiling, then the
concentration limit.  The numbers are `ExtNum ℚ`: every finite `f64` is a rational
and is computed with exactly; a decimal literal of the source stands for its
decimal value; NaN and the infinities follow the IEEE rules.

The function is read once, over the four named conditions (`InvalidNumerical`,
`DrawdownBreached`, `LeverageExceeded`, `ConcentrationExceeded`):
`evaluate_approved_iff`, `evaluate_emergency_iff` and `evaluate_rejected` say when
it answers what, and nothing after them unfolds it.
-/
import CentaurApex.Theory.ExtNum
import Mathlib.Data.Rat.Cast.Order
import Mathlib.Tactic.Positivity

namespace CentaurApex.Constitution

open CentaurApex.Theory
open CentaurApex.Theory.ExtNum (fin)

set_option autoImplicit false

/-- An `f64`: an exact rational, an infinity, or NaN. -/
abbrev F64 := ExtNum ℚ

/-! ## The data model -/

inductive OrderDirection where
  | buy
  | sell
  deriving DecidableEq, Repr

structure Position where
  assetId : String
  notionalValue : F64
  entryPrice : F64
  deriving DecidableEq, Repr

structure PortfolioState where
  timestamp : UInt64
  totalEquity : F64
  cashBalance : F64
  highWaterMark : F64
  openPositions : List Position
  deriving DecidableEq, Repr

structure TradeProposal where
  proposalId : String
  assetId : String
  direction : OrderDirection
  targetNotional : F64
  maxAcceptableSlippage : F64
  deriving DecidableEq, Repr

inductive RiskViolationCode where
  | maxDrawdownBreached
  | globalLeverageCapExceeded
  | assetConcentrationLimitExceeded
  | invalidNumericalState
  deriving DecidableEq, Repr

inductive ConstitutionVerdict where
  | approved (adjustedNotional : F64)
  | rejected (reasonCode : RiskViolationCode)
  | emergencyLiquidationAll
  deriving DecidableEq, Repr

structure RiskParameters where
  maxDrawdownThreshold : F64
  globalLeverageCap : F64
  maxAssetConcentration : F64
  deriving DecidableEq, Repr

/-- `impl Default for RiskParameters`. -/
def RiskParameters.default : RiskParameters where
  maxDrawdownThreshold := fin (15 / 100)
  globalLeverageCap := fin (25 / 10)
  maxAssetConcentration := fin (20 / 100)

/-! ## The gate -/

/-- The validity guard at the head of `evaluate_proposal`. -/
def InvalidNumerical (state : PortfolioState) (proposal : TradeProposal) : Prop :=
  state.totalEquity ≤ 0 ∨ state.highWaterMark ≤ 0 ∨ proposal.targetNotional ≤ 0 ∨
    state.totalEquity.IsNan ∨ state.totalEquity.IsInfinite ∨
    state.highWaterMark.IsNan ∨ state.highWaterMark.IsInfinite ∨
    proposal.targetNotional.IsNan ∨ proposal.targetNotional.IsInfinite

instance (state : PortfolioState) (proposal : TradeProposal) :
    Decidable (InvalidNumerical state proposal) :=
  inferInstanceAs (Decidable (_ ∨ _))

def PortfolioState.drawdown (state : PortfolioState) : F64 :=
  (state.highWaterMark - state.totalEquity) / state.highWaterMark

/-- `open_positions.iter().map(|p| p.notional_value.abs()).sum()`. -/
def grossNotional (positions : List Position) : F64 :=
  (positions.map fun p => p.notionalValue.abs).sum

def PortfolioState.currentGrossNotional (state : PortfolioState) : F64 :=
  grossNotional state.openPositions

def PortfolioState.existingAssetNotional (state : PortfolioState) (assetId : String) : F64 :=
  grossNotional (state.openPositions.filter fun p => p.assetId = assetId)

def projectedLeverage (state : PortfolioState) (proposal : TradeProposal) : F64 :=
  (state.currentGrossNotional + proposal.targetNotional) / state.totalEquity

def assetConcentration (state : PortfolioState) (proposal : TradeProposal) : F64 :=
  (state.existingAssetNotional proposal.assetId + proposal.targetNotional) / state.totalEquity

def DrawdownBreached (state : PortfolioState) (params : RiskParameters) : Prop :=
  state.drawdown ≥ params.maxDrawdownThreshold

def LeverageExceeded (state : PortfolioState) (proposal : TradeProposal)
    (params : RiskParameters) : Prop :=
  projectedLeverage state proposal > params.globalLeverageCap

def ConcentrationExceeded (state : PortfolioState) (proposal : TradeProposal)
    (params : RiskParameters) : Prop :=
  assetConcentration state proposal > params.maxAssetConcentration

instance (state : PortfolioState) (params : RiskParameters) :
    Decidable (DrawdownBreached state params) :=
  inferInstanceAs (Decidable (params.maxDrawdownThreshold ≤ state.drawdown))

instance (state : PortfolioState) (proposal : TradeProposal) (params : RiskParameters) :
    Decidable (LeverageExceeded state proposal params) :=
  inferInstanceAs (Decidable (params.globalLeverageCap < projectedLeverage state proposal))

instance (state : PortfolioState) (proposal : TradeProposal) (params : RiskParameters) :
    Decidable (ConcentrationExceeded state proposal params) :=
  inferInstanceAs (Decidable (params.maxAssetConcentration < assetConcentration state proposal))

def evaluateProposal (state : PortfolioState) (proposal : TradeProposal)
    (params : RiskParameters) : ConstitutionVerdict :=
  if InvalidNumerical state proposal then .rejected .invalidNumericalState
  else if DrawdownBreached state params then .emergencyLiquidationAll
  else if LeverageExceeded state proposal params then .rejected .globalLeverageCapExceeded
  else if ConcentrationExceeded state proposal params then
    .rejected .assetConcentrationLimitExceeded
  else .approved proposal.targetNotional

/-! ## What the gate answers -/

section Spec

variable {state : PortfolioState} {proposal : TradeProposal} {params : RiskParameters}

/-- Behind the validity guard the three numbers are positive rationals. -/
theorem not_invalidNumerical_iff :
    ¬ InvalidNumerical state proposal ↔
      ∃ E H n : ℚ, (state.totalEquity = fin E ∧ 0 < E) ∧ (state.highWaterMark = fin H ∧ 0 < H) ∧
        (proposal.targetNotional = fin n ∧ 0 < n) := by
  have positive : ∀ x : F64, (¬ x ≤ 0 ∧ ¬ x.IsNan ∧ ¬ x.IsInfinite) ↔ ∃ q, x = fin q ∧ 0 < q := by
    intro x
    cases x <;> simp [ExtNum.zero_eq, ExtNum.IsNan, ExtNum.IsInfinite]
  simp only [InvalidNumerical, not_or]
  constructor
  · rintro ⟨equity, mark, notional, equityNan, equityInf, markNan, markInf, notionalNan, notionalInf⟩
    obtain ⟨E, hE⟩ := (positive _).mp ⟨equity, equityNan, equityInf⟩
    obtain ⟨H, hH⟩ := (positive _).mp ⟨mark, markNan, markInf⟩
    obtain ⟨n, hn⟩ := (positive _).mp ⟨notional, notionalNan, notionalInf⟩
    exact ⟨E, H, n, hE, hH, hn⟩
  · rintro ⟨E, H, n, hE, hH, hn⟩
    obtain ⟨equity, equityNan, equityInf⟩ := (positive _).mpr ⟨E, hE⟩
    obtain ⟨mark, markNan, markInf⟩ := (positive _).mpr ⟨H, hH⟩
    obtain ⟨notional, notionalNan, notionalInf⟩ := (positive _).mpr ⟨n, hn⟩
    exact ⟨equity, mark, notional, equityNan, equityInf, markNan, markInf, notionalNan, notionalInf⟩

theorem evaluate_approved_iff {n : F64} :
    evaluateProposal state proposal params = .approved n ↔
      ¬ InvalidNumerical state proposal ∧ ¬ DrawdownBreached state params ∧
        ¬ LeverageExceeded state proposal params ∧ ¬ ConcentrationExceeded state proposal params ∧
        n = proposal.targetNotional := by
  unfold evaluateProposal
  split_ifs <;> simp_all [eq_comm]

theorem evaluate_emergency_iff :
    evaluateProposal state proposal params = .emergencyLiquidationAll ↔
      ¬ InvalidNumerical state proposal ∧ DrawdownBreached state params := by
  unfold evaluateProposal
  split_ifs <;> simp_all

/-- A rejection comes from the validity guard, or from one of the two caps on a
valid proposal whose drawdown is not a breach; never from the drawdown. -/
theorem evaluate_rejected {code : RiskViolationCode}
    (rejected : evaluateProposal state proposal params = .rejected code) :
    code ≠ .maxDrawdownBreached ∧
      (InvalidNumerical state proposal ∧ code = .invalidNumericalState ∨
        ¬ InvalidNumerical state proposal ∧ ¬ DrawdownBreached state params ∧
          (LeverageExceeded state proposal params ∨ ConcentrationExceeded state proposal params)) := by
  unfold evaluateProposal at rejected
  split_ifs at rejected with invalid breached leverage concentration <;> cases rejected
  · exact ⟨by decide, Or.inl ⟨invalid, rfl⟩⟩
  · exact ⟨by decide, Or.inr ⟨invalid, breached, Or.inl leverage⟩⟩
  · exact ⟨by decide, Or.inr ⟨invalid, breached, Or.inr concentration⟩⟩

theorem evaluate_invalid (params : RiskParameters) (invalid : InvalidNumerical state proposal) :
    evaluateProposal state proposal params = .rejected .invalidNumericalState :=
  if_pos invalid

end Spec

/-! ## The gate over finite numbers -/

theorem drawdown_eq {state : PortfolioState} {E H : ℚ} (hE : state.totalEquity = fin E)
    (hH : state.highWaterMark = fin H) (pos : 0 < H) :
    state.drawdown = fin ((H - E) / H) := by
  rw [PortfolioState.drawdown, hE, hH, ExtNum.fin_sub_fin, ExtNum.fin_div_fin _ pos.ne']

theorem magnitude_grossNotional (positions : List Position) :
    (grossNotional positions).Magnitude := by
  have := ExtNum.magnitude_sum_abs (positions.map Position.notionalValue)
  rwa [List.map_map] at this

theorem grossNotional_isNan_iff (positions : List Position) :
    (grossNotional positions).IsNan ↔ ∃ p ∈ positions, p.notionalValue.IsNan := by
  have := ExtNum.sum_abs_eq_nan (positions.map Position.notionalValue)
  rw [List.map_map] at this
  simpa [grossNotional, ExtNum.IsNan, Function.comp_def] using this

theorem grossNotional_isFinite_iff (positions : List Position) :
    (grossNotional positions).IsFinite ↔ ∀ p ∈ positions, p.notionalValue.IsFinite := by
  rw [grossNotional, ExtNum.isFinite_sum]
  simp

/-! ## Sample inputs -/

namespace Sample

def position (assetId : String) (notionalValue : F64) : Position where
  assetId := assetId
  notionalValue := notionalValue
  entryPrice := fin 1

def portfolio (equity highWaterMark : ℚ) (openPositions : List Position) : PortfolioState where
  timestamp := 1
  totalEquity := fin equity
  cashBalance := fin equity
  highWaterMark := fin highWaterMark
  openPositions := openPositions

def proposal (direction : OrderDirection) (notional : ℚ) : TradeProposal where
  proposalId := "t"
  assetId := "BTC-PERP"
  direction := direction
  targetNotional := fin notional
  maxAcceptableSlippage := fin (1 / 1000)

def order : TradeProposal := proposal .buy 10000

/-- More lost than the account ever held: the drawdown is 200%. -/
def wiped : PortfolioState := portfolio (-100) 100 []

/-- A 30% drawdown on an account that still has equity. -/
def breach : PortfolioState := portfolio 700000 1000000 []

/-- A 12% drawdown, the lower end of the default soft band. -/
def inBand (openPositions : List Position) : PortfolioState :=
  portfolio 880000 1000000 openPositions

end Sample

end CentaurApex.Constitution
