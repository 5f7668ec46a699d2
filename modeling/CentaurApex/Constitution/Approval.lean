/-
# Constitution.Approval -- what an approval guarantees

`Sound` lists what an approved notional is meant to guarantee: finite numbers
throughout, a positive notional passed on unchanged, a drawdown below the
threshold, and both exposure bounds after the trade.

The validity guard looks at the equity, the high-water mark and the proposed
notional; no open position is ever looked at.  An infinite position is stopped by
the leverage gate, but a NaN position makes the gross sum NaN, and `NaN > cap` is
false.  `NanSilencesGates` says when such a portfolio gets past both gates, and
`approved_sound_iff` that this is the only way an approval can be unsound.
-/
import CentaurApex.Constitution.Invariants

namespace CentaurApex.Constitution

open CentaurApex.Theory
open CentaurApex.Theory.ExtNum (fin)

set_option autoImplicit false

/-- Three finite thresholds, each above zero. -/
structure RiskParameters.FinitePositive (params : RiskParameters) : Prop where
  drawdown : params.maxDrawdownThreshold.IsFinite ∧ 0 < params.maxDrawdownThreshold
  leverage : params.globalLeverageCap.IsFinite ∧ 0 < params.globalLeverageCap
  concentration : params.maxAssetConcentration.IsFinite ∧ 0 < params.maxAssetConcentration

/-- Positive equity and mark, and only finite positions. -/
structure ValidPortfolio (portfolio : PortfolioState) : Prop where
  equity : portfolio.totalEquity.IsFinite ∧ 0 < portfolio.totalEquity
  mark : portfolio.highWaterMark.IsFinite ∧ 0 < portfolio.highWaterMark
  positions : ∀ p ∈ portfolio.openPositions, p.notionalValue.IsFinite

theorem ValidPortfolio.equity_eq {portfolio : PortfolioState} (valid : ValidPortfolio portfolio) :
    ∃ E : ℚ, portfolio.totalEquity = fin E ∧ 0 < E := by
  obtain ⟨E, hE⟩ := ExtNum.isFinite_iff.mp valid.equity.1
  have pos := valid.equity.2
  rw [hE] at pos
  exact ⟨E, hE, pos⟩

/-- What approving the notional `n` is meant to guarantee. -/
structure Sound (state : PortfolioState) (proposal : TradeProposal) (params : RiskParameters)
    (n : F64) : Prop where
  equity_finite : state.totalEquity.IsFinite
  highWaterMark_finite : state.highWaterMark.IsFinite
  notional_finite : proposal.targetNotional.IsFinite
  positions_finite : ∀ p ∈ state.openPositions, p.notionalValue.IsFinite
  adjusted_eq : n = proposal.targetNotional
  adjusted_pos : 0 < n
  drawdown_lt : state.drawdown < params.maxDrawdownThreshold
  leverage_le : state.currentGrossNotional + n ≤ params.globalLeverageCap * state.totalEquity
  concentration_le : state.existingAssetNotional proposal.assetId + n ≤
    params.maxAssetConcentration * state.totalEquity

/-- A NaN position silences the leverage gate, and the concentration gate is
silenced by a NaN position of the traded asset or passed on its own terms. -/
def NanSilencesGates (state : PortfolioState) (proposal : TradeProposal)
    (params : RiskParameters) : Prop :=
  ¬ InvalidNumerical state proposal ∧ ¬ DrawdownBreached state params ∧
    (∃ p ∈ state.openPositions, p.notionalValue.IsNan) ∧
    ((∃ p ∈ state.openPositions, p.assetId = proposal.assetId ∧ p.notionalValue.IsNan) ∨
      state.existingAssetNotional proposal.assetId + proposal.targetNotional ≤
        params.maxAssetConcentration * state.totalEquity)

section Gates

variable {state : PortfolioState} {proposal : TradeProposal} {params : RiskParameters} {E n c : ℚ}

/-- The leverage gate passes a NaN gross notional, and a gross notional within
the cap. -/
theorem leverage_passes_iff (hE : state.totalEquity = fin E) (pos : 0 < E)
    (hn : proposal.targetNotional = fin n) (hc : params.globalLeverageCap = fin c) :
    ¬ LeverageExceeded state proposal params ↔
      (∃ p ∈ state.openPositions, p.notionalValue.IsNan) ∨
        state.currentGrossNotional + proposal.targetNotional ≤
          params.globalLeverageCap * state.totalEquity := by
  rw [LeverageExceeded, projectedLeverage, PortfolioState.currentGrossNotional, hE, hn, hc,
    gt_iff_lt, ExtNum.cap_passes_iff (magnitude_grossNotional _) n c pos]
  exact or_congr_left (grossNotional_isNan_iff _)

/-- The concentration gate passes a NaN sum over the traded asset, and a sum
within the cap. -/
theorem concentration_passes_iff (hE : state.totalEquity = fin E) (pos : 0 < E)
    (hn : proposal.targetNotional = fin n) (hc : params.maxAssetConcentration = fin c) :
    ¬ ConcentrationExceeded state proposal params ↔
      (∃ p ∈ state.openPositions, p.assetId = proposal.assetId ∧ p.notionalValue.IsNan) ∨
        state.existingAssetNotional proposal.assetId + proposal.targetNotional ≤
          params.maxAssetConcentration * state.totalEquity := by
  rw [ConcentrationExceeded, assetConcentration, PortfolioState.existingAssetNotional, hE, hn, hc,
    gt_iff_lt, ExtNum.cap_passes_iff (magnitude_grossNotional _) n c pos]
  refine or_congr_left ?_
  rw [grossNotional_isNan_iff]
  simp [and_assoc]

/-- A gross notional within a finite bound has no special value among its
positions. -/
theorem positions_finite_of_le {b : ℚ}
    (within : state.currentGrossNotional + fin n ≤ fin b) :
    ∀ p ∈ state.openPositions, p.notionalValue.IsFinite :=
  (grossNotional_isFinite_iff _).mp
    (ExtNum.isFinite_of_add_le (magnitude_grossNotional state.openPositions) within)

end Gates

/-- **An approval is sound unless a NaN position silenced the gates.** -/
theorem approved_sound_iff (state : PortfolioState) (proposal : TradeProposal)
    (params : RiskParameters) (finite : params.FinitePositive) :
    (∀ n, evaluateProposal state proposal params = .approved n → Sound state proposal params n) ↔
      ¬ NanSilencesGates state proposal params := by
  obtain ⟨dd, hdd⟩ := ExtNum.isFinite_iff.mp finite.drawdown.1
  obtain ⟨lev, hlev⟩ := ExtNum.isFinite_iff.mp finite.leverage.1
  obtain ⟨conc, hconc⟩ := ExtNum.isFinite_iff.mp finite.concentration.1
  constructor
  · rintro sound ⟨valid, noBreach, silenced, second⟩
    obtain ⟨E, H, n, ⟨hE, posE⟩, ⟨hH, posH⟩, hn, posn⟩ := not_invalidNumerical_iff.mp valid
    have leverage : ¬ LeverageExceeded state proposal params :=
      (leverage_passes_iff hE posE hn hlev).mpr (Or.inl silenced)
    have concentration : ¬ ConcentrationExceeded state proposal params :=
      (concentration_passes_iff hE posE hn hconc).mpr second
    have approved := evaluate_approved_iff.mpr ⟨valid, noBreach, leverage, concentration, rfl⟩
    obtain ⟨p, member, isNan⟩ := silenced
    exact (ExtNum.isFinite_iff_not.mp ((sound _ approved).positions_finite p member)).1 isNan
  · intro loud n approved
    obtain ⟨valid, noBreach, leverage, concentration, rfl⟩ := evaluate_approved_iff.mp approved
    obtain ⟨E, H, n, ⟨hE, posE⟩, ⟨hH, posH⟩, hn, posn⟩ := not_invalidNumerical_iff.mp valid
    have passesConc := (concentration_passes_iff hE posE hn hconc).mp concentration
    have noNan : ¬ ∃ p ∈ state.openPositions, p.notionalValue.IsNan := fun silenced =>
      loud ⟨valid, noBreach, silenced, passesConc⟩
    have withinLev := ((leverage_passes_iff hE posE hn hlev).mp leverage).resolve_left noNan
    have withinConc := passesConc.resolve_left fun ⟨p, member, _, isNan⟩ =>
      noNan ⟨p, member, isNan⟩
    refine ⟨by simp [hE], by simp [hH], by simp [hn], ?_, rfl, ?_, ?_, withinLev, withinConc⟩
    · refine positions_finite_of_le (n := n) (b := lev * E) ?_
      rwa [hn, hlev, hE, ExtNum.fin_mul_fin] at withinLev
    · rw [hn]
      exact posn
    · rw [DrawdownBreached, ge_iff_le, hdd, drawdown_eq hE hH posH, ExtNum.fin_le_fin, not_le]
        at noBreach
      rw [hdd, drawdown_eq hE hH posH]
      exact noBreach

/-! ## Poles -/

/-- A valid account whose one position, in another asset, has a NaN notional. -/
def Sample.nanPosition : PortfolioState :=
  Sample.portfolio 1000000 1000000 [Sample.position "ETH-PERP" .nan]

/-- Refuting pole: the default parameters approve a trade on a portfolio that
holds a NaN position. -/
theorem nan_position_approved :
    RiskParameters.default.FinitePositive ∧
      ¬ ∀ n, evaluateProposal Sample.nanPosition (Sample.proposal .buy 100000) .default = .approved n →
        Sound Sample.nanPosition (Sample.proposal .buy 100000) .default n := by
  have approved : evaluateProposal Sample.nanPosition (Sample.proposal .buy 100000) .default =
      .approved (fin 100000) := by decide +kernel
  refine ⟨⟨by decide +kernel, by decide +kernel, by decide +kernel⟩, fun sound => ?_⟩
  exact (sound _ approved).positions_finite _ (List.mem_singleton.mpr rfl)

/-- Satisfiable pole: without the NaN position the same approval is sound. -/
theorem approved_sound_finite_position :
    Sound (Sample.portfolio 1000000 1000000 []) (Sample.proposal .buy 100000) .default
      (fin 100000) := by
  have finite : RiskParameters.default.FinitePositive :=
    ⟨by decide +kernel, by decide +kernel, by decide +kernel⟩
  refine (approved_sound_iff _ _ .default finite).mpr ?_ (fin 100000) (by decide +kernel)
  rintro ⟨_, _, ⟨p, member, _⟩, _⟩
  cases member

end CentaurApex.Constitution
