/-
# Constitution.Relief -- the gate gives way in one direction

A portfolio and a proposal are relieved when nothing the gate looks at has grown worse:
more equity, a lower mark, a smaller order in the same asset, and positions dropped or
shrunk in magnitude (`Relief`).  All four gates then move the same way, the two quotients
of sums among them (`grossNotional_relieved`), so what was approved stays approved
(`approved_relieved`).

This is about numbers.  A NaN position silences the gates it is counted in, and dropping
it can lose an approval: `nan_dropped_rejected`.
-/
import CentaurApex.Constitution.Approval
import Mathlib.Data.List.Forall2

namespace CentaurApex.Constitution

open CentaurApex.Theory
open CentaurApex.Theory.ExtNum (fin)

set_option autoImplicit false

/-- The same asset, and no more of it. -/
def Position.Shrunk (position' position : Position) : Prop :=
  position'.assetId = position.assetId ∧ position'.notionalValue.abs ≤ position.notionalValue.abs

/-- Positions dropped, and others shrunk. -/
def Relieved : List Position → List Position → Prop := List.SublistForall₂ Position.Shrunk

/-- Nothing the gate looks at has grown worse. -/
structure Relief (state' : PortfolioState) (proposal' : TradeProposal) (state : PortfolioState)
    (proposal : TradeProposal) : Prop where
  asset : proposal'.assetId = proposal.assetId
  notional : 0 < proposal'.targetNotional ∧ proposal'.targetNotional ≤ proposal.targetNotional
  equity : state'.totalEquity.IsFinite ∧ state.totalEquity ≤ state'.totalEquity
  mark : 0 < state'.highWaterMark ∧ state'.highWaterMark ≤ state.highWaterMark
  positions : Relieved state'.openPositions state.openPositions

/-! ## Sums of magnitudes -/

section Sums

variable {positions' positions : List Position}

theorem gross_eq_fin (finite : ∀ p ∈ positions, p.notionalValue.IsFinite) :
    ∃ g : ℚ, grossNotional positions = fin g ∧ 0 ≤ g := by
  obtain ⟨g, value⟩ := ExtNum.isFinite_iff.mp ((grossNotional_isFinite_iff positions).mpr finite)
  have magnitude := magnitude_grossNotional positions
  rw [value] at magnitude
  exact ⟨g, value, magnitude⟩

theorem Position.Shrunk.magnitude {p' p : Position} (shrunk : p'.Shrunk p)
    (finite : p.notionalValue.IsFinite) :
    ∃ a' a : ℚ, p'.notionalValue.abs = fin a' ∧ p.notionalValue.abs = fin a ∧ a' ≤ a := by
  obtain ⟨a, value⟩ := ExtNum.isFinite_iff.mp (ExtNum.isFinite_abs.mpr finite)
  have le := shrunk.2
  have magnitude := ExtNum.magnitude_abs p'.notionalValue
  rw [value] at le
  cases value' : p'.notionalValue.abs with
  | fin a' =>
      rw [value'] at le
      exact ⟨a', a, rfl, value, le⟩
  | nan =>
      rw [value'] at le
      exact absurd le (ExtNum.not_nan_le _)
  | posInf =>
      rw [value'] at le
      exact absurd le (ExtNum.not_posInf_le_fin a)
  | negInf =>
      rw [value'] at magnitude
      exact magnitude.elim

/-- **Relieved positions sum to no more**, over every asset or over one. -/
theorem grossNotional_relieved (counted : String → Bool) (relieved : Relieved positions' positions)
    (finite : ∀ p ∈ positions, p.notionalValue.IsFinite) :
    ∃ g' g : ℚ, grossNotional (positions'.filter fun p => counted p.assetId) = fin g' ∧
      grossNotional (positions.filter fun p => counted p.assetId) = fin g ∧ g' ≤ g := by
  induction relieved with
  | nil =>
      obtain ⟨g, value, nonneg⟩ := gross_eq_fin
        (fun p member => finite p (List.mem_of_mem_filter (p := fun p => counted p.assetId) member))
      exact ⟨0, g, rfl, value, nonneg⟩
  | @cons p' p rest' rest shrunk _ ih =>
      obtain ⟨here, others⟩ := List.forall_mem_cons.mp finite
      obtain ⟨g', g, value', value, le⟩ := ih others
      obtain ⟨a', a, size', size, smaller⟩ := shrunk.magnitude here
      rw [List.filter_cons, List.filter_cons, shrunk.1]
      cases counted p.assetId with
      | true =>
          refine ⟨a' + g', a + g, ?_, ?_, add_le_add smaller le⟩
          · rw [if_pos rfl, grossNotional, List.map_cons, List.sum_cons, size']
            exact congrArg (fin a' + ·) value'
          · rw [if_pos rfl, grossNotional, List.map_cons, List.sum_cons, size]
            exact congrArg (fin a + ·) value
      | false => exact ⟨g', g, value', value, le⟩
  | @cons_right p _ _ _ ih =>
      obtain ⟨here, others⟩ := List.forall_mem_cons.mp finite
      obtain ⟨g', g, value', value, le⟩ := ih others
      rw [List.filter_cons]
      cases counted p.assetId with
      | true =>
          obtain ⟨a, size⟩ := ExtNum.isFinite_iff.mp (ExtNum.isFinite_abs.mpr here)
          have nonneg := ExtNum.magnitude_abs p.notionalValue
          rw [size] at nonneg
          refine ⟨g', a + g, value', ?_, le.trans (le_add_of_nonneg_left nonneg)⟩
          rw [if_pos rfl, grossNotional, List.map_cons, List.sum_cons, size]
          exact congrArg (fin a + ·) value
      | false => exact ⟨g', g, value', value, le⟩

end Sums

/-! ## The four gates -/

section Gates

variable {state' state : PortfolioState} {proposal' proposal : TradeProposal}
  {params : RiskParameters}

/-- What the gate is handed, when it approved before: numbers, the new ones no worse. -/
structure Eased (state' : PortfolioState) (proposal' : TradeProposal) (state : PortfolioState)
    (proposal : TradeProposal) (E' H' n' E H n : ℚ) : Prop where
  equity' : state'.totalEquity = fin E'
  mark' : state'.highWaterMark = fin H'
  notional' : proposal'.targetNotional = fin n'
  equity : state.totalEquity = fin E
  mark : state.highWaterMark = fin H
  notional : proposal.targetNotional = fin n
  equity_pos : 0 < E
  mark_pos : 0 < H'
  notional_pos : 0 < n'
  equity_le : E ≤ E'
  mark_le : H' ≤ H
  notional_le : n' ≤ n

theorem Relief.eased (relief : Relief state' proposal' state proposal)
    (valid : ¬ InvalidNumerical state proposal) :
    ∃ E' H' n' E H n, Eased state' proposal' state proposal E' H' n' E H n := by
  have finite_of_le {x y : F64} {q : ℚ} (pos : 0 < x) (le : x ≤ y) (value : y = fin q) :
      ∃ p : ℚ, x = fin p ∧ 0 < p ∧ p ≤ q := by
    subst value
    cases x with
    | fin p => exact ⟨p, rfl, pos, le⟩
    | nan => exact absurd le (ExtNum.not_nan_le _)
    | posInf => exact absurd le (ExtNum.not_posInf_le_fin q)
    | negInf => exact absurd pos id
  obtain ⟨E, H, n, ⟨hE, posE⟩, ⟨hH, posH⟩, hn, posn⟩ := not_invalidNumerical_iff.mp valid
  obtain ⟨E', hE'⟩ := ExtNum.isFinite_iff.mp relief.equity.1
  obtain ⟨H', hH', posH', leH⟩ := finite_of_le relief.mark.1 relief.mark.2 hH
  obtain ⟨n', hn', posn', len⟩ := finite_of_le relief.notional.1 relief.notional.2 hn
  have leE := relief.equity.2
  rw [hE, hE'] at leE
  exact ⟨E', H', n', E, H, n, hE', hH', hn', hE, hH, hn, posE, posH', posn', leE, leH, len⟩

section Eased

variable {E' H' n' E H n : ℚ} (eased : Eased state' proposal' state proposal E' H' n' E H n)

include eased

theorem Eased.valid : ¬ InvalidNumerical state' proposal' :=
  not_invalidNumerical_iff.mpr
    ⟨E', H', n', ⟨eased.equity', eased.equity_pos.trans_le eased.equity_le⟩,
      ⟨eased.mark', eased.mark_pos⟩, eased.notional', eased.notional_pos⟩

/-- The drawdown is one less the equity's share of the mark. -/
theorem Eased.drawdown (finite : params.FinitePositive)
    (noBreach : ¬ DrawdownBreached state params) :
    ¬ DrawdownBreached state' params := by
  obtain ⟨dd, hdd⟩ := ExtNum.isFinite_iff.mp finite.drawdown.1
  have markPos := eased.mark_pos.trans_le eased.mark_le
  have share : E / H ≤ E' / H' :=
    div_le_div₀ (eased.equity_pos.le.trans eased.equity_le) eased.equity_le eased.mark_pos
      eased.mark_le
  rw [DrawdownBreached, ge_iff_le, hdd, drawdown_eq eased.equity eased.mark markPos,
    ExtNum.fin_le_fin, not_le, sub_div, div_self markPos.ne'] at noBreach
  rw [DrawdownBreached, ge_iff_le, hdd, drawdown_eq eased.equity' eased.mark' eased.mark_pos,
    ExtNum.fin_le_fin, not_le, sub_div, div_self eased.mark_pos.ne']
  linarith

/-- What is under a cap stays under it, with less to carry and more to carry it. -/
theorem Eased.cap {g' g c : ℚ} (cap_pos : 0 < c) (less : g' ≤ g)
    (within : (fin g + proposal.targetNotional : F64) ≤ fin c * state.totalEquity) :
    (fin g' + proposal'.targetNotional : F64) ≤ fin c * state'.totalEquity := by
  rw [eased.notional, eased.equity, ExtNum.fin_add_fin, ExtNum.fin_mul_fin, ExtNum.fin_le_fin]
    at within
  rw [eased.notional', eased.equity', ExtNum.fin_add_fin, ExtNum.fin_mul_fin, ExtNum.fin_le_fin]
  have carried : c * E ≤ c * E' := mul_le_mul_of_nonneg_left eased.equity_le cap_pos.le
  have smaller := eased.notional_le
  linarith

end Eased

/-- **What was approved stays approved under relief.** -/
theorem approved_relieved (finite : params.FinitePositive)
    (numbers : ∀ p ∈ state.openPositions, p.notionalValue.IsFinite)
    (relief : Relief state' proposal' state proposal) {m : F64}
    (approved : evaluateProposal state proposal params = .approved m) :
    evaluateProposal state' proposal' params = .approved proposal'.targetNotional := by
  obtain ⟨valid, noBreach, leverage, concentration, -⟩ := evaluate_approved_iff.mp approved
  obtain ⟨E', H', n', E, H, n, eased⟩ := relief.eased valid
  obtain ⟨lev, hlev⟩ := ExtNum.isFinite_iff.mp finite.leverage.1
  obtain ⟨conc, hconc⟩ := ExtNum.isFinite_iff.mp finite.concentration.1
  have levPos : 0 < lev := by
    have pos := finite.leverage.2
    rwa [hlev] at pos
  have concPos : 0 < conc := by
    have pos := finite.concentration.2
    rwa [hconc] at pos
  have equityPos := eased.equity_pos.trans_le eased.equity_le
  have number : ¬ ∃ p ∈ state.openPositions, p.notionalValue.IsNan := by
    rintro ⟨p, member, isNan⟩
    exact (ExtNum.isFinite_iff_not.mp (numbers p member)).1 isNan
  refine evaluate_approved_iff.mpr ⟨eased.valid, eased.drawdown finite noBreach, ?_, ?_, rfl⟩
  · have within := ((leverage_passes_iff eased.equity eased.equity_pos eased.notional hlev).mp
      leverage).resolve_left number
    obtain ⟨g', g, gross', gross, less⟩ :=
      grossNotional_relieved (fun _ => true) relief.positions numbers
    rw [List.filter_true] at gross' gross
    rw [PortfolioState.currentGrossNotional, gross, hlev] at within
    refine (leverage_passes_iff eased.equity' equityPos eased.notional' hlev).mpr (.inr ?_)
    rw [PortfolioState.currentGrossNotional, gross', hlev]
    exact eased.cap levPos less within
  · have within := ((concentration_passes_iff eased.equity eased.equity_pos eased.notional hconc).mp
      concentration).resolve_left (by
        rintro ⟨p, member, -, isNan⟩
        exact number ⟨p, member, isNan⟩)
    obtain ⟨g', g, gross', gross, less⟩ := grossNotional_relieved
      (fun assetId => decide (assetId = proposal.assetId)) relief.positions numbers
    rw [PortfolioState.existingAssetNotional, gross, hconc] at within
    refine (concentration_passes_iff eased.equity' equityPos eased.notional' hconc).mpr (.inr ?_)
    rw [PortfolioState.existingAssetNotional, relief.asset, gross', hconc]
    exact eased.cap concPos less within

end Gates

/-! ## Poles -/

namespace Sample

/-- A hedged account, and the same with the hedge closed and the rest cut back. -/
def hedged : PortfolioState :=
  portfolio 1000000 1000000 [position "ETH-PERP" (fin 500000), position "BTC-PERP" (fin (-100000))]

def cutBack : PortfolioState :=
  portfolio 1100000 900000 [position "BTC-PERP" (fin 50000)]

def smallerOrder : TradeProposal := proposal .sell 5000

/-- A position that is not a number beside one that is too large. -/
def clouded : PortfolioState :=
  portfolio 1000000 1000000 [position "ETH-PERP" .nan, position "SOL-PERP" (fin 9000000)]

def cleared : PortfolioState := portfolio 1000000 1000000 [position "SOL-PERP" (fin 9000000)]

theorem cutBack_relief : Relief cutBack smallerOrder hedged order where
  asset := rfl
  notional := ⟨by decide +kernel, by decide +kernel⟩
  equity := ⟨by decide +kernel, by decide +kernel⟩
  mark := ⟨by decide +kernel, by decide +kernel⟩
  positions := .cons_right (.cons ⟨rfl, by decide +kernel⟩ .nil)

end Sample

/-- Satisfiable pole: the account cut back is approved what the hedged one was. -/
theorem cutBack_approved :
    evaluateProposal Sample.cutBack Sample.smallerOrder .default = .approved (fin 5000) := by
  have finite : RiskParameters.default.FinitePositive :=
    ⟨by decide +kernel, by decide +kernel, by decide +kernel⟩
  have numbers : ∀ p ∈ Sample.hedged.openPositions, p.notionalValue.IsFinite := by decide +kernel
  have approved : evaluateProposal Sample.hedged Sample.order .default = .approved (fin 10000) := by
    decide +kernel
  exact approved_relieved finite numbers Sample.cutBack_relief approved

/-- Refuting pole: with the position gone that is not a number, the gate sees the other. -/
theorem nan_dropped_rejected :
    Relieved Sample.cleared.openPositions Sample.clouded.openPositions ∧
      evaluateProposal Sample.clouded Sample.order .default = .approved (fin 10000) ∧
      evaluateProposal Sample.cleared Sample.order .default =
        .rejected .globalLeverageCapExceeded :=
  ⟨.cons_right (.cons ⟨rfl, by decide +kernel⟩ .nil), by decide +kernel, by decide +kernel⟩

end CentaurApex.Constitution
