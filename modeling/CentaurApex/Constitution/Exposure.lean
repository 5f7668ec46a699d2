/-
# Constitution.Exposure -- what a run of approvals does to the book

Two views of the open positions over runs.

The caller of the daemon appends every approved notional to the portfolio it
submits next.  The kernel keeps no positions, so the bounds on the whole run rest
on each gate counting the new notional with everything appended before it:
`closed_loop_within_bounds`.

The gates count magnitudes.  Executed, an approval is a signed trade: it offsets
an opposite position in its asset or adds to it (`Theory.Book`).  The gate never
sees the kernel's state, so in `softDeleveraging` it approves what it approves in
`normal`; `soft_deleveraging_approval` says what such an approval can do to the
gross exposure, and exactly when it is a closing trade.
-/
import CentaurApex.Theory.Book
import CentaurApex.Constitution.Approval
import CentaurApex.Constitution.StateMachine

namespace CentaurApex.Constitution

open CentaurApex.Theory
open CentaurApex.Theory.ExtNum (fin)

set_option autoImplicit false

/-! ## The closed loop -/

/-- A caller's side of the loop: the kernel it asks and the portfolio it submits. -/
structure TradingLoop where
  kernel : ConstitutionKernel
  portfolio : PortfolioState

def PortfolioState.append (portfolio : PortfolioState) (position : Position) : PortfolioState :=
  { portfolio with openPositions := portfolio.openPositions ++ [position] }

/-- One round of `run_pipeline.py`: submit the portfolio with a proposal, and
append the adjusted notional of an approval at the tick's price. -/
def closedLoop : Machine TradingLoop (TradeProposal × F64) ConstitutionVerdict where
  step loop tick :=
    let answer := loop.kernel.processProposal loop.portfolio tick.1
    match answer.1 with
    | .approved adjustedNotional =>
        let position : Position :=
          { assetId := tick.1.assetId, notionalValue := adjustedNotional, entryPrice := tick.2 }
        (answer.1, { kernel := answer.2, portfolio := loop.portfolio.append position })
    | .rejected _ => (answer.1, { loop with kernel := answer.2 })
    | .emergencyLiquidationAll => (answer.1, { loop with kernel := answer.2 })

/-- A finite portfolio with positive equity that meets the leverage bound, and the
concentration bound for every asset. -/
structure WithinBounds (params : RiskParameters) (portfolio : PortfolioState) : Prop where
  positions : ∀ p ∈ portfolio.openPositions, p.notionalValue.IsFinite
  equity : portfolio.totalEquity.IsFinite ∧ 0 < portfolio.totalEquity
  leverage : portfolio.currentGrossNotional ≤ params.globalLeverageCap * portfolio.totalEquity
  concentration : ∀ assetId, portfolio.existingAssetNotional assetId ≤
    params.maxAssetConcentration * portfolio.totalEquity

theorem grossNotional_append_singleton (positions : List Position) (position : Position) :
    grossNotional (positions ++ [position]) =
      grossNotional positions + position.notionalValue.abs := by
  simp [grossNotional]

theorem existingAssetNotional_append (portfolio : PortfolioState) (position : Position)
    (assetId : String) :
    (portfolio.append position).existingAssetNotional assetId =
      portfolio.existingAssetNotional assetId +
        if position.assetId = assetId then position.notionalValue.abs else 0 := by
  rw [PortfolioState.existingAssetNotional, PortfolioState.existingAssetNotional,
    PortfolioState.append, List.filter_append]
  by_cases traded : position.assetId = assetId
  · rw [List.filter_singleton, decide_eq_true traded, if_pos traded]
    exact grossNotional_append_singleton _ _
  · rw [List.filter_singleton, decide_eq_false traded, if_neg traded, add_zero]
    simp

/-- A bound that is met is a number, so its cap is. -/
theorem not_isNan_of_le_mul {x c e : F64} (le : x ≤ c * e) : ¬ c.IsNan := by
  intro isNan
  rw [ExtNum.IsNan] at isNan
  rw [isNan] at le
  rw [ExtNum.nan_mul] at le
  exact ExtNum.not_le_nan x le

section Append

variable {params : RiskParameters} {portfolio : PortfolioState} {proposal : TradeProposal}

/-- A gate that passes a finite sum has bounded it. -/
theorem gate_bounds {c g : F64} {E n : ℚ} (cap : ¬ c.IsNan) (finite : g.IsFinite) (posE : 0 < E)
    (passes : ¬ c < (g + fin n) / fin E) : g + fin n ≤ c * fin E := by
  obtain ⟨q, rfl⟩ := ExtNum.isFinite_iff.mp finite
  rw [ExtNum.fin_add_fin] at passes ⊢
  exact (ExtNum.not_lt_div_iff cap _ posE).mp passes

/-- **An approved notional, appended, keeps both bounds for every asset.** -/
theorem WithinBounds.append (within : WithinBounds params portfolio) {n : F64}
    (approved : evaluateProposal portfolio proposal params = .approved n) (entryPrice : F64) :
    WithinBounds params (portfolio.append
      { assetId := proposal.assetId, notionalValue := n, entryPrice := entryPrice }) := by
  obtain ⟨valid, _, leverage, concentration, rfl⟩ := evaluate_approved_iff.mp approved
  obtain ⟨E, _, n, ⟨hE, posE⟩, _, hn, posn⟩ := not_invalidNumerical_iff.mp valid
  have magnitude : proposal.targetNotional.abs = fin n := by
    rw [hn, ExtNum.abs_fin, abs_of_pos posn]
  have finite : ∀ assetId, (portfolio.existingAssetNotional assetId).IsFinite := fun assetId =>
    (grossNotional_isFinite_iff _).mpr fun p member =>
      within.positions p (List.mem_of_mem_filter member)
  refine ⟨?_, within.equity, ?_, ?_⟩
  · intro p member
    rcases List.mem_append.mp member with old | new
    · exact within.positions p old
    · rw [List.mem_singleton.mp new, hn]
      trivial
  · show grossNotional (portfolio.openPositions ++ [_]) ≤ _
    rw [grossNotional_append_singleton, magnitude]
    rw [LeverageExceeded, projectedLeverage, hn, hE] at leverage
    have bound := gate_bounds (not_isNan_of_le_mul within.leverage)
      ((grossNotional_isFinite_iff _).mpr within.positions) posE leverage
    rw [← hE] at bound
    exact bound
  · intro assetId
    rw [existingAssetNotional_append]
    by_cases traded : proposal.assetId = assetId
    · subst traded
      rw [if_pos rfl, magnitude]
      rw [ConcentrationExceeded, assetConcentration, hn, hE] at concentration
      have bound := gate_bounds (not_isNan_of_le_mul (within.concentration proposal.assetId))
        (finite _) posE concentration
      rw [← hE] at bound
      exact bound
    · -- the other assets are as they were
      rw [if_neg traded, add_zero]
      exact within.concentration assetId

end Append

/-- What holds between any two rounds of the loop. -/
def LoopInvariant (params : RiskParameters) (loop : TradingLoop) : Prop :=
  loop.kernel.params = params ∧ WithinBounds params loop.portfolio

theorem closedLoop_keeps (params : RiskParameters) (loop : TradingLoop)
    (tick : TradeProposal × F64) (holds : LoopInvariant params loop) :
    LoopInvariant params (closedLoop.step loop tick).2 := by
  obtain ⟨same, within⟩ := holds
  have kept : (loop.kernel.processProposal loop.portfolio tick.1).2.params = params :=
    (step_params loop.kernel (.processProposal loop.portfolio tick.1)).trans same
  rcases processProposal_cases loop.kernel loop.portfolio tick.1 with
    ⟨_, eq⟩ | ⟨_, _, eq⟩ | ⟨_, _, _, eq⟩ | ⟨_, n, verdict, eq⟩
  · rw [eq] at kept
    simp only [closedLoop, eq]
    exact ⟨kept, within⟩
  · rw [eq] at kept
    simp only [closedLoop, eq]
    exact ⟨kept, within⟩
  · rw [eq] at kept
    simp only [closedLoop, eq]
    exact ⟨kept, within⟩
  · rw [eq] at kept
    rw [same] at verdict
    simp only [closedLoop, eq]
    exact ⟨kept, within.append verdict tick.2⟩

/-- **Every portfolio of a closed loop stays within both bounds**, for every
asset, from any kernel and whatever is proposed. -/
theorem closed_loop_within_bounds (kernel : ConstitutionKernel) (portfolio : PortfolioState)
    (within : WithinBounds kernel.params portfolio) (ticks : List (TradeProposal × F64)) :
    ∀ e ∈ closedLoop.trace ⟨kernel, portfolio⟩ ticks,
      WithinBounds kernel.params e.after.portfolio := by
  intro e member
  have keeps := closedLoop_keeps kernel.params
  obtain ⟨before, eq⟩ := closedLoop.trace_invariant keeps ⟨rfl, within⟩ ticks e member
  rw [eq]
  exact (keeps e.before e.input before).2

/-! ## Poles: two rounds -/

/-- A sound account with one long position. -/
def Sample.long : PortfolioState :=
  Sample.portfolio 1000000 1000000 [Sample.position "BTC-PERP" (fin 50000)]

/-- Satisfiable pole: the portfolio after two rounds, the first approved and the
second over the concentration limit. -/
theorem closed_loop_two_rounds :
    WithinBounds .default (closedLoop.run ⟨.new .default, Sample.long⟩
      [(Sample.proposal .buy 150000, fin 101), (Sample.proposal .buy 10000, fin 102)]).portfolio := by
  have start : WithinBounds .default Sample.long := by
    refine ⟨by decide +kernel, by decide +kernel, by decide +kernel, fun assetId => ?_⟩
    by_cases traded : "BTC-PERP" = assetId
    · subst traded
      decide +kernel
    · have none_ : Sample.long.openPositions.filter (fun p => p.assetId = assetId) = [] :=
        List.filter_eq_nil_iff.mpr fun p member same => by
          rw [List.mem_singleton.mp member] at same
          exact traded (of_decide_eq_true same)
      rw [PortfolioState.existingAssetNotional, none_]
      decide +kernel
  exact closed_loop_within_bounds (.new .default) Sample.long start
    [(Sample.proposal .buy 150000, fin 101), (Sample.proposal .buy 10000, fin 102)] _
    (List.mem_cons_of_mem _ (List.mem_singleton.mpr rfl))

/-! ## Executed approvals -/

/-- A Buy adds the notional to the signed exposure, a Sell subtracts it. -/
def OrderDirection.signed : OrderDirection → ℚ → ℚ
  | .buy, n => n
  | .sell, n => -n

/-- The open positions of a finite portfolio as a book of signed entries. -/
def PortfolioState.signedBook (portfolio : PortfolioState) : List (String × ℚ) :=
  portfolio.openPositions.map fun p => (p.assetId, p.notionalValue.val)

/-- The book after the approved notional was traded. -/
def PortfolioState.executedBook (portfolio : PortfolioState) (proposal : TradeProposal) (n : ℚ) :
    List (String × ℚ) :=
  portfolio.signedBook ++ [(proposal.assetId, proposal.direction.signed n)]

/-- The signed exposure to the proposal's asset. -/
def exposure (portfolio : PortfolioState) (proposal : TradeProposal) : ℚ :=
  Book.net portfolio.signedBook proposal.assetId

/-- A trade of size `n` that moves the exposure towards zero, at most to the
mirror image. -/
def Closing (portfolio : PortfolioState) (proposal : TradeProposal) (n : ℚ) : Prop :=
  match proposal.direction with
  | .buy => n ≤ -2 * exposure portfolio proposal
  | .sell => n ≤ 2 * exposure portfolio proposal

section Executed

variable {portfolio : PortfolioState} {proposal : TradeProposal} {n : ℚ}

theorem abs_signed (direction : OrderDirection) (n : ℚ) : |direction.signed n| = |n| := by
  cases direction with
  | buy => rfl
  | sell => exact abs_neg n

theorem gross_executed_le (portfolio : PortfolioState) (proposal : TradeProposal) (pos : 0 < n) :
    Book.gross (portfolio.executedBook proposal n) ≤ Book.gross portfolio.signedBook + n := by
  have rise := Book.gross_trade_le portfolio.signedBook proposal.assetId
    (proposal.direction.signed n)
  rwa [abs_signed, abs_of_pos pos] at rise

/-- A trade does not raise the gross exposure exactly when it is closing. -/
theorem gross_executed_le_iff (pos : 0 < n) :
    Book.gross (portfolio.executedBook proposal n) ≤ Book.gross portfolio.signedBook ↔
      Closing portfolio proposal n := by
  rw [PortfolioState.executedBook, Book.gross_trade_le_iff, Closing, exposure]
  cases proposal.direction with
  | buy => exact Book.abs_add_le_abs_iff pos
  | sell =>
      -- a Sell of `e` is a Buy of `-e`
      have mirrored :=
        Book.abs_add_le_abs_iff (e := -Book.net portfolio.signedBook proposal.assetId) pos
      rw [abs_neg, neg_add_eq_sub, abs_sub_comm, sub_eq_add_neg] at mirrored
      rw [OrderDirection.signed, mirrored]
      constructor <;> intro small <;> linarith

/-- The gates bound at least the netted exposure. -/
theorem gross_le_grossNotional (finite : ∀ p ∈ portfolio.openPositions, p.notionalValue.IsFinite) :
    ∃ g : ℚ, portfolio.currentGrossNotional = fin g ∧ Book.gross portfolio.signedBook ≤ g := by
  have magnitudes : ∀ x ∈ portfolio.openPositions.map fun p => p.notionalValue.abs,
      x.IsFinite := by
    intro x member
    obtain ⟨p, open_, rfl⟩ := List.mem_map.mp member
    exact ExtNum.isFinite_abs.mpr (finite p open_)
  refine ⟨_, ExtNum.sum_eq_fin magnitudes, ?_⟩
  refine (Book.gross_le_sum_abs portfolio.signedBook).trans_eq ?_
  rw [PortfolioState.signedBook, List.map_map, List.map_map]
  refine congrArg List.sum (List.map_congr_left fun p open_ => ?_)
  obtain ⟨q, eq⟩ := ExtNum.isFinite_iff.mp (finite p open_)
  simp [eq]

end Executed

/-- **In the soft band the kernel answers what the gate answers**, and an approved
trade raises the gross exposure by at most its notional, within the leverage cap,
and does not raise it exactly when it is closing. -/
theorem soft_deleveraging_approval (params : RiskParameters) (k : ConstitutionKernel)
    (reachable : kernelMachine.Reachable (.new params) k) (soft : k.state = .softDeleveraging)
    (portfolio : PortfolioState) (valid : ValidPortfolio portfolio) (proposal : TradeProposal) :
    (k.processProposal portfolio proposal).1 = evaluateProposal portfolio proposal params ∧
      ∀ adjustedNotional, (k.processProposal portfolio proposal).1 = .approved adjustedNotional →
        ∃ n : ℚ, adjustedNotional = fin n ∧ 0 < n ∧
          Book.gross (portfolio.executedBook proposal n) ≤ Book.gross portfolio.signedBook + n ∧
          (¬ params.globalLeverageCap.IsNan →
            fin (Book.gross (portfolio.executedBook proposal n)) ≤
              params.globalLeverageCap * portfolio.totalEquity) ∧
          (Book.gross (portfolio.executedBook proposal n) ≤ Book.gross portfolio.signedBook ↔
            Closing portfolio proposal n) := by
  have answers : (k.processProposal portfolio proposal).1 =
      evaluateProposal portfolio proposal params := by
    rw [processProposal_trading (Or.inr soft), reachable_params reachable]
  refine ⟨answers, fun adjustedNotional approved => ?_⟩
  rw [answers] at approved
  obtain ⟨guard, _, leverage, _, rfl⟩ := evaluate_approved_iff.mp approved
  obtain ⟨E, _, n, ⟨hE, posE⟩, _, hn, posn⟩ := not_invalidNumerical_iff.mp guard
  have rise := gross_executed_le portfolio proposal posn
  refine ⟨n, hn, posn, rise, fun cap => ?_, gross_executed_le_iff posn⟩
  obtain ⟨g, gross, netted⟩ := gross_le_grossNotional valid.positions
  rw [LeverageExceeded, projectedLeverage, gross, hn, hE, ExtNum.fin_add_fin] at leverage
  have bound := (ExtNum.not_lt_div_iff cap _ posE).mp leverage
  rw [hE]
  exact ExtNum.le_trans (ExtNum.fin_le_fin.mpr (by linarith)) bound

/-! ## Poles: buying and selling in the soft band -/

namespace SoftBand

/-- A 12% drawdown, in the default soft band, with one long position. -/
def portfolio : PortfolioState :=
  Sample.inBand [Sample.position "BTC-PERP" (fin 50000)]

def proposal (direction : OrderDirection) : TradeProposal := Sample.proposal direction 10000

/-- A new kernel after one approved proposal in the band. -/
def kernel : ConstitutionKernel :=
  kernelMachine.run (.new .default) [.processProposal portfolio (proposal .buy)]

theorem valid : ValidPortfolio portfolio :=
  ⟨by decide +kernel, by decide +kernel, by decide +kernel⟩

end SoftBand

/-- Refuting pole: a kernel in the soft band approves a Buy that adds to a long
position. -/
theorem soft_deleveraging_opens :
    ¬ ∀ (params : RiskParameters) (k : ConstitutionKernel),
      kernelMachine.Reachable (.new params) k → k.state = .softDeleveraging →
      ∀ portfolio, ValidPortfolio portfolio → ∀ proposal n,
        (k.processProposal portfolio proposal).1 = .approved n →
          Book.gross (portfolio.executedBook proposal n.val) ≤
            Book.gross portfolio.signedBook := by
  intro closes
  have noRise := closes .default SoftBand.kernel ⟨_, rfl⟩ (by decide +kernel) SoftBand.portfolio
    SoftBand.valid (SoftBand.proposal .buy) (fin 10000) (by decide +kernel)
  exact absurd noRise (by decide +kernel)

/-- Satisfiable pole: the Sell of the same size is approved, and closes. -/
theorem soft_deleveraging_closes :
    Book.gross (SoftBand.portfolio.executedBook (SoftBand.proposal .sell) 10000) ≤
      Book.gross SoftBand.portfolio.signedBook := by
  obtain ⟨n, eq, _, _, _, closing⟩ := (soft_deleveraging_approval .default SoftBand.kernel ⟨_, rfl⟩
    (by decide +kernel) SoftBand.portfolio SoftBand.valid (SoftBand.proposal .sell)).2 (fin 10000)
    (by decide +kernel)
  obtain rfl : 10000 = n := ExtNum.fin.inj eq
  have reduces : (10000 : ℚ) ≤ 2 * exposure SoftBand.portfolio (SoftBand.proposal .sell) := by
    decide +kernel
  exact closing.mpr reduces

end CentaurApex.Constitution
