/-
# Constitution.Drawdown -- the circuit breaker and the soft band

What a drawdown does to a kernel that is open for trading.

The breaker sits behind the validity guard.  On a numerically valid input a
breach halts the kernel whatever else is wrong with the order
(`drawdown_breach_halts`); on an invalid one -- no equity left, or a notional
that is not a positive number -- the guard answers first, with
`InvalidNumericalState`, and the state stays.  `breach_without_equity` is such an
input.

The soft band (from 80% of the threshold up) is followed in the `Approved` arm
only.  `soft_band_tracked_iff` says exactly when the state nevertheless agrees
with the band after a valid proposal.
-/
import CentaurApex.Constitution.StateMachine

namespace CentaurApex.Constitution

open CentaurApex.Theory
open CentaurApex.Theory.ExtNum (fin)

set_option autoImplicit false

/-! ## The circuit breaker -/

/-- The notional is a positive number. -/
def TradeProposal.ValidNotional (proposal : TradeProposal) : Prop :=
  proposal.targetNotional.IsFinite ∧ 0 < proposal.targetNotional

instance (proposal : TradeProposal) : Decidable proposal.ValidNotional :=
  inferInstanceAs (Decidable (_ ∧ _))

theorem validNotional_iff {proposal : TradeProposal} :
    proposal.ValidNotional ↔ ∃ n, proposal.targetNotional = fin n ∧ 0 < n := by
  unfold TradeProposal.ValidNotional
  cases proposal.targetNotional <;> simp [ExtNum.IsFinite, ExtNum.zero_eq]

/-- With finite equity and a positive mark, the guard looks at the sign of the
equity and at the notional. -/
theorem invalidNumerical_iff {portfolio : PortfolioState} (proposal : TradeProposal) {E H : ℚ}
    (equity : portfolio.totalEquity = fin E) (mark : portfolio.highWaterMark = fin H)
    (pos : 0 < H) :
    InvalidNumerical portfolio proposal ↔ E ≤ 0 ∨ ¬ proposal.ValidNotional := by
  rw [← not_iff_not, not_or, not_not, not_le, not_invalidNumerical_iff, validNotional_iff]
  constructor
  · rintro ⟨E', H', n, ⟨hE, posE⟩, _, hn⟩
    obtain rfl : E = E' := by
      rw [equity] at hE
      exact ExtNum.fin.inj hE
    exact ⟨posE, n, hn⟩
  · rintro ⟨posE, n, hn⟩
    exact ⟨E, H, n, ⟨equity, posE⟩, ⟨mark, pos⟩, hn⟩

/-- **A drawdown breach halts the kernel on every numerically valid input**; on
an invalid one the validity guard answers first and the state stays. -/
theorem drawdown_breach_halts (params : RiskParameters) (T : ℚ)
    (threshold : params.maxDrawdownThreshold = fin T ∧ 0 < T ∧ T < 1) (k : ConstitutionKernel)
    (reachable : kernelMachine.Reachable (.new params) k) (trading : k.state.Trading)
    (portfolio : PortfolioState) (E H : ℚ) (equity : portfolio.totalEquity = fin E)
    (mark : portfolio.highWaterMark = fin H ∧ 0 < H) (breach : T ≤ (H - E) / H)
    (proposal : TradeProposal) :
    (0 < E ∧ proposal.ValidNotional →
      (k.processProposal portfolio proposal).1 = .emergencyLiquidationAll ∧
        (k.processProposal portfolio proposal).2.state = .emergencyHalt) ∧
    (E ≤ 0 ∨ ¬ proposal.ValidNotional →
      (k.processProposal portfolio proposal).1 = .rejected .invalidNumericalState ∧
        (k.processProposal portfolio proposal).2.state = k.state) := by
  have guard := invalidNumerical_iff proposal equity mark.1 mark.2
  have breached : DrawdownBreached portfolio k.params := by
    rw [reachable_params reachable, DrawdownBreached, threshold.1,
      drawdown_eq equity mark.1 mark.2]
    exact breach
  refine ⟨fun ⟨posE, notional⟩ => ?_, fun refused => ?_⟩
  · have valid : ¬ InvalidNumerical portfolio proposal := by
      rw [guard, not_or, not_not, not_le]
      exact ⟨posE, notional⟩
    rw [processProposal_trading trading, evaluate_emergency_iff.mpr ⟨valid, breached⟩]
    exact ⟨rfl, (enterEmergency_moves (k := k.countProposal) trading).2⟩
  · rw [processProposal_trading trading, evaluate_invalid k.params (guard.mpr refused)]
    exact ⟨rfl, rfl⟩

/-! ## Poles: a breach behind the validity guard -/

/-- Refuting pole: with negative equity the worst drawdown is answered
`InvalidNumericalState`, and the kernel stays open. -/
theorem breach_without_equity :
    ¬ ∀ (params : RiskParameters) (T : ℚ), params.maxDrawdownThreshold = fin T ∧ 0 < T ∧ T < 1 →
      ∀ k, kernelMachine.Reachable (.new params) k → k.state.Trading →
      ∀ (portfolio : PortfolioState) (E H : ℚ), portfolio.totalEquity = fin E →
        portfolio.highWaterMark = fin H ∧ 0 < H → T ≤ (H - E) / H →
      ∀ proposal : TradeProposal,
        (k.processProposal portfolio proposal).1 = .emergencyLiquidationAll ∧
          (k.processProposal portfolio proposal).2.state = .emergencyHalt := by
  intro always
  have halts := always .default (15 / 100) ⟨rfl, by norm_num, by norm_num⟩ (.new .default) ⟨[], rfl⟩
    (Or.inl rfl) Sample.wiped (-100) 100 rfl ⟨rfl, by norm_num⟩ (by norm_num) Sample.order
  have answer : ((ConstitutionKernel.new .default).processProposal Sample.wiped
      Sample.order).1 = .rejected .invalidNumericalState := by decide +kernel
  rw [answer] at halts
  cases halts.1

/-- Satisfiable pole: a 30% drawdown with equity left halts a new kernel. -/
theorem breach_with_equity_halts :
    ((ConstitutionKernel.new .default).processProposal Sample.breach Sample.order).1 =
        .emergencyLiquidationAll ∧
      ((ConstitutionKernel.new .default).processProposal Sample.breach Sample.order).2.state =
        .emergencyHalt :=
  (drawdown_breach_halts .default (15 / 100) ⟨rfl, by norm_num, by norm_num⟩ (.new .default)
    ⟨[], rfl⟩ (Or.inl rfl) Sample.breach 700000 1000000 rfl ⟨rfl, by norm_num⟩ (by norm_num)
    Sample.order).1 ⟨by norm_num, by decide +kernel⟩

/-! ## The soft band -/

/-- Where the soft band begins: `max_drawdown_threshold * 0.80`. -/
def RiskParameters.softThreshold (params : RiskParameters) : F64 :=
  params.maxDrawdownThreshold * fin (80 / 100)

/-- The state agrees with the drawdown band: soft inside it, normal below it. -/
def BandTracked (params : RiskParameters) (portfolio : PortfolioState)
    (state : SystemOperationalState) : Prop :=
  (params.softThreshold ≤ portfolio.drawdown →
      portfolio.drawdown < params.maxDrawdownThreshold → state = .softDeleveraging) ∧
    (portfolio.drawdown < params.softThreshold → state = .normal)

section Band

variable {k : ConstitutionKernel} {portfolio : PortfolioState} {T d : ℚ}

/-- In the `Approved` arm the state follows the band. -/
theorem trackSoftBand_tracked (trading : k.state.Trading)
    (threshold : k.params.maxDrawdownThreshold = fin T) (mark : portfolio.highWaterMark > 0)
    (drawdown : portfolio.drawdown = fin d) :
    BandTracked k.params portfolio (k.trackSoftBand portfolio).state := by
  simp only [BandTracked, RiskParameters.softThreshold, ConstitutionKernel.trackSoftBand,
    if_pos mark, threshold, drawdown, ExtNum.fin_mul_fin, ExtNum.fin_le_fin, ExtNum.fin_lt_fin,
    ge_iff_le]
  rcases trading with normal | soft
  · rw [normal]
    by_cases inBand : T * (80 / 100) ≤ d
    · simp [inBand, not_lt.mpr inBand]
    · simp [inBand, normal]
  · rw [soft]
    by_cases below : d < T * (80 / 100)
    · simp [below, not_le.mpr below]
    · simp [below, soft]

/-- At a breach the drawdown is above the band, which then asks for no state. -/
theorem bandTracked_of_breach {params : RiskParameters} {state : SystemOperationalState}
    (threshold : params.maxDrawdownThreshold = fin T) (pos : 0 < T)
    (drawdown : portfolio.drawdown = fin d) (breached : DrawdownBreached portfolio params) :
    BandTracked params portfolio state := by
  simp only [DrawdownBreached, threshold, drawdown, ge_iff_le, ExtNum.fin_le_fin] at breached
  have above : ¬ d < T * (80 / 100) := by linarith
  simp [BandTracked, RiskParameters.softThreshold, threshold, drawdown, above,
    not_lt.mpr breached]

end Band

/-- **When the soft band is tracked**: after a valid proposal the state agrees
with the band exactly when the drawdown is a breach (and there is no band), the
order fits both caps, or the state agreed already. -/
theorem soft_band_tracked_iff (params : RiskParameters) (T : ℚ)
    (threshold : params.maxDrawdownThreshold = fin T ∧ 0 < T) (k : ConstitutionKernel)
    (reachable : kernelMachine.Reachable (.new params) k) (trading : k.state.Trading)
    (portfolio : PortfolioState) (proposal : TradeProposal)
    (valid : ¬ InvalidNumerical portfolio proposal) :
    BandTracked params portfolio (k.processProposal portfolio proposal).2.state ↔
      DrawdownBreached portfolio params ∨
        (¬ LeverageExceeded portfolio proposal params ∧
          ¬ ConcentrationExceeded portfolio proposal params) ∨
        BandTracked params portfolio k.state := by
  obtain ⟨E, H, n, ⟨hE, posE⟩, ⟨hH, posH⟩, hn, posn⟩ := not_invalidNumerical_iff.mp valid
  have drawdown := drawdown_eq hE hH posH
  have mark : portfolio.highWaterMark > 0 := by
    rw [hH]
    exact posH
  have same := reachable_params reachable
  rcases processProposal_cases k portfolio proposal with
    ⟨halted, _⟩ | ⟨_, verdict, _⟩ | ⟨_, code, verdict, eq⟩ | ⟨_, n', verdict, eq⟩
  · exact absurd trading halted
  · rw [same] at verdict
    have breached := (evaluate_emergency_iff.mp verdict).2
    exact iff_of_true (bandTracked_of_breach threshold.1 threshold.2 drawdown breached)
      (Or.inl breached)
  · -- a capped order leaves the state alone
    rw [same] at verdict
    obtain ⟨_, ⟨invalid, _⟩ | ⟨_, noBreach, capped⟩⟩ := evaluate_rejected verdict
    · exact absurd invalid valid
    · rw [eq]
      constructor
      · exact fun tracked => Or.inr (Or.inr tracked)
      · rintro (breached | ⟨leverage, concentration⟩ | tracked)
        · exact absurd breached noBreach
        · exact (capped.elim leverage concentration).elim
        · exact tracked
  · rw [same] at verdict
    obtain ⟨_, _, leverage, concentration, _⟩ := evaluate_approved_iff.mp verdict
    refine iff_of_true ?_ (Or.inr (Or.inl ⟨leverage, concentration⟩))
    have tracked := trackSoftBand_tracked (k := k.countProposal) trading
      ((congrArg RiskParameters.maxDrawdownThreshold same).trans threshold.1) mark drawdown
    have sameCounted : k.countProposal.params = params := same
    rw [sameCounted] at tracked
    rw [eq]
    exact tracked

/-! ## Poles: an order too large for its caps -/

/-- Refuting pole: in the band, an order over the leverage cap leaves the kernel
`normal`. -/
theorem capped_order_hides_band :
    ¬ ∀ (params : RiskParameters) (T : ℚ), params.maxDrawdownThreshold = fin T ∧ 0 < T →
      ∀ k, kernelMachine.Reachable (.new params) k → k.state.Trading →
      ∀ (portfolio : PortfolioState) (proposal : TradeProposal),
        ¬ InvalidNumerical portfolio proposal →
        (∀ p ∈ portfolio.openPositions, p.notionalValue.IsFinite) →
          BandTracked params portfolio (k.processProposal portfolio proposal).2.state := by
  intro always
  have tracked := always .default (15 / 100) ⟨rfl, by norm_num⟩ (.new .default) ⟨[], rfl⟩
    (Or.inl rfl) (Sample.inBand []) (Sample.proposal .buy 4000000) (by decide +kernel)
    (fun _ none_ => by cases none_)
  have soft := tracked.1 (by decide +kernel) (by decide +kernel)
  have stays : ((ConstitutionKernel.new .default).processProposal (Sample.inBand [])
      (Sample.proposal .buy 4000000)).2.state = .normal := by decide +kernel
  rw [stays] at soft
  cases soft

/-- Satisfiable pole: an order within the caps moves the kernel into the band. -/
theorem fitting_order_tracks_band :
    BandTracked .default (Sample.inBand [])
      ((ConstitutionKernel.new .default).processProposal (Sample.inBand [])
        Sample.order).2.state :=
  (soft_band_tracked_iff .default (15 / 100) ⟨rfl, by norm_num⟩ (.new .default) ⟨[], rfl⟩
    (Or.inl rfl) (Sample.inBand []) Sample.order (by decide +kernel)).mpr
      (Or.inr (Or.inl ⟨by decide +kernel, by decide +kernel⟩))

end CentaurApex.Constitution
