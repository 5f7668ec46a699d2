/-
# Constitution.Config -- thresholds from the environment

`from_env_or_default` takes each threshold from its variable when the trimmed
text parses as an `f64`, and the constitutional default otherwise.  Text that is
no number falls back; `nan`, `inf`, `0`, `-1` and a drawdown of `1` or more are
numbers, and go through.

`Armed` is what the three thresholds are for: finite, positive, a drawdown limit
below one, and hence a finite notional and a drawdown below 100% from which
nothing is approved.  `armed_iff` says which environments arm the gates.
-/
import CentaurApex.Theory.DecimalFloat
import CentaurApex.Constitution.Approval
import CentaurApex.Constitution.StateMachine

namespace CentaurApex.Constitution

open CentaurApex.Theory
open CentaurApex.Theory.ExtNum (fin)

set_option autoImplicit false

/-- `std::env::var(name).ok()`: unset, or not Unicode, is `none`. -/
abbrev Environment := String → Option String

/-- The number a variable sets, if it is set to one. -/
def Environment.number (env : Environment) (name : String) : Option F64 :=
  (env name).bind fun v => parseFloat (trim v.toList)

namespace RiskParameters

def fromEnvOrDefault (env : Environment) : RiskParameters :=
  let read := fun (name : String) (default : F64) => (env.number name).getD default
  { maxDrawdownThreshold := read "CONSTITUTION_MAX_DRAWDOWN" (fin (15 / 100))
    globalLeverageCap := read "CONSTITUTION_MAX_LEVERAGE" (fin (25 / 10))
    maxAssetConcentration := read "CONSTITUTION_MAX_CONCENTRATION" (fin (20 / 100)) }

end RiskParameters

/-- The gates are armed: three usable thresholds, a finite notional above which
nothing is approved, and a drawdown below 100% from which nothing is. -/
structure Armed (params : RiskParameters) : Prop where
  finite : params.FinitePositive
  drawdown_lt_one : params.maxDrawdownThreshold < fin 1
  notional_bounded : ∀ portfolio, ValidPortfolio portfolio → ∃ bound : ℚ, ∀ proposal n,
    fin bound < proposal.targetNotional → evaluateProposal portfolio proposal params ≠ .approved n
  drawdown_bounded : ∃ limit : ℚ, limit < 1 ∧ ∀ portfolio, ValidPortfolio portfolio →
    fin limit ≤ portfolio.drawdown →
      ∀ proposal n, evaluateProposal portfolio proposal params ≠ .approved n

/-! ## Usable thresholds arm the gates -/

section Arming

variable {params : RiskParameters}

/-- Above `cap * equity` the leverage gate approves nothing. -/
theorem notional_bounded_of_cap {c : ℚ} (cap : params.globalLeverageCap = fin c)
    {portfolio : PortfolioState} (valid : ValidPortfolio portfolio) :
    ∃ bound : ℚ, ∀ proposal n, fin bound < proposal.targetNotional →
      evaluateProposal portfolio proposal params ≠ .approved n := by
  obtain ⟨E, hE, posE⟩ := valid.equity_eq
  refine ⟨c * E, fun proposal n above approved => ?_⟩
  obtain ⟨guard, _, leverage, _, _⟩ := evaluate_approved_iff.mp approved
  obtain ⟨_, _, t, _, _, ht, _⟩ := not_invalidNumerical_iff.mp guard
  have noNan : ¬ ∃ p ∈ portfolio.openPositions, p.notionalValue.IsNan := fun ⟨p, member, isNan⟩ =>
    (ExtNum.isFinite_iff_not.mp (valid.positions p member)).1 isNan
  have within := ((leverage_passes_iff hE posE ht cap).mp leverage).resolve_left noNan
  have magnitude := magnitude_grossNotional portfolio.openPositions
  have finite := (grossNotional_isFinite_iff portfolio.openPositions).mpr valid.positions
  obtain ⟨g, hg⟩ := ExtNum.isFinite_iff.mp finite
  rw [hg] at magnitude
  have nonneg : 0 ≤ g := magnitude
  rw [PortfolioState.currentGrossNotional, hg, ht, cap, hE, ExtNum.fin_add_fin, ExtNum.fin_mul_fin,
    ExtNum.fin_le_fin] at within
  rw [ht, ExtNum.fin_lt_fin] at above
  linarith

/-- From the threshold on, the drawdown breaker approves nothing. -/
theorem drawdown_bounded_of_threshold {T : ℚ} (threshold : params.maxDrawdownThreshold = fin T)
    {portfolio : PortfolioState} (deep : fin T ≤ portfolio.drawdown) (proposal : TradeProposal)
    (n : F64) : evaluateProposal portfolio proposal params ≠ .approved n := by
  intro approved
  obtain ⟨_, noBreach, _⟩ := evaluate_approved_iff.mp approved
  exact noBreach (by rwa [DrawdownBreached, threshold])

theorem armed_of_thresholds (finite : params.FinitePositive)
    (below : params.maxDrawdownThreshold < fin 1) : Armed params := by
  obtain ⟨T, threshold⟩ := ExtNum.isFinite_iff.mp finite.drawdown.1
  obtain ⟨c, cap⟩ := ExtNum.isFinite_iff.mp finite.leverage.1
  refine ⟨finite, below, fun _ valid => notional_bounded_of_cap cap valid, T, ?_,
    fun _ _ deep => drawdown_bounded_of_threshold threshold deep⟩
  rw [threshold] at below
  exact below

end Arming

/-! ## Which environments arm the gates -/

/-- Every number the variable sets, if it sets one, satisfies `ok`. -/
def Environment.Sets (env : Environment) (name : String) (ok : F64 → Prop) : Prop :=
  ∀ x, env.number name = some x → ok x

theorem sets_iff (env : Environment) (name : String) (ok : F64 → Prop) {default : F64}
    (usable : ok default) : ok ((env.number name).getD default) ↔ env.Sets name ok := by
  unfold Environment.Sets
  cases env.number name with
  | none => simpa using usable
  | some x => simp

/-- **Which environments arm the gates**: each variable that is set to a number
is set to a positive finite one, the drawdown to one below 1. -/
theorem armed_iff (env : Environment) :
    Armed (ConstitutionKernel.new (.fromEnvOrDefault env)).params ↔
      env.Sets "CONSTITUTION_MAX_DRAWDOWN" (fun x => (x.IsFinite ∧ 0 < x) ∧ x < fin 1) ∧
        env.Sets "CONSTITUTION_MAX_LEVERAGE" (fun x => x.IsFinite ∧ 0 < x) ∧
        env.Sets "CONSTITUTION_MAX_CONCENTRATION" (fun x => x.IsFinite ∧ 0 < x) := by
  have usable : ((fin (15 / 100) : F64).IsFinite ∧ 0 < (fin (15 / 100) : F64)) ∧
      (fin (15 / 100) : F64) < fin 1 := by decide +kernel
  have usableCap : (fin (25 / 10) : F64).IsFinite ∧ 0 < (fin (25 / 10) : F64) := by decide +kernel
  have usableShare : (fin (20 / 100) : F64).IsFinite ∧ 0 < (fin (20 / 100) : F64) := by
    decide +kernel
  have drawdown := sets_iff env "CONSTITUTION_MAX_DRAWDOWN"
    (fun x => (x.IsFinite ∧ 0 < x) ∧ x < fin 1) usable
  have leverage := sets_iff env "CONSTITUTION_MAX_LEVERAGE" (fun x => x.IsFinite ∧ 0 < x) usableCap
  have concentration := sets_iff env "CONSTITUTION_MAX_CONCENTRATION"
    (fun x => x.IsFinite ∧ 0 < x) usableShare
  rw [← drawdown, ← leverage, ← concentration]
  constructor
  · intro armed
    exact ⟨⟨armed.finite.drawdown, armed.drawdown_lt_one⟩, armed.finite.leverage,
      armed.finite.concentration⟩
  · rintro ⟨⟨first, below⟩, second, third⟩
    exact armed_of_thresholds ⟨first, second, third⟩ below

/-! ## Poles -/

/-- An environment that sets the leverage cap to the text `value`. -/
def leverageEnv (value : String) : Environment := fun name =>
  if name = "CONSTITUTION_MAX_LEVERAGE" then some value else none

/-- Refuting pole: `nan` is a number, and no gate is left. -/
theorem nan_disarms :
    ¬ ∀ env : Environment, Armed (ConstitutionKernel.new (.fromEnvOrDefault env)).params := by
  intro always
  have armed := always (leverageEnv "nan")
  have cap : (ConstitutionKernel.new (.fromEnvOrDefault (leverageEnv "nan"))).params.globalLeverageCap
      = .nan := by decide +kernel
  have finite := armed.finite.leverage.1
  rw [cap] at finite
  exact finite

example : leverageEnv " 3.0 " |>.Sets "CONSTITUTION_MAX_LEVERAGE" (fun x => x = fin 3) := by
  intro x set
  have number : (leverageEnv " 3.0 ").number "CONSTITUTION_MAX_LEVERAGE" = some (fin 3) := by
    decide +kernel
  rw [number] at set
  exact (Option.some.inj set).symm

end CentaurApex.Constitution
