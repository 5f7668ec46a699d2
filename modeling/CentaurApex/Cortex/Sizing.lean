/-
# Cortex.Sizing -- how large a proposal is

The engine sizes a proposal as a fraction of the account's equity, a half of it where volatility
is high, never below one, and rounded to cents.  The equity is read as `value or 10000.0`: an
equity that is missing is ten thousand, and so is one of zero.

* **The notional is monotone and bounded in the equity it is computed from** (`notional_mono`,
  `notional_le`).
* **It is in the equity that the tick has, exactly when** (`sizing_iff`) neither equity counts as
  false, or no proposal is emitted.  And no tick raises whose numbers are finite.

Refuting pole `wiped_out`: an equity of zero gets five hundred, an equity of one gets one.
-/
import CentaurApex.Cortex.TradingDaemon

namespace CentaurApex.Cortex

open CentaurApex.Theory
open CentaurApex.Theory.Python
open CentaurApex.Theory.ExtNum (fin)

set_option autoImplicit false

/-! ## The notional -/

/-- What is proposed for an equity. -/
def notionalOf (volatility : PyFloat) (equity : ℚ) : PyFloat :=
  round2 (max2 (fin equity * sizing volatility) (fin 1))

theorem sizing_fin (volatility : PyFloat) :
    ∃ k : ℚ, sizing volatility = fin k ∧ 0 < k ∧ k ≤ 5 / 100 := by
  unfold sizing sizingMultiplier
  split
  · refine ⟨5 / 100 * (5 / 10), by rw [ExtNum.fin_mul_fin], by norm_num, by norm_num⟩
  · exact ⟨5 / 100, rfl, by norm_num, le_rfl⟩

theorem notionalOf_eq {volatility : PyFloat} {k : ℚ} (fraction : sizing volatility = fin k)
    (equity : ℚ) :
    notionalOf volatility equity = fin ((roundHalfEven (max (equity * k) 1 * 100) : ℚ) / 100) := by
  rw [notionalOf, fraction, ExtNum.fin_mul_fin, max2_fin, round2]

/-- More equity is sized no smaller. -/
theorem notional_mono (volatility : PyFloat) {a b : ℚ} (le : a ≤ b) :
    notionalOf volatility a ≤ notionalOf volatility b := by
  obtain ⟨k, fraction, positive, -⟩ := sizing_fin volatility
  have scaled : max (a * k) 1 * 100 ≤ max (b * k) 1 * 100 :=
    mul_le_mul_of_nonneg_right
      (max_le_max (mul_le_mul_of_nonneg_right le positive.le) le_rfl) (by norm_num)
  have rounded : (roundHalfEven (max (a * k) 1 * 100) : ℚ) ≤
      roundHalfEven (max (b * k) 1 * 100) := by
    exact_mod_cast roundHalfEven_mono scaled
  rw [notionalOf_eq fraction, notionalOf_eq fraction, ExtNum.fin_le_fin]
  linarith

/-- A twentieth of the equity, or one, up to half a cent. -/
theorem notional_le (volatility : PyFloat) {equity : ℚ} (nonneg : 0 ≤ equity) :
    notionalOf volatility equity ≤ fin (max (5 / 100 * equity) 1 + 1 / 200) := by
  obtain ⟨k, fraction, -, small⟩ := sizing_fin volatility
  have error := (abs_le.mp (roundHalfEven_error (max (equity * k) 1 * 100))).2
  have sized : max (equity * k) 1 ≤ max (5 / 100 * equity) 1 := by
    refine max_le_max ?_ le_rfl
    rw [mul_comm]
    exact mul_le_mul_of_nonneg_right small nonneg
  rw [notionalOf_eq fraction, ExtNum.fin_le_fin]
  linarith

theorem one_le_notional (volatility : PyFloat) (equity : ℚ) :
    fin 1 ≤ notionalOf volatility equity := by
  obtain ⟨k, fraction, -, -⟩ := sizing_fin volatility
  have scaled : ((100 : ℤ) : ℚ) ≤ max (equity * k) 1 * 100 := by
    have := le_max_right (equity * k) 1
    push_cast
    linarith
  have rounded : (100 : ℤ) ≤ roundHalfEven (max (equity * k) 1 * 100) := by
    simpa only [roundHalfEven_intCast] using roundHalfEven_mono scaled
  have cast : (100 : ℚ) ≤ roundHalfEven (max (equity * k) 1 * 100) := by exact_mod_cast rounded
  rw [notionalOf_eq fraction, ExtNum.fin_le_fin]
  linarith

theorem notional_pos (volatility : PyFloat) (equity : ℚ) :
    fin 0 < notionalOf volatility equity := by
  have above := one_le_notional volatility equity
  obtain ⟨k, fraction, -, -⟩ := sizing_fin volatility
  rw [notionalOf_eq fraction] at above ⊢
  rw [ExtNum.fin_le_fin] at above
  rw [ExtNum.fin_lt_fin]
  linarith

/-- What ten thousand is sized to is too much for nothing. -/
theorem default_not_le (volatility : PyFloat) :
    ¬ notionalOf volatility 10000 ≤ fin (max (5 / 100 * 0) 1 + 1 / 200) := by
  unfold notionalOf sizing
  split <;> decide +kernel

/-! ## A tick -/

section Tick

variable (rt : Runtime)

/-- What the engine relies on: validation takes the fields of a proposal whose notional is
positive, and its slippage not negative, as they are; and no empty text is a number. -/
structure Standard : Prop where
  validates : ∀ (proposal : TradeProposal) (n : PyFloat), proposal.targetNotional = .float n →
    fin 0 < n → fin 0 ≤ proposal.maxAcceptableSlippage →
      rt.validate proposal.modelDump = .ok proposal
  empty_text : rt.floatOfText "" = none

/-- The tick calls for a proposal: there is momentum, a price that is not at or below zero, a
trend, and a volatility that can be read. -/
structure CallsForProposal (marketData : Dict) : Prop where
  momentum : truthy (get marketData "momentum_signal" (.bool false)) = true
  price : ∃ p, readFloat rt marketData "price" (fin 0) = .ok p ∧ ¬ p ≤ fin 0
  trend : ∃ direction, readTrend marketData = some direction
  volatility : ∃ v, readVolatility rt marketData = .ok v

/-- The field reads as a finite number. -/
def ReadsFinite (marketData : Dict) (key : String) (default q : ℚ) : Prop :=
  toFloat rt.floatOfText (get marketData key (.float (fin default))) = .ok (fin q)

/-- What the equity counts as: what is read of it, unless it counts as false. -/
def countedEquity (value : Json) (equity : ℚ) : ℚ := if truthy value then equity else 10000

/-- The notional of a proposal that is emitted. -/
def EngineResult.notional : EngineResult → Option PyFloat
  | .noAction => none
  | .proposalGenerated _ proposal =>
      match proposal.lookup "target_notional" with
      | some (.float n) => some n
      | _ => none

variable {rt}

theorem readFloat_finite {marketData : Dict} {key : String} {default q : ℚ}
    (reads : ReadsFinite rt marketData key default q) :
    readFloat rt marketData key (fin default) =
      .ok (fin (if truthy (get marketData key (.float (fin default))) then q else default)) := by
  unfold readFloat orElse
  split
  · exact reads
  · rfl

variable {assetId proposalId : String} {now : ℤ} {marketData : Dict}

/-- The proposal of a tick. -/
def proposalOf (assetId proposalId : String) (direction : OrderDirection) (n : PyFloat) :
    TradeProposal :=
  ⟨proposalId, assetId, direction, .float n, fin (15 / 10000)⟩

theorem slippage_nonneg : fin (0 : ℚ) ≤ fin (15 / 10000) := by decide +kernel

theorem evaluate_eq {p e : PyFloat} (price : readFloat rt marketData "price" (fin 0) = .ok p)
    (equity : readFloat rt marketData "account_equity" (fin 10000) = .ok e) :
    evaluateMarketTick rt assetId proposalId now marketData =
      if truthy (get marketData "momentum_signal" (.bool false)) = false ∨ p ≤ fin 0 then
        .ok .noAction
      else match readTrend marketData with
        | none => .ok .noAction
        | some direction => do
            let v ← readVolatility rt marketData
            let proposal ← rt.validate (proposalOf assetId proposalId direction
              (round2 (max2 (e * sizing v) (fin 1)))).modelDump
            return .proposalGenerated now proposal.modelDump := by
  unfold evaluateMarketTick
  rw [price, equity]
  rfl

/-- Only a tick that calls for a proposal gets one. -/
theorem calls_of_emitted {result : EngineResult} {n : PyFloat}
    (returns : evaluateMarketTick rt assetId proposalId now marketData = .ok result)
    (emitted : result.notional = some n) : CallsForProposal rt marketData := by
  have whole := returns
  unfold evaluateMarketTick at whole
  obtain ⟨p, price, whole⟩ := bind_ok_iff.mp whole
  obtain ⟨e, equity, -⟩ := bind_ok_iff.mp whole
  rw [evaluate_eq price equity] at returns
  split at returns
  · obtain rfl := Except.ok.inj returns
    cases emitted
  · rename_i goes
    obtain ⟨momentum, above⟩ := not_or.mp goes
    split at returns
    · obtain rfl := Except.ok.inj returns
      cases emitted
    · rename_i direction trend
      obtain ⟨v, volatility, -⟩ := bind_ok_iff.mp returns
      exact ⟨Bool.eq_true_of_not_eq_false momentum, ⟨p, price, above⟩, ⟨direction, trend⟩,
        ⟨v, volatility⟩⟩

variable (assetId proposalId now) in
/-- A tick that calls for a proposal is sized by the equity that is read. -/
theorem evaluate_of_calls (standard : Standard rt) {equity : ℚ} {v : PyFloat}
    (reads : readFloat rt marketData "account_equity" (fin 10000) = .ok (fin equity))
    (calls : CallsForProposal rt marketData) (volatility : readVolatility rt marketData = .ok v) :
    ∃ result, evaluateMarketTick rt assetId proposalId now marketData = .ok result ∧
      result.notional = some (notionalOf v equity) := by
  obtain ⟨momentum, ⟨p, price, above⟩, ⟨direction, trend⟩, -⟩ := calls
  have valid := standard.validates (proposalOf assetId proposalId direction (notionalOf v equity)) _ rfl
    (notional_pos v equity) slippage_nonneg
  have goes : ¬ (truthy (get marketData "momentum_signal" (.bool false)) = false ∨ p ≤ fin 0) := by
    rw [momentum]
    exact not_or.mpr ⟨by decide, above⟩
  refine ⟨.proposalGenerated now (proposalOf assetId proposalId direction
    (notionalOf v equity)).modelDump, ?_, rfl⟩
  rw [evaluate_eq price reads, if_neg goes, trend, volatility]
  exact bind_ok_iff.mpr ⟨_, rfl, bind_ok_iff.mpr ⟨_, valid, rfl⟩⟩

/-- A tick whose numbers are finite does not raise. -/
theorem evaluate_returns (standard : Standard rt) {price equity volatility : ℚ}
    (prices : ReadsFinite rt marketData "price" 0 price)
    (equities : ReadsFinite rt marketData "account_equity" 10000 equity)
    (volatilities : ReadsFinite rt marketData "volatility" 0 volatility) :
    ∃ result, evaluateMarketTick rt assetId proposalId now marketData = .ok result := by
  have reads : readVolatility rt marketData = .ok (fin volatility) := by
    unfold readVolatility
    rw [volatilities]
  obtain ⟨p, price_⟩ : ∃ p, readFloat rt marketData "price" (fin 0) = .ok p :=
    ⟨_, readFloat_finite prices⟩
  obtain ⟨e, equity_⟩ : ∃ e : ℚ, readFloat rt marketData "account_equity" (fin 10000) =
    .ok (fin e) := ⟨_, readFloat_finite equities⟩
  rw [evaluate_eq price_ equity_]
  split
  · exact ⟨_, rfl⟩
  · split
    · exact ⟨_, rfl⟩
    · rename_i direction _
      have valid := standard.validates (proposalOf assetId proposalId direction
        (notionalOf (fin volatility) e)) _ rfl (notional_pos _ _) slippage_nonneg
      exact ⟨_, bind_ok_iff.mpr ⟨_, reads, bind_ok_iff.mpr ⟨_, valid, rfl⟩⟩⟩

/-! ## Two ticks -/

/-- Two ticks that agree on everything but the equity, which is finite and not negative in both,
and no less in the second. -/
structure EquityTicks (rt : Runtime) where
  first : Dict
  second : Dict
  firstValue : Json
  secondValue : Json
  firstEquity : ℚ
  secondEquity : ℚ
  first_field : first.lookup "account_equity" = some firstValue
  second_field : second.lookup "account_equity" = some secondValue
  first_reads : toFloat rt.floatOfText firstValue = .ok (fin firstEquity)
  second_reads : toFloat rt.floatOfText secondValue = .ok (fin secondEquity)
  nonneg : 0 ≤ firstEquity
  ordered : firstEquity ≤ secondEquity
  agree : ∀ key, key ≠ "account_equity" → first.lookup key = second.lookup key

/-- What counts as false, and reads as a number, is zero. -/
theorem eq_zero_of_not_truthy (standard : Standard rt) {value : Json} {q : ℚ}
    (counts : truthy value = false) (reads : toFloat rt.floatOfText value = .ok (fin q)) :
    q = 0 := by
  cases value with
  | null => cases reads
  | bool b =>
      obtain rfl : b = false := counts
      exact (ExtNum.fin.inj (Except.ok.inj reads)).symm
  | int n =>
      obtain rfl : n = 0 := by simpa [truthy] using counts
      have zero : floatOfInt 0 = .ok (fin (0 : ℤ)) := floatOfInt_small (by decide)
      have same := Except.ok.inj (zero.symm.trans reads)
      exact_mod_cast (ExtNum.fin.inj same).symm
  | float x =>
      obtain rfl : x = fin 0 := by simpa [truthy] using counts
      exact (ExtNum.fin.inj (Except.ok.inj reads)).symm
  | str s =>
      obtain rfl : s = "" := by simpa [truthy] using counts
      rw [toFloat, standard.empty_text] at reads
      cases reads
  | arr items => cases reads
  | obj fields => cases reads

/-- The equity that is read of a tick. -/
theorem readFloat_equity {value : Json} {equity : ℚ}
    (field : marketData.lookup "account_equity" = some value)
    (reads : toFloat rt.floatOfText value = .ok (fin equity)) :
    readFloat rt marketData "account_equity" (fin 10000) = .ok (fin (countedEquity value equity)) := by
  have there : get marketData "account_equity" (.float (fin 10000)) = value := by
    rw [Python.get, field]
    rfl
  have finite : ReadsFinite rt marketData "account_equity" 10000 equity := by
    rw [ReadsFinite, there]
    exact reads
  rw [readFloat_finite finite, there]
  rfl

/-- What is emitted of a tick, is sized by the equity that counts. -/
theorem notional_eq (standard : Standard rt) {value : Json} {equity : ℚ} {v n : PyFloat}
    {result : EngineResult} (field : marketData.lookup "account_equity" = some value)
    (reads : toFloat rt.floatOfText value = .ok (fin equity))
    (volatility : readVolatility rt marketData = .ok v)
    (returns : evaluateMarketTick rt assetId proposalId now marketData = .ok result)
    (emitted : result.notional = some n) : n = notionalOf v (countedEquity value equity) := by
  obtain ⟨result', returns', emitted'⟩ := evaluate_of_calls assetId proposalId now standard
    (readFloat_equity field reads) (calls_of_emitted returns emitted) volatility
  obtain rfl := Except.ok.inj (returns.symm.trans returns')
  exact Option.some.inj (emitted.symm.trans emitted')

namespace EquityTicks

variable (ticks : EquityTicks rt)

theorem get_agree {key : String} (other : key ≠ "account_equity") (default : Json) :
    get ticks.first key default = get ticks.second key default := by
  rw [Python.get, Python.get, ticks.agree key other]

theorem calls_agree (calls : CallsForProposal rt ticks.first) :
    CallsForProposal rt ticks.second := by
  obtain ⟨momentum, ⟨p, price, above⟩, ⟨direction, trend⟩, ⟨v, volatility⟩⟩ := calls
  refine ⟨?_, ⟨p, ?_, above⟩, ⟨direction, ?_⟩, ⟨v, ?_⟩⟩
  · rw [← ticks.get_agree (by decide)]
    exact momentum
  · rw [readFloat, ← ticks.get_agree (by decide)]
    exact price
  · rw [readTrend, ← ticks.get_agree (by decide)]
    exact trend
  · rw [readVolatility, ← ticks.get_agree (by decide)]
    exact volatility

theorem volatility_agree : readVolatility rt ticks.second = readVolatility rt ticks.first := by
  rw [readVolatility, readVolatility, ticks.get_agree (by decide)]

/-- If both ticks get a proposal, the first is no larger, and each is at most a twentieth of the
equity, or one, up to half a cent. -/
def Sized (assetId : String) : Prop :=
  ∀ proposalId proposalId' now now' result result' n n',
    evaluateMarketTick rt assetId proposalId now ticks.first = .ok result →
    evaluateMarketTick rt assetId proposalId' now' ticks.second = .ok result' →
    result.notional = some n → result'.notional = some n' →
      n ≤ n' ∧ n ≤ fin (max (5 / 100 * ticks.firstEquity) 1 + 1 / 200) ∧
        n' ≤ fin (max (5 / 100 * ticks.secondEquity) 1 + 1 / 200)

theorem sized_iff (standard : Standard rt) (assetId : String) :
    ticks.Sized assetId ↔
      ¬ (CallsForProposal rt ticks.first ∧
        (truthy ticks.firstValue = false ∨ truthy ticks.secondValue = false)) := by
  constructor
  · rintro sized ⟨calls, counts⟩
    obtain ⟨v, volatility⟩ := calls.volatility
    obtain ⟨result, returns, emitted⟩ := evaluate_of_calls assetId "" 0 standard
      (readFloat_equity ticks.first_field ticks.first_reads) calls volatility
    obtain ⟨result', returns', emitted'⟩ := evaluate_of_calls assetId "" 0 standard
      (readFloat_equity ticks.second_field ticks.second_reads) (ticks.calls_agree calls)
      (ticks.volatility_agree.trans volatility)
    obtain ⟨-, bound, bound'⟩ := sized _ _ _ _ _ _ _ _ returns returns' emitted emitted'
    rcases counts with first | second
    · have zero := eq_zero_of_not_truthy standard first ticks.first_reads
      rw [countedEquity, if_neg (Bool.eq_false_iff.mp first), zero] at bound
      exact default_not_le v bound
    · have zero := eq_zero_of_not_truthy standard second ticks.second_reads
      rw [countedEquity, if_neg (Bool.eq_false_iff.mp second), zero] at bound'
      exact default_not_le v bound'
  · intro neither proposalId proposalId' now now' result result' n n' returns returns' emitted
      emitted'
    have calls := calls_of_emitted returns emitted
    obtain ⟨v, volatility⟩ := calls.volatility
    have volatility' := ticks.volatility_agree.trans volatility
    obtain ⟨first, second⟩ := not_or.mp fun falsy => neither ⟨calls, falsy⟩
    obtain rfl := notional_eq standard ticks.first_field ticks.first_reads volatility returns
      emitted
    obtain rfl := notional_eq standard ticks.second_field ticks.second_reads volatility' returns'
      emitted'
    rw [countedEquity, if_pos (Bool.eq_true_of_not_eq_false first), countedEquity,
      if_pos (Bool.eq_true_of_not_eq_false second)]
    exact ⟨notional_mono v ticks.ordered, notional_le v ticks.nonneg,
      notional_le v (ticks.nonneg.trans ticks.ordered)⟩

end EquityTicks

end Tick

/-- **Sizing is monotone and bounded exactly when** no proposal is emitted, or neither equity
counts as false; and a tick whose numbers are finite does not raise. -/
theorem sizing_iff (rt : Runtime) (standard : Standard rt) :
    (∀ assetId (ticks : EquityTicks rt), ticks.Sized assetId ↔
      ¬ (CallsForProposal rt ticks.first ∧
        (truthy ticks.firstValue = false ∨ truthy ticks.secondValue = false))) ∧
    ∀ assetId proposalId now marketData price equity volatility,
      ReadsFinite rt marketData "price" 0 price →
        ReadsFinite rt marketData "account_equity" 10000 equity →
          ReadsFinite rt marketData "volatility" 0 volatility →
            ∃ result, evaluateMarketTick rt assetId proposalId now marketData = .ok result :=
  ⟨fun assetId ticks => ticks.sized_iff standard assetId,
    fun _ _ _ _ _ _ _ prices equities volatilities =>
      evaluate_returns standard prices equities volatilities⟩

/-! ## Poles: two accounts -/

namespace BullishTick

theorem standard : Standard runtime := by
  refine ⟨fun proposal n notional positive slippage => ?_, rfl⟩
  obtain ⟨proposalId, assetId, direction, _, s⟩ := proposal
  subst notional
  have accepted : ¬ (n ≤ fin 0 ∨ s < fin 0) :=
    not_or.mpr ⟨ExtNum.not_le_of_lt positive, fun negative => ExtNum.not_le_of_lt negative slippage⟩
  show (if n ≤ fin 0 ∨ s < fin 0 then _ else _) = _
  rw [if_neg accepted]
  cases direction <;> rfl

/-- A bullish tick of an account. -/
def accountTick (equity : ℚ) : Dict :=
  [("price", .float (fin 1)), ("account_equity", .float (fin equity)),
    ("momentum_signal", .bool true), ("trend", .str "bullish"), ("volatility", .float (fin 0))]

def accountTicks (a b : ℚ) (nonneg : 0 ≤ a) (ordered : a ≤ b) : EquityTicks runtime where
  first := accountTick a
  second := accountTick b
  firstValue := .float (fin a)
  secondValue := .float (fin b)
  firstEquity := a
  secondEquity := b
  first_field := rfl
  second_field := rfl
  first_reads := rfl
  second_reads := rfl
  nonneg := nonneg
  ordered := ordered
  agree key other := by
    have differs : (key == "account_equity") = false := beq_eq_false_iff_ne.mpr other
    simp only [accountTick, List.lookup_cons, differs]

/-- One and two thousand. -/
theorem thousands_sized :
    (accountTicks 1000 2000 (by decide) (by decide)).Sized "EURUSD" := by
  refine ((sizing_iff runtime standard).1 "EURUSD" _).mpr fun both => ?_
  rcases both.2 with first | second
  · exact absurd first (by decide +kernel)
  · exact absurd second (by decide +kernel)

/-- Refuting pole: zero and one. -/
theorem wiped_out :
    ¬ ∀ rt, Standard rt → (∀ assetId (ticks : EquityTicks rt), ticks.Sized assetId) ∧
      ∀ assetId proposalId now marketData price equity volatility,
        ReadsFinite rt marketData "price" 0 price →
          ReadsFinite rt marketData "account_equity" 10000 equity →
            ReadsFinite rt marketData "volatility" 0 volatility →
              ∃ result, evaluateMarketTick rt assetId proposalId now marketData = .ok result := by
  intro always
  have sized := (always runtime standard).1 "EURUSD"
    (accountTicks 0 1 (by decide) (by decide))
  refine ((accountTicks 0 1 (by decide) (by decide)).sized_iff standard "EURUSD").mp sized
    ⟨⟨rfl, ⟨fin 1, ?_, by decide +kernel⟩, ⟨.buy, ?_⟩, ⟨fin 0, rfl⟩⟩, .inl (by decide +kernel)⟩
  · decide +kernel
  · decide +kernel

end BullishTick

end CentaurApex.Cortex
