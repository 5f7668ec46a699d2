/-
# Cortex.Consistency -- what a context says of one thing agrees with the rest

`buildContext` fills a record along eight exits, some fields early and again later.
`Consistent` is what a reader of the record relies on, whatever the exit:

* **Integrity**: it is lost where a broken level is given, and nowhere else; in a trend the
  last close is beyond that level, against the bias.
* **Names**: the regime and the phase are one of six pairs, and a trend has its bias.
* **Levels**: each is a price of the history, by `SwingSpec.price_mem`.
* **Durations** are not negative: a cycle is a median of steps between swings that are in
  the order of their candles.

`buildContext_consistent`: every context is consistent, one exit after the other.
-/
import CentaurApex.Cortex.SwingSpec

namespace CentaurApex.Cortex

open CentaurApex.Theory
open CentaurApex.Theory.ExtNum (fin)
open CentaurApex.Theory.Python

set_option autoImplicit false

/-! ## Consistent contexts -/

/-- The price is one that a candle had. -/
def Observed (candles : List Candle) (price : ℚ) : Prop :=
  ∃ c ∈ candles, price = c.high ∨ price = c.low ∨ price = c.close

/-- What a regime can be together with. -/
def regimePhases : List (Regime × MarketPhase) :=
  [(.seeding, .seeding), (.trendUp, .trend), (.trendUp, .exhaustion), (.trendDown, .trend),
    (.trendDown, .exhaustion), (.range, .coil), (.expansion, .expansion)]

/-- The close is strictly beyond the level, against the bias. -/
def Beyond (bias : Bias) (close level : ℚ) : Prop :=
  match bias with
  | .long => close < level
  | .short => level < close
  | .flat => False

/-- The levels of the swings were prices. -/
structure Leveled (candles : List Candle) (ctx : MarketContext) : Prop where
  swingHigh : ∀ price ∈ ctx.swingHigh, Observed candles price
  swingLow : ∀ price ∈ ctx.swingLow, Observed candles price
  coilBounds : ∀ band ∈ ctx.coilBounds, Observed candles band.1 ∧ Observed candles band.2

structure Consistent (candles : List Candle) (ctx : MarketContext) : Prop
    extends Leveled candles ctx where
  integrity : ctx.integrity = false ↔ ctx.breakLevel.isSome
  pair : (ctx.regime, ctx.phase) ∈ regimePhases
  up : ctx.regime = .trendUp → ctx.bias = .long
  down : ctx.regime = .trendDown → ctx.bias = .short
  beyond : ctx.regime = .trendUp ∨ ctx.regime = .trendDown → ctx.integrity = false →
    ∀ level ∈ ctx.breakLevel, Beyond ctx.bias (closeBack candles 1) level
  breakLevel : ∀ price ∈ ctx.breakLevel, Observed candles price
  remaining : ∀ count ∈ ctx.expectedRemainingCandles, 0 ≤ count
  potential : ∀ count ∈ ctx.expansionPotentialCandles, 0 ≤ count

/-! ## Medians of steps -/

theorem median_nonneg {deltas : List ℚ} (nonneg : ∀ d ∈ deltas, 0 ≤ d) : 0 ≤ median deltas := by
  have sorted (k : ℕ) : 0 ≤ deltas.mergeSort.getD k 0 := by
    rw [List.getD_eq_getElem?_getD]
    cases found : deltas.mergeSort[k]? with
    | none => exact le_rfl
    | some d => exact nonneg d (List.mem_mergeSort.mp (List.mem_of_getElem? found))
  unfold median
  dsimp only
  split
  · exact sorted _
  · exact div_nonneg (add_nonneg (sorted _) (sorted _)) (by norm_num)

/-- The steps of numbers that do not fall. -/
theorem steps_nonneg {values : List ℚ} (chain : values.IsChain (· ≤ ·)) :
    ∀ d ∈ List.zipWith (fun a b => b - a) values values.tail, 0 ≤ d := by
  induction values with
  | nil => simp
  | cons a values ih =>
      cases values with
      | nil => simp
      | cons b values =>
          rw [List.isChain_cons_cons] at chain
          intro d member
          rw [List.tail_cons, List.zipWith_cons_cons, List.mem_cons] at member
          rcases member with rfl | later
          · exact sub_nonneg.mpr chain.1
          · exact ih chain.2 d later

theorem cycleMedian_nonneg {swings : List Swing}
    (ordered : swings.IsChain fun a b => a.candleIndex ≤ b.candleIndex) :
    ∀ cycle ∈ cycleMedian swings, 0 ≤ cycle := by
  intro cycle found
  have chain : ((lastN 6 swings).map fun s => (s.candleIndex : ℚ)).IsChain (· ≤ ·) := by
    refine List.isChain_map_of_isChain _ (fun a b le => ?_) (ordered.drop _)
    exact_mod_cast le
  unfold cycleMedian at found
  dsimp only at found
  split at found
  · cases found
  · obtain rfl := Option.some.inj found
    exact median_nonneg (steps_nonneg chain)

/-! ## Prices of the history -/

section Levels

variable {params : MarketContextParams} {assetId : String} {candles : List Candle} {atr : ℚ}
  {m : ExtNum ℚ} {swings : List Swing}

theorem observed_closeBack {k : ℕ} (pos : 0 < k) (long : k ≤ candles.length) :
    Observed candles (closeBack candles k) := by
  have inside : candles.length - k < candles.length := by omega
  refine ⟨candles[candles.length - k], List.getElem_mem _, .inr (.inr ?_)⟩
  rw [closeBack, List.getElem?_eq_getElem inside]
  rfl

/-- The prices of the swings of a kind are highs, or lows, of candles. -/
theorem observed_prices (spec : SwingSpec m candles swings) (kind : SwingKind) {price : ℚ}
    (member : price ∈ prices kind swings) : Observed candles price := by
  obtain ⟨s, found, rfl⟩ := List.mem_map.mp member
  obtain ⟨found, of⟩ := List.mem_filter.mp found
  obtain ⟨high, low⟩ := spec.price_mem found
  cases kind' : s.kind with
  | high =>
      obtain ⟨c, inside, same⟩ := List.mem_map.mp (high kind')
      exact ⟨c, inside, .inl same.symm⟩
  | low =>
      obtain ⟨c, inside, same⟩ := List.mem_map.mp (low kind')
      exact ⟨c, inside, .inr (.inl same.symm)⟩

theorem observed_swingHigh (spec : SwingSpec m candles swings) :
    ∀ price ∈ params.swingHigh swings, Observed candles price := fun _ most =>
  observed_prices spec .high ((List.drop_sublist _ _).subset (List.max?_mem most))

theorem observed_swingLow (spec : SwingSpec m candles swings) :
    ∀ price ∈ params.swingLow swings, Observed candles price := fun _ least =>
  observed_prices spec .low ((List.drop_sublist _ _).subset (List.min?_mem least))

theorem observed_coilBounds (spec : SwingSpec m candles swings) :
    ∀ band ∈ params.coilBounds swings atr, Observed candles band.1 ∧ Observed candles band.2 := by
  intro band found
  unfold MarketContextParams.coilBounds at found
  split at found
  · rename_i high low most least
    split at found
    · obtain rfl := Option.some.inj found
      exact ⟨observed_swingLow spec low least, observed_swingHigh spec high most⟩
    · cases found
  · cases found

theorem leveled_structure (spec : SwingSpec m candles swings) :
    Leveled candles (params.structure_ assetId candles atr swings) :=
  ⟨observed_swingHigh spec, observed_swingLow spec, observed_coilBounds spec⟩

end Levels

/-! ## The exits -/

section Exits

variable {params : MarketContextParams} {assetId : String} {candles : List Candle} {atr : ℚ}
  {ctx : MarketContext} {swings : List Swing}

/-- A seeding context that lost nothing. -/
theorem consistent_unsettled (leveled : Leveled candles ctx) (regime : ctx.regime = .seeding)
    (phase : ctx.phase = .seeding) (whole : ctx.integrity = true) (level : ctx.breakLevel = none)
    (remaining : ctx.expectedRemainingCandles = none)
    (potential : ctx.expansionPotentialCandles = none) : Consistent candles ctx where
  toLeveled := leveled
  integrity := by simp [whole, level]
  pair := by rw [regime, phase]; decide
  up := fun trend => by rw [regime] at trend; cases trend
  down := fun trend => by rw [regime] at trend; cases trend
  beyond := by simp [whole]
  breakLevel := by simp [level]
  remaining := by simp [remaining]
  potential := by simp [potential]

theorem consistent_seeding (atr : ℚ) :
    Consistent candles { params.seeding assetId candles with atr } :=
  consistent_unsettled ⟨by simp [MarketContextParams.seeding],
    by simp [MarketContextParams.seeding], by simp [MarketContextParams.seeding]⟩
    rfl rfl rfl rfl rfl rfl

/-- An expansion has lost its integrity at a level. -/
theorem consistent_expansion {level : ℚ} (leveled : Leveled candles ctx)
    (regime : ctx.regime = .expansion) (phase : ctx.phase = .expansion)
    (lost : ctx.integrity = false) (at_ : ctx.breakLevel = some level)
    (observed : Observed candles level)
    (remaining : ∀ count ∈ ctx.expectedRemainingCandles, 0 ≤ count)
    (potential : ctx.expansionPotentialCandles = none) : Consistent candles ctx where
  toLeveled := leveled
  integrity := by simp [lost, at_]
  pair := by rw [regime, phase]; decide
  up := fun trend => by rw [regime] at trend; cases trend
  down := fun trend => by rw [regime] at trend; cases trend
  beyond := by simp [regime]
  breakLevel := by simpa [at_] using observed
  remaining := remaining
  potential := by simp [potential]

theorem consistent_impulse (two : 2 ≤ candles.length) :
    Consistent candles (params.impulse assetId candles atr) :=
  consistent_expansion
    ⟨by simp [MarketContextParams.impulse, MarketContextParams.seeding],
      by simp [MarketContextParams.impulse, MarketContextParams.seeding],
      by simp [MarketContextParams.impulse, MarketContextParams.seeding]⟩
    rfl rfl rfl rfl (observed_closeBack Nat.two_pos two)
    (by simp [MarketContextParams.impulse, MarketContextParams.seeding]) rfl

theorem consistent_breakout {last low high : ℚ} (leveled : Leveled candles ctx)
    (bounds : ctx.coilBounds = some (low, high))
    (ordered : swings.IsChain fun a b => a.candleIndex ≤ b.candleIndex) :
    Consistent candles (MarketContextParams.breakout ctx swings last low high) := by
  obtain ⟨bottom, top⟩ := leveled.coilBounds _ bounds
  have level : Observed candles (if high < last then high else low) := by
    split
    · exact top
    · exact bottom
  refine consistent_expansion ⟨leveled.swingHigh, leveled.swingLow, leveled.coilBounds⟩
    rfl rfl rfl rfl level (fun count found => ?_) rfl
  exact cycleMedian_nonneg ordered count (Option.mem_filter_iff.mp found).1

theorem trend_pair (rising tired : Prop) [Decidable rising] [Decidable tired] :
    (if rising then Regime.trendUp else .trendDown,
      if tired then MarketPhase.exhaustion else .trend) ∈ regimePhases := by
  by_cases up : rising <;> by_cases late : tired <;> simp [up, late, regimePhases]

theorem consistent_trend {score : ℤ} (leveled : Leveled candles ctx)
    (potential : ctx.expansionPotentialCandles = none) :
    Consistent candles
      (params.trend candles ctx atr swings (closeBack candles 1) score) := by
  have levels : ∀ price ∈ (if 0 < score then ctx.swingLow else ctx.swingHigh),
      Observed candles price := by
    split
    · exact leveled.swingLow
    · exact leveled.swingHigh
  refine ⟨⟨leveled.swingHigh, leveled.swingLow, leveled.coilBounds⟩, ?_, ?_, ?_, ?_, ?_, ?_, ?_, ?_⟩
  all_goals dsimp only [MarketContextParams.trend]
  · -- the reference is there where it is broken
    cases if 0 < score then ctx.swingLow else ctx.swingHigh with
    | none => simp
    | some level => by_cases up : 0 < score <;> simp [up]
  · exact trend_pair _ _
  · by_cases up : 0 < score <;> simp [up]
  · by_cases up : 0 < score <;> simp [up]
  · intro _ lost level found
    rw [Bool.not_eq_false'] at lost
    rw [if_pos lost] at found
    rw [Option.mem_def.mp found, Option.any_some] at lost
    by_cases up : 0 < score
    · simpa [up, Beyond] using lost
    · simpa [up, Beyond] using lost
  · intro price found
    exact levels price (Option.ite_none_right_eq_some.mp found).2
  · intro count found
    obtain ⟨cycle, -, rfl⟩ := Option.map_eq_some_iff.mp found
    exact le_max_left _ _
  · simp [potential]

theorem consistent_coil {last low high : ℚ} (leveled : Leveled candles ctx) :
    Consistent candles (MarketContextParams.coil ctx atr last low high) where
  toLeveled := ⟨leveled.swingHigh, leveled.swingLow, leveled.coilBounds⟩
  integrity := by simp [MarketContextParams.coil]
  pair := (by decide : (Regime.range, MarketPhase.coil) ∈ regimePhases)
  up := fun trend => by cases trend
  down := fun trend => by cases trend
  beyond := by simp [MarketContextParams.coil]
  breakLevel := by simp [MarketContextParams.coil]
  remaining := by simp [MarketContextParams.coil]
  potential := by simp [MarketContextParams.coil]

theorem consistent_classify {m : ExtNum ℚ} (spec : SwingSpec m candles swings) :
    Consistent candles (params.classify assetId candles atr swings) := by
  have leveled : Leveled candles (params.structure_ assetId candles atr swings) :=
    leveled_structure spec
  unfold MarketContextParams.classify
  dsimp only
  split
  · rename_i low high bounds
    split
    · exact consistent_breakout leveled bounds spec.ordered
    · split
      · exact consistent_trend leveled rfl
      · exact consistent_coil leveled
  · split
    · exact consistent_trend leveled rfl
    · exact consistent_unsettled ⟨leveled.swingHigh, leveled.swingLow, leveled.coilBounds⟩
        rfl rfl rfl rfl rfl rfl

end Exits

/-- **Every context is consistent.** -/
theorem buildContext_consistent (candles : List Candle) (params : MarketContextParams)
    (assetId : String) : Consistent candles (buildContext candles params assetId) := by
  unfold buildContext
  split
  · exact consistent_seeding 0
  · rename_i long
    dsimp only
    split
    · exact consistent_seeding _
    · split
      · exact consistent_impulse (by omega)
      · split
        · exact consistent_seeding _
        · exact consistent_classify (Zigzag.run_spec (max2_minReversal _) candles)

end CentaurApex.Cortex
