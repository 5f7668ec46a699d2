/-
# Cortex.Bands -- what a range takes

A range needs swings within a band of one multiple of the average true range, and
swings are apart by another multiple of it (`Zigzag.separated`): a band not wider than
the reversal holds no history (`Ranging.swing_lt_range`).

And a history has only so many swings.  Where the reversal is more than the average
range, a low is paid for in the window (`Classified.length_le_of_dear`); where the band
is no wider than the average range, two swings in every candle leave it
(`Ranging.length_ne`), but for the last candle (`Ranging.spare`).
-/
import CentaurApex.Cortex.Swings

namespace CentaurApex.Cortex

open CentaurApex.Theory
open CentaurApex.Theory.ExtNum (fin)
open CentaurApex.Theory.Python

set_option autoImplicit false

/-! ## The end of a list -/

section LastN

variable {α : Type}

theorem mem_lastN_append {x : α} {xs ys : List α} {k : ℕ} (member : x ∈ ys)
    (short : ys.length ≤ k) : x ∈ lastN k (xs ++ ys) := by
  rw [lastN, List.drop_append_of_le_length (by rw [List.length_append]; omega)]
  exact List.mem_append_right _ member

theorem mem_lastN_of_getLast? {x : α} {xs : List α} {k : ℕ} (last : xs.getLast? = some x)
    (pos : 0 < k) : x ∈ lastN k xs := by
  obtain ⟨before, rfl⟩ := List.getLast?_eq_some_iff.mp last
  exact mem_lastN_append (List.mem_singleton_self x) pos

theorem lastN_append {xs ys : List α} {k : ℕ} (short : k ≤ ys.length) :
    lastN k (xs ++ ys) = lastN k ys := by
  rw [lastN, lastN, List.length_append, Nat.add_sub_assoc short, List.drop_length_add_append]

theorem lastN_of_length {xs : List α} {k : ℕ} (all : xs.length ≤ k) : lastN k xs = xs := by
  rw [lastN, Nat.sub_eq_zero_of_le all, List.drop_zero]

theorem exists_window {xs : List α} {k : ℕ} (long : k < xs.length) :
    ∃ older first window, xs = older ++ first :: window ∧ window.length = k := by
  have here : xs.length - k - 1 < xs.length := by omega
  refine ⟨xs.take (xs.length - k - 1), xs[xs.length - k - 1], xs.drop (xs.length - k - 1 + 1),
    ?_, ?_⟩
  · rw [List.getElem_cons_drop, List.take_append_drop]
  · rw [List.length_drop]
    omega

end LastN

/-- The window of the average is the candles after `first`. -/
theorem atrOf_append (older : List Candle) (first : Candle) (window : List Candle) :
    atrOf (older ++ first :: window) window.length =
      (trueRanges first.close window).sum / window.length := by
  rw [atrOf, lastN_append (Nat.le_of_eq (List.length_cons (a := first)).symm),
    lastN_of_length (Nat.le_of_eq (List.length_cons (a := first)))]
  cases window with
  | nil => simp [trueRanges]
  | cons c window => rfl

/-! ## The least reversal -/

/-- A positive multiple is infinite or a number. -/
theorem multiple_cases {x : ExtNum ℚ} (pos : fin 0 < x) :
    x = .posInf ∨ ∃ q : ℚ, 0 < q ∧ x = fin q := by
  cases x with
  | posInf => exact .inl rfl
  | fin q => exact .inr ⟨q, pos, rfl⟩
  | nan => exact absurd pos (ExtNum.not_lt_nan _)
  | negInf => exact absurd pos id

/-- The least reversal of a history. -/
def MarketContextParams.reversal (params : MarketContextParams) (atr : ℚ) : ℚ :=
  max (atr * params.swingAtrMultiple.val) minReversal

theorem minReversal_pos : 0 < minReversal := by
  unfold minReversal
  positivity

/-! ## What it takes to be classified -/

section Necessary

variable {params : MarketContextParams} {candles : List Candle}

/-- A history that is classified has a reversal that is a number. -/
theorem Classified.finite (classified : Classified params candles) :
    ∃ s : ℚ, 0 < s ∧ params.swingAtrMultiple = fin s ∧
      params.swingsOf candles =
        (Zigzag.run (fin (params.reversal (atrOf candles params.atrPeriod))) 0 .start
          candles).swings := by
  rcases multiple_cases params.swing_pos with infinite | ⟨s, pos, multiple⟩
  · have most : (fin (atrOf candles params.atrPeriod) * .posInf : ExtNum ℚ) = .posInf :=
      if_pos classified.moves
    have none_ : params.swingsOf candles = [] := by
      rw [MarketContextParams.swingsOf, zigzagSwings, infinite, most]
      exact Zigzag.run_unreached ExtNum.not_posInf_le_fin 0 .start candles
    have few := classified.swings
    have least := params.minSwings_ge
    rw [none_, List.length_nil] at few
    omega
  · refine ⟨s, pos, multiple, ?_⟩
    rw [MarketContextParams.swingsOf, zigzagSwings, MarketContextParams.reversal, multiple,
      ExtNum.fin_mul_fin, max2_fin]
    rfl

theorem recent_pos (params : MarketContextParams) : 0 < params.recent := by
  have lookback := params.lookback_ge
  unfold MarketContextParams.recent
  omega

/-- The band of a range, and the recent swings in it. -/
structure Band (params : MarketContextParams) (candles : List Candle) (low high : ℚ) : Prop where
  narrow : fin (high - low) < params.rangeHeightAtr * fin (atrOf candles params.atrPeriod)
  highs : ∀ h ∈ lastN params.recent (prices .high (params.swingsOf candles)), h ≤ high
  lows : ∀ l ∈ lastN params.recent (prices .low (params.swingsOf candles)), low ≤ l
  high_mem : high ∈ prices .high (params.swingsOf candles)
  low_mem : low ∈ prices .low (params.swingsOf candles)
  last_ge : low ≤ closeBack candles 1
  last_le : closeBack candles 1 ≤ high

theorem Ranging.band (ranging : Ranging params candles) :
    ∃ low high, Band params candles low high := by
  obtain ⟨band, bounds⟩ := Option.isSome_iff_exists.mp ranging.narrow
  have inside := ranging.inside band bounds
  rw [MarketContextParams.coilBounds] at bounds
  split at bounds
  · rename_i high low swingHigh swingLow
    split at bounds
    · rename_i narrow
      obtain rfl := Option.some.inj bounds
      obtain ⟨highMem, highs⟩ := List.max?_eq_some_iff.mp swingHigh
      obtain ⟨lowMem, lows⟩ := List.min?_eq_some_iff.mp swingLow
      exact ⟨low, high, narrow, highs, lows, List.mem_of_mem_drop highMem,
        List.mem_of_mem_drop lowMem, inside.1, inside.2⟩
    · cases bounds
  · cases bounds

theorem Band.high_le {low high : ℚ} (band : Band params candles low high) {older newer : List ℚ}
    (highs : prices .high (params.swingsOf candles) = older ++ newer)
    (few : newer.length ≤ params.recent) : ∀ h ∈ newer, h ≤ high := fun h member =>
  band.highs h (by rw [highs]; exact mem_lastN_append member few)

theorem Band.low_le {low high : ℚ} (band : Band params candles low high) {older newer : List ℚ}
    (lows : prices .low (params.swingsOf candles) = older ++ newer)
    (few : newer.length ≤ params.recent) : ∀ l ∈ newer, low ≤ l := fun l member =>
  band.lows l (by rw [lows]; exact mem_lastN_append member few)

/-- **A band holds a reversal.** -/
theorem Band.reversal_le {low high : ℚ} (band : Band params candles low high)
    (classified : Classified params candles) :
    params.reversal (atrOf candles params.atrPeriod) ≤ high - low := by
  obtain ⟨s, -, -, swings⟩ := classified.finite
  have highMem := band.high_mem
  have lowMem := band.low_mem
  obtain ⟨h, lastHigh⟩ := Option.isSome_iff_exists.mp
    (List.getLast?_isSome.mpr (List.ne_nil_of_mem highMem))
  obtain ⟨l, lastLow⟩ := Option.isSome_iff_exists.mp
    (List.getLast?_isSome.mpr (List.ne_nil_of_mem lowMem))
  have below := band.highs h (mem_lastN_of_getLast? lastHigh (recent_pos params))
  have above := band.lows l (mem_lastN_of_getLast? lastLow (recent_pos params))
  rw [swings] at lastHigh lastLow
  have apart := Zigzag.separated lastHigh lastLow
  linarith

/-- A range is wider than a reversal. -/
theorem Ranging.swing_lt_range (ranging : Ranging params candles) :
    params.swingAtrMultiple < params.rangeHeightAtr := by
  obtain ⟨low, high, band⟩ := ranging.band
  obtain ⟨s, pos, multiple, -⟩ := ranging.classified.finite
  have atr := ranging.classified.moves
  have apart := band.reversal_le ranging.classified
  have narrow := band.narrow
  rw [MarketContextParams.reversal, multiple, ExtNum.val_fin] at apart
  have least := (le_max_left _ _).trans apart
  rw [multiple]
  rcases multiple_cases params.range_pos with range | ⟨r, -, range⟩
  · rw [range]
    trivial
  · rw [range, ExtNum.fin_mul_fin, ExtNum.fin_lt_fin] at narrow
    have product : s * atrOf candles params.atrPeriod < r * atrOf candles params.atrPeriod := by
      linarith
    rw [range]
    exact lt_of_mul_lt_mul_right product atr.le

/-- A history the engine can hold: candles as they are built, and no more than are kept. -/
structure History (params : MarketContextParams) (candles : List Candle) : Prop where
  sound : ∀ c ∈ candles, c.Sound
  kept : candles.length ≤ params.maxCandles

theorem lastClose_append (close : ℚ) (candles : List Candle) (c : Candle) :
    Zigzag.lastClose close (candles ++ [c]) = c.close := by
  induction candles generalizing close with
  | nil => rfl
  | cons first candles ih => exact ih first.close

/-- Swings no smaller than the average range are paid for in it. -/
theorem Classified.length_le_of_dear {s : ℚ} (classified : Classified params candles)
    (history : History params candles) (multiple : params.swingAtrMultiple = fin s) :
    (params.swingsOf candles).length ≤
      2 * (params.maxCandles - params.atrPeriod) + 2 * ⌊params.atrPeriod / s⌋₊ + 1 := by
  obtain ⟨s', pos, multiple', swings⟩ := classified.finite
  obtain rfl : s = s' := ExtNum.fin.inj (multiple.symm.trans multiple')
  have moves := classified.moves
  have long := classified.long
  obtain ⟨older, first, window, rfl, period⟩ :=
    exists_window (show params.atrPeriod < candles.length by omega)
  have positive : (0 : ℚ) < params.atrPeriod := by
    have least := params.atrPeriod_ge
    exact_mod_cast (by omega : 0 < params.atrPeriod)
  have average := atrOf_append older first window
  rw [period] at average
  set atr := atrOf (older ++ first :: window) params.atrPeriod
  have dear : atr * s ≤ params.reversal atr := by
    rw [MarketContextParams.reversal, multiple, ExtNum.val_fin]
    exact le_max_left _ _
  set m := params.reversal atr
  have sum : (trueRanges first.close window).sum = atr * params.atrPeriod := by
    rw [average]
    field_simp
  have split : older ++ first :: window = (older ++ [first]) ++ window := by simp
  have sound := history.sound
  have kept := history.kept
  rw [split] at swings sound kept ⊢
  have ne : older ++ [first] ≠ [] := by simp
  have paid := Zigzag.lows_le (m := m) ne sound ((mul_pos moves pos).le.trans dear)
  rw [lastClose_append, sum] at paid
  have counted := (Zigzag.counted (m := m) (List.append_ne_nil_of_left_ne_nil ne window)).paired
  have total := Zigzag.length_swings (params.swingsOf (older ++ [first] ++ window))
  rw [swings] at total ⊢
  set z := Zigzag.run (fin m) 0 .start (older ++ [first] ++ window)
  have falling : z.falling ≤ 1 := by
    unfold Zigzag.falling
    split <;> omega
  have few : z.lows.length - (older ++ [first]).length ≤ ⌊params.atrPeriod / s⌋₊ := by
    apply Nat.le_floor
    rw [le_div_iff₀ pos]
    rcases le_total z.lows.length (older ++ [first]).length with less | more
    · rw [Nat.sub_eq_zero_of_le less, Nat.cast_zero, zero_mul]
      exact positive.le
    · rw [Nat.cast_sub more]
      have over_ : (0 : ℚ) ≤ z.lows.length - (older ++ [first]).length :=
        sub_nonneg.mpr (by exact_mod_cast more)
      have dearer := mul_le_mul_of_nonneg_left dear over_
      have cost : ((z.lows.length : ℚ) - (older ++ [first]).length) * s * atr ≤
          params.atrPeriod * atr := by linarith
      exact le_of_mul_le_mul_right cost moves
  have highs : z.highs.length ≤ z.lows.length + 1 := by
    rcases counted with ⟨paired, -⟩ | ⟨paired, -⟩ <;> omega
  have lengths : (older ++ [first] ++ window).length = (older ++ [first]).length + window.length :=
    List.length_append
  unfold Zigzag.highs Zigzag.lows at *
  omega

theorem Classified.length_le (classified : Classified params candles) :
    (params.swingsOf candles).length ≤ 2 * candles.length := by
  obtain ⟨s, -, -, swings⟩ := classified.finite
  have most := Zigzag.length_run_le (m := params.reversal (atrOf candles params.atrPeriod)) 0
    .start candles
  have none_ : Zigzag.start.swings.length = 0 := rfl
  rw [swings]
  omega

/-- The band is narrower than the average range itself. -/
theorem Band.narrower {low high : ℚ} (band : Band params candles low high)
    (classified : Classified params candles) {r : ℚ} (range : params.rangeHeightAtr = fin r)
    (narrow : r ≤ 1) : high - low < r * atrOf candles params.atrPeriod ∧
      high - low < atrOf candles params.atrPeriod := by
  have inside := band.narrow
  rw [range, ExtNum.fin_mul_fin, ExtNum.fin_lt_fin] at inside
  have moves := classified.moves
  exact ⟨inside, inside.trans_le (mul_le_of_le_one_left moves.le narrow)⟩

/-- Two swings in every candle: the window's true ranges are within the band, if the
recent swings reach back beyond it. -/
theorem Ranging.length_ne (ranging : Ranging params candles)
    (sound : ∀ c ∈ candles, c.Sound) {r : ℚ} (range : params.rangeHeightAtr = fin r)
    (narrow : r ≤ 1) (deep : params.atrPeriod < params.recent) :
    (params.swingsOf candles).length ≠ 2 * candles.length := by
  intro all
  obtain ⟨low, high, band⟩ := ranging.band
  obtain ⟨-, narrower⟩ := band.narrower ranging.classified range narrow
  obtain ⟨s, -, -, swings⟩ := ranging.classified.finite
  have long := ranging.classified.long
  obtain ⟨older, first, window, rfl, period⟩ :=
    exists_window (show params.atrPeriod < candles.length by omega)
  have average := atrOf_append older first window
  rw [period] at average
  rw [swings] at all
  obtain ⟨-, hs₀, hs, ls₀, ls, highs, lows, crowd⟩ :=
    Zigzag.crowd_of_length (fun c member => sound c (List.mem_append_right _ member)) all
  have below : ∀ h ∈ hs, h ≤ high :=
    band.high_le (by rw [swings]; exact highs) (by rw [crowd.highs, period]; exact deep.le)
  obtain ⟨base, above⟩ := List.forall_mem_cons.mp
    (band.low_le (by rw [swings]; exact lows) (by rw [List.length_cons, crowd.lows, period]; exact deep))
  have here : first.Sound := sound first (by simp)
  obtain ⟨sum, -⟩ := crowd.ranges low high below above (base.trans here.low_close)
  have positive : (0 : ℚ) < params.atrPeriod := by
    have least := params.atrPeriod_ge
    exact_mod_cast (by omega : 0 < params.atrPeriod)
  rw [period] at sum
  rw [average, lt_div_iff₀ positive] at narrower
  linarith

/-- There is room in the average for a last candle that leaves the band. -/
def MarketContextParams.Spare (params : MarketContextParams) : Prop :=
  fin (params.atrPeriod : ℚ) < fin (params.atrPeriod : ℚ) * params.rangeHeightAtr +
      params.rangeHeightAtr ∧
    fin (params.atrPeriod : ℚ) < fin (params.atrPeriod : ℚ) * params.rangeHeightAtr +
      params.impulseAtrMultiple

instance (params : MarketContextParams) : Decidable params.Spare :=
  inferInstanceAs (Decidable (_ ∧ _))

theorem closeBack_one (candles : List Candle) (c : Candle) :
    closeBack (candles ++ [c]) 1 = c.close := by
  simp [closeBack]

theorem closeBack_two (older : List Candle) (first : Candle) (others : List Candle) (c : Candle) :
    closeBack ((older ++ first :: others) ++ [c]) 2 = Zigzag.lastClose first.close others := by
  rcases List.eq_nil_or_concat others with rfl | ⟨before, last, rfl⟩
  · simp [closeBack, Zigzag.lastClose]
  · have split : (older ++ first :: (before ++ [last])) ++ [c] =
        (older ++ first :: before) ++ [last, c] := by simp
    rw [List.concat_eq_append, lastClose_append, closeBack, split, List.length_append]
    simp

theorem trueRanges_append (close : ℚ) (candles : List Candle) (c : Candle) :
    trueRanges close (candles ++ [c]) =
      trueRanges close candles ++ [trueRange (Zigzag.lastClose close candles) c] := by
  induction candles generalizing close with
  | nil => rfl
  | cons first candles ih => exact congrArg _ (ih first.close)

/-- One swing less, and it is the last candle that leaves the band. -/
theorem Ranging.spare (ranging : Ranging params candles)
    (sound : ∀ c ∈ candles, c.Sound) {r : ℚ} (range : params.rangeHeightAtr = fin r)
    (narrow : r ≤ 1) (deep : params.atrPeriod < params.recent)
    (all : (params.swingsOf candles).length + 1 = 2 * candles.length) : params.Spare := by
  obtain ⟨low, high, band⟩ := ranging.band
  obtain ⟨within, narrower⟩ := band.narrower ranging.classified range narrow
  have reversal := band.reversal_le ranging.classified
  obtain ⟨s, -, -, swings⟩ := ranging.classified.finite
  have moves := ranging.classified.moves
  have calm := ranging.classified.calm
  have long := ranging.classified.long
  have least := params.atrPeriod_ge
  obtain ⟨older, first, window, rfl, period⟩ :=
    exists_window (show params.atrPeriod < candles.length by omega)
  have average := atrOf_append older first window
  rw [period] at average
  obtain rfl | ⟨others, last, rfl⟩ := List.eq_nil_or_concat window
  · rw [List.length_nil] at period
    omega
  simp only [List.concat_eq_append] at *
  have split : older ++ first :: (others ++ [last]) = (older ++ first :: others) ++ [last] := by
    simp
  rw [split] at all swings sound calm moves narrower within average reversal
  rw [List.length_append, List.length_singleton] at period
  set atr := atrOf (older ++ first :: others ++ [last]) params.atrPeriod
  have lastGe := band.last_ge
  rw [split, closeBack_one] at lastGe
  rw [closeBack_one, closeBack_two] at calm
  rw [swings] at all
  obtain ⟨allBefore, thin, highs, lows⟩ := Zigzag.drop_of_length (by simp) all
  obtain ⟨topped, hs₀, hs, ls₀, ls, highsBefore, lowsBefore, crowd⟩ :=
    Zigzag.crowd_of_length (fun c member => sound c (by simp at member ⊢; tauto)) allBefore
  rw [highsBefore] at highs
  rw [lowsBefore] at lows
  set z := Zigzag.run (fin (params.reversal atr)) 0 .start (older ++ first :: others)
  have highsFew := crowd.highs
  have lowsFew := crowd.lows
  obtain ⟨below, peak⟩ := List.forall_mem_append.mp
    (band.high_le (show prices .high _ = hs₀ ++ (hs ++ [z.peak last]) by
        rw [split, swings, ← List.append_assoc]; exact highs)
      (by rw [List.length_append, List.length_singleton]; omega))
  obtain ⟨base, above⟩ := List.forall_mem_cons.mp
    (band.low_le (by rw [split, swings]; exact lows) (by rw [List.length_cons]; omega))
  have peak := peak _ (List.mem_singleton_self _)
  have here : first.Sound := sound first (by simp)
  have there : last.Sound := sound last (by simp)
  obtain ⟨sum, beforeGe⟩ := crowd.ranges low high below above (base.trans here.low_close)
  obtain ⟨top, pivot, under⟩ := topped
  set before := Zigzag.lastClose first.close others
  have beforeLe : before ≤ high := under.trans ((Zigzag.pivot_le_peak pivot).trans peak)
  have highLe : last.high ≤ high := (z.high_le_peak last).trans peak
  have highGe : low ≤ last.high := lastGe.trans there.close_high
  have order := there.low_high
  -- the last true range is within the band, or the fall from the last close
  have fall : trueRange before last ≤ max (high - low) (before - last.low) := by
    refine max_le (le_max_of_le_left (by linarith)) (max_le ?_ ?_)
    · exact le_max_of_le_left (abs_le.mpr ⟨by linarith, by linarith⟩)
    · rcases le_total before last.low with up | down
      · rw [abs_of_nonneg (sub_nonneg.mpr up)]
        exact le_max_of_le_left (by linarith)
      · rw [abs_of_nonpos (sub_nonpos.mpr down)]
        exact le_max_of_le_right (by linarith)
  have positive : (0 : ℚ) < params.atrPeriod := by exact_mod_cast (by omega : 0 < params.atrPeriod)
  have count : (others.length : ℚ) = params.atrPeriod - 1 := by
    rw [← period, Nat.cast_add, Nat.cast_one, add_sub_cancel_right]
  have whole : atr * params.atrPeriod =
      (trueRanges first.close others).sum + trueRange before last := by
    rw [average, div_mul_cancel₀ _ positive.ne', trueRanges_append, List.sum_append,
      List.sum_singleton]
  rw [count] at sum
  have left_ : high - low < trueRange before last := by
    by_contra inside
    push Not at inside
    have most : atr * params.atrPeriod ≤ (high - low) * params.atrPeriod := by linarith
    exact absurd (le_of_mul_le_mul_right most positive) (not_le.mpr narrower)
  have fallen : trueRange before last ≤ before - last.low :=
    (le_max_iff.mp fall).resolve_left (not_le.mpr left_)
  have product : (high - low) * params.atrPeriod < r * atr * params.atrPeriod :=
    mul_lt_mul_of_pos_right within positive
  rw [MarketContextParams.Spare, range]
  have scaled (x : ℚ) (more : params.atrPeriod * atr < (params.atrPeriod * r + x) * atr) :
      (params.atrPeriod : ℚ) < params.atrPeriod * r + x := lt_of_mul_lt_mul_right more moves.le
  refine ⟨scaled r (by linarith), ?_⟩
  rcases multiple_cases params.impulse_pos with infinite | ⟨ι, -, impulse⟩
  · rw [infinite]
    trivial
  · rw [impulse]
    rw [impulse, ExtNum.fin_mul_fin, ExtNum.fin_le_fin, not_le] at calm
    have drop := (abs_lt.mp calm).1
    have close := there.close_high
    exact scaled ι (by linarith)

end Necessary

end CentaurApex.Cortex
