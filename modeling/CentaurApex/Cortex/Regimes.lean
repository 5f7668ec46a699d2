/-
# Cortex.Regimes -- which parameters leave a regime alive

The parameters are only asked to be positive, each by itself.  Whether a history can
range or rise depends on how they go together: `regimes_reachable_iff` says exactly
when, and for the defaults it is never (`defaults_range_dead`).
-/
import CentaurApex.Cortex.Coils

namespace CentaurApex.Cortex

open CentaurApex.Theory
open CentaurApex.Theory.ExtNum (fin)
open CentaurApex.Theory.Python

set_option autoImplicit false

section Reachable

variable {params : MarketContextParams} {s : ℚ}

/-- Some history the engine can hold is a range, in its coil, and some is an upward
trend. -/
def RegimesReachable (params : MarketContextParams) (assetId : String) : Prop :=
  (∃ candles, History params candles ∧
    (buildContext candles params assetId).regime = .range ∧
    (buildContext candles params assetId).phase = .coil ∧
    (buildContext candles params assetId).coilBounds.isSome) ∧
  ∃ candles, History params candles ∧ (buildContext candles params assetId).regime = .trendUp

/-- The most swings of a history that ranges. -/
def MarketContextParams.swingRoom (params : MarketContextParams) : ℕ :=
  if fin 1 < params.swingAtrMultiple then
    2 * (params.maxCandles - params.atrPeriod) +
      2 * ⌊params.atrPeriod / params.swingAtrMultiple.val⌋₊ + 1
  else if fin 1 < params.rangeHeightAtr ∨ params.recent ≤ params.atrPeriod then
    2 * params.maxCandles
  else if params.Spare then 2 * params.maxCandles - 1
  else 2 * params.maxCandles - 2

/-- The parameters go together: the window is shorter than the history, the reversal is
less than the range, and the swings asked for are not more than there can be. -/
structure MarketContextParams.Coherent (params : MarketContextParams) : Prop where
  room : params.atrPeriod + 2 ≤ params.maxCandles
  wider : params.swingAtrMultiple < params.rangeHeightAtr
  few : params.minSwings ≤ params.swingRoom

theorem swingRoom_of_dear (multiple : params.swingAtrMultiple = fin s) (large : 1 < s) :
    params.swingRoom = 2 * (params.maxCandles - params.atrPeriod) +
      2 * ⌊params.atrPeriod / s⌋₊ + 1 := by
  rw [MarketContextParams.swingRoom, multiple, if_pos (ExtNum.fin_lt_fin.mpr large), ExtNum.val_fin]

theorem swingRoom_of_cheap (multiple : params.swingAtrMultiple = fin s) (small : s ≤ 1) :
    params.swingRoom =
      if fin 1 < params.rangeHeightAtr ∨ params.recent ≤ params.atrPeriod then
        2 * params.maxCandles
      else if params.Spare then 2 * params.maxCandles - 1
      else 2 * params.maxCandles - 2 := by
  rw [MarketContextParams.swingRoom, multiple, if_neg (mt ExtNum.fin_lt_fin.mp (not_lt.mpr small))]

theorem swingRoom_le_of_cheap (multiple : params.swingAtrMultiple = fin s) (small : s ≤ 1) :
    params.swingRoom ≤ 2 * params.maxCandles := by
  rw [swingRoom_of_cheap multiple small]
  split_ifs <;> omega

/-! ## A range is coherent -/

/-- A history that ranges has no more swings than there is room for. -/
theorem Ranging.few {candles : List Candle} (ranging : Ranging params candles)
    (history : History params candles) : params.minSwings ≤ params.swingRoom := by
  obtain ⟨s, -, multiple, -⟩ := ranging.classified.finite
  have swings := ranging.classified.swings
  rcases lt_or_ge 1 s with large | small
  · rw [swingRoom_of_dear multiple large]
    exact swings.trans (ranging.classified.length_le_of_dear history multiple)
  · have most := ranging.classified.length_le
    have kept := history.kept
    rw [swingRoom_of_cheap multiple small]
    split_ifs with open_ spare
    · omega
    all_goals
      push Not at open_
      obtain ⟨low, deep⟩ := open_
      obtain ⟨r, range, narrow⟩ : ∃ r, params.rangeHeightAtr = fin r ∧ r ≤ 1 := by
        rcases multiple_cases params.range_pos with infinite | ⟨r, -, range⟩
        · rw [infinite] at low
          exact absurd trivial low
        · exact ⟨r, range, not_lt.mp (by rwa [range] at low)⟩
      have notAll := ranging.length_ne history.sound range narrow deep
    · omega
    · have notNext : (params.swingsOf candles).length + 1 ≠ 2 * candles.length := fun next =>
        spare (ranging.spare history.sound range narrow deep next)
      omega

theorem coherent_of_ranging {candles : List Candle} (history : History params candles)
    (ranging : Ranging params candles) : params.Coherent :=
  ⟨ranging.classified.long.trans history.kept, ranging.swing_lt_range, ranging.few history⟩

/-! ## Coherent parameters have a range and a rise -/

theorem MarketContextParams.Coherent.finite (coherent : params.Coherent) :
    ∃ s, 0 < s ∧ params.swingAtrMultiple = fin s := by
  rcases multiple_cases params.swing_pos with infinite | found
  · have wider := coherent.wider
    rw [infinite] at wider
    exact absurd wider (ExtNum.not_posInf_lt _)
  · exact found

/-- Stairs that do not rise are a level. -/
theorem level_concat (count : ℕ) (a : ℚ) :
    List.replicate (count + 1) a ++ [a + 0] = [] ++ List.replicate (count + 2) a := by
  rw [add_zero, List.nil_append, List.replicate_succ' (n := count + 1)]

theorem replicate_concat (count : ℕ) (a b : ℚ) :
    List.replicate (count + 1) a ++ [b] = List.replicate count a ++ [a, b] := by
  rw [List.replicate_succ', List.append_assoc]
  rfl

theorem MarketContextParams.Coherent.ranging (coherent : params.Coherent) :
    ∃ candles, History params candles ∧ Ranging params candles := by
  obtain ⟨s, pos, multiple⟩ := coherent.finite
  obtain ⟨room, wider, few⟩ := coherent
  rcases lt_or_ge 1 s with large | small
  · rw [swingRoom_of_dear multiple large] at few
    obtain ⟨count, candles, history, ranged, closes⟩ :=
      stairs_rest_found multiple large room few le_rfl zero_le_one
    have narrow := lt_mul_of_lt (multiple ▸ wider) (one_div_pos.mpr pos)
    rw [List.append_cons, level_concat, List.nil_append, level_concat, level_concat] at ranged
    refine ⟨candles, history, ranged.ranging (by omega) (.inl rfl) (by omega) (.inl rfl)
      (by rw [closes]; norm_num) (by rw [closes]; norm_num) ?_⟩
    rw [mul_one_div_cancel pos.ne'] at narrow
    norm_num at narrow ⊢
    exact narrow
  · rw [swingRoom_of_cheap multiple small] at few
    by_cases wide : fin 1 < params.rangeHeightAtr
    · rw [if_pos (.inl wide)] at few
      obtain ⟨count, history, ranged, closes⟩ :=
        stairs_found multiple small room few le_rfl zero_le_one
      have narrow := lt_mul_of_lt wide one_pos
      rw [level_concat, level_concat] at ranged
      refine ⟨_, history, ranged.ranging (by omega) (.inl rfl) (by omega) (.inl rfl)
        (by rw [closes]; norm_num) (by rw [closes]; norm_num) ?_⟩
      norm_num at narrow ⊢
      exact narrow
    by_cases recent : params.recent ≤ params.atrPeriod
    · rw [if_pos (.inr recent)] at few
      exact deep_ranging multiple small wider room recent few
    rw [if_neg (not_or.mpr ⟨wide, recent⟩)] at few
    by_cases spare : params.Spare
    · rw [if_pos spare] at few
      rcases multiple_cases params.range_pos with infinite | ⟨r, -, range⟩
      · exact absurd (infinite ▸ ExtNum.fin_lt_posInf 1) wide
      · have narrow : r ≤ 1 := not_lt.mp (by rwa [range] at wide)
        rw [multiple, range] at wider
        exact fall_ranging multiple range wider narrow spare room few
    · rw [if_neg spare] at few
      exact spike_ranging multiple small wider room few

theorem MarketContextParams.Coherent.rising (coherent : params.Coherent) :
    ∃ candles, History params candles ∧ Rising params candles := by
  obtain ⟨s, pos, multiple⟩ := coherent.finite
  obtain ⟨room, wider, few⟩ := coherent
  have half : (0 : ℚ) ≤ 1 / 2 := by norm_num
  have small' : (1 : ℚ) / 2 ≤ 1 := by norm_num
  rcases lt_or_ge 1 s with large | small
  · rw [swingRoom_of_dear multiple large] at few
    obtain ⟨count, candles, history, ranged, closes⟩ :=
      stairs_rest_found multiple large room few half small'
    rw [replicate_concat] at ranged
    exact ⟨candles, history, ranged.rising le_rfl (by norm_num) closes.ge
      (by rw [closes]; norm_num)⟩
  · obtain ⟨count, history, ranged, closes⟩ :=
      stairs_found multiple small room (few.trans (swingRoom_le_of_cheap multiple small)) half small'
    rw [replicate_concat, replicate_concat] at ranged
    exact ⟨_, history, ranged.rising (by norm_num) (by norm_num) closes.ge
      (by rw [closes]; norm_num)⟩

/-- **The regimes that are alive.**  A history can range, and one can rise, exactly for
parameters that go together. -/
theorem regimes_reachable_iff (assetId : String) :
    RegimesReachable params assetId ↔ params.Coherent := by
  constructor
  · rintro ⟨⟨candles, history, range, -⟩, -⟩
    exact coherent_of_ranging history (regime_range_iff.mp range)
  · intro coherent
    obtain ⟨level, history, ranging⟩ := coherent.ranging
    obtain ⟨stairs, history', rising⟩ := coherent.rising
    exact ⟨⟨level, history, regime_range_iff.mpr ranging, ranging.coil⟩,
      ⟨stairs, history', regime_trendUp_iff.mpr rising⟩⟩

/-! ## Poles -/

/-- The parameters as they come. -/
def defaultParams : MarketContextParams where
  timeframeS := fin 300
  atrPeriod := 14
  swingAtrMultiple := fin (3 / 2)
  rangeHeightAtr := fin (6 / 5)
  extensionAtrMultiple := fin 3
  minSwings := 3
  lookbackSwings := 8
  maxCandles := 400
  impulseAtrMultiple := fin (5 / 2)
  timeframe_pos := by decide +kernel
  atrPeriod_ge := by decide
  swing_pos := by decide +kernel
  range_pos := by decide +kernel
  extension_pos := by decide +kernel
  minSwings_ge := by decide
  lookback_ge := by decide
  maxCandles_ge := by decide
  impulse_pos := by decide +kernel

/-- Refuting pole: with the defaults no history whatever ranges. -/
theorem defaults_range_dead :
    (∀ candles assetId, (buildContext candles defaultParams assetId).regime ≠ .range) ∧
      ¬ ∀ params assetId, RegimesReachable params assetId := by
  have dead (candles : List Candle) (assetId : String) :
      (buildContext candles defaultParams assetId).regime ≠ .range := fun range =>
    absurd (regime_range_iff.mp range).swing_lt_range (by decide +kernel)
  refine ⟨dead, fun reachable => ?_⟩
  obtain ⟨⟨candles, -, range, -⟩, -⟩ := reachable defaultParams ""
  exact dead candles "" range

/-- Satisfiable pole: the parameters the coil tests are run with go together. -/
example : MarketContextParams.Coherent
    { defaultParams with
      swingAtrMultiple := fin (1 / 2), rangeHeightAtr := fin 2, minSwings := 2
      swing_pos := by decide +kernel, range_pos := by decide +kernel
      minSwings_ge := by decide } :=
  ⟨by decide, by decide +kernel, by decide +kernel⟩

end Reachable

end CentaurApex.Cortex
