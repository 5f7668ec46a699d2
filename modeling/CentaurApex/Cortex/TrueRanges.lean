/-
# Cortex.TrueRanges -- three averages of true ranges, and one window

The average true range is computed in three places.  `atrOf` takes the last candles first and
then their ranges; `drillAtr` and `mlAtr` take the ranges of all candles and then the last of
them.  A range needs the close before it, so the first has one candle more than the others have
ranges.

* **They agree** (`atr_agree`), however short the list; and what the features cut off first,
  seventeen candles for fourteen ranges, is as good as the whole history.
-/
import CentaurApex.Cortex.Bands
import CentaurApex.Cortex.NextCandleMl
import CentaurApex.Theory.PySlice

namespace CentaurApex.Cortex

open CentaurApex.Theory

set_option autoImplicit false

/-- The range of a candle of the list, from the close before it. -/
def rangeAt (candles : List Candle) (i : ℕ) : ℚ :=
  match candles[i - 1]?, candles[i]? with
  | some p, some c => trueRange p.close c
  | _, _ => 0

/-- `_atr` of `ml.py` -/
def mlAtr (candles : List Candle) (period : ℕ) : ℚ :=
  if candles.length < 2 then 0
  else
    let trs := (List.range' 1 (candles.length - 1)).map (rangeAt candles)
    let window := slice trs (some (-period)) none
    window.sum / window.length

/-- `atr_tail` of `features_for` -/
def atrTail (candles : List Candle) (i : ℤ) : List Candle :=
  slice candles (some (max 0 (i - 16))) (some (i + 1))

/-! ## The ranges of a list -/

section Ranges

variable {candles : List Candle} {period : ℕ}

@[simp] theorem length_trueRanges (close : ℚ) (candles : List Candle) :
    (trueRanges close candles).length = candles.length := by
  induction candles generalizing close with
  | nil => rfl
  | cons c candles ih => exact congrArg _ (ih c.close)

/-- The ranges after a candle depend on its close only. -/
theorem trueRanges_append_cons (close : ℚ) (older : List Candle) (first : Candle)
    (window : List Candle) : trueRanges close (older ++ first :: window) =
      trueRanges close (older ++ [first]) ++ trueRanges first.close window := by
  induction older generalizing close with
  | nil => rfl
  | cons c older ih => exact congrArg _ (ih c.close)

theorem rangeAt_succ (first : Candle) {i : ℕ} (later : 1 ≤ i) :
    rangeAt (first :: candles) (1 + i) = rangeAt candles i := by
  obtain ⟨i, rfl⟩ := Nat.exists_eq_add_of_le' later
  rw [rangeAt, rangeAt, Nat.add_sub_cancel_left, Nat.add_comm 1 (i + 1)]
  rfl

/-- The loop over the indices goes through the ranges in their order. -/
theorem map_rangeAt (first : Candle) (candles : List Candle) :
    (List.range' 1 candles.length).map (rangeAt (first :: candles)) =
      trueRanges first.close candles := by
  induction candles generalizing first with
  | nil => rfl
  | cons c candles ih =>
      have shifted : (List.range' (1 + 1) candles.length).map (rangeAt (first :: c :: candles)) =
          (List.range' 1 candles.length).map (rangeAt (c :: candles)) := by
        rw [← List.map_add_range', List.map_map]
        apply List.map_congr_left
        intro i member
        exact rangeAt_succ first (List.mem_range'_1.mp member).1
      rw [List.length_cons, List.range'_succ, List.map_cons, shifted, ih c]
      rfl

/-! ## The averages -/

/-- The mean of the last ranges. -/
def lastMean (period : ℕ) (ranges : List ℚ) : ℚ :=
  (lastN period ranges).sum / (lastN period ranges).length

@[simp] theorem lastMean_nil : lastMean period [] = 0 := by simp [lastMean, lastN]

theorem drillAtr_cons (first : Candle) (rest : List Candle) :
    drillAtr (first :: rest) period = lastMean period (trueRanges first.close rest) := by
  cases rest with
  | nil => exact lastMean_nil.symm
  | cons c rest => rfl

theorem mlAtr_cons (positive : 1 ≤ period) (first : Candle) (rest : List Candle) :
    mlAtr (first :: rest) period = lastMean period (trueRanges first.close rest) := by
  unfold mlAtr
  split
  · rename_i short
    obtain rfl : rest = [] := List.eq_nil_of_length_eq_zero (by
      rw [List.length_cons] at short
      omega)
    exact lastMean_nil.symm
  · dsimp only
    rw [List.length_cons, Nat.add_sub_cancel, map_rangeAt, slice_last _ positive]
    rfl

/-- A window that is full leaves out the ranges before it. -/
theorem lastMean_window (close : ℚ) (older : List Candle) (first : Candle)
    (window : List Candle) :
    lastMean window.length (trueRanges close (older ++ first :: window)) =
      (trueRanges first.close window).sum / window.length := by
  have full : lastN window.length (trueRanges close (older ++ first :: window)) =
      trueRanges first.close window := by
    rw [trueRanges_append_cons, lastN_append (length_trueRanges _ _).ge,
      lastN_of_length (length_trueRanges _ _).le]
  rw [lastMean, full, length_trueRanges]

/-- The candles first, or the ranges first: it is one average. -/
theorem atrOf_cons (first : Candle) (rest : List Candle) :
    atrOf (first :: rest) period = lastMean period (trueRanges first.close rest) := by
  rcases Nat.lt_or_ge period rest.length with long | short
  · obtain ⟨older, c, window, rfl, rfl⟩ := exists_window long
    rw [lastMean_window, ← List.cons_append, atrOf_append]
  · have all : lastN (period + 1) (first :: rest) = first :: rest :=
      lastN_of_length (Nat.succ_le_succ short)
    rw [atrOf, all, lastMean, lastN_of_length (by rwa [length_trueRanges]), length_trueRanges]
    cases rest with
    | nil => simp [trueRanges]
    | cons c rest => rfl

theorem drillAtr_eq (candles : List Candle) (period : ℕ) :
    drillAtr candles period = atrOf candles period := by
  cases candles with
  | nil => simp [drillAtr, atrOf, lastN]
  | cons first rest => rw [drillAtr_cons, atrOf_cons]

theorem mlAtr_eq (positive : 1 ≤ period) (candles : List Candle) :
    mlAtr candles period = atrOf candles period := by
  cases candles with
  | nil => simp [mlAtr, atrOf, lastN]
  | cons first rest => rw [mlAtr_cons positive, atrOf_cons]

/-! ## The window of the features -/

/-- The end of an end. -/
theorem lastN_lastN {α : Type} {k n : ℕ} (le : k ≤ n) (xs : List α) :
    lastN k (lastN n xs) = lastN k xs := by
  unfold lastN
  rw [List.drop_drop, List.length_drop]
  congr 1
  omega

/-- One candle more than the period is enough. -/
theorem atrOf_lastN {n : ℕ} (enough : period + 1 ≤ n) (candles : List Candle) :
    atrOf (lastN n candles) period = atrOf candles period := by
  rw [atrOf, atrOf, lastN_lastN enough]

/-- The tail of a candle is what the features are made of. -/
theorem atrTail_natCast {i : ℕ} (inside : i < candles.length) :
    atrTail candles i = tailTo candles 16 i := by
  have start : max 0 ((i : ℤ) - 16) = (i - 16 : ℕ) := by omega
  rw [atrTail, start]
  exact slice_natCast candles (i + 1) (by omega)

/-- It has seventeen candles, if there are so many. -/
theorem tailTo_eq_lastN {i : ℕ} (inside : i < candles.length) :
    tailTo candles 16 i = lastN 17 (candles.take (i + 1)) := by
  rw [tailTo, lastN, List.length_take]
  congr 1
  omega

theorem atrOf_tailTo {i : ℕ} (inside : i < candles.length) :
    atrOf (tailTo candles 16 i) 14 = atrOf (candles.take (i + 1)) 14 := by
  rw [tailTo_eq_lastN inside, atrOf_lastN (by decide)]

/-- Before the beginning, counted from the end, nothing is cut off. -/
theorem atrTail_negative {i : ℤ} (negative : i < 0) :
    atrTail candles i = slice candles none (some (i + 1)) := by
  rw [atrTail, max_eq_left (by omega), slice_zero]

/-- **The averages agree**, on every list and for every period; and the window of the features
has the average of the history up to its candle. -/
theorem atr_agree (candles : List Candle) (period : ℕ) (positive : 1 ≤ period) :
    atrOf candles period = mlAtr candles period ∧
      mlAtr candles period = drillAtr candles period ∧
      ∀ i : ℤ, i < candles.length →
        mlAtr (atrTail candles i) 14 = mlAtr (slice candles none (some (i + 1))) 14 := by
  refine ⟨(mlAtr_eq positive candles).symm, ?_, fun i inside => ?_⟩
  · rw [mlAtr_eq positive, drillAtr_eq]
  · rcases lt_or_ge i 0 with negative | nonneg
    · rw [atrTail_negative negative]
    · obtain ⟨i, rfl⟩ := Int.eq_ofNat_of_zero_le nonneg
      have inside : i < candles.length := Int.ofNat_lt.mp inside
      have history : slice candles none (some ((i : ℤ) + 1)) = candles.take (i + 1) :=
        slice_stop candles (i + 1)
      rw [atrTail_natCast inside, history, mlAtr_eq (by decide), mlAtr_eq (by decide),
        atrOf_tailTo inside]

end Ranges

/-- Twenty candles that climb. -/
def climbing : List Candle :=
  (List.range 20).map fun k => ⟨k, k + 2, k, k + 1, 60 * k, 60 * k + 60, 1⟩

/-- The window of the last candle begins with the fourth. -/
theorem climbing_agree : atrOf climbing 14 = drillAtr climbing 14 ∧
    mlAtr (atrTail climbing 19) 14 = mlAtr (slice climbing none (some 20)) 14 := by
  obtain ⟨first, second, window⟩ := atr_agree climbing 14 (by decide)
  exact ⟨first.trans second, window 19 (by decide)⟩

end CentaurApex.Cortex
