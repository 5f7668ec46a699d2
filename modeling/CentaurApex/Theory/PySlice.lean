/-
# Theory.PySlice -- slices of a list, as Python counts them

`xs[start:stop]` for any two integers, or none: a negative index counts from the end, and an
index that is outside is moved to the nearest end.  Nothing raises.

* `slice_natCast`: what is sliced between two places of the list.
* `slice_last`: `xs[-n:]` is the end of the list, unless `n` is nought.
-/
import Mathlib.Data.Nat.Notation
import Mathlib.Data.Int.Notation

namespace CentaurApex.Theory

set_option autoImplicit false

/-- The place in a list that an index of a slice stands for. -/
def sliceIndex (length : ℕ) (i : ℤ) : ℕ :=
  if i < 0 then (length + i).toNat else min i.toNat length

section Slice

variable {α : Type}

/-- `xs[start:stop]` -/
def slice (xs : List α) (start stop : Option ℤ) : List α :=
  (xs.take (stop.elim xs.length (sliceIndex xs.length))).drop
    (start.elim 0 (sliceIndex xs.length))

variable (xs : List α)

@[simp] theorem sliceIndex_natCast (length n : ℕ) : sliceIndex length n = min n length := by
  rw [sliceIndex, if_neg (by omega), Int.toNat_natCast]

/-- `xs[:stop]` -/
theorem slice_stop (stop : ℕ) : slice xs none (some stop) = xs.take stop := by
  rw [slice, Option.elim_none, Option.elim_some, List.drop_zero, sliceIndex_natCast]
  exact List.take_eq_take_min.symm

/-- `xs[start:stop]`, where the start is in the list. -/
theorem slice_natCast {start : ℕ} (stop : ℕ) (inside : start ≤ xs.length) :
    slice xs (some start) (some stop) = (xs.take stop).drop start := by
  rw [slice, Option.elim_some, Option.elim_some, sliceIndex_natCast, sliceIndex_natCast,
    ← List.take_eq_take_min, Nat.min_eq_left inside]

/-- `xs[0:stop]` is `xs[:stop]`. -/
theorem slice_zero (stop : Option ℤ) : slice xs (some 0) stop = slice xs none stop := by
  rw [slice, slice, Option.elim_some, Option.elim_none, sliceIndex, if_neg (Int.lt_irrefl 0)]
  rfl

/-- `xs[-n:]` -/
theorem slice_last {n : ℕ} (positive : 0 < n) :
    slice xs (some (-n)) none = xs.drop (xs.length - n) := by
  have negative : -(n : ℤ) < 0 := by omega
  rw [slice, Option.elim_some, Option.elim_none, List.take_length, sliceIndex, if_pos negative]
  congr 1
  omega

end Slice

end CentaurApex.Theory
