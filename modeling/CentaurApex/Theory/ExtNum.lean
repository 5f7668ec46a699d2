/-
# Theory.ExtNum -- exact numbers with NaN and the two infinities

A floating-point program whose rounding does not matter to the property at hand
is read over exact numbers, but its special values do matter: a comparison with
NaN is false, an infinity absorbs every finite addend, and `∞ - ∞` is NaN.
`ExtNum K` is an ordered field `K` with those three values and the IEEE rules for
`+`, `-`, `*`, `/`, `|·|`, `<` and `≤`.  There is one zero: a signed zero is
visible to none of the comparisons, only to a division by it.

* `ExtNum K` is a commutative additive monoid (not a group: `∞ - ∞` is NaN), so
  `List.sum` is the fold a program writes.
* `isFinite_sum`: a sum is finite exactly when every addend is.
* `sum_abs_eq_nan`: a sum of magnitudes is NaN exactly when an addend is NaN --
  magnitudes cannot cancel.
* `cap_passes_iff`: a gate written `reject if x > cap` passes the magnitudes within
  the cap, stops an infinite one, and passes NaN.
-/
import Mathlib.Algebra.Order.Field.Basic
import Mathlib.Algebra.Order.Group.Unbundled.Abs
import Mathlib.Algebra.BigOperators.Group.List.Basic
import Mathlib.Tactic.Linarith
import Mathlib.Tactic.FieldSimp
import Mathlib.Tactic.NormNum

namespace CentaurApex.Theory

set_option autoImplicit false
set_option linter.unusedSectionVars false

/-- Exact numbers, the infinities and NaN. -/
inductive ExtNum (K : Type) where
  | nan
  | posInf
  | negInf
  | fin (x : K)
  deriving DecidableEq, Repr

namespace ExtNum

variable {K : Type}

/-! ## Classification -/

def IsNan (x : ExtNum K) : Prop := x = nan

def IsInfinite (x : ExtNum K) : Prop := x = posInf ∨ x = negInf

def IsFinite : ExtNum K → Prop
  | fin _ => True
  | _ => False

instance [DecidableEq K] (x : ExtNum K) : Decidable x.IsNan := inferInstanceAs (Decidable (x = nan))

instance [DecidableEq K] (x : ExtNum K) : Decidable x.IsInfinite :=
  inferInstanceAs (Decidable (x = posInf ∨ x = negInf))

instance : (x : ExtNum K) → Decidable x.IsFinite
  | fin _ => isTrue trivial
  | nan => isFalse id
  | posInf => isFalse id
  | negInf => isFalse id

@[simp] theorem isFinite_fin (x : K) : (fin x).IsFinite := trivial

theorem isFinite_iff {x : ExtNum K} : x.IsFinite ↔ ∃ q, x = fin q := by
  cases x <;> simp [IsFinite]

theorem isFinite_iff_not {x : ExtNum K} : x.IsFinite ↔ ¬ x.IsNan ∧ ¬ x.IsInfinite := by
  cases x <;> simp [IsFinite, IsNan, IsInfinite]

/-! ## Order -/

section Order

variable [LinearOrder K]

/-- IEEE `≤`: false as soon as one side is NaN. -/
protected def le : ExtNum K → ExtNum K → Prop
  | fin x, fin y => x ≤ y
  | negInf, fin _ => True
  | negInf, negInf => True
  | negInf, posInf => True
  | fin _, posInf => True
  | posInf, posInf => True
  | _, _ => False

/-- IEEE `<`: false as soon as one side is NaN. -/
protected def lt : ExtNum K → ExtNum K → Prop
  | fin x, fin y => x < y
  | negInf, fin _ => True
  | negInf, posInf => True
  | fin _, posInf => True
  | _, _ => False

instance : LE (ExtNum K) := ⟨ExtNum.le⟩

instance : LT (ExtNum K) := ⟨ExtNum.lt⟩

@[simp] theorem fin_le_fin {x y : K} : (fin x : ExtNum K) ≤ fin y ↔ x ≤ y := Iff.rfl

@[simp] theorem fin_lt_fin {x y : K} : (fin x : ExtNum K) < fin y ↔ x < y := Iff.rfl

@[simp] theorem not_nan_le (x : ExtNum K) : ¬ (nan : ExtNum K) ≤ x := by cases x <;> exact id

@[simp] theorem not_le_nan (x : ExtNum K) : ¬ x ≤ nan := by cases x <;> exact id

@[simp] theorem not_nan_lt (x : ExtNum K) : ¬ (nan : ExtNum K) < x := by cases x <;> exact id

@[simp] theorem not_lt_nan (x : ExtNum K) : ¬ x < nan := by cases x <;> exact id

@[simp] theorem fin_le_posInf (x : K) : fin x ≤ posInf := trivial

@[simp] theorem fin_lt_posInf (x : K) : fin x < posInf := trivial

@[simp] theorem not_posInf_le_negInf : ¬ (posInf : ExtNum K) ≤ negInf := id

theorem le_posInf {x : ExtNum K} (number : ¬ x.IsNan) : x ≤ posInf := by
  cases x <;> first | exact absurd rfl number | trivial

@[simp] theorem not_posInf_le_fin (x : K) : ¬ (posInf : ExtNum K) ≤ fin x := id

@[simp] theorem not_posInf_lt (x : ExtNum K) : ¬ posInf < x := by cases x <;> exact id

@[simp] theorem negInf_lt_fin (x : K) : negInf < fin x := trivial

@[simp] theorem not_fin_le_negInf (x : K) : ¬ fin x ≤ negInf := id

instance : (x y : ExtNum K) → Decidable (x ≤ y)
  | fin x, fin y => inferInstanceAs (Decidable (x ≤ y))
  | nan, y => isFalse (not_nan_le y)
  | x, nan => isFalse (not_le_nan x)
  | negInf, fin _ => isTrue trivial
  | negInf, negInf => isTrue trivial
  | negInf, posInf => isTrue trivial
  | fin _, posInf => isTrue trivial
  | posInf, posInf => isTrue trivial
  | fin _, negInf => isFalse id
  | posInf, fin _ => isFalse id
  | posInf, negInf => isFalse id

instance : (x y : ExtNum K) → Decidable (x < y)
  | fin x, fin y => inferInstanceAs (Decidable (x < y))
  | nan, y => isFalse (not_nan_lt y)
  | x, nan => isFalse (not_lt_nan x)
  | negInf, fin _ => isTrue trivial
  | negInf, posInf => isTrue trivial
  | fin _, posInf => isTrue trivial
  | negInf, negInf => isFalse id
  | fin _, negInf => isFalse id
  | posInf, fin _ => isFalse id
  | posInf, negInf => isFalse id
  | posInf, posInf => isFalse id

theorem not_le_of_lt {x y : ExtNum K} (lt : x < y) : ¬ y ≤ x := by
  cases x <;> cases y <;> first | exact (not_le (α := K)).mpr lt | exact id | exact False.elim lt

protected theorem le_of_lt {x y : ExtNum K} (lt : x < y) : x ≤ y := by
  cases x <;> cases y <;> first | exact le_of_lt (α := K) lt | exact lt.elim | trivial

theorem lt_fin_of_le {x : ExtNum K} {a b : K} (lt : x < fin a) (le : a ≤ b) : x < fin b := by
  cases x with
  | fin x => exact lt_of_lt_of_le (α := K) lt le
  | negInf => trivial
  | nan => exact (not_nan_lt _ lt).elim
  | posInf => exact (not_posInf_lt _ lt).elim

protected theorem le_trans {x y z : ExtNum K} (first : x ≤ y) (second : y ≤ z) : x ≤ z := by
  cases x <;> cases y <;> cases z <;>
    first | exact le_trans (α := K) first second | exact first.elim | exact second.elim | trivial

protected theorem lt_of_le_of_lt {x y z : ExtNum K} (first : x ≤ y) (second : y < z) : x < z := by
  cases x <;> cases y <;> cases z <;>
    first | exact lt_of_le_of_lt (α := K) first second | exact first.elim | exact second.elim |
      trivial

protected theorem le_antisymm {x y : ExtNum K} (le : x ≤ y) (ge : y ≤ x) : x = y := by
  cases x <;> cases y <;>
    first | exact congrArg fin (le_antisymm (α := K) le ge) | exact le.elim | exact ge.elim | rfl

/-- The smaller of two numbers; where one is NaN, the other. -/
protected def min : ExtNum K → ExtNum K → ExtNum K
  | nan, y => y
  | x, nan => x
  | x, y => if x ≤ y then x else y

theorem le_of_not_le {x y : ExtNum K} (hx : ¬ x.IsNan) (hy : ¬ y.IsNan) (not_le : ¬ x ≤ y) :
    y ≤ x := by
  cases x <;> cases y <;>
    first
    | exact le_of_not_ge (α := K) not_le
    | exact absurd rfl hx
    | exact absurd rfl hy
    | trivial
    | exact absurd trivial not_le

theorem le_of_not_lt {x y : ExtNum K} (hx : ¬ x.IsNan) (hy : ¬ y.IsNan) (not_lt : ¬ x < y) :
    y ≤ x := by
  by_contra not_le
  cases x <;> cases y <;>
    first
    | exact not_le (le_of_not_gt (α := K) not_lt)
    | exact absurd rfl hx
    | exact absurd rfl hy
    | exact not_le trivial
    | exact not_lt trivial

/-- What the smaller of a number and anything is. -/
theorem min_spec {x : ExtNum K} (number : ¬ x.IsNan) (y : ExtNum K) :
    (x.min y = x ∨ x.min y = y ∧ ¬ y.IsNan) ∧ x.min y ≤ x ∧ (¬ y.IsNan → x.min y ≤ y) := by
  have self {z : ExtNum K} (number : ¬ z.IsNan) : z ≤ z := by
    by_contra not_le
    exact not_le (le_of_not_le number number not_le)
  by_cases nanY : y.IsNan
  · obtain rfl : y = nan := nanY
    have same : x.min nan = x := by cases x <;> rfl
    rw [same]
    exact ⟨.inl rfl, self number, fun not_nan => absurd rfl not_nan⟩
  · have chosen : x.min y = if x ≤ y then x else y := by
      cases x <;> cases y <;> first | rfl | exact absurd rfl number | exact absurd rfl nanY
    rw [chosen]
    by_cases le : x ≤ y
    · rw [if_pos le]
      exact ⟨.inl rfl, self number, fun _ => le⟩
    · rw [if_neg le]
      exact ⟨.inr ⟨rfl, nanY⟩, le_of_not_le number nanY le, fun _ => self nanY⟩

/-- **The smallest of a row, and of a number before it**: one of them, no greater than any
that is a number. -/
theorem foldl_min_spec (xs : List (ExtNum K)) : ∀ {x : ExtNum K}, ¬ x.IsNan →
    ¬ (xs.foldl ExtNum.min x).IsNan ∧ xs.foldl ExtNum.min x ∈ x :: xs ∧
      ∀ y ∈ x :: xs, ¬ y.IsNan → xs.foldl ExtNum.min x ≤ y := by
  induction xs with
  | nil =>
      intro x number
      refine ⟨number, List.mem_cons_self, fun y member _ => ?_⟩
      obtain rfl := List.mem_singleton.mp member
      by_contra not_le
      exact not_le (le_of_not_le number number not_le)
  | cons y xs ih =>
      intro x number
      obtain ⟨chosen, le_left, le_right⟩ := min_spec number y
      have number' : ¬ (x.min y).IsNan := by
        rcases chosen with left | ⟨right, number_y⟩
        · rwa [left]
        · rwa [right]
      obtain ⟨not_nan, member, least⟩ := ih number'
      rw [List.foldl_cons]
      refine ⟨not_nan, ?_, ?_⟩
      · rcases List.mem_cons.mp member with first | later
        · rcases chosen with left | ⟨right, -⟩
          · exact List.mem_cons.mpr (.inl (first.trans left))
          · exact List.mem_cons_of_mem _ (List.mem_cons.mpr (.inl (first.trans right)))
        · exact List.mem_cons_of_mem _ (List.mem_cons_of_mem _ later)
      · have first := least _ List.mem_cons_self number'
        intro z member number_z
        rcases List.mem_cons.mp member with rfl | member
        · exact ExtNum.le_trans first le_left
        · rcases List.mem_cons.mp member with rfl | later
          · exact ExtNum.le_trans first (le_right number_z)
          · exact least z (List.mem_cons_of_mem _ later) number_z

end Order

/-! ## Arithmetic -/

section Arithmetic

variable [Field K] [LinearOrder K]

protected def add : ExtNum K → ExtNum K → ExtNum K
  | fin x, fin y => fin (x + y)
  | nan, _ => nan
  | _, nan => nan
  | posInf, negInf => nan
  | negInf, posInf => nan
  | posInf, _ => posInf
  | negInf, _ => negInf
  | fin _, y => y

protected def neg : ExtNum K → ExtNum K
  | fin x => fin (-x)
  | posInf => negInf
  | negInf => posInf
  | nan => nan

/-- The infinity with the sign of `x`, NaN where `x` has none. -/
def infLike (x : K) : ExtNum K :=
  if 0 < x then posInf else if x < 0 then negInf else nan

protected def mul : ExtNum K → ExtNum K → ExtNum K
  | fin x, fin y => fin (x * y)
  | nan, _ => nan
  | _, nan => nan
  | posInf, fin y => infLike y
  | fin x, posInf => infLike x
  | negInf, fin y => infLike (-y)
  | fin x, negInf => infLike (-x)
  | posInf, posInf => posInf
  | negInf, negInf => posInf
  | posInf, negInf => negInf
  | negInf, posInf => negInf

/-- Division by the single zero: `x / 0` is the infinity with the sign of `x`. -/
protected def div : ExtNum K → ExtNum K → ExtNum K
  | fin x, fin y => if y = 0 then infLike x else fin (x / y)
  | nan, _ => nan
  | _, nan => nan
  | fin _, _ => fin 0
  | posInf, fin y => if y < 0 then negInf else posInf
  | negInf, fin y => if y < 0 then posInf else negInf
  | _, _ => nan

def abs : ExtNum K → ExtNum K
  | fin x => fin |x|
  | nan => nan
  | _ => posInf

instance : Zero (ExtNum K) := ⟨fin 0⟩

instance : One (ExtNum K) := ⟨fin 1⟩

instance : Add (ExtNum K) := ⟨ExtNum.add⟩

instance : Neg (ExtNum K) := ⟨ExtNum.neg⟩

instance : Sub (ExtNum K) := ⟨fun x y => x + -y⟩

instance : Mul (ExtNum K) := ⟨ExtNum.mul⟩

instance : Div (ExtNum K) := ⟨ExtNum.div⟩

theorem zero_eq : (0 : ExtNum K) = fin 0 := rfl

@[simp] theorem fin_add_fin (x y : K) : (fin x + fin y : ExtNum K) = fin (x + y) := rfl

@[simp] theorem fin_sub_fin (x y : K) : (fin x - fin y : ExtNum K) = fin (x - y) := by
  rw [sub_eq_add_neg]
  rfl

@[simp] theorem fin_mul_fin (x y : K) : (fin x * fin y : ExtNum K) = fin (x * y) := rfl

theorem fin_div_fin (x : K) {y : K} (hy : y ≠ 0) : (fin x / fin y : ExtNum K) = fin (x / y) :=
  if_neg hy

@[simp] theorem abs_fin (x : K) : (fin x).abs = fin |x| := rfl

@[simp] theorem nan_add (x : ExtNum K) : nan + x = nan := by cases x <;> rfl

@[simp] theorem nan_mul (x : ExtNum K) : nan * x = nan := by cases x <;> rfl

@[simp] theorem nan_div (x : ExtNum K) : nan / x = nan := by cases x <;> rfl

@[simp] theorem posInf_add_fin (x : K) : (posInf + fin x : ExtNum K) = posInf := rfl

theorem posInf_div_fin {y : K} (hy : 0 ≤ y) : (posInf / fin y : ExtNum K) = posInf :=
  if_neg (not_lt.mpr hy)

section Reflection

variable [IsStrictOrderedRing K]

/-- A sum below a number, seen from the other side of zero. -/
theorem neg_lt_neg_sub_iff (x y : K) (b : ExtNum K) :
    fin (-y) < fin (-x) - b ↔ fin x + b < fin y := by
  cases b with
  | fin b =>
      rw [fin_sub_fin, fin_add_fin, fin_lt_fin, fin_lt_fin]
      constructor
      · intro lt
        linarith
      · intro lt
        linarith
  | nan => exact iff_of_false (not_lt_nan _) (not_nan_lt _)
  | posInf => exact iff_of_false id (not_posInf_lt _)
  | negInf => exact iff_of_true trivial trivial

/-- A factor is positive where the product with what is not negative is. -/
theorem pos_of_mul_pos {x y : ExtNum K} (nonneg : ¬ y < fin 0) (pos : fin 0 < x * y) :
    fin 0 < x := by
  cases x with
  | fin a =>
      cases y with
      | fin b =>
          have nonneg : 0 ≤ b := not_lt.mp nonneg
          have pos : 0 < a * b := pos
          exact pos_of_mul_pos_left pos nonneg
      | nan => exact pos.elim
      | posInf =>
          have pos : fin 0 < infLike a := pos
          unfold infLike at pos
          split at pos
          · assumption
          · split at pos <;> exact pos.elim
      | negInf => exact absurd trivial nonneg
  | nan =>
      rw [nan_mul] at pos
      exact pos.elim
  | posInf => trivial
  | negInf =>
      cases y with
      | fin b =>
          have nonneg : 0 ≤ b := not_lt.mp nonneg
          have pos : fin 0 < infLike (-b) := pos
          unfold infLike at pos
          split at pos
          · linarith
          · split at pos <;> exact pos.elim
      | nan => exact pos.elim
      | posInf => exact pos.elim
      | negInf => exact absurd trivial nonneg

/-- A quotient by a positive divisor, or by NaN, has the sign of what is divided. -/
theorem div_not_neg {x y : ExtNum K} (nonneg : ¬ x < fin 0) (divisor : ¬ y ≤ fin 0) :
    ¬ x / y < fin 0 := by
  cases x with
  | fin a =>
      have nonneg : 0 ≤ a := not_lt.mp nonneg
      cases y with
      | fin b =>
          have divisor : 0 < b := not_le.mp divisor
          rw [fin_div_fin a divisor.ne', fin_lt_fin]
          exact not_lt.mpr (div_nonneg nonneg divisor.le)
      | nan => exact id
      | posInf => exact lt_irrefl (0 : K)
      | negInf => exact absurd trivial divisor
  | nan => rw [nan_div]; exact id
  | posInf =>
      cases y with
      | fin b =>
          have divisor : 0 < b := not_le.mp divisor
          rw [posInf_div_fin divisor.le]
          exact id
      | nan => exact id
      | posInf => exact id
      | negInf => exact absurd trivial divisor
  | negInf => exact absurd trivial nonneg

protected theorem neg_lt_neg_iff {x y : ExtNum K} : -x < -y ↔ y < x := by
  cases x with
  | fin a =>
      cases y with
      | fin b => exact neg_lt_neg_iff (a := a) (b := b)
      | _ => exact Iff.rfl
  | _ => cases y <;> exact Iff.rfl

protected theorem neg_neg (x : ExtNum K) : - -x = x := by
  cases x with
  | fin a => exact congrArg fin (neg_neg a)
  | _ => rfl

end Reflection

/-! ## Sums -/

instance : AddCommMonoid (ExtNum K) where
  add_assoc x y z := by
    cases x <;> cases y <;> cases z <;> first | rfl | exact congrArg fin (add_assoc _ _ _)
  zero_add x := by
    cases x <;> first | rfl | exact congrArg fin (zero_add _)
  add_zero x := by
    cases x <;> first | rfl | exact congrArg fin (add_zero _)
  add_comm x y := by
    cases x <;> cases y <;> first | rfl | exact congrArg fin (add_comm _ _)
  nsmul := nsmulRec

/-- The number a finite value stands for. -/
def val : ExtNum K → K
  | fin x => x
  | _ => 0

@[simp] theorem val_fin (x : K) : (fin x : ExtNum K).val = x := rfl

theorem fin_val {x : ExtNum K} (h : x.IsFinite) : fin x.val = x := by
  cases x <;> first | rfl | exact absurd h id

/-- A sum of two is finite exactly when both are: an infinity is never cancelled
into a number. -/
theorem isFinite_add {x y : ExtNum K} : (x + y).IsFinite ↔ x.IsFinite ∧ y.IsFinite := by
  cases x <;> cases y <;> simp [IsFinite, HAdd.hAdd, Add.add, ExtNum.add]

theorem isFinite_sum (xs : List (ExtNum K)) : xs.sum.IsFinite ↔ ∀ x ∈ xs, x.IsFinite := by
  induction xs with
  | nil => simp [zero_eq]
  | cons x xs ih => simp [List.sum_cons, isFinite_add, ih]

theorem sum_eq_fin {xs : List (ExtNum K)} (h : ∀ x ∈ xs, x.IsFinite) :
    xs.sum = fin (xs.map val).sum := by
  induction xs with
  | nil => rfl
  | cons x xs ih =>
      obtain ⟨hx, hxs⟩ := List.forall_mem_cons.mp h
      rw [List.sum_cons, ih hxs, ← fin_val hx]
      rfl

@[simp] theorem isFinite_abs {x : ExtNum K} : x.abs.IsFinite ↔ x.IsFinite := by
  cases x <;> rfl

@[simp] theorem abs_eq_nan {x : ExtNum K} : x.abs = nan ↔ x = nan := by
  cases x <;> simp [abs]

/-- A magnitude, or NaN: what a sum of magnitudes can be. -/
def Magnitude : ExtNum K → Prop
  | fin x => 0 ≤ x
  | posInf => True
  | nan => True
  | negInf => False

section Ordered

variable [IsStrictOrderedRing K]

theorem magnitude_abs (x : ExtNum K) : x.abs.Magnitude := by
  cases x <;> first | trivial | exact abs_nonneg _

theorem magnitude_add {x y : ExtNum K} (hx : x.Magnitude) (hy : y.Magnitude) :
    (x + y).Magnitude := by
  cases x <;> cases y <;> first | trivial | exact add_nonneg hx hy

theorem magnitude_sum_abs (xs : List (ExtNum K)) : (xs.map abs).sum.Magnitude := by
  induction xs with
  | nil => exact le_refl (0 : K)
  | cons x xs ih =>
      rw [List.map_cons, List.sum_cons]
      exact magnitude_add (magnitude_abs x) ih

theorem magnitude_add_eq_nan {x y : ExtNum K} (hx : x.Magnitude) (hy : y.Magnitude) :
    x + y = nan ↔ x = nan ∨ y = nan := by
  cases x <;> cases y <;> simp_all [Magnitude, HAdd.hAdd, Add.add, ExtNum.add]

/-- Magnitudes cannot cancel: their sum is NaN exactly when one of them is. -/
theorem sum_abs_eq_nan (xs : List (ExtNum K)) : (xs.map abs).sum = nan ↔ ∃ x ∈ xs, x.IsNan := by
  induction xs with
  | nil => simp [zero_eq]
  | cons x xs ih =>
      rw [List.map_cons, List.sum_cons,
        magnitude_add_eq_nan (magnitude_abs x) (magnitude_sum_abs xs), ih, abs_eq_nan]
      simp only [IsNan, List.exists_mem_cons_iff]

/-! ## Gates -/

/-- Dividing before comparing is comparing with the scaled bound. -/
theorem not_lt_div_iff {c : ExtNum K} (hc : ¬ c.IsNan) (x : K) {e : K} (he : 0 < e) :
    ¬ c < fin x / fin e ↔ fin x ≤ c * fin e := by
  rw [fin_div_fin x he.ne']
  cases c with
  | nan => exact absurd rfl hc
  | fin c =>
      rw [fin_mul_fin, fin_le_fin, fin_lt_fin, not_lt]
      exact div_le_iff₀ he
  | posInf =>
      have scaled : (posInf * fin e : ExtNum K) = posInf := by
        show infLike e = posInf
        rw [infLike, if_pos he]
      simp [scaled]
  | negInf =>
      have scaled : (negInf * fin e : ExtNum K) = negInf := by
        show infLike (-e) = negInf
        rw [infLike, if_neg (by linarith), if_pos (by linarith)]
      simp [scaled]

/-- A finite cap on a scaled magnitude passes the magnitudes below it, and NaN.
An infinite magnitude is stopped. -/
theorem cap_passes_iff {g : ExtNum K} (hg : g.Magnitude) (n c : K) {e : K} (he : 0 < e) :
    ¬ fin c < (g + fin n) / fin e ↔ g.IsNan ∨ g + fin n ≤ fin c * fin e := by
  cases g with
  | nan => simp [IsNan]
  | negInf => exact absurd hg id
  | posInf => simp [IsNan, posInf_div_fin he.le]
  | fin g =>
      rw [fin_add_fin, not_lt_div_iff (by simp [IsNan]) _ he]
      simp [IsNan]

/-- A magnitude below a finite bound is finite. -/
theorem isFinite_of_add_le {g : ExtNum K} (hg : g.Magnitude) {n b : K}
    (h : g + fin n ≤ fin b) : g.IsFinite := by
  cases g with
  | fin g => trivial
  | nan => simp at h
  | negInf => exact absurd hg id
  | posInf => simp at h

end Ordered

end Arithmetic

end ExtNum

end CentaurApex.Theory
