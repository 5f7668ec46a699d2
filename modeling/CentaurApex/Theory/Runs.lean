/-
# Theory.Runs -- the run of equal values that ends at a place

A sequence has at each place the run of equal values that ends there.  It can be counted on the
way (`runTo`): one more than before if the value is that before, and else one.  Or it can be
described (`EndsRun`): so many places have the value, and the place before them has another.

* `endsRun_iff`: the two are one.
-/
import Mathlib.Data.Nat.Notation

namespace CentaurApex.Theory

set_option autoImplicit false

variable {α : Type} (f : ℕ → α)

/-- Exactly `r` places hold `x`, one after another, and the last of them is `i`. -/
def EndsRun (x : α) (r i : ℕ) : Prop :=
  r ≤ i + 1 ∧ (∀ j ≤ i, i < j + r → f j = x) ∧ (r ≤ i → f (i - r) ≠ x)

variable {f} in
/-- A run of one place begins there. -/
theorem endsRun_one_iff {x : α} {i : ℕ} : EndsRun f x 1 (i + 1) ↔ f (i + 1) = x ∧ f i ≠ x := by
  constructor
  · rintro ⟨-, all, other⟩
    exact ⟨all (i + 1) (Nat.le_refl _) (by omega), other (by omega)⟩
  · rintro ⟨here, other⟩
    refine ⟨by omega, fun j le near => ?_, fun _ => other⟩
    obtain rfl : j = i + 1 := by omega
    exact here

variable {f} in
/-- A longer run goes on from the place before. -/
theorem endsRun_succ_iff {x : α} {r i : ℕ} (pos : 0 < r) :
    EndsRun f x (r + 1) (i + 1) ↔ f (i + 1) = x ∧ EndsRun f x r i := by
  have back : i + 1 - (r + 1) = i - r := by omega
  constructor
  · rintro ⟨short, all, other⟩
    refine ⟨all (i + 1) (Nat.le_refl _) (by omega), by omega, fun j le near => ?_, fun inside => ?_⟩
    · exact all j (by omega) (by omega)
    · rw [← back]
      exact other (by omega)
  · rintro ⟨here, short, all, other⟩
    refine ⟨by omega, fun j le near => ?_, fun inside => ?_⟩
    · rcases Nat.lt_or_ge i j with last | before
      · obtain rfl : j = i + 1 := by omega
        exact here
      · exact all j before (by omega)
    · rw [back]
      exact other (by omega)

variable [DecidableEq α]

instance (x : α) (r i : ℕ) : Decidable (EndsRun f x r i) :=
  inferInstanceAs (Decidable (_ ∧ _ ∧ _))

/-- How long the run is that ends at a place. -/
def runTo : ℕ → ℕ
  | 0 => 1
  | i + 1 => if f (i + 1) = f i then runTo i + 1 else 1

theorem runTo_pos (i : ℕ) : 0 < runTo f i := by
  cases i with
  | zero => exact Nat.one_pos
  | succ i =>
      unfold runTo
      split
      · exact Nat.succ_pos _
      · exact Nat.one_pos

variable {f} in
/-- **A run is as long as it was counted.** -/
theorem endsRun_iff {x : α} {r i : ℕ} (pos : 0 < r) :
    EndsRun f x r i ↔ f i = x ∧ runTo f i = r := by
  induction i generalizing r with
  | zero =>
      constructor
      · rintro ⟨short, all, -⟩
        exact ⟨all 0 (Nat.le_refl 0) (by omega), by rw [runTo]; omega⟩
      · rintro ⟨here, counted⟩
        obtain rfl : r = 1 := counted.symm
        refine ⟨by omega, fun j le _ => ?_, fun inside => absurd inside (by omega)⟩
        obtain rfl := Nat.le_zero.mp le
        exact here
  | succ i ih =>
      obtain ⟨r, rfl⟩ := Nat.exists_eq_add_of_le' pos
      rw [runTo]
      rcases Nat.eq_zero_or_pos r with rfl | more
      · rw [endsRun_one_iff]
        constructor
        · rintro ⟨rfl, other⟩
          exact ⟨rfl, if_neg (Ne.symm other)⟩
        · rintro ⟨rfl, counted⟩
          refine ⟨rfl, fun same => ?_⟩
          rw [if_pos same.symm] at counted
          have := runTo_pos f i
          omega
      · rw [endsRun_succ_iff more, ih more]
        constructor
        · rintro ⟨here, same, counted⟩
          exact ⟨here, by rw [if_pos (here.trans same.symm), counted]⟩
        · rintro ⟨here, counted⟩
          split at counted
          · rename_i same
            exact ⟨here, same.symm.trans here, by omega⟩
          · omega

end CentaurApex.Theory
