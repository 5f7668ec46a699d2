/-
# Theory.Replica -- a value written at one replica and carried to the others

Replicas hold a value each, or none.  A write stores a value at one replica and sets
it on its way to every other; a delivery stores what arrives.  Nothing orders the
deliveries, so writes that overlap can leave the replicas apart.  Writes that do not
overlap cannot: where every write finds only its own value still on its way, the
replicas are `Converging` (`Step.converging`), and what they hold when nothing is on
its way any more is one value (`Converging.held_eq`).
-/
import Mathlib.Data.Set.Insert
import Mathlib.Logic.Function.Basic

namespace CentaurApex.Theory

set_option autoImplicit false

structure Replicas (ι V : Type) where
  held : ι → Option V
  /-- The values on their way, and where to. -/
  pending : Set (ι × V)

namespace Replicas

variable {ι V : Type} [DecidableEq ι] {R R' : Replicas ι V}

def write (R : Replicas ι V) (i : ι) (v : V) : Replicas ι V where
  held := Function.update R.held i (some v)
  pending := R.pending ∪ {p | p.1 ≠ i ∧ p.2 = v}

/-- One step, with the write it makes if it makes one.  A value that was delivered
may still be on its way a second time. -/
inductive Step (R : Replicas ι V) : Option (ι × V) → Replicas ι V → Prop
  | stutter : Step R none R
  | write (i : ι) (v : V) : Step R (some (i, v)) (R.write i v)
  | deliver (i : ι) (v : V) (pending : Set (ι × V)) (carried : (i, v) ∈ R.pending)
      (old : pending ⊆ R.pending) (left : R.pending ⊆ insert (i, v) pending) :
      Step R none ⟨Function.update R.held i (some v), pending⟩

/-- Nothing was ever written, or one value is held or on its way everywhere and no
other is on its way. -/
def Converging (R : Replicas ι V) : Prop :=
  ((∀ i, R.held i = none) ∧ R.pending = ∅) ∨
    ∃ v, (∀ p ∈ R.pending, p.2 = v) ∧ ∀ i, R.held i = some v ∨ (i, v) ∈ R.pending

/-- The values on their way are all `v`. -/
def Alone (R : Replicas ι V) (v : V) : Prop := ∀ p ∈ R.pending, p.2 = v

theorem converging_write {i : ι} {v : V} (alone : R.Alone v) : (R.write i v).Converging := by
  refine .inr ⟨v, ?_, fun j => ?_⟩
  · rintro p (before | ⟨-, same⟩)
    · exact alone p before
    · exact same
  · by_cases here : j = i
    · subst here
      exact .inl (Function.update_self _ _ _)
    · exact .inr (.inr ⟨here, rfl⟩)

/-- **Writes that find no other value on its way keep the replicas converging.** -/
theorem Step.converging {write : Option (ι × V)} (step : Step R write R')
    (alone : ∀ i v, write = some (i, v) → R.Alone v) (before : R.Converging) : R'.Converging := by
  cases step with
  | stutter => exact before
  | write i v => exact converging_write (alone i v rfl)
  | deliver i v pending carried old left =>
      rcases before with ⟨-, nothing⟩ | ⟨w, only, everywhere⟩
      · rw [nothing] at carried
        exact carried.elim
      obtain rfl : v = w := only _ carried
      refine .inr ⟨v, fun p member => only p (old member), fun j => ?_⟩
      by_cases here : j = i
      · subst here
        exact .inl (Function.update_self _ _ _)
      · rcases everywhere j with holds | coming
        · exact .inl ((Function.update_of_ne here _ _).trans holds)
        · rcases left coming with same | still
          · exact absurd (congrArg Prod.fst same) here
          · exact .inr still

omit [DecidableEq ι] in
/-- **Once nothing is on its way, the replicas hold one value.** -/
theorem Converging.held_eq (converging : R.Converging) (quiet : R.pending = ∅) (i j : ι) :
    R.held i = R.held j := by
  rcases converging with ⟨none_, -⟩ | ⟨v, -, everywhere⟩
  · rw [none_, none_]
  · have holds (k : ι) : R.held k = some v := by
      rcases everywhere k with holds | coming
      · exact holds
      · rw [quiet] at coming
        exact coming.elim
    rw [holds, holds]

end Replicas

end CentaurApex.Theory
