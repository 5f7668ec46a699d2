/-
# Theory.Dissemination -- updates that every node applies once

A node that posts an update applies it and sets it on its way to every other; a node that
an update comes to applies it.  Nothing orders the deliveries, so the nodes apply the same
updates in different orders; but each update is applied once at each node, or still on its
way to it once (`Step.accounts`).  When nothing is on its way to a node, it has applied
exactly what was posted (`Accounts.applied`).

What is on its way is a list of which only the elements matter (`List.Perm`).
-/
import Mathlib.Data.List.Perm.Basic
import Mathlib.Logic.Function.Basic

namespace CentaurApex.Theory

set_option autoImplicit false

/-- What each node has applied, in its order, and what is on its way to it. -/
structure Dissemination (ι M : Type) where
  applied : ι → List M
  pending : ι → List M

namespace Dissemination

variable {ι M : Type} {D D' : Dissemination ι M} {posted : List M}

/-- Each update that was posted has been applied at each node, or is on its way to it, once. -/
def Accounts (D : Dissemination ι M) (posted : List M) : Prop :=
  ∀ i, (D.applied i ++ D.pending i).Perm posted

section Steps

variable [DecidableEq ι]

def apply (D : Dissemination ι M) (i : ι) (m : M) : ι → List M :=
  Function.update D.applied i (D.applied i ++ [m])

/-- One step, with the update it posts if it posts one. -/
inductive Step (D : Dissemination ι M) : Option M → Dissemination ι M → Prop
  | stutter (pending : ι → List M) (same : ∀ j, (pending j).Perm (D.pending j)) :
      Step D none ⟨D.applied, pending⟩
  | post (i : ι) (m : M) (pending : ι → List M) (own : (pending i).Perm (D.pending i))
      (others : ∀ j, j ≠ i → (pending j).Perm (m :: D.pending j)) :
      Step D (some m) ⟨D.apply i m, pending⟩
  | deliver (i : ι) (m : M) (pending : ι → List M) (arrived : (D.pending i).Perm (m :: pending i))
      (others : ∀ j, j ≠ i → (pending j).Perm (D.pending j)) :
      Step D none ⟨D.apply i m, pending⟩

theorem apply_self (D : Dissemination ι M) (i : ι) (m : M) :
    D.apply i m i = D.applied i ++ [m] :=
  Function.update_self _ _ _

theorem apply_of_ne (D : Dissemination ι M) {i j : ι} (other : j ≠ i) (m : M) :
    D.apply i m j = D.applied j :=
  Function.update_of_ne other _ _

/-- **A step keeps the account of every update.** -/
theorem Step.accounts {post : Option M} (step : D.Step post D') (before : D.Accounts posted) :
    D'.Accounts (posted ++ post.toList) := by
  intro j
  cases step with
  | stutter pending same =>
      rw [Option.toList_none, List.append_nil]
      exact ((same j).append_left _).trans (before j)
  | post i m pending own others =>
      have later : (m :: posted).Perm (posted ++ [m]) := (List.perm_append_singleton m posted).symm
      by_cases here : j = i
      · subst here
        have applied : D.apply j m j ++ pending j = D.applied j ++ m :: pending j := by
          rw [apply_self, List.append_assoc, List.singleton_append]
        have still := (own.append_left (D.applied j)).trans (before j)
        exact applied ▸ (List.perm_middle.trans (still.cons m)).trans later
      · have sent := (others j here).append_left (D.applied j)
        have account := (sent.trans List.perm_middle).trans ((before j).cons m)
        change (D.apply i m j ++ pending j).Perm _
        rw [D.apply_of_ne here]
        exact account.trans later
  | deliver i m pending arrived others =>
      rw [Option.toList_none, List.append_nil]
      by_cases here : j = i
      · subst here
        have applied : D.apply j m j ++ pending j = D.applied j ++ m :: pending j := by
          rw [apply_self, List.append_assoc, List.singleton_append]
        exact applied ▸ ((arrived.symm.append_left _).trans (before j))
      · change (D.apply i m j ++ pending j).Perm _
        rw [D.apply_of_ne here]
        exact ((others j here).append_left _).trans (before j)

end Steps

/-! ## When nothing is on its way -/

/-- **A node that nothing is on its way to has applied exactly what was posted.** -/
theorem Accounts.applied {i : ι} (accounts : D.Accounts posted) (rest : D.pending i = []) :
    (D.applied i).Perm posted := by
  have all := accounts i
  rwa [rest, List.append_nil] at all

end Dissemination

end CentaurApex.Theory
