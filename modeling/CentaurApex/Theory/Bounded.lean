/-
# Theory.Bounded -- saturating counters and bounded journals

Two kinds of state that cannot grow without bound, each with its bound as a
field: a counter that stops at a limit, and a journal that keeps the newest
`cap` entries.  Both are images of the unbounded thing they stand for -- the
number of events (`SatCounter.ofNat`) and the list of all entries
(`Journal.ofHistory`) -- and each operation commutes with that image
(`saturatingAdd_ofNat`, `push_ofHistory`).  A component that bumps the counter
and appends to the journal at every event is then described by its history
alone.
-/
import Mathlib.Data.List.DropRight
import Mathlib.Tactic.Linarith

namespace CentaurApex.Theory

set_option autoImplicit false

/-! ## Counters -/

/-- A counter that stops at `limit`. -/
@[ext] structure SatCounter (limit : Nat) where
  val : Nat
  val_le : val ≤ limit
  deriving DecidableEq, Repr

namespace SatCounter

variable {limit : Nat}

/-- The counter after `n` events. -/
def ofNat (limit n : Nat) : SatCounter limit := ⟨min n limit, Nat.min_le_right _ _⟩

def saturatingAdd (c : SatCounter limit) (k : Nat) : SatCounter limit :=
  ⟨min (c.val + k) limit, Nat.min_le_right _ _⟩

@[simp] theorem val_ofNat (n : Nat) : (ofNat limit n).val = min n limit := rfl

theorem saturatingAdd_ofNat (n k : Nat) :
    (ofNat limit n).saturatingAdd k = ofNat limit (n + k) := by
  ext
  simp only [saturatingAdd, val_ofNat]
  omega

@[simp] theorem saturatingAdd_zero (c : SatCounter limit) : c.saturatingAdd 0 = c := by
  ext
  exact Nat.min_eq_left c.val_le

end SatCounter

/-! ## Journals -/

/-- A queue of at most `cap` entries, oldest first. -/
@[ext] structure Journal (cap : Nat) (α : Type) where
  entries : List α
  length_le : entries.length ≤ cap

/-- `while entries.len() > cap: entries.pop_front()`. -/
def evict {α : Type} (cap : Nat) : List α → List α
  | [] => []
  | x :: xs => if cap < (x :: xs).length then evict cap xs else x :: xs

theorem evict_eq_rtake {α : Type} (cap : Nat) (xs : List α) : evict cap xs = xs.rtake cap := by
  induction xs with
  | nil => simp [evict]
  | cons x xs ih =>
      simp only [evict]
      split
      · rename_i long
        have split : (x :: xs).length - cap = (xs.length - cap) + 1 := by
          simp only [List.length_cons] at long ⊢
          omega
        rw [ih, List.rtake, List.rtake, split, List.drop_succ_cons]
      · rename_i short
        rw [List.rtake, Nat.sub_eq_zero_of_le (not_lt.mp short), List.drop_zero]

theorem length_rtake_le {α : Type} (cap : Nat) (xs : List α) : (xs.rtake cap).length ≤ cap := by
  rw [List.rtake, List.length_drop]
  omega

namespace Journal

variable {cap : Nat} {α : Type}

def empty : Journal cap α := ⟨[], Nat.zero_le _⟩

def push (j : Journal cap α) (x : α) : Journal cap α :=
  ⟨evict cap (j.entries ++ [x]), by rw [evict_eq_rtake]; exact length_rtake_le _ _⟩

/-- The journal of everything ever recorded: its newest `cap` entries. -/
def ofHistory (cap : Nat) (all : List α) : Journal cap α :=
  ⟨all.rtake cap, length_rtake_le _ _⟩

@[simp] theorem entries_ofHistory (all : List α) : (ofHistory cap all).entries = all.rtake cap :=
  rfl

theorem empty_eq_ofHistory : (empty : Journal cap α) = ofHistory cap [] := by
  ext1
  simp [empty]

theorem rtake_append_singleton (all : List α) (x : α) :
    (all.rtake cap ++ [x]).rtake cap = (all ++ [x]).rtake cap := by
  cases cap with
  | zero => simp
  | succ cap =>
      have keep : (all.rtake (cap + 1)).rtake cap = all.rtake cap := by
        simp only [List.rtake, List.length_drop, List.drop_drop]
        congr 1
        omega
      rw [List.rtake_concat_succ, List.rtake_concat_succ, keep]

/-- **Recording an entry records it in the history.** -/
theorem push_ofHistory (all : List α) (x : α) :
    (ofHistory cap all).push x = ofHistory cap (all ++ [x]) := by
  ext1
  simp only [push, entries_ofHistory, evict_eq_rtake, rtake_append_singleton]

theorem rtake_suffix (all : List α) : all.rtake cap <:+ all := List.drop_suffix _ _

end Journal

end CentaurApex.Theory
