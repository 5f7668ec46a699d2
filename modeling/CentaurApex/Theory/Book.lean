/-
# Theory.Book -- a book of signed entries, netted per account

A book is a list of signed amounts, each against an account.  `net` nets the
entries of one account, `gross` adds up the magnitudes of the nets.  Entries of
opposite sign on one account offset each other, entries on different accounts
never do.

* `gross_trade`: one more entry on `a` changes the gross by the change of `|net a|`
  and by nothing else.
* `gross_trade_le_iff`: it does not raise the gross exactly when it does not raise
  `|net a|`; in a field that is a matter of sign and size (`abs_add_le_abs_iff`).
* `gross_le_sum_abs`: netting never raises the total of the magnitudes.
-/
import Mathlib.Algebra.BigOperators.Group.Finset.Basic
import Mathlib.Algebra.Order.BigOperators.Group.Finset
import Mathlib.Algebra.Order.Field.Basic
import Mathlib.Algebra.Order.Group.Unbundled.Abs
import Mathlib.Tactic.Abel
import Mathlib.Tactic.Linarith

namespace CentaurApex.Theory

open scoped BigOperators

set_option autoImplicit false

namespace Book

variable {α K : Type} [DecidableEq α]

section Net

variable [AddCommGroup K]

/-- The net position of one account. -/
def net (book : List (α × K)) (a : α) : K :=
  ((book.filter fun entry => entry.1 = a).map Prod.snd).sum

/-- The accounts a book has entries for. -/
def accounts (book : List (α × K)) : Finset α := (book.map Prod.fst).toFinset

theorem net_cons (entry : α × K) (book : List (α × K)) (a : α) :
    net (entry :: book) a = (if entry.1 = a then entry.2 else 0) + net book a := by
  by_cases same : entry.1 = a
  · simp [net, same]
  · simp [net, same]

theorem net_append (book book' : List (α × K)) (a : α) :
    net (book ++ book') a = net book a + net book' a := by
  simp [net]

theorem net_trade (book : List (α × K)) (a b : α) (d : K) :
    net (book ++ [(a, d)]) b = net book b + if a = b then d else 0 := by
  rw [net_append, net_cons]
  simp [net]

theorem net_eq_zero {book : List (α × K)} {a : α} (absent : a ∉ accounts book) :
    net book a = 0 := by
  have none_ : (book.filter fun entry => entry.1 = a) = [] := by
    rw [List.filter_eq_nil_iff]
    intro entry member same
    refine absent (List.mem_toFinset.mpr (List.mem_map.mpr ⟨entry, member, ?_⟩))
    exact of_decide_eq_true same
  rw [net, none_]
  rfl

end Net

section Gross

variable [AddCommGroup K] [LinearOrder K] [IsOrderedAddMonoid K]

/-- The magnitudes of the net positions, added up. -/
def gross (book : List (α × K)) : K := ∑ a ∈ accounts book, |net book a|

/-- Accounts without entries do not matter. -/
theorem gross_eq_sum {book : List (α × K)} {S : Finset α} (covers : accounts book ⊆ S) :
    gross book = ∑ a ∈ S, |net book a| := by
  refine Finset.sum_subset covers fun a _ absent => ?_
  rw [net_eq_zero absent, abs_zero]

/-- **A trade changes the gross by what it changes on its own account.** -/
theorem gross_trade (book : List (α × K)) (a : α) (d : K) :
    gross (book ++ [(a, d)]) + |net book a| = gross book + |net book a + d| := by
  have covers : accounts book ⊆ insert a (accounts book) := Finset.subset_insert _ _
  have traded : accounts (book ++ [(a, d)]) ⊆ insert a (accounts book) := by
    intro b member
    simp only [accounts, List.map_append, List.toFinset_append, Finset.mem_union] at member
    rcases member with old | new
    · exact Finset.mem_insert_of_mem old
    · have : b = a := by simpa using new
      rw [this]
      exact Finset.mem_insert_self _ _
  have mem : a ∈ insert a (accounts book) := Finset.mem_insert_self _ _
  have others : ∑ b ∈ (insert a (accounts book)).erase a, |net (book ++ [(a, d)]) b| =
      ∑ b ∈ (insert a (accounts book)).erase a, |net book b| := by
    refine Finset.sum_congr rfl fun b other => ?_
    have ne : a ≠ b := fun same => Finset.ne_of_mem_erase other same.symm
    rw [net_trade, if_neg ne, add_zero]
  rw [gross_eq_sum traded, gross_eq_sum covers, ← Finset.add_sum_erase _ _ mem,
    ← Finset.add_sum_erase _ _ mem, others, net_trade, if_pos rfl]
  abel

theorem gross_trade_le_iff (book : List (α × K)) (a : α) (d : K) :
    gross (book ++ [(a, d)]) ≤ gross book ↔ |net book a + d| ≤ |net book a| := by
  have trade := gross_trade book a d
  constructor
  · intro noRise
    by_contra rises
    exact absurd trade (add_lt_add_of_le_of_lt noRise (not_le.mp rises)).ne
  · intro noRise
    by_contra rises
    exact absurd trade (add_lt_add_of_lt_of_le (not_le.mp rises) noRise).ne'

/-- A trade raises the gross by at most its own size. -/
theorem gross_trade_le (book : List (α × K)) (a : α) (d : K) :
    gross (book ++ [(a, d)]) ≤ gross book + |d| := by
  have trade := gross_trade book a d
  have triangle : |net book a + d| ≤ |net book a| + |d| := abs_add_le _ _
  have moved : gross (book ++ [(a, d)]) + |net book a| ≤ gross book + |d| + |net book a| := by
    calc gross (book ++ [(a, d)]) + |net book a| = gross book + |net book a + d| := trade
      _ ≤ gross book + (|net book a| + |d|) := by gcongr
      _ = gross book + |d| + |net book a| := by abel
  exact le_of_add_le_add_right moved

/-- Netting never raises the total. -/
theorem gross_le_sum_abs (book : List (α × K)) :
    gross book ≤ (book.map fun entry => |entry.2|).sum := by
  induction book using List.reverseRecOn with
  | nil => simp [gross, accounts]
  | append_singleton book entry ih =>
      rw [List.map_append, List.sum_append, List.map_singleton, List.sum_singleton]
      calc gross (book ++ [entry]) ≤ gross book + |entry.2| := gross_trade_le book entry.1 entry.2
        _ ≤ (book.map fun entry => |entry.2|).sum + |entry.2| := by gcongr

end Gross

/-- Adding `d > 0` does not raise a magnitude exactly when it moves towards zero
and not past the mirror image. -/
theorem abs_add_le_abs_iff [Field K] [LinearOrder K] [IsStrictOrderedRing K] {e d : K}
    (pos : 0 < d) : |e + d| ≤ |e| ↔ d ≤ -2 * e := by
  constructor
  · intro noRise
    by_cases long : 0 ≤ e
    · rw [abs_of_nonneg long, abs_of_nonneg (by linarith)] at noRise
      linarith
    · rw [abs_of_neg (not_le.mp long)] at noRise
      have := le_abs_self (e + d)
      linarith
  · intro small
    have short : e ≤ 0 := by linarith
    rw [abs_of_nonpos short, abs_le]
    constructor <;> linarith

end Book

end CentaurApex.Theory
