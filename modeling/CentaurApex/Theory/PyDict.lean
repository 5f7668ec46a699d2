/-
# Theory.PyDict -- dictionaries in the order of their insertion

A Python `dict`: every key once, in the order in which the keys came.  Assigning to
a key that is there replaces its value where it stands; a new key goes to the end.
What is read after an assignment is one equation (`get?_setItem`), and after many of them it is
what they agree on (`get?_setItems_of_mem`, `get?_setItems_flatMap`).  A sum over the values moves
by what an assignment adds and what it replaces (`sumValues_setItem`).
-/
import Mathlib.Algebra.Ring.Nat
import Mathlib.Data.List.Nodup

namespace CentaurApex.Theory

set_option autoImplicit false

structure PyDict (κ α : Type) where
  items : List (κ × α)
  nodup : (items.map Prod.fst).Nodup
  deriving DecidableEq

namespace PyDict

variable {κ α : Type} [DecidableEq κ]

omit [DecidableEq κ] in
/-- `{}` -/
def empty : PyDict κ α := ⟨[], List.nodup_nil⟩

/-- `d.get(key)` -/
def get? (d : PyDict κ α) (key : κ) : Option α := d.items.lookup key

/-- `key in d` -/
def Contains (d : PyDict κ α) (key : κ) : Prop := key ∈ d.items.map Prod.fst

instance (d : PyDict κ α) (key : κ) : Decidable (d.Contains key) :=
  inferInstanceAs (Decidable (key ∈ _))

theorem lookup_cons (k : κ) (item : κ × α) (rest : List (κ × α)) :
    (item :: rest).lookup k = if k = item.1 then some item.2 else rest.lookup k := by
  obtain ⟨key, value⟩ := item
  rw [List.lookup_cons]
  by_cases here : k = key
  · simp [here]
  · simp only [beq_eq_false_iff_ne.mpr here, if_neg here]

/-! ## Assignment -/

section Assign

variable (key : κ) (value : α)

def assign : List (κ × α) → List (κ × α)
  | [] => [(key, value)]
  | item :: rest => if item.1 = key then (key, value) :: rest else item :: assign rest

theorem mem_keys_assign {k : κ} {items : List (κ × α)} :
    k ∈ (assign key value items).map Prod.fst ↔ k = key ∨ k ∈ items.map Prod.fst := by
  induction items with
  | nil => simp [assign]
  | cons item rest ih =>
      unfold assign
      split
      · rename_i same
        simp [same]
      · simp only [List.map_cons, List.mem_cons, ih]
        exact or_left_comm

/-- A new key goes to the end. -/
theorem assign_of_not_mem {items : List (κ × α)} (fresh : key ∉ items.map Prod.fst) :
    assign key value items = items ++ [(key, value)] := by
  induction items with
  | nil => rfl
  | cons item rest ih =>
      obtain ⟨other, fresh⟩ := not_or.mp (mt List.mem_cons.mpr fresh)
      rw [assign, if_neg (Ne.symm other), ih fresh, List.cons_append]

theorem nodup_assign {items : List (κ × α)} (once : (items.map Prod.fst).Nodup) :
    ((assign key value items).map Prod.fst).Nodup := by
  induction items with
  | nil => simp [assign]
  | cons item rest ih =>
      obtain ⟨fresh, once⟩ := List.nodup_cons.mp once
      unfold assign
      split
      · rename_i same
        exact List.nodup_cons.mpr ⟨same ▸ fresh, once⟩
      · rename_i other
        refine List.nodup_cons.mpr ⟨fun member => ?_, ih once⟩
        rcases (mem_keys_assign key value).mp member with same | later
        · exact other same
        · exact fresh later

theorem lookup_assign (k : κ) (items : List (κ × α)) :
    (assign key value items).lookup k = if k = key then some value else items.lookup k := by
  induction items with
  | nil => rw [assign, lookup_cons]
  | cons item rest ih =>
      unfold assign
      split
      · rename_i same
        rw [lookup_cons, lookup_cons, same]
        split <;> rfl
      · rename_i other
        rw [lookup_cons, lookup_cons, ih]
        by_cases first : k = item.1
        · rw [if_pos first, if_pos first, if_neg (first ▸ other)]
        · rw [if_neg first, if_neg first]

theorem sum_assign (f : α → ℕ) (items : List (κ × α)) :
    ((assign key value items).map fun item => f item.2).sum + ((items.lookup key).map f).getD 0 =
      (items.map fun item => f item.2).sum + f value := by
  induction items with
  | nil => simp [assign]
  | cons item rest ih =>
      unfold assign
      rw [lookup_cons]
      split
      · rename_i same
        rw [if_pos same.symm, List.map_cons, List.map_cons, List.sum_cons, List.sum_cons,
          Option.map_some, Option.getD_some]
        dsimp only
        omega
      · rename_i other
        rw [if_neg (Ne.symm other), List.map_cons, List.map_cons, List.sum_cons, List.sum_cons]
        omega

/-- `d[key] = value` -/
def setItem (d : PyDict κ α) : PyDict κ α :=
  ⟨assign key value d.items, nodup_assign key value d.nodup⟩

/-- What is read after an assignment. -/
theorem items_setItem (d : PyDict κ α) (fresh : ¬ d.Contains key) :
    (d.setItem key value).items = d.items ++ [(key, value)] :=
  assign_of_not_mem key value fresh

@[simp] theorem get?_setItem (d : PyDict κ α) (k : κ) :
    (d.setItem key value).get? k = if k = key then some value else d.get? k :=
  lookup_assign key value k d.items

end Assign

/-- `sum(f(value) for value in d.values())` -/
def sumValues (d : PyDict κ α) (f : α → ℕ) : ℕ := (d.items.map fun item => f item.2).sum

/-- What an assignment adds to a sum over the values, what it replaces takes away. -/
theorem sumValues_setItem (d : PyDict κ α) (key : κ) (value : α) (f : α → ℕ) :
    (d.setItem key value).sumValues f + ((d.get? key).map f).getD 0 = d.sumValues f + f value :=
  sum_assign key value f d.items

@[simp] theorem get?_empty (key : κ) : (empty : PyDict κ α).get? key = none := rfl

/-- An item is what its key reads. -/
theorem get?_of_mem {d : PyDict κ α} {key : κ} {value : α} (member : (key, value) ∈ d.items) :
    d.get? key = some value := by
  obtain ⟨items, once⟩ := d
  unfold get?
  dsimp only at member ⊢
  induction items with
  | nil => cases member
  | cons item rest ih =>
      obtain ⟨fresh, once⟩ := List.nodup_cons.mp once
      rw [lookup_cons]
      rcases List.mem_cons.mp member with rfl | later
      · exact if_pos rfl
      · have other : key ≠ item.1 := by
          rintro rfl
          exact fresh (List.mem_map.mpr ⟨_, later, rfl⟩)
        rw [if_neg other]
        exact ih once later

/-- What a key reads is its item. -/
theorem mem_of_get? {d : PyDict κ α} {key : κ} {value : α} (read : d.get? key = some value) :
    (key, value) ∈ d.items := by
  obtain ⟨items, once⟩ := d
  unfold get? at read
  dsimp only at read ⊢
  clear once
  induction items with
  | nil => cases read
  | cons item rest ih =>
      rw [lookup_cons] at read
      by_cases here : key = item.1
      · rw [if_pos here] at read
        obtain rfl := Option.some.inj read
        exact here ▸ List.mem_cons_self
      · rw [if_neg here] at read
        exact List.mem_cons_of_mem _ (ih read)

theorem contains_iff {d : PyDict κ α} {key : κ} :
    d.Contains key ↔ ∃ value, d.get? key = some value := by
  constructor
  · intro there
    obtain ⟨⟨_, value⟩, member, rfl⟩ := List.mem_map.mp there
    exact ⟨value, get?_of_mem member⟩
  · rintro ⟨value, read⟩
    exact List.mem_map.mpr ⟨_, mem_of_get? read, rfl⟩

/-! ## Many assignments -/

section Many

variable {k : κ} {value : α} {entries : List (κ × α)}

/-- `d[key] = value`, for one entry after another. -/
def setItems (d : PyDict κ α) (entries : List (κ × α)) : PyDict κ α :=
  entries.foldl (fun d entry => d.setItem entry.1 entry.2) d

theorem get?_setItems_of_ne (others : ∀ entry ∈ entries, entry.1 ≠ k) (d : PyDict κ α) :
    (d.setItems entries).get? k = d.get? k := by
  induction entries generalizing d with
  | nil => rfl
  | cons entry entries ih =>
      obtain ⟨other, others⟩ := List.forall_mem_cons.mp others
      exact (ih others _).trans (by rw [get?_setItem, if_neg other.symm])

/-- Entries of one key that have one value leave it. -/
theorem get?_setItems_of_mem (member : (k, value) ∈ entries)
    (agree : ∀ entry ∈ entries, entry.1 = k → entry.2 = value) (d : PyDict κ α) :
    (d.setItems entries).get? k = some value := by
  induction entries generalizing d with
  | nil => cases member
  | cons entry entries ih =>
      obtain ⟨first, agree⟩ := List.forall_mem_cons.mp agree
      by_cases again : ∃ later ∈ entries, later.1 = k
      · obtain ⟨later, there, rfl⟩ := again
        obtain rfl := agree later there rfl
        exact ih there agree _
      · have others : ∀ later ∈ entries, later.1 ≠ k := fun later there same =>
          again ⟨later, there, same⟩
        rcases List.mem_cons.mp member with rfl | there
        · exact (get?_setItems_of_ne others _).trans (by rw [get?_setItem, if_pos rfl])
        · exact absurd rfl (others _ there)

/-- What is written is one of the entries. -/
theorem mem_of_get?_setItems (read : (empty.setItems entries).get? k = some value) :
    ∃ entry ∈ entries, entry.1 = k := by
  by_contra fresh
  have others : ∀ entry ∈ entries, entry.1 ≠ k := fun entry member same =>
    fresh ⟨entry, member, same⟩
  rw [get?_setItems_of_ne others] at read
  cases read

/-- Entries that agree on every key they share are what is read of them. -/
theorem get?_setItems_iff (agree : ∀ entry ∈ entries, ∀ entry' ∈ entries, entry.1 = entry'.1 →
    entry.2 = entry'.2) : (empty.setItems entries).get? k = some value ↔ (k, value) ∈ entries := by
  constructor
  · intro read
    obtain ⟨⟨_, v⟩, member, rfl⟩ := mem_of_get?_setItems read
    have written := get?_setItems_of_mem member (fun entry there same =>
      agree entry there _ member same) empty
    obtain rfl := Option.some.inj (read.symm.trans written)
    exact member
  · exact fun member => get?_setItems_of_mem member
      (fun entry there same => agree entry there _ member same) empty

/-- A dictionary written from the items of another: what every item writes under a name, for one
key only, is read from that key. -/
theorem get?_setItems_flatMap {κ' α' : Type} [DecidableEq κ'] {d : PyDict κ' α'} {key : κ'}
    {lines : κ' × α' → List (κ × α)} {f : α' → α} (written : ∀ v, (k, f v) ∈ lines (key, v))
    (only : ∀ item, ∀ line ∈ lines item, line.1 = k → item.1 = key ∧ line.2 = f item.2) :
    (empty.setItems (d.items.flatMap lines)).get? k = (d.get? key).map f := by
  cases read : d.get? key with
  | none =>
      refine get?_setItems_of_ne (fun line member same => ?_) _
      obtain ⟨item, there, member⟩ := List.mem_flatMap.mp member
      obtain ⟨rfl, -⟩ := only item line member same
      rw [get?_of_mem there] at read
      cases read
  | some v =>
      refine get?_setItems_of_mem (List.mem_flatMap.mpr ⟨_, mem_of_get? read, written v⟩) ?_ _
      intro line member same
      obtain ⟨item, there, member⟩ := List.mem_flatMap.mp member
      obtain ⟨rfl, value⟩ := only item line member same
      rw [get?_of_mem there] at read
      rw [value, Option.some.inj read]

end Many

end PyDict

end CentaurApex.Theory
