/-
# Theory.Json -- JSON values, and what untyped code does with them

The value behind a JSON text, after parsing and before printing.  Integers and
floating-point numbers are kept apart, as the parsers at both ends keep them; an
object is a list of fields, looked up by key (`Json.get?`).

The second half is Python's view of such a value: truth, `key in value`, item
access, `float(value)`, and arithmetic that raises on the wrong type.  An
exception is a value (`PyError`) with the message it was raised with.  `contains`
has three readings: the keys of a dict and not what is nested below them, the
parts of a string, the members of a list.  Reading a float from text is a
parameter.
-/
import CentaurApex.Theory.DecimalFloat
import Mathlib.Data.List.Forall2

namespace CentaurApex.Theory

open CentaurApex.Theory.ExtNum (fin)

set_option autoImplicit false

inductive Json where
  | null
  | bool (b : Bool)
  | int (n : ℤ)
  | float (x : ExtNum ℚ)
  | str (s : String)
  | arr (items : List Json)
  | obj (fields : List (String × Json))

/-- The value of a field: `none` where there is no such field, or no fields. -/
def Json.get? : Json → String → Option Json
  | .obj fields, key => fields.lookup key
  | _, _ => none

namespace Python

/-- An exception; a message that formats a value carries the value. -/
inductive PyError where
  | connectionError (message : String)
  | permissionError (message : String)
  | valueError (message : String) (got : Option (ExtNum ℚ))
  | keyError (key : String)
  | typeError
  | attributeError
  | overflowError
  | zeroDivisionError
  | socketError
  | structError
  | decodeError
  | validationError
  deriving DecidableEq, Repr

abbrev Dict := List (String × Json)

section Raising

variable {α β ε : Type}

/-- A renamed exception is an exception. -/
theorem mapError_ok_iff {ε' : Type} {x : Except ε α} {f : ε → ε'} {a : α} :
    x.mapError f = .ok a ↔ x = .ok a := by
  cases x with
  | error e => exact ⟨fun h => (by cases h), fun h => (by cases h)⟩
  | ok b => exact ⟨fun h => congrArg Except.ok (Except.ok.inj h), fun h => by rw [h]; rfl⟩

/-- Two steps return when each of them does. -/
theorem bind_ok_iff {x : Except ε α} {f : α → Except ε β} {b : β} :
    x >>= f = .ok b ↔ ∃ a, x = .ok a ∧ f a = .ok b := by
  cases x with
  | error e => exact ⟨fun h => (by cases h), fun ⟨_, h, _⟩ => (by cases h)⟩
  | ok a => exact ⟨fun h => ⟨a, rfl, h⟩, fun ⟨_, rfl, h⟩ => h⟩

/-- A loop over a list returns when each of its rounds does. -/
theorem mapM_ok_iff {f : α → Except ε β} {xs : List α} {ys : List β} :
    xs.mapM f = .ok ys ↔ List.Forall₂ (fun x y => f x = .ok y) xs ys := by
  induction xs generalizing ys with
  | nil =>
      rw [List.mapM_nil, List.forall₂_nil_left_iff]
      exact ⟨fun same => (Except.ok.inj same).symm, fun same => congrArg Except.ok same.symm⟩
  | cons x xs ih =>
      rw [List.mapM_cons, List.forall₂_cons_left_iff, bind_ok_iff]
      constructor
      · rintro ⟨y, first, mapped⟩
        obtain ⟨others, rest, same⟩ := bind_ok_iff.mp mapped
        exact ⟨y, others, first, ih.mp rest, (Except.ok.inj same).symm⟩
      · rintro ⟨y, others, first, rest, rfl⟩
        exact ⟨y, first, bind_ok_iff.mpr ⟨others, ih.mpr rest, rfl⟩⟩

end Raising

/-! ## Values -/

/-- `bool(value)`. -/
def truthy : Json → Bool
  | .null => false
  | .bool b => b
  | .int n => n ≠ 0
  | .float x => x ≠ fin 0
  | .str s => s ≠ ""
  | .arr items => !items.isEmpty
  | .obj fields => !fields.isEmpty

/-- `value or other`. -/
def orElse (value other : Json) : Json := if truthy value then value else other

/-- `d.get(key, other)`. -/
def get (d : Dict) (key : String) (other : Json) : Json := (d.lookup key).getD other

/-- `d.setdefault(key, value)`. -/
def setDefault (d : Dict) (key : String) (value : Json) : Dict :=
  if (d.lookup key).isSome then d else d ++ [(key, value)]

/-- `value[key]`. -/
def item (value : Json) (key : String) : Except PyError Json :=
  match value with
  | .obj fields =>
      match fields.lookup key with
      | some field => .ok field
      | none => .error (.keyError key)
  | _ => .error .typeError

/-- `value.get(key, other)`: only a dict has a `get`. -/
def getMethod (value : Json) (key : String) (other : Json) : Except PyError Json :=
  match value with
  | .obj fields => .ok (get fields key other)
  | _ => .error .attributeError

/-- `key in s`, on the characters of a string. -/
def isPart (key : List Char) : List Char → Bool
  | [] => key.isEmpty
  | c :: cs => key.isPrefixOf (c :: cs) || isPart key cs

/-- `key in value`: a key of a dict, a part of a string, a member of a list. -/
def contains (key : String) : Json → Except PyError Bool
  | .obj fields => .ok (fields.lookup key).isSome
  | .str s => .ok (isPart key.toList s.toList)
  | .arr items => .ok (items.any fun i => match i with | .str s => s = key | _ => false)
  | _ => .error .typeError

/-! ## Numbers -/

/-- `float(n)` of an int: rounded, and refused where it would be an infinity. -/
def floatOfInt (n : ℤ) : Except PyError (ExtNum ℚ) :=
  match toBinary64 n with
  | .fin x => .ok (fin x)
  | _ => .error .overflowError

/-- An int of at most 53 bits is not rounded. -/
theorem floatOfInt_small {n : ℤ} (small : |n| < 2 ^ 53) : floatOfInt n = .ok (fin n) := by
  unfold floatOfInt
  simp only [toBinary64_intCast small]

/-- A value in arithmetic: only numbers take part. -/
def number : Json → Except PyError (ExtNum ℚ)
  | .float x => .ok x
  | .int n => floatOfInt n
  | .bool b => .ok (if b then fin 1 else fin 0)
  | _ => .error .typeError

/-- `float(value)`; `ofText` reads a string. -/
def toFloat (ofText : String → Option (ExtNum ℚ)) : Json → Except PyError (ExtNum ℚ)
  | .str s =>
      match ofText s with
      | some x => .ok x
      | none => .error (.valueError "could not convert string to float" none)
  | value => number value

/-- `max(a, b)`: the first of the two unless the second is greater. -/
def max2 (a b : ExtNum ℚ) : ExtNum ℚ := if a < b then b else a

theorem max2_fin (a b : ℚ) : max2 (fin a) (fin b) = fin (max a b) := by
  unfold max2
  rcases lt_or_ge a b with less | more
  · rw [if_pos (ExtNum.fin_lt_fin.mpr less), max_eq_right less.le]
  · rw [if_neg (mt ExtNum.fin_lt_fin.mp (not_lt.mpr more)), max_eq_left more]

/-- `int(x // y)`: a quotient that is not a number has no integer. -/
def intFloorDiv (x y : ExtNum ℚ) : Except PyError ℤ :=
  if y = fin 0 then .error .zeroDivisionError
  else
    match x, y with
    | fin a, fin b => .ok ⌊a / b⌋
    | fin a, .posInf => .ok (if a < 0 then -1 else 0)
    | fin a, .negInf => .ok (if 0 < a then -1 else 0)
    | _, _ => .error (.valueError "cannot convert float NaN to integer" none)

/-- `round(x, 2)`: the nearest hundredth, ties to even. -/
def round2 : ExtNum ℚ → ExtNum ℚ
  | .fin q => fin (roundHalfEven (q * 100) / 100)
  | x => x

end Python

end CentaurApex.Theory
