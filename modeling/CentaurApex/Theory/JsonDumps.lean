/-
# Theory.JsonDumps -- what `json.dumps` makes of a value, and how long it is

`json.dumps` walks a Python value and raises at the first part it has no JSON for: an
object of another type, a key that is no scalar, an integer of too many digits
(`PyValue.tree`).

A JSON text that becomes a string of another JSON text is escaped once more there: each
quotation mark and each backslash of it takes two characters (`quotedSize`).  How many
that makes can be counted on the value, without writing it (`PyValue.wireSize`).

* `tree_of_dumpable`: a dumpable value is written, and takes as many characters in a
  string as were counted.
* `tree_of_not_dumpable`: any other value raises.
* `dumps_read`: what is written of a `Clean` value, its keys sorted or not, is JSON.
-/
import CentaurApex.Theory.Json
import CentaurApex.Theory.JsonReader
import Mathlib.Data.List.Sort

namespace CentaurApex.Theory

open CentaurApex.Theory.Python (PyError)

set_option autoImplicit false

/-! ## Values -/

/-- A value that `json.dumps` is given, over the floats `φ`. -/
inductive PyValue (φ : Type) where
  | none
  | bool (value : Bool)
  | int (value : ℤ)
  | float (value : φ)
  | str (value : PyStr)
  | list (items : List (PyValue φ))
  | dict (items : List (PyValue φ × PyValue φ))
  /-- What has no JSON, and the exception that says so. -/
  | other (raised : PyError)

/-- A printable character that no string escapes. -/
def IsPlainChar (c : Char) : Prop :=
  32 ≤ c.toNat ∧ c.toNat < 127 ∧ c.toNat ≠ 34 ∧ c.toNat ≠ 92

instance (c : Char) : Decidable (IsPlainChar c) := inferInstanceAs (Decidable (_ ∧ _))

/-- How floats are printed: `float.__repr__`, and the three names of `json` for what is
no number.  A float that is written has no quotation mark in it. -/
structure FloatRepr (φ : Type) where
  text : φ → List Char
  plain : ∀ x, ∀ c ∈ text x, IsPlainChar c

/-- `int.__repr__`. -/
def intChars : ℤ → List Char
  | .ofNat n => Nat.toDigits 10 n
  | .negSucc n => '-' :: Nat.toDigits 10 (n + 1)

/-- `sys.get_int_max_str_digits()`, as it is by default. -/
def maxStrDigits : ℕ := 4300

def ShortInt (n : ℤ) : Prop := (Nat.toDigits 10 n.natAbs).length ≤ maxStrDigits

instance (n : ℤ) : Decidable (ShortInt n) := inferInstanceAs (Decidable (_ ≤ _))

def intText (n : ℤ) : Except PyError (List Char) :=
  if ShortInt n then .ok (intChars n)
  else .error (.valueError "Exceeds the limit (4300 digits) for integer string conversion" .none)

namespace PyValue

section Tree

variable {φ : Type} (repr : FloatRepr φ)

/-- The string a key of a dictionary is written as. -/
def keyText : PyValue φ → Except PyError PyStr
  | .str s => .ok s
  | .float x => .ok (.ofChars (repr.text x))
  | .bool true => .ok (.ofString "true")
  | .bool false => .ok (.ofString "false")
  | .none => .ok (.ofString "null")
  | .int n => (intText n).map .ofChars
  | _ => .error .typeError

mutual

/-- The walk of the encoder over a value. -/
def tree : PyValue φ → Except PyError JsonTree
  | .none => .ok .null
  | .bool value => .ok (.bool value)
  | .int n => (intText n).map .number
  | .float x => .ok (.number (repr.text x))
  | .str s => .ok (.str s)
  | .list items => (itemTrees items).map .arr
  | .dict items => (fieldTrees items).map .obj
  | .other raised => .error raised

def itemTrees : List (PyValue φ) → Except PyError (List JsonTree)
  | [] => .ok []
  | item :: items =>
      (tree item).bind fun first => (itemTrees items).map fun others => first :: others

def fieldTrees : List (PyValue φ × PyValue φ) → Except PyError (List (PyStr × JsonTree))
  | [] => .ok []
  | (key, value) :: items =>
      (keyText repr key).bind fun name => (tree value).bind fun first =>
        (fieldTrees items).map fun others => (name, first) :: others

end

/-- `json.dumps`, with its defaults. -/
def dumps (value : PyValue φ) : Except PyError (List Char) :=
  (tree repr value).map fun tree => tree.write JsonTree.asciiEscaping [' ']

end Tree

mutual

/-- A value that is nothing but JSON. -/
def ofJson : Json → PyValue (ExtNum ℚ)
  | .null => .none
  | .bool value => .bool value
  | .int n => .int n
  | .float x => .float x
  | .str s => .str (.ofString s)
  | .arr items => .list (ofItems items)
  | .obj fields => .dict (ofFields fields)

def ofItems : List Json → List (PyValue (ExtNum ℚ))
  | [] => []
  | item :: items => ofJson item :: ofItems items

def ofFields : List (String × Json) → List (PyValue (ExtNum ℚ) × PyValue (ExtNum ℚ))
  | [] => []
  | (key, value) :: fields => (.str (.ofString key), ofJson value) :: ofFields fields

end

/-! ## What is written at all -/

section Dumpable

variable {φ : Type}

def DumpableKey : PyValue φ → Prop
  | .int n => ShortInt n
  | .list _ => False
  | .dict _ => False
  | .other _ => False
  | _ => True

mutual

def Dumpable : PyValue φ → Prop
  | .int n => ShortInt n
  | .list items => DumpableItems items
  | .dict items => DumpableFields items
  | .other _ => False
  | _ => True

def DumpableItems : List (PyValue φ) → Prop
  | [] => True
  | item :: items => Dumpable item ∧ DumpableItems items

def DumpableFields : List (PyValue φ × PyValue φ) → Prop
  | [] => True
  | (key, value) :: items => DumpableKey key ∧ Dumpable value ∧ DumpableFields items

end

end Dumpable

end PyValue

/-! ## What a string takes -/

/-- The characters a code point takes that is escaped twice. -/
def unitSize (c : CodePoint) : ℕ :=
  if c.val = 34 ∨ c.val = 92 then 4
  else if c.val = 8 ∨ c.val = 9 ∨ c.val = 10 ∨ c.val = 12 ∨ c.val = 13 then 3
  else if 32 ≤ c.val ∧ c.val < 127 then 1
  else if c.val < 0x10000 then 7
  else 14

/-- The characters a string takes, its quotation marks included. -/
def stringSize (s : PyStr) : ℕ := 4 + (s.map unitSize).sum

namespace PyValue

section Size

variable {φ : Type} (repr : FloatRepr φ)

/-- A key that is no string is written as one. -/
def keySize : PyValue φ → ℕ
  | .none => 8
  | .bool true => 8
  | .bool false => 9
  | .int n => 4 + (intChars n).length
  | .float x => 4 + (repr.text x).length
  | .str s => stringSize s
  | _ => 0

mutual

/-- The characters a value takes in a string that its text is written into. -/
def wireSize : PyValue φ → ℕ
  | .none => 4
  | .bool true => 4
  | .bool false => 5
  | .int n => (intChars n).length
  | .float x => (repr.text x).length
  | .str s => stringSize s
  | .list items => 2 + (itemsSize items + 2 * (items.length - 1))
  | .dict items => 2 + (fieldsSize items + 2 * (items.length - 1))
  | .other _ => 0

def itemsSize : List (PyValue φ) → ℕ
  | [] => 0
  | item :: items => wireSize item + itemsSize items

def fieldsSize : List (PyValue φ × PyValue φ) → ℕ
  | [] => 0
  | (key, value) :: items => keySize repr key + (2 + wireSize value) + fieldsSize items

end

end Size

end PyValue

/-! ## What the text takes in a string -/

/-- The characters a text takes in a string of another text, between its quotation marks. -/
def quotedSize (text : List Char) : ℕ :=
  (text.map fun c => (JsonTree.escapeAscii (.ofChar c)).length).sum

section Quoted

open JsonTree (escapeAscii shortEscape unitEscape hexChar row writeString)

@[simp] theorem quotedSize_nil : quotedSize [] = 0 := rfl

@[simp] theorem quotedSize_cons (c : Char) (text : List Char) :
    quotedSize (c :: text) = (escapeAscii (.ofChar c)).length + quotedSize text := rfl

@[simp] theorem quotedSize_append (text others : List Char) :
    quotedSize (text ++ others) = quotedSize text + quotedSize others := by
  rw [quotedSize, List.map_append, List.sum_append]
  rfl

/-- The length of the text in the string. -/
theorem length_flatMap_escapeAscii (text : List Char) :
    ((PyStr.ofChars text).flatMap escapeAscii).length = quotedSize text := by
  rw [PyStr.ofChars, List.flatMap_map, List.length_flatMap]
  rfl

theorem escapeAscii_of_plain {c : Char} (plain : IsPlainChar c) :
    escapeAscii (.ofChar c) = [c] := by
  obtain ⟨from_, below, quote, backslash⟩ := plain
  have val : (CodePoint.ofChar c).val = c.toNat := rfl
  have short : shortEscape (.ofChar c) = none := by
    simp only [shortEscape, val]
    rw [if_neg quote, if_neg backslash, if_neg (by omega), if_neg (by omega), if_neg (by omega),
      if_neg (by omega), if_neg (by omega)]
  rw [escapeAscii, short]
  simp only [val, if_pos (And.intro from_ below), CodePoint.char?_ofChar, Option.toList_some]

theorem quotedSize_of_plain {text : List Char} (plain : ∀ c ∈ text, IsPlainChar c) :
    quotedSize text = text.length := by
  induction text with
  | nil => rfl
  | cons c text ih =>
      obtain ⟨here, others⟩ := List.forall_mem_cons.mp plain
      rw [quotedSize_cons, escapeAscii_of_plain here, ih others, List.length_singleton,
        List.length_cons, Nat.add_comm]

theorem isPlainChar_hexChar : ∀ n < 16, IsPlainChar (hexChar n) := by decide

/-- `\\uXXXX`: the backslash is escaped, and the rest is plain. -/
theorem quotedSize_unitEscape (n : ℕ) : quotedSize (unitEscape n) = 7 := by
  have digit (n : ℕ) : (escapeAscii (.ofChar (hexChar (n % 16)))).length = 1 := by
    rw [escapeAscii_of_plain (isPlainChar_hexChar _ (n.mod_lt (by decide))), List.length_singleton]
  have backslash : (escapeAscii (.ofChar '\\')).length = 2 := by decide
  have letter : (escapeAscii (.ofChar 'u')).length = 1 := by decide
  simp only [unitEscape, quotedSize_cons, quotedSize_nil, digit, backslash, letter]

theorem unitSize_of_short {c : CodePoint} {e : Char} (short : shortEscape c = some e) :
    quotedSize ['\\', e] = unitSize c := by
  unfold unitSize
  rw [shortEscape] at short
  split_ifs at short with quote backslash b f n r t <;> obtain rfl := Option.some.inj short
  · rw [if_pos (.inl quote)]
    decide
  · rw [if_pos (.inr backslash)]
    decide
  all_goals
    rw [if_neg (by omega), if_pos (by omega)]
    decide

theorem unitSize_of_long {c : CodePoint} (long : shortEscape c = none) :
    unitSize c = if 32 ≤ c.val ∧ c.val < 127 then 1 else if c.val < 0x10000 then 7 else 14 := by
  unfold unitSize
  rw [shortEscape] at long
  split_ifs at long with quote backslash b f n r t
  rw [if_neg (by omega), if_neg (by omega)]

/-- **A code point, escaped twice.** -/
theorem quotedSize_escapeAscii (c : CodePoint) : quotedSize (escapeAscii c) = unitSize c := by
  unfold escapeAscii
  cases short : shortEscape c with
  | some e => exact unitSize_of_short short
  | none =>
      rw [unitSize_of_long short]
      simp only
      split_ifs with printable first
      · have text : ¬ c.IsSurrogate := fun surrogate => by
          have := surrogate.1
          omega
        obtain ⟨char, found⟩ := CodePoint.exists_char? text
        obtain rfl := CodePoint.eq_ofChar_of_char? found
        rw [found, Option.toList_some, quotedSize_cons, escapeAscii, short]
        simp only [if_pos printable, CodePoint.char?_ofChar, Option.toList_some,
          List.length_singleton, quotedSize_nil]
      · exact quotedSize_unitEscape _
      · rw [quotedSize_append, quotedSize_unitEscape, quotedSize_unitEscape]

theorem quotedSize_writeString (s : PyStr) :
    quotedSize (writeString JsonTree.asciiEscaping s) = stringSize s := by
  have quote : (escapeAscii (.ofChar '"')).length = 2 := by decide
  have units : quotedSize (s.flatMap escapeAscii) = (s.map unitSize).sum := by
    induction s with
    | nil => rfl
    | cons c s ih =>
        rw [List.flatMap_cons, quotedSize_append, quotedSize_escapeAscii, ih, List.map_cons,
          List.sum_cons]
  have text : quotedSize (s.flatMap JsonTree.asciiEscaping.escape) = (s.map unitSize).sum := units
  rw [writeString, quotedSize_cons, quotedSize_append, text, quotedSize_cons, quote, stringSize,
    quotedSize_nil]
  omega

theorem stringSize_of_plain {text : List Char} (plain : ∀ c ∈ text, IsPlainChar c) :
    stringSize (.ofChars text) = 4 + text.length := by
  rw [stringSize]
  congr 1
  induction text with
  | nil => rfl
  | cons c text ih =>
      obtain ⟨⟨from_, below, quote, backslash⟩, others⟩ := List.forall_mem_cons.mp plain
      have one : unitSize (.ofChar c) = 1 := by
        show unitSize ⟨c.toNat, _⟩ = 1
        unfold unitSize
        rw [if_neg (by simp only; omega), if_neg (by simp only; omega), if_pos ⟨from_, below⟩]
      have rest := ih others
      simp only [PyStr.ofChars, List.map_cons, List.sum_cons, List.length_cons] at rest ⊢
      omega

theorem quotedSize_row (texts : List (List Char)) :
    quotedSize (row [' '] texts) = (texts.map quotedSize).sum + 2 * (texts.length - 1) := by
  have comma : (escapeAscii (.ofChar ',')).length = 1 := by decide
  have blank : (escapeAscii (.ofChar ' ')).length = 1 := by decide
  induction texts with
  | nil => rfl
  | cons text texts ih =>
      cases texts with
      | nil => simp [row]
      | cons next texts =>
          rw [row, quotedSize_append, quotedSize_cons, quotedSize_append, quotedSize_cons, ih, comma,
            blank, quotedSize_nil]
          simp only [List.map_cons, List.sum_cons, List.length_cons]
          omega

/-- A row between two brackets. -/
theorem quotedSize_bracketed {left right : Char} (plain : IsPlainChar left)
    (plain' : IsPlainChar right) (texts : List (List Char)) :
    quotedSize (left :: (row [' '] texts ++ [right])) =
      2 + ((texts.map quotedSize).sum + 2 * (texts.length - 1)) := by
  rw [quotedSize_cons, quotedSize_append, quotedSize_cons, quotedSize_row,
    escapeAscii_of_plain plain, escapeAscii_of_plain plain', quotedSize_nil]
  simp only [List.length_singleton]
  omega

end Quoted

namespace PyValue

section Spec

open JsonTree (asciiEscaping write writeItems writeFields writeString)

variable {φ : Type} (repr : FloatRepr φ)

theorem isPlainChar_of_digit {c : Char} (digit : c.isDigit) : IsPlainChar c := by
  simp only [Char.isDigit, ge_iff_le, Bool.and_eq_true, decide_eq_true_eq, UInt32.le_iff_toNat_le] at digit
  obtain ⟨from_, to_⟩ := digit
  change 48 ≤ c.toNat at from_
  change c.toNat ≤ 57 at to_
  unfold IsPlainChar
  omega

theorem intChars_plain (n : ℤ) : ∀ c ∈ intChars n, IsPlainChar c := by
  have digits (n : ℕ) : ∀ c ∈ Nat.toDigits 10 n, IsPlainChar c := fun c member =>
    isPlainChar_of_digit (Nat.isDigit_of_mem_toDigits (by decide) (by decide) member)
  cases n with
  | ofNat n => exact digits n
  | negSucc n => exact List.forall_mem_cons.mpr ⟨by decide, digits (n + 1)⟩

theorem intText_of_short {n : ℤ} (short : ShortInt n) : intText n = .ok (intChars n) := if_pos short

theorem intText_of_long {n : ℤ} (long : ¬ ShortInt n) : ∃ raised, intText n = .error raised :=
  ⟨_, if_neg long⟩

theorem keyText_of_dumpable {key : PyValue φ} (dumpable : DumpableKey key) :
    ∃ name, keyText repr key = .ok name ∧ stringSize name = keySize repr key := by
  cases key with
  | none => exact ⟨_, rfl, show stringSize (.ofString "null") = 8 by decide⟩
  | bool value =>
      cases value with
      | true => exact ⟨_, rfl, show stringSize (.ofString "true") = 8 by decide⟩
      | false => exact ⟨_, rfl, show stringSize (.ofString "false") = 9 by decide⟩
  | int n =>
      refine ⟨.ofChars (intChars n), ?_, stringSize_of_plain (intChars_plain n)⟩
      rw [keyText, intText_of_short dumpable]
      rfl
  | float x => exact ⟨_, rfl, stringSize_of_plain (repr.plain x)⟩
  | str s => exact ⟨s, rfl, rfl⟩
  | list => exact dumpable.elim
  | dict => exact dumpable.elim
  | other => exact dumpable.elim

theorem keyText_of_not_dumpable {key : PyValue φ} (not_ : ¬ DumpableKey key) :
    ∃ raised, keyText repr key = .error raised := by
  cases key with
  | int n =>
      obtain ⟨raised, long⟩ := intText_of_long not_
      exact ⟨raised, by rw [keyText, long]; rfl⟩
  | list => exact ⟨_, rfl⟩
  | dict => exact ⟨_, rfl⟩
  | other => exact ⟨_, rfl⟩
  | none => exact absurd trivial not_
  | bool => exact absurd trivial not_
  | float => exact absurd trivial not_
  | str => exact absurd trivial not_

mutual

/-- **A dumpable value is written**, and its text takes what was counted. -/
theorem tree_of_dumpable : ∀ {value : PyValue φ}, Dumpable value →
    ∃ written, tree repr value = .ok written ∧
      quotedSize (written.write asciiEscaping [' ']) = wireSize repr value
  | .none, _ => ⟨.null, rfl, show quotedSize "null".toList = 4 by decide⟩
  | .bool true, _ => ⟨.bool true, rfl, show quotedSize "true".toList = 4 by decide⟩
  | .bool false, _ => ⟨.bool false, rfl, show quotedSize "false".toList = 5 by decide⟩
  | .int n, dumpable => by
      refine ⟨.number (intChars n), ?_, quotedSize_of_plain (intChars_plain n)⟩
      rw [tree, intText_of_short dumpable]
      rfl
  | .float x, _ => ⟨.number (repr.text x), rfl, quotedSize_of_plain (repr.plain x)⟩
  | .str s, _ => ⟨.str s, rfl, quotedSize_writeString s⟩
  | .list items, dumpable => by
      obtain ⟨written, walked, length, size⟩ := itemTrees_of_dumpable dumpable
      refine ⟨.arr written, ?_, ?_⟩
      · rw [tree, walked]
        rfl
      · rw [write, quotedSize_bracketed (by decide) (by decide), length, size, wireSize]
  | .dict items, dumpable => by
      obtain ⟨written, walked, length, size⟩ := fieldTrees_of_dumpable dumpable
      refine ⟨.obj written, ?_, ?_⟩
      · rw [tree, walked]
        rfl
      · rw [write, quotedSize_bracketed (by decide) (by decide), length, size, wireSize]

theorem itemTrees_of_dumpable : ∀ {items : List (PyValue φ)}, DumpableItems items →
    ∃ written, itemTrees repr items = .ok written ∧
      (writeItems asciiEscaping [' '] written).length = items.length ∧
      ((writeItems asciiEscaping [' '] written).map quotedSize).sum = itemsSize repr items
  | [], _ => ⟨[], rfl, rfl, rfl⟩
  | item :: items, dumpable => by
      obtain ⟨first, walked, size⟩ := tree_of_dumpable dumpable.1
      obtain ⟨others, walked', length, size'⟩ := itemTrees_of_dumpable dumpable.2
      refine ⟨first :: others, ?_, ?_, ?_⟩
      · rw [itemTrees, walked, walked']
        rfl
      · rw [writeItems, List.length_cons, length, List.length_cons]
      · rw [writeItems, List.map_cons, List.sum_cons, size, size', itemsSize]

theorem fieldTrees_of_dumpable : ∀ {items : List (PyValue φ × PyValue φ)}, DumpableFields items →
    ∃ written, fieldTrees repr items = .ok written ∧
      (writeFields asciiEscaping [' '] written).length = items.length ∧
      ((writeFields asciiEscaping [' '] written).map quotedSize).sum = fieldsSize repr items
  | [], _ => ⟨[], rfl, rfl, rfl⟩
  | (key, value) :: items, dumpable => by
      obtain ⟨name, named, keyed⟩ := keyText_of_dumpable repr dumpable.1
      obtain ⟨first, walked, size⟩ := tree_of_dumpable dumpable.2.1
      obtain ⟨others, walked', length, size'⟩ := fieldTrees_of_dumpable dumpable.2.2
      have colon : (JsonTree.escapeAscii (.ofChar ':')).length = 1 := by decide
      have blank : (JsonTree.escapeAscii (.ofChar ' ')).length = 1 := by decide
      refine ⟨(name, first) :: others, ?_, ?_, ?_⟩
      · rw [fieldTrees, named, walked, walked']
        rfl
      · rw [writeFields, List.length_cons, length, List.length_cons]
      · rw [writeFields, List.map_cons, List.sum_cons, size', fieldsSize, quotedSize_append,
          quotedSize_writeString, keyed, quotedSize_cons, quotedSize_append, quotedSize_cons, size,
          colon, blank, quotedSize_nil]
        omega

end

mutual

/-- **Any other value raises.** -/
theorem tree_of_not_dumpable : ∀ {value : PyValue φ}, ¬ Dumpable value →
    ∃ raised, tree repr value = .error raised
  | .none, not_ => absurd trivial not_
  | .bool _, not_ => absurd trivial not_
  | .int n, not_ => by
      obtain ⟨raised, long⟩ := intText_of_long not_
      exact ⟨raised, by rw [tree, long]; rfl⟩
  | .float _, not_ => absurd trivial not_
  | .str _, not_ => absurd trivial not_
  | .list items, not_ => by
      obtain ⟨raised, walked⟩ := itemTrees_of_not_dumpable not_
      exact ⟨raised, by rw [tree, walked]; rfl⟩
  | .dict items, not_ => by
      obtain ⟨raised, walked⟩ := fieldTrees_of_not_dumpable not_
      exact ⟨raised, by rw [tree, walked]; rfl⟩
  | .other raised, _ => ⟨raised, rfl⟩

theorem itemTrees_of_not_dumpable : ∀ {items : List (PyValue φ)}, ¬ DumpableItems items →
    ∃ raised, itemTrees repr items = .error raised
  | [], not_ => absurd trivial not_
  | item :: items, not_ => by
      by_cases here : Dumpable item
      · obtain ⟨first, walked, -⟩ := tree_of_dumpable repr here
        obtain ⟨raised, walked'⟩ := itemTrees_of_not_dumpable fun others => not_ ⟨here, others⟩
        exact ⟨raised, by rw [itemTrees, walked, walked']; rfl⟩
      · obtain ⟨raised, walked⟩ := tree_of_not_dumpable here
        exact ⟨raised, by rw [itemTrees, walked]; rfl⟩

theorem fieldTrees_of_not_dumpable : ∀ {items : List (PyValue φ × PyValue φ)},
    ¬ DumpableFields items → ∃ raised, fieldTrees repr items = .error raised
  | [], not_ => absurd trivial not_
  | (key, value) :: items, not_ => by
      by_cases keyed : DumpableKey key
      · obtain ⟨name, named, -⟩ := keyText_of_dumpable repr keyed
        by_cases here : Dumpable value
        · obtain ⟨first, walked, -⟩ := tree_of_dumpable repr here
          obtain ⟨raised, walked'⟩ :=
            fieldTrees_of_not_dumpable fun others => not_ ⟨keyed, here, others⟩
          exact ⟨raised, by rw [fieldTrees, named, walked, walked']; rfl⟩
        · obtain ⟨raised, walked⟩ := tree_of_not_dumpable here
          exact ⟨raised, by rw [fieldTrees, named, walked]; rfl⟩
      · obtain ⟨raised, named⟩ := keyText_of_not_dumpable repr keyed
        exact ⟨raised, by rw [fieldTrees, named]; rfl⟩

end

theorem dumps_of_dumpable {value : PyValue φ} (dumpable : Dumpable value) :
    ∃ text, dumps repr value = .ok text ∧ quotedSize text = wireSize repr value := by
  obtain ⟨written, walked, size⟩ := tree_of_dumpable repr dumpable
  exact ⟨_, by rw [dumps, walked]; rfl, size⟩

theorem dumps_of_not_dumpable {value : PyValue φ} (not_ : ¬ Dumpable value) :
    ∃ raised, dumps repr value = .error raised := by
  obtain ⟨raised, walked⟩ := tree_of_not_dumpable repr not_
  exact ⟨raised, by rw [dumps, walked]; rfl⟩

theorem dumpableItems_iff {items : List (PyValue φ)} :
    DumpableItems items ↔ ∀ item ∈ items, Dumpable item := by
  induction items with
  | nil => simp [DumpableItems]
  | cons item items ih => rw [DumpableItems, ih, List.forall_mem_cons]

end Spec

end PyValue

/-! ## The bytes -/

section Bytes

open JsonTree (escapeAscii shortEscape unitEscape hexChar)

/-- A text in ASCII takes one byte a character. -/
theorem length_utf8_of_ascii {text : List Char} (ascii : ∀ c ∈ text, c.toNat < 128) :
    (utf8 text).length = text.length := by
  induction text with
  | nil => rfl
  | cons c text ih =>
      obtain ⟨here, others⟩ := List.forall_mem_cons.mp ascii
      have one : c.utf8Size = 1 := Char.utf8Size_eq_one_iff.mpr (Nat.le_of_lt_succ here)
      rw [utf8, List.flatMap_cons, List.length_append, ← utf8, ih others,
        String.length_utf8EncodeChar, one, List.length_cons, Nat.add_comm]

theorem ascii_of_plain {c : Char} (plain : IsPlainChar c) : c.toNat < 128 :=
  plain.2.1.trans (by decide)

/-- A character that is written as it is, also in a log: no control character. -/
def IsPrintable (c : Char) : Prop := 32 ≤ c.toNat ∧ c.toNat < 128

instance (c : Char) : Decidable (IsPrintable c) := inferInstanceAs (Decidable (_ ∧ _))

theorem printable_of_plain {c : Char} (plain : IsPlainChar c) : IsPrintable c :=
  ⟨plain.1, ascii_of_plain plain⟩

theorem printable_unitEscape (n : ℕ) : ∀ c ∈ unitEscape n, IsPrintable c := by
  have digit (n : ℕ) : IsPrintable (hexChar (n % 16)) :=
    printable_of_plain (isPlainChar_hexChar _ (n.mod_lt (by decide)))
  simp only [unitEscape, List.forall_mem_cons, digit, true_and]
  exact ⟨by decide, by decide, fun _ none_ => absurd none_ List.not_mem_nil⟩

/-- What is written with escapes is in printable ASCII. -/
theorem printable_escapeAscii (c : CodePoint) : ∀ d ∈ escapeAscii c, IsPrintable d := by
  unfold escapeAscii
  cases short : shortEscape c with
  | some e =>
      have letter : IsPrintable e := by
        rw [shortEscape] at short
        split_ifs at short <;> obtain rfl := Option.some.inj short <;> decide
      exact List.forall_mem_cons.mpr ⟨by decide, List.forall_mem_singleton.mpr letter⟩
  | none =>
      simp only
      split_ifs with printable first
      · intro d member
        obtain rfl := CodePoint.eq_ofChar_of_char? (Option.mem_toList.mp member)
        exact ⟨printable.1, printable.2.trans (by decide)⟩
      · exact printable_unitEscape _
      · exact List.forall_mem_append.mpr ⟨printable_unitEscape _, printable_unitEscape _⟩

theorem printable_flatMap_escapeAscii (s : PyStr) : ∀ d ∈ s.flatMap escapeAscii, IsPrintable d := by
  intro d member
  obtain ⟨c, -, inside⟩ := List.mem_flatMap.mp member
  exact printable_escapeAscii c d inside

theorem ascii_flatMap_escapeAscii (s : PyStr) : ∀ d ∈ s.flatMap escapeAscii, d.toNat < 128 :=
  fun d member => (printable_flatMap_escapeAscii s d member).2

/-- A string is written in printable characters. -/
theorem printable_writeString (s : PyStr) :
    ∀ d ∈ JsonTree.writeString JsonTree.asciiEscaping s, IsPrintable d := by
  refine List.forall_mem_cons.mpr ⟨by decide, List.forall_mem_append.mpr ⟨?_, ?_⟩⟩
  · exact printable_flatMap_escapeAscii s
  · exact List.forall_mem_singleton.mpr (by decide)

end Bytes

/-! ## What is written is JSON -/

section Integers

open JsonTree (IsNumber NumberState)
open JsonTree.NumberState (next)

theorem foldlM_digits {n : ℕ} (pos : 0 < n) {s : NumberState}
    (lead : ∀ d < 10, 0 < d → next s (Nat.digitChar d) = some .int) :
    (Nat.toDigits 10 n).foldlM next s = some .int := by
  induction n using Nat.strong_induction_on with
  | _ n ih =>
      rcases Nat.lt_or_ge n 10 with one | more
      · rw [Nat.toDigits_of_lt_base one, List.foldlM_cons, lead n one pos]
        rfl
      · have digit : ∀ d < 10, next .int (Nat.digitChar d) = some .int := by decide
        rw [Nat.toDigits_of_base_le (by decide) more, List.foldlM_append,
          ih (n / 10) (Nat.div_lt_self pos (by decide)) (Nat.div_pos more (by decide))]
        show (do let s ← next .int (Nat.digitChar (n % 10)); List.foldlM next s []) = _
        rw [digit _ (n.mod_lt (by decide))]
        rfl

/-- An integer is a number of JSON. -/
theorem isNumber_intChars (n : ℤ) : IsNumber (intChars n) := by
  cases n with
  | ofNat n =>
      rcases n.eq_zero_or_pos with rfl | pos
      · decide
      · exact ⟨.int, foldlM_digits pos (by decide), .inr (.inl rfl)⟩
  | negSucc n =>
      refine ⟨.int, ?_, .inr (.inl rfl)⟩
      rw [intChars, List.foldlM_cons]
      exact foldlM_digits n.succ_pos (by decide)

/-- An integer of nineteen digits is short. -/
theorem shortInt_of_lt {n : ℕ} (lt : n < 10 ^ 20) : ShortInt n := by
  have digits : (Nat.toDigits 10 n).length ≤ 20 :=
    (Nat.length_toDigits_le_iff (by decide) (by decide)).mpr lt
  exact digits.trans (by decide)

end Integers

namespace PyValue

section Clean

open JsonTree (IsNumber read)
open PyStr (IsText)

variable {φ : Type} (repr : FloatRepr φ)

mutual

/-- Text, floats that print as numbers, and dictionaries with text for keys, one within the other
so many times at most. -/
def Clean : PyValue φ → ℕ → Prop
  | .none, _ => True
  | .bool _, _ => True
  | .int n, _ => ShortInt n
  | .float x, _ => IsNumber (repr.text x)
  | .str s, _ => IsText s
  | .list _, 0 => False
  | .list items, depth + 1 => CleanItems items depth
  | .dict _, 0 => False
  | .dict items, depth + 1 => CleanFields items depth
  | .other _, _ => False

def CleanItems : List (PyValue φ) → ℕ → Prop
  | [], _ => True
  | item :: items, depth => Clean item depth ∧ CleanItems items depth

def CleanFields : List (PyValue φ × PyValue φ) → ℕ → Prop
  | [], _ => True
  | (key, value) :: items, depth =>
      (∃ s, key = .str s ∧ IsText s) ∧ Clean value depth ∧ CleanFields items depth

end

/-- The order of strings: by their code points. -/
def strLe : PyStr → PyStr → Bool
  | [], _ => true
  | _ :: _, [] => false
  | c :: s, d :: t => c.val < d.val || (c.val = d.val && strLe s t)

/-- The order of two keys. -/
def keyLe (a b : PyValue φ × PyValue φ) : Bool :=
  match a.1, b.1 with
  | .str s, .str t => strLe s t
  | _, _ => true

mutual

/-- `sort_keys`, where the keys are strings: by their code points, in every dictionary. -/
def sortKeys : PyValue φ → PyValue φ
  | .list items => .list (sortItems items)
  | .dict items => .dict ((sortFields items).insertionSort (keyLe · ·))
  | value => value

def sortItems : List (PyValue φ) → List (PyValue φ)
  | [] => []
  | item :: items => sortKeys item :: sortItems items

def sortFields : List (PyValue φ × PyValue φ) → List (PyValue φ × PyValue φ)
  | [] => []
  | (key, value) :: items => (key, sortKeys value) :: sortFields items

end

theorem cleanItems_iff {items : List (PyValue φ)} {depth : ℕ} :
    CleanItems repr items depth ↔ ∀ item ∈ items, Clean repr item depth := by
  induction items with
  | nil => simp [CleanItems]
  | cons item items ih => rw [CleanItems, ih, List.forall_mem_cons]

theorem cleanFields_iff {items : List (PyValue φ × PyValue φ)} {depth : ℕ} :
    CleanFields repr items depth ↔
      ∀ item ∈ items, (∃ s, item.1 = .str s ∧ IsText s) ∧ Clean repr item.2 depth := by
  induction items with
  | nil => simp [CleanFields]
  | cons item items ih => rw [CleanFields, ih, List.forall_mem_cons, and_assoc]

/-- A string of text. -/
def text (s : String) : PyValue φ := .str (.ofString s)

/-- A dictionary with names for keys. -/
def record (fields : List (String × PyValue φ)) : PyValue φ :=
  .dict (fields.map fun field => (text field.1, field.2))

theorem clean_text (s : String) (depth : ℕ) : Clean repr (text s) depth :=
  JsonTree.isText_ofString s

/-- All fields are clean. -/
def CleanEach : List (String × PyValue φ) → ℕ → Prop
  | [], _ => True
  | (_, value) :: fields, depth => Clean repr value depth ∧ CleanEach fields depth

theorem cleanEach_append {fields others : List (String × PyValue φ)} {depth : ℕ}
    (first : CleanEach repr fields depth) (second : CleanEach repr others depth) :
    CleanEach repr (fields ++ others) depth := by
  induction fields with
  | nil => exact second
  | cons field fields ih => exact ⟨first.1, ih first.2⟩

theorem clean_record {fields : List (String × PyValue φ)} {depth : ℕ}
    (clean : CleanEach repr fields depth) : Clean repr (record fields) (depth + 1) := by
  show CleanFields repr (fields.map fun field => (text field.1, field.2)) depth
  induction fields with
  | nil => trivial
  | cons field fields ih =>
      exact ⟨⟨_, rfl, JsonTree.isText_ofString field.1⟩, clean.1, ih clean.2⟩

theorem clean_list {items : List (PyValue φ)} {depth : ℕ}
    (clean : ∀ item ∈ items, Clean repr item depth) : Clean repr (.list items) (depth + 1) :=
  (cleanItems_iff repr).mpr clean

mutual

/-- Sorting keeps a value clean. -/
theorem clean_sortKeys : ∀ {value : PyValue φ} {depth : ℕ}, Clean repr value depth →
    Clean repr (sortKeys value) depth
  | .none, _, clean => clean
  | .bool _, _, clean => clean
  | .int _, _, clean => clean
  | .float _, _, clean => clean
  | .str _, _, clean => clean
  | .list _, 0, clean => clean.elim
  | .list items, depth + 1, clean => by
      have items : CleanItems repr items depth := clean
      exact clean_sortItems items
  | .dict _, 0, clean => clean.elim
  | .dict items, depth + 1, clean => by
      have fields : CleanFields repr items depth := clean
      have fields := (cleanFields_iff repr).mp (clean_sortFields fields)
      exact (cleanFields_iff repr).mpr fun item member =>
        fields item ((List.mem_insertionSort (keyLe · ·)).mp member)

theorem clean_sortItems : ∀ {items : List (PyValue φ)} {depth : ℕ}, CleanItems repr items depth →
    CleanItems repr (sortItems items) depth
  | [], _, _ => trivial
  | _ :: _, _, clean => ⟨clean_sortKeys clean.1, clean_sortItems clean.2⟩

theorem clean_sortFields : ∀ {items : List (PyValue φ × PyValue φ)} {depth : ℕ},
    CleanFields repr items depth → CleanFields repr (sortFields items) depth
  | [], _, _ => trivial
  | (_, _) :: _, _, clean => ⟨clean.1, clean_sortKeys clean.2.1, clean_sortFields clean.2.2⟩

end

mutual

/-- The tree of a clean value is plain, and as deep. -/
theorem tree_of_clean : ∀ {value : PyValue φ} {depth : ℕ}, Clean repr value depth →
    ∃ written, tree repr value = .ok written ∧ written.Plain ∧ written.depth ≤ depth
  | .none, depth, _ => ⟨.null, rfl, trivial, depth.zero_le⟩
  | .bool b, depth, _ => ⟨.bool b, rfl, trivial, depth.zero_le⟩
  | .int n, depth, clean =>
      ⟨.number (intChars n), by rw [tree, intText_of_short clean]; rfl, isNumber_intChars n,
        depth.zero_le⟩
  | .float x, depth, clean => ⟨.number (repr.text x), rfl, clean, depth.zero_le⟩
  | .str s, depth, clean => ⟨.str s, rfl, clean, depth.zero_le⟩
  | .list _, 0, clean => clean.elim
  | .list items, depth + 1, clean => by
      have clean : CleanItems repr items depth := clean
      obtain ⟨written, walked, plain, deep⟩ := itemTrees_of_clean clean
      exact ⟨.arr written, by rw [tree, walked]; rfl, plain, Nat.succ_le_succ deep⟩
  | .dict _, 0, clean => clean.elim
  | .dict items, depth + 1, clean => by
      have clean : CleanFields repr items depth := clean
      obtain ⟨written, walked, plain, deep⟩ := fieldTrees_of_clean clean
      exact ⟨.obj written, by rw [tree, walked]; rfl, plain, Nat.succ_le_succ deep⟩

theorem itemTrees_of_clean : ∀ {items : List (PyValue φ)} {depth : ℕ}, CleanItems repr items depth →
    ∃ written, itemTrees repr items = .ok written ∧ JsonTree.PlainItems written ∧
      JsonTree.depthItems written ≤ depth
  | [], depth, _ => ⟨[], rfl, trivial, depth.zero_le⟩
  | item :: items, depth, clean => by
      obtain ⟨first, walked, plain, deep⟩ := tree_of_clean clean.1
      obtain ⟨others, walked', plain', deep'⟩ := itemTrees_of_clean clean.2
      exact ⟨first :: others, by rw [itemTrees, walked, walked']; rfl, ⟨plain, plain'⟩,
        max_le deep deep'⟩

theorem fieldTrees_of_clean : ∀ {items : List (PyValue φ × PyValue φ)} {depth : ℕ},
    CleanFields repr items depth →
    ∃ written, fieldTrees repr items = .ok written ∧ JsonTree.PlainFields written ∧
      JsonTree.depthFields written ≤ depth
  | [], depth, _ => ⟨[], rfl, trivial, depth.zero_le⟩
  | (key, value) :: items, depth, clean => by
      obtain ⟨⟨name, rfl, text⟩, clean, others⟩ := clean
      obtain ⟨first, walked, plain, deep⟩ := tree_of_clean clean
      obtain ⟨others, walked', plain', deep'⟩ := fieldTrees_of_clean others
      exact ⟨(name, first) :: others, by rw [fieldTrees, keyText, walked, walked']; rfl,
        ⟨text, plain, plain'⟩, max_le deep deep'⟩

end

/-- **What is written of a clean value is JSON**, its keys sorted or not. -/
theorem dumps_read {value : PyValue φ} {depth : ℕ} (clean : Clean repr value depth)
    (shallow : depth ≤ JsonTree.maxDepth) :
    ∃ text, dumps repr value = .ok text ∧ (read text).isSome := by
  obtain ⟨written, walked, plain, deep⟩ := tree_of_clean repr clean
  refine ⟨_, by rw [dumps, walked]; rfl, ?_⟩
  have blank : JsonTree.IsGap [' '] := fun c member => by
    rw [List.mem_singleton.mp member]
    rfl
  rw [JsonTree.read_write blank plain (deep.trans shallow)]
  rfl

end Clean

end PyValue

end CentaurApex.Theory
