/-
# Theory.PyText -- Python strings, code point by code point

A Python `str` is a sequence of code points, and a surrogate is one: a string can be
built that is no text.  Encoding it in UTF-8 is where that is noticed
(`PyStr.encode`); a string without surrogates is text, and `ofChars` and `chars?`
are inverse there.
-/
import CentaurApex.Theory.JsonText

namespace CentaurApex.Theory

set_option autoImplicit false

/-- A code point. -/
abbrev CodePoint : Type := Fin 0x110000

abbrev PyStr : Type := List CodePoint

namespace CodePoint

def IsSurrogate (c : CodePoint) : Prop := 0xD800 ≤ c.val ∧ c.val < 0xE000

instance (c : CodePoint) : Decidable (IsSurrogate c) := inferInstanceAs (Decidable (_ ∧ _))

def ofChar (c : Char) : CodePoint :=
  ⟨c.toNat, by
    rcases c.valid with low | high
    · exact lt_trans low (by decide)
    · exact high.2⟩

theorem isValidChar {c : CodePoint} (text : ¬ IsSurrogate c) : c.val.isValidChar := by
  have := c.isLt
  unfold IsSurrogate at text
  unfold Nat.isValidChar
  omega

/-- The character of a code point. -/
def char? (c : CodePoint) : Option Char :=
  if text : IsSurrogate c then none else some (Char.ofNatAux c.val (isValidChar text))

theorem not_isSurrogate_ofChar (c : Char) : ¬ IsSurrogate (ofChar c) := by
  rintro ⟨from_, below⟩
  change 0xD800 ≤ c.toNat at from_
  change c.toNat < 0xE000 at below
  rcases c.valid with low | high
  · exact absurd low (not_lt.mpr from_)
  · exact absurd high.1 (not_lt.mpr (Nat.le_of_lt_succ below))

@[simp] theorem char?_ofChar (c : Char) : char? (ofChar c) = some c := by
  rw [char?, dif_neg (not_isSurrogate_ofChar c)]
  rfl

theorem ofChar_injective {c d : Char} (same : ofChar c = ofChar d) : c = d :=
  Option.some.inj (by rw [← char?_ofChar c, same, char?_ofChar])

/-- The code point of its character. -/
theorem eq_ofChar_of_char? {c : CodePoint} {ch : Char} (char : char? c = some ch) :
    c = ofChar ch := by
  by_cases text : IsSurrogate c
  · rw [char?, dif_pos text] at char
    cases char
  · rw [char?, dif_neg text] at char
    obtain rfl := Option.some.inj char
    rfl

theorem exists_char? {c : CodePoint} (text : ¬ IsSurrogate c) : ∃ char, char? c = some char :=
  ⟨_, dif_neg text⟩

end CodePoint

namespace PyStr

def ofChars (text : List Char) : PyStr := text.map CodePoint.ofChar

def ofString (text : String) : PyStr := ofChars text.toList

/-- The characters of a string without surrogates. -/
def chars? (s : PyStr) : Option (List Char) := s.mapM CodePoint.char?

/-- `s.encode("utf-8")`. -/
def encode (s : PyStr) : Option (List UInt8) := s.chars?.map utf8

/-- `s.startswith(text)`. -/
def StartsWith (text : String) (s : PyStr) : Prop := ofString text <+: s

instance (text : String) (s : PyStr) : Decidable (StartsWith text s) :=
  inferInstanceAs (Decidable (_ <+: _))

/-- `s.isascii()`. -/
def IsAscii (s : PyStr) : Prop := ∀ c ∈ s, c.val < 128

instance (s : PyStr) : Decidable s.IsAscii := inferInstanceAs (Decidable (∀ c ∈ s, _))

@[simp] theorem ofChars_append (text others : List Char) :
    ofChars (text ++ others) = ofChars text ++ ofChars others := List.map_append

@[simp] theorem ofString_append (text other : String) :
    ofString (text ++ other) = ofString text ++ ofString other := by
  simp [ofString]

@[simp] theorem chars?_ofChars (text : List Char) : (ofChars text).chars? = some text := by
  induction text with
  | nil => rfl
  | cons c text ih =>
      have rest : List.mapM CodePoint.char? (text.map CodePoint.ofChar) = some text := ih
      rw [chars?, ofChars, List.map_cons, List.mapM_cons, CodePoint.char?_ofChar, rest]
      rfl

theorem ofChar_mem_ofChars {c : Char} {text : List Char} :
    CodePoint.ofChar c ∈ ofChars text ↔ c ∈ text := by
  unfold ofChars
  constructor
  · intro member
    obtain ⟨d, inside, same⟩ := List.mem_map.mp member
    exact CodePoint.ofChar_injective same ▸ inside
  · exact List.mem_map_of_mem

/-- A string that has characters is theirs. -/
theorem eq_ofChars : ∀ {s : PyStr} {text : List Char}, s.chars? = some text → s = ofChars text
  | [], text, chars => by
      obtain rfl : [] = text := Option.some.inj chars
      rfl
  | c :: s, text, chars => by
      rw [chars?, List.mapM_cons] at chars
      obtain ⟨first, char, rest⟩ := Option.bind_eq_some_iff.mp chars
      obtain ⟨others, chars', done⟩ := Option.bind_eq_some_iff.mp rest
      obtain rfl : first :: others = text := Option.some.inj done
      rw [ofChars, List.map_cons, ← ofChars, ← eq_ofChars chars', CodePoint.eq_ofChar_of_char? char]

/-- A string without surrogates. -/
def IsText (s : PyStr) : Prop := ∀ c ∈ s, ¬ CodePoint.IsSurrogate c

instance (s : PyStr) : Decidable (IsText s) := inferInstanceAs (Decidable (∀ c ∈ s, _))

theorem isText_ofChars (chars : List Char) : IsText (ofChars chars) := by
  intro c member
  obtain ⟨char, -, rfl⟩ := List.mem_map.mp member
  exact CodePoint.not_isSurrogate_ofChar char

theorem exists_chars? : ∀ {s : PyStr}, IsText s → ∃ chars, s.chars? = some chars
  | [], _ => ⟨[], rfl⟩
  | c :: s, text => by
      obtain ⟨here, others⟩ := List.forall_mem_cons.mp text
      obtain ⟨char, first⟩ := CodePoint.exists_char? here
      obtain ⟨chars, rest⟩ := exists_chars? others
      refine ⟨char :: chars, ?_⟩
      rw [chars?] at rest
      rw [chars?, List.mapM_cons, first, rest]
      rfl

/-- What is encoded is text. -/
theorem encode_isSome_iff {s : PyStr} : s.encode.isSome ↔ IsText s := by
  rw [encode, Option.isSome_map]
  constructor
  · intro some_
    obtain ⟨text, chars⟩ := Option.isSome_iff_exists.mp some_
    rw [eq_ofChars chars]
    exact isText_ofChars text
  · intro text
    obtain ⟨chars, found⟩ := exists_chars? text
    rw [found]
    rfl

theorem isAscii_append {s t : PyStr} : IsAscii (s ++ t) ↔ IsAscii s ∧ IsAscii t :=
  List.forall_mem_append

theorem isAscii_ofChars {text : List Char} :
    IsAscii (ofChars text) ↔ (text.all fun c => c.toNat < 128) = true := by
  rw [List.all_eq_true]
  constructor
  · intro ascii c member
    exact decide_eq_true (ascii _ (List.mem_map_of_mem member))
  · intro ascii c member
    obtain ⟨char, inside, rfl⟩ := List.mem_map.mp member
    exact of_decide_eq_true (ascii char inside)

end PyStr

end CentaurApex.Theory
