/-
# Theory.JsonReader -- JSON texts, read and written

A text is read into a tree (`JsonTree.read`): strings with their escapes undone, numbers
as the token they were written with, fields in the order they came.  Nothing is decided
yet about what a number is worth, or whether a string is text: an escape can name a
surrogate, and two in a row name one character (`joinPairs`).

A tree is written with a gap after commas and colons, and with the escapes of one
serializer or another (`Escaping`).  `read_write`: a tree whose numbers are JSON's and
whose strings are text is read back as it was, however it was written.  `read_refused`: a
text that is written with a name where a value should stand, as `NaN` is, is not read.
-/
import CentaurApex.Theory.PyText

namespace CentaurApex.Theory

set_option autoImplicit false

/-- A JSON text, read: numbers are kept as they were written. -/
inductive JsonTree where
  | null
  | bool (value : Bool)
  | number (token : List Char)
  | str (s : PyStr)
  | arr (items : List JsonTree)
  | obj (fields : List (PyStr × JsonTree))

namespace JsonTree

open PyStr (IsText isText_ofChars)

/-- UTF-8 bytes as text. -/
def fromUtf8 (bytes : List UInt8) : Option (List Char) :=
  bytes.toByteArray.utf8Decode?.map Array.toList

theorem fromUtf8_utf8 (text : List Char) : fromUtf8 (utf8 text) = some text := by
  rw [fromUtf8, utf8, ← List.utf8Encode, List.utf8Decode?_utf8Encode]
  rfl

/-! ## Blanks -/

def isBlank (c : Char) : Bool := c = ' ' || c = '\t' || c = '\n' || c = '\r'

def skipBlanks (cs : List Char) : List Char := cs.dropWhile isBlank

theorem skipBlanks_append {gap : List Char} (blank : ∀ c ∈ gap, isBlank c) (cs : List Char) :
    skipBlanks (gap ++ cs) = skipBlanks cs := by
  rw [skipBlanks, List.dropWhile_append_of_pos blank]
  rfl

theorem skipBlanks_cons {c : Char} (ink : isBlank c = false) (cs : List Char) :
    skipBlanks (c :: cs) = c :: cs := List.dropWhile_cons_of_neg (by rw [ink]; decide)

/-! ## Numbers -/

/-- How much of a number has been read. -/
inductive NumberState where
  | start | minus | zero | int | point | frac | exp | expSign | expDigits
  deriving DecidableEq

namespace NumberState

def isDigit (c : Char) : Bool := '0' ≤ c && c ≤ '9'

def isExp (c : Char) : Bool := c = 'e' || c = 'E'

/-- The part before the point: a zero has no digit after it. -/
def lead (c : Char) : Option NumberState :=
  if c = '0' then some zero else if isDigit c then some int else none

/-- What may follow the part before the point. -/
def tail (c : Char) : Option NumberState :=
  if c = '.' then some point else if isExp c then some exp else none

def next : NumberState → Char → Option NumberState
  | start, c => if c = '-' then some minus else lead c
  | minus, c => lead c
  | zero, c => tail c
  | int, c => if isDigit c then some int else tail c
  | point, c => if isDigit c then some frac else none
  | frac, c => if isDigit c then some frac else if isExp c then some exp else none
  | exp, c => if c = '+' ∨ c = '-' then some expSign else if isDigit c then some expDigits else none
  | expSign, c => if isDigit c then some expDigits else none
  | expDigits, c => if isDigit c then some expDigits else none

def IsDone (s : NumberState) : Prop := s = zero ∨ s = int ∨ s = frac ∨ s = expDigits

instance (s : NumberState) : Decidable s.IsDone := inferInstanceAs (Decidable (_ ∨ _))

end NumberState

open NumberState (next IsDone)

/-- A number, as JSON writes one. -/
def IsNumber (token : List Char) : Prop :=
  ∃ done ∈ token.foldlM next .start, IsDone done

instance (token : List Char) : Decidable (IsNumber token) :=
  decidable_of_iff ((token.foldlM next .start).any fun s => decide s.IsDone)
    (by simp [IsNumber, Option.any_eq_true])

def isNumberChar (c : Char) : Bool :=
  NumberState.isDigit c || NumberState.isExp c || c = '-' || c = '+' || c = '.'

theorem isNumberChar_digit {c : Char} (digit : NumberState.isDigit c) : isNumberChar c := by
  simp [isNumberChar, digit]

theorem isNumberChar_lead {s : NumberState} {c : Char} (step : NumberState.lead c = some s) :
    isNumberChar c := by
  rw [NumberState.lead] at step
  split_ifs at step with zero digit
  · exact zero ▸ by decide
  · exact isNumberChar_digit digit

theorem isNumberChar_tail {s : NumberState} {c : Char} (step : NumberState.tail c = some s) :
    isNumberChar c := by
  rw [NumberState.tail] at step
  split_ifs at step with point exp
  · exact point ▸ by decide
  · simp [isNumberChar, exp]

theorem isNumberChar_of_next {s s' : NumberState} {c : Char} (step : next s c = some s') :
    isNumberChar c := by
  cases s <;> simp only [next] at step
  case start =>
    split_ifs at step with minus
    · exact minus ▸ by decide
    · exact isNumberChar_lead step
  case minus => exact isNumberChar_lead step
  case zero => exact isNumberChar_tail step
  case int =>
    split_ifs at step with digit
    · exact isNumberChar_digit digit
    · exact isNumberChar_tail step
  case frac =>
    split_ifs at step with digit exp
    · exact isNumberChar_digit digit
    · simp [isNumberChar, exp]
  case exp =>
    split_ifs at step with sign digit
    · rcases sign with rfl | rfl <;> decide
    · exact isNumberChar_digit digit
  all_goals
    split_ifs at step with digit
    exact isNumberChar_digit digit

theorem isNumberChar_of_mem {token : List Char} (number : IsNumber token) :
    ∀ c ∈ token, isNumberChar c := by
  obtain ⟨done, reached, -⟩ := number
  generalize NumberState.start = s at reached
  induction token generalizing s with
  | nil => exact fun c member => absurd member List.not_mem_nil
  | cons c token ih =>
      rw [List.foldlM_cons, Option.mem_def, Option.bind_eq_bind, Option.bind_eq_some_iff] at reached
      obtain ⟨s', step, later⟩ := reached
      exact List.forall_mem_cons.mpr ⟨isNumberChar_of_next step, ih s' later⟩

theorem ne_nil_of_isNumber {token : List Char} (number : IsNumber token) : token ≠ [] := by
  rintro rfl
  exact absurd number (by decide)

/-- The longest row of characters a number can have, if it is one. -/
def readNumber (cs : List Char) : Option (JsonTree × List Char) :=
  if IsNumber (cs.takeWhile isNumberChar) then
    some (.number (cs.takeWhile isNumberChar), cs.dropWhile isNumberChar)
  else none

/-- What comes next is no part of a number. -/
def Stops (rest : List Char) : Prop := ∀ c ∈ rest.head?, isNumberChar c = false

theorem readNumber_append {token rest : List Char} (number : IsNumber token) (stops : Stops rest) :
    readNumber (token ++ rest) = some (.number token, rest) := by
  have inside := isNumberChar_of_mem number
  have first : rest.takeWhile isNumberChar = [] ∧ rest.dropWhile isNumberChar = rest := by
    cases rest with
    | nil => exact ⟨rfl, rfl⟩
    | cons c rest =>
        have out : ¬ isNumberChar c = true := by
          rw [stops c rfl]
          decide
        exact ⟨List.takeWhile_cons_of_neg out, List.dropWhile_cons_of_neg out⟩
  rw [readNumber, List.takeWhile_append_of_pos inside, List.dropWhile_append_of_pos inside, first.1,
    first.2, List.append_nil, if_pos number]

/-! ## Strings -/

def hexValue (c : Char) : Option ℕ :=
  if '0' ≤ c ∧ c ≤ '9' then some (c.toNat - 48)
  else if 'a' ≤ c ∧ c ≤ 'f' then some (c.toNat - 87)
  else if 'A' ≤ c ∧ c ≤ 'F' then some (c.toNat - 55)
  else none

/-- The code unit that four hexadecimal digits name. -/
def hex4 (a b c d : Char) : Option CodePoint :=
  match hexValue a, hexValue b, hexValue c, hexValue d with
  | some a, some b, some c, some d => some (Fin.ofNat _ (((a * 16 + b) * 16 + c) * 16 + d))
  | _, _, _, _ => none

/-- What a backslash and one character stand for. -/
def escaped (c : Char) : Option CodePoint :=
  if c = '"' then some (CodePoint.ofChar '"')
  else if c = '\\' then some (CodePoint.ofChar '\\')
  else if c = '/' then some (CodePoint.ofChar '/')
  else if c = 'b' then some 8
  else if c = 'f' then some 12
  else if c = 'n' then some 10
  else if c = 'r' then some 13
  else if c = 't' then some 9
  else none

/-- A unit before the others of a string. -/
def consUnit (unit : CodePoint) (others : Option (PyStr × List Char)) :
    Option (PyStr × List Char) := others.map fun read => (unit :: read.1, read.2)

/-- The units of a string up to its closing quote, and what follows. -/
def readUnits : List Char → Option (PyStr × List Char)
  | [] => none
  | c :: rest =>
      if c = '"' then some ([], rest)
      else if c = '\\' then
        match rest with
        | [] => none
        | e :: rest =>
            if e = 'u' then
              match rest with
              | a :: b :: c :: d :: rest =>
                  (hex4 a b c d).bind fun unit => consUnit unit (readUnits rest)
              | _ => none
            else (escaped e).bind fun unit => consUnit unit (readUnits rest)
      else if c.toNat < 32 then none
      else consUnit (.ofChar c) (readUnits rest)

@[simp] theorem readUnits_quote (rest : List Char) : readUnits ('"' :: rest) = some ([], rest) := by
  rw [readUnits.eq_def]
  simp

theorem readUnits_unit (a b c d : Char) (rest : List Char) :
    readUnits ('\\' :: 'u' :: a :: b :: c :: d :: rest) =
      (hex4 a b c d).bind fun unit => consUnit unit (readUnits rest) := by
  rw [readUnits.eq_def]
  simp

theorem readUnits_escaped {e : Char} {unit : CodePoint} (short : escaped e = some unit)
    (rest : List Char) : readUnits ('\\' :: e :: rest) = consUnit unit (readUnits rest) := by
  have other : e ≠ 'u' := by
    rintro rfl
    rw [show escaped 'u' = none by decide] at short
    cases short
  rw [readUnits.eq_def]
  simp [other, short]

theorem readUnits_literal {c : Char} (quote : c ≠ '"') (escape : c ≠ '\\') (ink : 32 ≤ c.toNat)
    (rest : List Char) : readUnits (c :: rest) = consUnit (.ofChar c) (readUnits rest) := by
  rw [readUnits.eq_def]
  simp [quote, escape, not_lt.mpr ink]

def IsHigh (unit : CodePoint) : Prop := 0xD800 ≤ unit.val ∧ unit.val < 0xDC00

def IsLow (unit : CodePoint) : Prop := 0xDC00 ≤ unit.val ∧ unit.val < 0xE000

instance (unit : CodePoint) : Decidable (IsHigh unit) := inferInstanceAs (Decidable (_ ∧ _))

instance (unit : CodePoint) : Decidable (IsLow unit) := inferInstanceAs (Decidable (_ ∧ _))

/-- The character beyond the first plane that two surrogates name. -/
def pair (high low : CodePoint) : CodePoint :=
  Fin.ofNat _ (0x10000 + (high.val - 0xD800) * 0x400 + (low.val - 0xDC00))

def joinPairs : PyStr → PyStr
  | [] => []
  | [unit] => [unit]
  | high :: low :: rest =>
      if IsHigh high ∧ IsLow low then pair high low :: joinPairs rest
      else high :: joinPairs (low :: rest)

def readString (cs : List Char) : Option (PyStr × List Char) :=
  (readUnits cs).map fun read => (joinPairs read.1, read.2)

/-! ## Escapes -/

def hexChar (n : ℕ) : Char := Char.ofNat (if n < 10 then 48 + n else 87 + n)

theorem hexValue_hexChar : ∀ n < 16, hexValue (hexChar n) = some n := by decide

/-- A code unit, escaped by its number. -/
def unitEscape (n : ℕ) : List Char :=
  ['\\', 'u', hexChar (n / 4096 % 16), hexChar (n / 256 % 16), hexChar (n / 16 % 16),
    hexChar (n % 16)]

theorem readUnits_unitEscape {unit : CodePoint} (small : unit.val < 0x10000) (rest : List Char) :
    readUnits (unitEscape unit.val ++ rest) = consUnit unit (readUnits rest) := by
  have digits : hex4 (hexChar (unit.val / 4096 % 16)) (hexChar (unit.val / 256 % 16))
      (hexChar (unit.val / 16 % 16)) (hexChar (unit.val % 16)) = some unit := by
    have whole : ((unit.val / 4096 % 16 * 16 + unit.val / 256 % 16) * 16 + unit.val / 16 % 16) * 16 +
        unit.val % 16 = unit.val := by omega
    rw [hex4, hexValue_hexChar _ (by omega), hexValue_hexChar _ (by omega),
      hexValue_hexChar _ (by omega), hexValue_hexChar _ (by omega)]
    simp only [whole]
    exact congrArg some (Fin.ofNat_val_eq_self unit)
  exact (readUnits_unit _ _ _ _ rest).trans (by rw [digits]; rfl)

/-- The characters with an escape of one letter. -/
def shortEscape (c : CodePoint) : Option Char :=
  if c.val = 34 then some '"'
  else if c.val = 92 then some '\\'
  else if c.val = 8 then some 'b'
  else if c.val = 12 then some 'f'
  else if c.val = 10 then some 'n'
  else if c.val = 13 then some 'r'
  else if c.val = 9 then some 't'
  else none

theorem escaped_shortEscape {c : CodePoint} {e : Char} (short : shortEscape c = some e) :
    escaped e = some c := by
  have named (n : ℕ) (bound : n < 0x110000) (same : c.val = n) : c = ⟨n, bound⟩ := Fin.ext same
  rw [shortEscape] at short
  split_ifs at short with quote backslash b f n r t <;> obtain rfl := Option.some.inj short
  · exact named 34 (by decide) quote ▸ rfl
  · exact named 92 (by decide) backslash ▸ rfl
  · exact named 8 (by decide) b ▸ rfl
  · exact named 12 (by decide) f ▸ rfl
  · exact named 10 (by decide) n ▸ rfl
  · exact named 13 (by decide) r ▸ rfl
  · exact named 9 (by decide) t ▸ rfl

/-- The two surrogates of a character beyond the first plane. -/
def highUnit (c : CodePoint) : CodePoint := Fin.ofNat _ (0xD800 + (c.val - 0x10000) / 0x400)

def lowUnit (c : CodePoint) : CodePoint := Fin.ofNat _ (0xDC00 + (c.val - 0x10000) % 0x400)

/-- The units that name a code point: itself, or its two surrogates. -/
def Names (c : CodePoint) (units : PyStr) : Prop :=
  units = [c] ∨ 0x10000 ≤ c.val ∧ units = [highUnit c, lowUnit c]

section Units

variable {c : CodePoint}

theorem val_highUnit (beyond : 0x10000 ≤ c.val) :
    (highUnit c).val = 0xD800 + (c.val - 0x10000) / 0x400 := by
  have := c.isLt
  exact Nat.mod_eq_of_lt (by omega)

theorem val_lowUnit (c : CodePoint) : (lowUnit c).val = 0xDC00 + (c.val - 0x10000) % 0x400 :=
  Nat.mod_eq_of_lt (by omega)

theorem joinPairs_cons (text : ¬ c.IsSurrogate) (rest : PyStr) :
    joinPairs (c :: rest) = c :: joinPairs rest := by
  have low : ¬ IsHigh c := fun high => text ⟨high.1, by have := high.2; omega⟩
  cases rest with
  | nil => rfl
  | cons next rest => rw [joinPairs, if_neg fun both => low both.1]

theorem joinPairs_pair (beyond : 0x10000 ≤ c.val) (rest : PyStr) :
    joinPairs (highUnit c :: lowUnit c :: rest) = c :: joinPairs rest := by
  have bound := c.isLt
  have high := val_highUnit beyond
  have low := val_lowUnit c
  have both : IsHigh (highUnit c) ∧ IsLow (lowUnit c) := by
    unfold IsHigh IsLow
    omega
  have whole : pair (highUnit c) (lowUnit c) = c := by
    apply Fin.ext
    show (0x10000 + ((highUnit c).val - 0xD800) * 0x400 + ((lowUnit c).val - 0xDC00)) % 0x110000 =
      c.val
    rw [high, low]
    omega
  rw [joinPairs, if_pos both, whole]

theorem joinPairs_named {units : PyStr} (names : Names c units) (text : ¬ c.IsSurrogate)
    (rest : PyStr) : joinPairs (units ++ rest) = c :: joinPairs rest := by
  rcases names with rfl | ⟨beyond, rfl⟩
  · exact joinPairs_cons text rest
  · exact joinPairs_pair beyond rest

end Units

/-- Units before the others of a string. -/
def appendUnits (units : PyStr) (others : Option (PyStr × List Char)) :
    Option (PyStr × List Char) := others.map fun read => (units ++ read.1, read.2)

/-- How a serializer writes the characters of a string: so that they are named again. -/
structure Escaping where
  escape : CodePoint → List Char
  named : ∀ c : CodePoint, ¬ c.IsSurrogate → ∃ units, Names c units ∧
    ∀ rest, readUnits (escape c ++ rest) = appendUnits units (readUnits rest)

theorem readString_escape (writer : Escaping) {s : PyStr} (text : IsText s) (rest : List Char) :
    readString (s.flatMap writer.escape ++ '"' :: rest) = some (s, rest) := by
  have units : ∃ units, readUnits (s.flatMap writer.escape ++ '"' :: rest) = some (units, rest) ∧
      joinPairs units = s := by
    induction s with
    | nil => exact ⟨[], readUnits_quote rest, rfl⟩
    | cons c s ih =>
        obtain ⟨here, others⟩ := List.forall_mem_cons.mp text
        obtain ⟨units, read, joined⟩ := ih others
        obtain ⟨first, names, escaped⟩ := writer.named c here
        refine ⟨first ++ units, ?_, ?_⟩
        · rw [List.flatMap_cons, List.append_assoc, escaped, read]
          rfl
        · rw [joinPairs_named names here, joined]
  obtain ⟨units, read, joined⟩ := units
  rw [readString, read, Option.map_some, joined]

/-- `json.dumps`: whatever is not printable ASCII is escaped by its number. -/
def escapeAscii (c : CodePoint) : List Char :=
  match shortEscape c with
  | some e => ['\\', e]
  | none =>
      if 32 ≤ c.val ∧ c.val < 127 then c.char?.toList
      else if c.val < 0x10000 then unitEscape c.val
      else unitEscape (highUnit c).val ++ unitEscape (lowUnit c).val

/-- UTF-8 serializers: only what JSON asks for is escaped. -/
def escapeText (c : CodePoint) : List Char :=
  match shortEscape c with
  | some e => ['\\', e]
  | none => if c.val < 32 then unitEscape c.val else c.char?.toList

theorem readUnits_short {c : CodePoint} {e : Char} (short : shortEscape c = some e)
    (rest : List Char) : readUnits (['\\', e] ++ rest) = appendUnits [c] (readUnits rest) :=
  readUnits_escaped (escaped_shortEscape short) rest

/-- A character that needs no escape. -/
theorem readUnits_plain {c : CodePoint} {char : Char} (same : c = CodePoint.ofChar char)
    (none_ : shortEscape c = none) (ink : 32 ≤ c.val) (rest : List Char) :
    readUnits ([char] ++ rest) = appendUnits [c] (readUnits rest) := by
  subst same
  refine readUnits_literal ?_ ?_ ink rest
  · rintro rfl
    exact absurd none_ (by decide)
  · rintro rfl
    exact absurd none_ (by decide)

theorem named_escapeAscii (c : CodePoint) (text : ¬ c.IsSurrogate) :
    ∃ units, Names c units ∧
      ∀ rest, readUnits (escapeAscii c ++ rest) = appendUnits units (readUnits rest) := by
  unfold escapeAscii
  cases short : shortEscape c with
  | some e => exact ⟨[c], .inl rfl, readUnits_short short⟩
  | none =>
      simp only
      split_ifs with printable first
      · obtain ⟨char, found⟩ := CodePoint.exists_char? text
        rw [found]
        exact ⟨[c], .inl rfl,
          readUnits_plain (CodePoint.eq_ofChar_of_char? found) short printable.1⟩
      · exact ⟨[c], .inl rfl, readUnits_unitEscape first⟩
      · have beyond := not_lt.mp first
        have high := val_highUnit beyond
        have low := val_lowUnit c
        have bound := c.isLt
        refine ⟨[highUnit c, lowUnit c], .inr ⟨beyond, rfl⟩, fun rest => ?_⟩
        rw [List.append_assoc, readUnits_unitEscape (by omega), readUnits_unitEscape (by omega)]
        cases readUnits rest <;> rfl

theorem named_escapeText (c : CodePoint) (text : ¬ c.IsSurrogate) :
    ∃ units, Names c units ∧
      ∀ rest, readUnits (escapeText c ++ rest) = appendUnits units (readUnits rest) := by
  unfold escapeText
  cases short : shortEscape c with
  | some e => exact ⟨[c], .inl rfl, readUnits_short short⟩
  | none =>
      simp only
      split_ifs with control
      · exact ⟨[c], .inl rfl, readUnits_unitEscape (by omega)⟩
      · obtain ⟨char, found⟩ := CodePoint.exists_char? text
        rw [found]
        exact ⟨[c], .inl rfl,
          readUnits_plain (CodePoint.eq_ofChar_of_char? found) short (not_lt.mp control)⟩

def asciiEscaping : Escaping := ⟨escapeAscii, named_escapeAscii⟩

def textEscaping : Escaping := ⟨escapeText, named_escapeText⟩

/-! ## Reading trees -/

/-- Items up to the closing character, one after each comma. -/
def readRow {α : Type} (item : List Char → Option (α × List Char)) (closing : Char) :
    ℕ → List Char → Option (List α × List Char)
  | 0, _ => none
  | fuel + 1, cs =>
      match item cs with
      | none => none
      | some (first, rest) =>
          match skipBlanks rest with
          | [] => none
          | c :: rest =>
              if c = ',' then (readRow item closing fuel rest).map fun read => (first :: read.1, read.2)
              else if c = closing then some ([first], rest)
              else none

/-- What an opening bracket begins: nothing, or a row of items. -/
def readItems {α : Type} (item : List Char → Option (α × List Char)) (closing : Char)
    (cs : List Char) : Option (List α × List Char) :=
  match skipBlanks cs with
  | [] => none
  | c :: rest =>
      if c = closing then some ([], rest) else readRow item closing (c :: rest).length (c :: rest)

def readField (value : List Char → Option (JsonTree × List Char)) (cs : List Char) :
    Option ((PyStr × JsonTree) × List Char) :=
  match skipBlanks cs with
  | [] => none
  | c :: rest =>
      if c = '"' then
        match readString rest with
        | none => none
        | some (key, rest) =>
            match skipBlanks rest with
            | [] => none
            | c :: rest =>
                if c = ':' then (value rest).map fun read => ((key, read.1), read.2) else none
      else none

def dropPrefix (text : String) (tree : JsonTree) (cs : List Char) :
    Option (JsonTree × List Char) :=
  if text.toList <+: cs then some (tree, cs.drop text.length) else none

/-- The value a text begins with, nested at most `depth` deep, and what follows. -/
def readValue (depth : ℕ) (cs : List Char) : Option (JsonTree × List Char) :=
  match skipBlanks cs with
  | [] => none
  | c :: rest =>
      if c = '"' then (readString rest).map fun read => (.str read.1, read.2)
      else if c = '[' then
        match depth with
        | 0 => none
        | depth + 1 => (readItems (readValue depth) ']' rest).map fun read => (.arr read.1, read.2)
      else if c = '\x7b' then
        match depth with
        | 0 => none
        | depth + 1 =>
            (readItems (readField (readValue depth)) '\x7d' rest).map fun read =>
              (.obj read.1, read.2)
      else if c = 'n' then dropPrefix "null" .null (c :: rest)
      else if c = 't' then dropPrefix "true" (.bool true) (c :: rest)
      else if c = 'f' then dropPrefix "false" (.bool false) (c :: rest)
      else readNumber (c :: rest)

/-- How deep a text may be nested. -/
def maxDepth : ℕ := 127

/-- A whole text. -/
def read (cs : List Char) : Option JsonTree :=
  match readValue maxDepth cs with
  | none => none
  | some (tree, rest) => if skipBlanks rest = [] then some tree else none

/-! ## Writing trees -/

section Write

variable (writer : Escaping) (gap : List Char)

/-- Texts with a comma and a gap between them. -/
def row : List (List Char) → List Char
  | [] => []
  | [text] => text
  | text :: next :: texts => text ++ ',' :: (gap ++ row (next :: texts))

def writeString (s : PyStr) : List Char := '"' :: (s.flatMap writer.escape ++ ['"'])

mutual

def write : JsonTree → List Char
  | .null => "null".toList
  | .bool true => "true".toList
  | .bool false => "false".toList
  | .number token => token
  | .str s => writeString writer s
  | .arr items => '[' :: (row gap (writeItems items) ++ [']'])
  | .obj fields => '\x7b' :: (row gap (writeFields fields) ++ ['\x7d'])

def writeItems : List JsonTree → List (List Char)
  | [] => []
  | item :: items => write item :: writeItems items

def writeFields : List (PyStr × JsonTree) → List (List Char)
  | [] => []
  | (key, value) :: fields =>
      (writeString writer key ++ ':' :: (gap ++ write value)) :: writeFields fields

end

end Write

mutual

/-- The numbers are JSON's, and the strings are text. -/
def Plain : JsonTree → Prop
  | .null => True
  | .bool _ => True
  | .number token => IsNumber token
  | .str s => IsText s
  | .arr items => PlainItems items
  | .obj fields => PlainFields fields

def PlainItems : List JsonTree → Prop
  | [] => True
  | item :: items => item.Plain ∧ PlainItems items

def PlainFields : List (PyStr × JsonTree) → Prop
  | [] => True
  | (key, value) :: fields => IsText key ∧ value.Plain ∧ PlainFields fields

end

mutual

def depth : JsonTree → ℕ
  | .arr items => depthItems items + 1
  | .obj fields => depthFields fields + 1
  | _ => 0

def depthItems : List JsonTree → ℕ
  | [] => 0
  | item :: items => max item.depth (depthItems items)

def depthFields : List (PyStr × JsonTree) → ℕ
  | [] => 0
  | (_, value) :: fields => max value.depth (depthFields fields)

end

@[simp] theorem plain_number (token : List Char) : (number token).Plain ↔ IsNumber token := by
  rw [Plain]

@[simp] theorem plain_str (s : PyStr) : (str s).Plain ↔ IsText s := by rw [Plain]

@[simp] theorem depth_number (token : List Char) : (number token).depth = 0 := by
  simp [depth]

@[simp] theorem depth_str (s : PyStr) : (str s).depth = 0 := by simp [depth]

/-- The object with these fields. -/
def object (fields : List (String × JsonTree)) : JsonTree :=
  .obj (fields.map fun entry => (PyStr.ofString entry.1, entry.2))

theorem plain_object {fields : List (String × JsonTree)} :
    (object fields).Plain ↔ ∀ entry ∈ fields, entry.2.Plain := by
  show PlainFields (fields.map fun entry => (PyStr.ofString entry.1, entry.2)) ↔ _
  induction fields with
  | nil => simp [PlainFields]
  | cons entry fields ih =>
      rw [List.map_cons, PlainFields, ih, List.forall_mem_cons]
      exact and_iff_right (isText_ofChars _)

theorem isText_ofString (s : String) : IsText (PyStr.ofString s) := isText_ofChars _

theorem depth_object_le {fields : List (String × JsonTree)} {n : ℕ}
    (shallow : ∀ entry ∈ fields, entry.2.depth ≤ n) : (object fields).depth ≤ n + 1 := by
  refine Nat.succ_le_succ ?_
  show depthFields (fields.map fun entry => (PyStr.ofString entry.1, entry.2)) ≤ n
  induction fields with
  | nil => exact n.zero_le
  | cons entry fields ih =>
      obtain ⟨here, others⟩ := List.forall_mem_cons.mp shallow
      exact max_le here (ih others)

/-! ## What is written is read -/

section RoundTrip

variable {writer : Escaping} {gap : List Char}

def IsGap (gap : List Char) : Prop := ∀ c ∈ gap, isBlank c

theorem isBlank_of_isNumberChar {c : Char} (number : isNumberChar c) : isBlank c = false := by
  by_contra blank
  simp only [isBlank, Bool.not_eq_false, Bool.or_eq_true, decide_eq_true_eq] at blank
  rcases blank with ((rfl | rfl) | rfl) | rfl <;> revert number <;> decide

/-- A value begins with a character that is no blank and closes nothing. -/
theorem write_head {tree : JsonTree} (plain : tree.Plain) :
    ∃ c cs, tree.write writer gap = c :: cs ∧ isBlank c = false ∧ c ≠ ']' := by
  cases tree with
  | null => exact ⟨'n', _, rfl, rfl, by decide⟩
  | bool value => cases value <;> exact ⟨_, _, rfl, rfl, by decide⟩
  | str s => exact ⟨'"', _, rfl, rfl, by decide⟩
  | arr items => exact ⟨'[', _, rfl, rfl, by decide⟩
  | obj fields => exact ⟨'\x7b', _, rfl, rfl, by decide⟩
  | number token =>
      obtain ⟨c, cs, rfl⟩ := List.exists_cons_of_ne_nil (ne_nil_of_isNumber plain)
      have number := isNumberChar_of_mem plain c List.mem_cons_self
      refine ⟨c, cs, rfl, isBlank_of_isNumberChar number, ?_⟩
      rintro rfl
      revert number
      decide

/-- An item that is read wherever it stands. -/
def Reads {α : Type} (item : List Char → Option (α × List Char)) (text : List Char) (value : α) :
    Prop :=
  ∀ lead rest, IsGap lead → Stops rest → item (lead ++ (text ++ rest)) = some (value, rest)

theorem stops_cons {c : Char} (other : isNumberChar c = false) (rest : List Char) :
    Stops (c :: rest) := fun d head => by
  obtain rfl := Option.some.inj head
  exact other

theorem readRow_row {α : Type} {item : List Char → Option (α × List Char)} {closing : Char}
    (ink : isBlank closing = false) (other : isNumberChar closing = false) (comma : closing ≠ ',')
    (blank : IsGap gap) {texts : List (List Char)} {values : List α}
    (reads : List.Forall₂ (Reads item) texts values) (some_ : texts ≠ []) (fuel : ℕ)
    (enough : texts.length ≤ fuel) (lead rest : List Char) (blank' : IsGap lead) :
    readRow item closing fuel (lead ++ (row gap texts ++ closing :: rest)) = some (values, rest) := by
  induction reads generalizing fuel lead with
  | nil => exact absurd rfl some_
  | @cons text value texts values here others ih =>
      obtain ⟨fuel, rfl⟩ := Nat.exists_eq_succ_of_ne_zero (Nat.ne_of_gt (Nat.lt_of_lt_of_le
        (Nat.succ_pos _) enough))
      cases others with
      | nil =>
          have read := here lead (closing :: rest) blank' (stops_cons other rest)
          rw [row, readRow, read]
          simp only [skipBlanks_cons ink, if_neg comma, if_true]
      | @cons next _ texts _ _ _ =>
          have read := here lead (',' :: (gap ++ row gap (next :: texts)) ++ closing :: rest) blank'
            (stops_cons rfl _)
          have later := ih (by simp) fuel (Nat.le_of_succ_le_succ enough) gap blank
          have split : row gap (text :: next :: texts) ++ closing :: rest =
              text ++ (',' :: (gap ++ row gap (next :: texts)) ++ closing :: rest) := by
            simp [row]
          rw [readRow, split, read]
          simp only [List.cons_append, skipBlanks_cons (show isBlank ',' = false from rfl), if_true]
          rw [List.append_assoc, later]
          rfl

/-- The text begins with a character that is no blank, and not with `closing`. -/
def Begins (closing : Char) (text : List Char) : Prop :=
  ∃ c cs, text = c :: cs ∧ isBlank c = false ∧ c ≠ closing

variable (gap) in
theorem length_le_row {closing : Char} {texts : List (List Char)}
    (begins : ∀ text ∈ texts, Begins closing text) : texts.length ≤ (row gap texts).length := by
  induction texts with
  | nil => exact le_rfl
  | cons text texts ih =>
      obtain ⟨here, others⟩ := List.forall_mem_cons.mp begins
      obtain ⟨c, cs, rfl, -, -⟩ := here
      have later := ih others
      cases texts with
      | nil => simp [row]
      | cons next texts =>
          simp only [row, List.length_append, List.length_cons] at later ⊢
          omega

variable (gap) in
theorem row_begins {closing : Char} {texts : List (List Char)} (some_ : texts ≠ [])
    (begins : ∀ text ∈ texts, Begins closing text) : Begins closing (row gap texts) := by
  cases texts with
  | nil => exact absurd rfl some_
  | cons text texts =>
      obtain ⟨c, cs, rfl, ink, other⟩ := begins text List.mem_cons_self
      cases texts with
      | nil => exact ⟨c, cs, rfl, ink, other⟩
      | cons next texts => exact ⟨c, _, rfl, ink, other⟩

theorem readItems_row {α : Type} {item : List Char → Option (α × List Char)} {closing : Char}
    (ink : isBlank closing = false) (other : isNumberChar closing = false) (comma : closing ≠ ',')
    (blank : IsGap gap) {texts : List (List Char)} {values : List α}
    (begins : ∀ text ∈ texts, Begins closing text)
    (reads : List.Forall₂ (Reads item) texts values) (rest : List Char) :
    readItems item closing (row gap texts ++ closing :: rest) = some (values, rest) := by
  by_cases none_ : texts = []
  · subst none_
    cases reads
    rw [readItems, row, List.nil_append, skipBlanks_cons ink]
    simp
  · obtain ⟨c, cs, whole, ink', differs⟩ := row_begins gap none_ begins
    have enough := length_le_row gap begins
    have read := readRow_row ink other comma blank reads none_
      (row gap texts ++ closing :: rest).length (by rw [List.length_append]; omega) [] rest
      (by intro c member; cases member)
    rw [List.nil_append, whole, List.cons_append] at read
    rw [readItems, whole, List.cons_append, skipBlanks_cons ink']
    simp only [if_neg differs, read]

theorem isGap_nil : IsGap [] := fun _ member => absurd member List.not_mem_nil

theorem dropPrefix_append (text : String) (tree : JsonTree) (rest : List Char) :
    dropPrefix text tree (text.toList ++ rest) = some (tree, rest) := by
  rw [dropPrefix, if_pos (List.prefix_append _ _), ← String.length_toList, List.drop_left]

/-- A field is read: its name, and its value. -/
theorem reads_field {depth : ℕ} (blank : IsGap gap) {key : PyStr} {value : JsonTree}
    (text : IsText key) (reads : Reads (readValue depth) (value.write writer gap) value) :
    Reads (readField (readValue depth))
      (writeString writer key ++ ':' :: (gap ++ value.write writer gap)) (key, value) := by
  intro lead rest blank' stops
  have name := readString_escape writer text
    (':' :: (gap ++ (value.write writer gap ++ rest)))
  have split : writeString writer key ++ ':' :: (gap ++ value.write writer gap) ++ rest =
      '"' :: (key.flatMap writer.escape ++ '"' :: ':' :: (gap ++ (value.write writer gap ++ rest))) := by
    simp [writeString]
  rw [readField, skipBlanks_append blank', split, skipBlanks_cons (by decide)]
  simp only [if_true, name, skipBlanks_cons (show isBlank ':' = false by decide),
    reads gap rest blank stops, Option.map_some]

theorem readValue_append {lead : List Char} (blank : IsGap lead) (depth : ℕ) (cs : List Char) :
    readValue depth (lead ++ cs) = readValue depth cs := by
  rw [readValue.eq_def, readValue.eq_def, skipBlanks_append blank]

theorem readValue_word (depth : ℕ) (rest : List Char) :
    readValue depth ("null".toList ++ rest) = some (.null, rest) ∧
      readValue depth ("true".toList ++ rest) = some (.bool true, rest) ∧
      readValue depth ("false".toList ++ rest) = some (.bool false, rest) := by
  have null := dropPrefix_append "null" .null rest
  have true_ := dropPrefix_append "true" (.bool true) rest
  have false_ := dropPrefix_append "false" (.bool false) rest
  refine ⟨?_, ?_, ?_⟩
  · rw [readValue.eq_def, show "null".toList = 'n' :: "ull".toList from rfl, List.cons_append,
      skipBlanks_cons (by decide)]
    simpa using null
  · rw [readValue.eq_def, show "true".toList = 't' :: "rue".toList from rfl, List.cons_append,
      skipBlanks_cons (by decide)]
    simpa using true_
  · rw [readValue.eq_def, show "false".toList = 'f' :: "alse".toList from rfl, List.cons_append,
      skipBlanks_cons (by decide)]
    simpa using false_

theorem readValue_number {token rest : List Char} (number : IsNumber token) (stops : Stops rest)
    (depth : ℕ) : readValue depth (token ++ rest) = some (.number token, rest) := by
  have read := readNumber_append number stops
  obtain ⟨c, cs, rfl⟩ := List.exists_cons_of_ne_nil (ne_nil_of_isNumber number)
  have inside := isNumberChar_of_mem number c List.mem_cons_self
  have ne {d : Char} (other : isNumberChar d = false) : c ≠ d := by
    rintro rfl
    rw [inside] at other
    cases other
  rw [readValue.eq_def, List.cons_append, skipBlanks_cons (isBlank_of_isNumberChar inside)]
  simp only [if_neg (ne (show isNumberChar '"' = false by decide)),
    if_neg (ne (show isNumberChar '[' = false by decide)),
    if_neg (ne (show isNumberChar '\x7b' = false by decide)),
    if_neg (ne (show isNumberChar 'n' = false by decide)),
    if_neg (ne (show isNumberChar 't' = false by decide)),
    if_neg (ne (show isNumberChar 'f' = false by decide))]
  exact read

theorem readValue_str {s : PyStr} (text : IsText s) (depth : ℕ) (rest : List Char) :
    readValue depth (writeString writer s ++ rest) = some (.str s, rest) := by
  have read := readString_escape writer text rest
  rw [readValue.eq_def, writeString, List.cons_append, skipBlanks_cons (by decide), List.append_assoc,
    List.singleton_append]
  simp only [if_true, read, Option.map_some]

theorem readValue_arr {depth : ℕ} {text : List Char} {items : List JsonTree} {rest : List Char}
    (read : readItems (readValue depth) ']' (text ++ ']' :: rest) = some (items, rest)) :
    readValue (depth + 1) (('[' :: (text ++ [']'])) ++ rest) = some (.arr items, rest) := by
  rw [readValue.eq_def, List.cons_append, skipBlanks_cons (by decide), List.append_assoc,
    List.singleton_append]
  simpa using read

theorem readValue_obj {depth : ℕ} {text : List Char} {fields : List (PyStr × JsonTree)}
    {rest : List Char}
    (read : readItems (readField (readValue depth)) '\x7d' (text ++ '\x7d' :: rest) =
      some (fields, rest)) :
    readValue (depth + 1) (('\x7b' :: (text ++ ['\x7d'])) ++ rest) = some (.obj fields, rest) := by
  rw [readValue.eq_def, List.cons_append, skipBlanks_cons (by decide), List.append_assoc,
    List.singleton_append]
  simpa using read

theorem writeItems_begin : ∀ {items : List JsonTree}, PlainItems items →
    ∀ text ∈ writeItems writer gap items, Begins ']' text
  | [], _ => fun _ member => absurd member List.not_mem_nil
  | _ :: _, plain => List.forall_mem_cons.mpr ⟨write_head plain.1, writeItems_begin plain.2⟩

theorem writeFields_begin : ∀ (fields : List (PyStr × JsonTree)),
    ∀ text ∈ writeFields writer gap fields, Begins '\x7d' text
  | [] => fun _ member => absurd member List.not_mem_nil
  | (_, _) :: fields =>
      List.forall_mem_cons.mpr ⟨⟨'"', _, rfl, by decide, by decide⟩, writeFields_begin fields⟩

mutual

/-- **What is written is read**: a plain tree, nested no deeper than the reader goes,
whatever follows it. -/
theorem reads_write (blank : IsGap gap) : ∀ (tree : JsonTree) (depth : ℕ), tree.Plain →
    tree.depth ≤ depth → Reads (readValue depth) (tree.write writer gap) tree
  | .null, depth, _, _ => fun lead rest blank' _ =>
      (readValue_append blank' depth _).trans (readValue_word depth rest).1
  | .bool true, depth, _, _ => fun lead rest blank' _ =>
      (readValue_append blank' depth _).trans (readValue_word depth rest).2.1
  | .bool false, depth, _, _ => fun lead rest blank' _ =>
      (readValue_append blank' depth _).trans (readValue_word depth rest).2.2
  | .number _, depth, plain, _ => fun lead rest blank' stops =>
      (readValue_append blank' depth _).trans (readValue_number plain stops depth)
  | .str _, depth, plain, _ => fun lead rest blank' _ =>
      (readValue_append blank' depth _).trans (readValue_str plain depth rest)
  | .arr items, 0, _, deep => absurd deep (by simp [JsonTree.depth])
  | .arr items, depth + 1, plain, deep => fun lead rest blank' _ =>
      (readValue_append blank' (depth + 1) _).trans
        (readValue_arr (readItems_row (by decide) (by decide) (by decide) blank
          (writeItems_begin plain)
          (reads_items blank items depth plain (Nat.le_of_succ_le_succ deep)) rest))
  | .obj fields, 0, _, deep => absurd deep (by simp [JsonTree.depth])
  | .obj fields, depth + 1, plain, deep => fun lead rest blank' _ =>
      (readValue_append blank' (depth + 1) _).trans
        (readValue_obj (readItems_row (by decide) (by decide) (by decide) blank
          (writeFields_begin fields)
          (reads_fields blank fields depth plain (Nat.le_of_succ_le_succ deep)) rest))

theorem reads_items (blank : IsGap gap) : ∀ (items : List JsonTree) (depth : ℕ),
    PlainItems items → depthItems items ≤ depth →
    List.Forall₂ (Reads (readValue depth)) (writeItems writer gap items) items
  | [], _, _, _ => .nil
  | item :: items, depth, plain, deep =>
      .cons (reads_write blank item depth plain.1 ((le_max_left _ _).trans deep))
        (reads_items blank items depth plain.2 ((le_max_right _ _).trans deep))

theorem reads_fields (blank : IsGap gap) : ∀ (fields : List (PyStr × JsonTree)) (depth : ℕ),
    PlainFields fields → depthFields fields ≤ depth →
    List.Forall₂ (Reads (readField (readValue depth))) (writeFields writer gap fields) fields
  | [], _, _, _ => .nil
  | (_, value) :: fields, depth, plain, deep =>
      .cons (reads_field blank plain.1
          (reads_write blank value depth plain.2.1 ((le_max_left _ _).trans deep)))
        (reads_fields blank fields depth plain.2.2 ((le_max_right _ _).trans deep))

end

/-- A whole text that was written is read. -/
theorem read_write (blank : IsGap gap) {tree : JsonTree} (plain : tree.Plain)
    (deep : tree.depth ≤ maxDepth) : read (tree.write writer gap) = some tree := by
  have reads : Reads (readValue maxDepth) (tree.write writer gap) tree :=
    reads_write blank tree maxDepth plain deep
  have whole := reads [] [] isGap_nil (fun c none_ => (by cases none_))
  rw [List.nil_append, List.append_nil] at whole
  rw [read, whole]
  rfl

end RoundTrip

/-! ## What is refused -/

/-- An item that is not read, wherever it stands. -/
def Refuses {α : Type} (item : List Char → Option (α × List Char)) (text : List Char) : Prop :=
  ∀ lead rest, IsGap lead → item (lead ++ (text ++ rest)) = none

section Refused

variable {writer : Escaping} {gap : List Char}

/-- A row with an item that is refused, behind others that are read, has no end. -/
theorem readRow_refused {α : Type} {item : List Char → Option (α × List Char)} {closing : Char}
    (blank : IsGap gap) {texts : List (List Char)} {values : List α}
    (reads : List.Forall₂ (Reads item) texts values) {text : List Char}
    (refused : Refuses item text) (after : List (List Char)) (fuel : ℕ) (lead rest : List Char)
    (blank' : IsGap lead) :
    readRow item closing fuel (lead ++ (row gap (texts ++ text :: after) ++ rest)) = none := by
  induction reads generalizing fuel lead with
  | nil =>
      cases fuel with
      | zero => rfl
      | succ fuel =>
          cases after with
          | nil => rw [List.nil_append, row, readRow, refused lead rest blank']
          | cons next after =>
              rw [List.nil_append, row, readRow, List.append_assoc, refused lead _ blank']
  | @cons first value texts values here others ih =>
      cases fuel with
      | zero => rfl
      | succ fuel =>
          obtain ⟨next, more, behind⟩ : ∃ next more, texts ++ text :: after = next :: more := by
            cases texts with
            | nil => exact ⟨text, after, rfl⟩
            | cons next texts => exact ⟨next, texts ++ text :: after, rfl⟩
          have later := ih fuel gap blank
          rw [behind] at later
          have read := here lead (',' :: (gap ++ row gap (next :: more)) ++ rest) blank'
            (stops_cons rfl _)
          have split : row gap (first :: texts ++ text :: after) ++ rest =
              first ++ (',' :: (gap ++ row gap (next :: more)) ++ rest) := by
            rw [List.cons_append, behind, row, List.append_assoc]
          rw [split, readRow, read]
          simp only [List.cons_append, skipBlanks_cons (show isBlank ',' = false from rfl), if_true]
          rw [List.append_assoc, later, Option.map_none]

theorem readItems_refused {α : Type} {item : List Char → Option (α × List Char)} {closing : Char}
    (blank : IsGap gap) {texts : List (List Char)} {values : List α}
    (reads : List.Forall₂ (Reads item) texts values) {text : List Char}
    (refused : Refuses item text) {after : List (List Char)}
    (begins : ∀ t ∈ texts ++ text :: after, Begins closing t) (rest : List Char) :
    readItems item closing (row gap (texts ++ text :: after) ++ rest) = none := by
  obtain ⟨c, cs, whole, ink, differs⟩ := row_begins gap (by simp) begins
  have none_ : readRow item closing (row gap (texts ++ text :: after) ++ rest).length
      ([] ++ (row gap (texts ++ text :: after) ++ rest)) = none :=
    readRow_refused blank reads refused after _ [] rest isGap_nil
  rw [List.nil_append, whole, List.cons_append] at none_
  rw [readItems, whole, List.cons_append, skipBlanks_cons ink]
  simp only [if_neg differs, none_]

theorem refuses_field {depth : ℕ} (blank : IsGap gap) {key : PyStr} (text : IsText key)
    {value : List Char} (refused : Refuses (readValue depth) value) :
    Refuses (readField (readValue depth)) (writeString writer key ++ ':' :: (gap ++ value)) := by
  intro lead rest blank'
  have name := readString_escape writer text (':' :: (gap ++ (value ++ rest)))
  have split : writeString writer key ++ ':' :: (gap ++ value) ++ rest =
      '"' :: (key.flatMap writer.escape ++ '"' :: ':' :: (gap ++ (value ++ rest))) := by
    simp [writeString]
  rw [readField, skipBlanks_append blank', split, skipBlanks_cons (by decide)]
  simp only [if_true, name, skipBlanks_cons (show isBlank ':' = false by decide),
    refused gap rest blank, Option.map_none]

theorem writeFields_append (fields others : List (PyStr × JsonTree)) :
    writeFields writer gap (fields ++ others) =
      writeFields writer gap fields ++ writeFields writer gap others := by
  induction fields with
  | nil => rfl
  | cons field fields ih => rw [List.cons_append, writeFields, writeFields, ih, List.cons_append]

/-- An object with a value that is refused is refused. -/
theorem refuses_obj {depth : ℕ} (blank : IsGap gap) (fields : List (PyStr × JsonTree))
    {after : List (PyStr × JsonTree)} (plain : PlainFields fields)
    (shallow : depthFields fields ≤ depth) {key : PyStr} (text : IsText key) {value : JsonTree}
    (refused : Refuses (readValue depth) (value.write writer gap)) :
    Refuses (readValue (depth + 1)) ((obj (fields ++ (key, value) :: after)).write writer gap) := by
  intro lead rest blank'
  have begins : ∀ t ∈ writeFields writer gap (fields ++ (key, value) :: after), Begins '\x7d' t :=
    writeFields_begin (fields ++ (key, value) :: after)
  rw [writeFields_append, writeFields] at begins
  have none_ := readItems_refused blank (reads_fields blank fields depth plain shallow)
    (refuses_field blank text refused) begins ('\x7d' :: rest)
  rw [readValue_append blank', readValue.eq_def, write, writeFields_append, writeFields,
    List.cons_append, skipBlanks_cons (by decide), List.append_assoc, List.singleton_append]
  simpa using none_

/-- The names of what is no number begin no value. -/
theorem refuses_name {token : List Char}
    (name : token ∈ ["NaN".toList, "Infinity".toList, "-Infinity".toList]) (depth : ℕ) :
    Refuses (readValue depth) ((number token).write writer gap) := by
  intro lead rest blank'
  have digitless : ∀ cs : List Char, readNumber ('N' :: cs) = none ∧ readNumber ('I' :: cs) = none ∧
      readNumber ('-' :: 'I' :: cs) = none := fun cs => by
    refine ⟨?_, ?_, ?_⟩ <;> rw [readNumber, if_neg] <;>
      simp only [List.takeWhile_cons, show isNumberChar 'N' = false by decide,
        show isNumberChar 'I' = false by decide, show isNumberChar '-' = true by decide,
        Bool.false_eq_true, if_false, if_true] <;> decide
  rw [readValue_append blank', readValue.eq_def, write]
  simp only [List.mem_cons, List.not_mem_nil, or_false] at name
  rcases name with rfl | rfl | rfl
  · exact (digitless ("aN".toList ++ rest)).1
  · exact (digitless ("nfinity".toList ++ rest)).2.1
  · exact (digitless ("nfinity".toList ++ rest)).2.2

theorem read_refused {text : List Char} (refused : Refuses (readValue maxDepth) text) :
    read text = none := by
  have none_ := refused [] [] isGap_nil
  rw [List.nil_append, List.append_nil] at none_
  rw [read, none_]

end Refused

end JsonTree

end CentaurApex.Theory
