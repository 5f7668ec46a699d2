/-
# Theory.JsonText -- the bytes of a JSON text

Compact JSON, as a serializer writes it: no blanks, fields in the order they are
stored, strings with `"`, `\` and the control characters escaped and the rest in
UTF-8.  How a floating-point number is printed is a parameter.

The second half bounds lengths, piece by piece: a string by six bytes a
character (`length_renderString_le`), an integer by its decimal digits
(`length_renderNat_le`), an array by its longest item (`length_renderItems_le`).
-/
import CentaurApex.Theory.Json

namespace CentaurApex.Theory

set_option autoImplicit false

/-! ## Rendering -/

/-- The bytes of a text. -/
def utf8 (text : List Char) : List UInt8 := text.flatMap String.utf8EncodeChar

theorem utf8_eq_nil {text : List Char} : utf8 text = [] ↔ text = [] := by
  cases text with
  | nil => simp [utf8]
  | cons c text => simp [utf8, String.utf8EncodeChar_ne_nil]

theorem length_utf8_le (text : List Char) : (utf8 text).length ≤ 4 * text.length := by
  induction text with
  | nil => simp [utf8]
  | cons c text ih =>
      have := c.utf8Size_le_four
      simp only [utf8, List.flatMap_cons, List.length_append, String.length_utf8EncodeChar,
        List.length_cons] at ih ⊢
      omega

def hexDigit (n : Nat) : UInt8 := if n < 10 then .ofNat (48 + n) else .ofNat (87 + n)

/-- A character of a string: escaped where JSON asks for it. -/
def renderChar (c : Char) : List UInt8 :=
  if c.toNat = 34 then [92, 34]
  else if c.toNat = 92 then [92, 92]
  else if c.toNat = 8 then [92, 98]
  else if c.toNat = 9 then [92, 116]
  else if c.toNat = 10 then [92, 110]
  else if c.toNat = 12 then [92, 102]
  else if c.toNat = 13 then [92, 114]
  else if c.toNat < 32 then [92, 117, 48, 48, hexDigit (c.toNat / 16), hexDigit (c.toNat % 16)]
  else String.utf8EncodeChar c

def renderString (s : String) : List UInt8 := 34 :: (s.toList.flatMap renderChar ++ [34])

def renderNat (n : Nat) : List UInt8 := (Nat.toDigits 10 n).map fun c => .ofNat c.toNat

def renderInt : ℤ → List UInt8
  | .ofNat n => renderNat n
  | .negSucc n => 45 :: renderNat (n + 1)

mutual

def Json.render (number : ExtNum ℚ → List UInt8) : Json → List UInt8
  | .null => [110, 117, 108, 108]
  | .bool true => [116, 114, 117, 101]
  | .bool false => [102, 97, 108, 115, 101]
  | .int n => renderInt n
  | .float x => number x
  | .str s => renderString s
  | .arr items => 91 :: (Json.renderItems number items ++ [93])
  | .obj fields => 123 :: (Json.renderFields number fields ++ [125])

def Json.renderItems (number : ExtNum ℚ → List UInt8) : List Json → List UInt8
  | [] => []
  | [item] => Json.render number item
  | item :: items => Json.render number item ++ 44 :: Json.renderItems number items

def Json.renderFields (number : ExtNum ℚ → List UInt8) : List (String × Json) → List UInt8
  | [] => []
  | [(key, value)] => renderString key ++ 58 :: Json.render number value
  | (key, value) :: fields =>
      renderString key ++ 58 :: (Json.render number value ++ 44 :: Json.renderFields number fields)

end

/-! ## Lengths -/

theorem length_renderChar_le (c : Char) : (renderChar c).length ≤ 6 := by
  unfold renderChar
  have := c.utf8Size_le_four
  split_ifs <;> simp only [List.length_cons, List.length_nil, String.length_utf8EncodeChar] <;> omega

theorem length_renderString_le (s : String) : (renderString s).length ≤ 6 * s.length + 2 := by
  have chars : ∀ cs : List Char, (cs.flatMap renderChar).length ≤ 6 * cs.length := by
    intro cs
    induction cs with
    | nil => simp
    | cons c cs ih =>
        have := length_renderChar_le c
        rw [List.flatMap_cons, List.length_append, List.length_cons]
        omega
  have := chars s.toList
  rw [String.length_toList] at this
  simp only [renderString, List.length_cons, List.length_append, List.length_nil]
  omega

theorem length_renderNat_le {n k : Nat} (digits : n < 10 ^ (k + 1)) :
    (renderNat n).length ≤ k + 1 := by
  rw [renderNat, List.length_map]
  exact (Nat.length_toDigits_le_iff (by decide) k.succ_pos).mpr digits

section Render

variable (number : ExtNum ℚ → List UInt8)

theorem length_renderItems_le {b : Nat} {items : List Json}
    (bounded : ∀ item ∈ items, (item.render number).length ≤ b) :
    (Json.renderItems number items).length ≤ (b + 1) * items.length := by
  induction items with
  | nil => simp [Json.renderItems]
  | cons item items ih =>
      obtain ⟨first, rest⟩ := List.forall_mem_cons.mp bounded
      cases items with
      | nil =>
          simp only [Json.renderItems, List.length_cons, List.length_nil]
          omega
      | cons next items =>
          have := ih rest
          rw [Json.renderItems]
          · simp only [List.length_append, List.length_cons] at this ⊢
            rw [Nat.mul_add (b + 1) (items.length + 1) 1]
            omega
          · simp

end Render

example : (Json.obj [("a", .arr [.int (-12), .null]), ("b", .str "\"\n")]).render (fun _ => []) =
    "\x7b\"a\":[-12,null],\"b\":\"\\\"\\n\"\x7d".toUTF8.toList := by decide +kernel

end CentaurApex.Theory
