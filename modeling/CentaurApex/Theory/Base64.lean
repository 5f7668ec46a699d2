/-
# Theory.Base64 -- base64 with padding

Three bytes are four digits of six bits.  The decoder is the strict one: digits of
the alphabet only, padding at the end and as much as is missing; but behind whole groups
it does not count the padding.

* `decode_encode`: what was encoded is decoded;
* `encode_alphabet`, `decode_alphabet`: no other characters are written or read.
-/
import Mathlib.Data.Nat.Notation
import Mathlib.Tactic.Cases

namespace CentaurApex.Theory.Base64

set_option autoImplicit false

def pad : Char := '='

/-- The digit for six bits. -/
def digit (n : ℕ) : Char :=
  if n < 26 then Char.ofNat (65 + n)
  else if n < 52 then Char.ofNat (71 + n)
  else if n < 62 then Char.ofNat (n - 4)
  else if n = 62 then '+'
  else '/'

/-- The six bits of a digit. -/
def bits (c : Char) : Option ℕ :=
  if 65 ≤ c.toNat ∧ c.toNat < 91 then some (c.toNat - 65)
  else if 97 ≤ c.toNat ∧ c.toNat < 123 then some (c.toNat - 71)
  else if 48 ≤ c.toNat ∧ c.toNat < 58 then some (c.toNat + 4)
  else if c = '+' then some 62
  else if c = '/' then some 63
  else none

theorem bits_digit {n : ℕ} (small : n < 64) : bits (digit n) = some n := by
  revert n
  decide +kernel

theorem digit_ne_pad {n : ℕ} (small : n < 64) : digit n ≠ pad := by
  revert n
  decide +kernel

/-! ## Encoding -/

def encode : List UInt8 → List Char
  | [] => []
  | [a] => [digit (a.toNat / 4), digit (a.toNat % 4 * 16), pad, pad]
  | [a, b] =>
      [digit (a.toNat / 4), digit (a.toNat % 4 * 16 + b.toNat / 16), digit (b.toNat % 16 * 4), pad]
  | a :: b :: c :: bytes =>
      digit (a.toNat / 4) :: digit (a.toNat % 4 * 16 + b.toNat / 16) ::
        digit (b.toNat % 16 * 4 + c.toNat / 64) :: digit (c.toNat % 64) :: encode bytes

/-- Four digits are three bytes. -/
def group (w x y z : ℕ) : List UInt8 :=
  [.ofNat (w * 4 + x / 16), .ofNat (x % 16 * 16 + y / 4), .ofNat (y % 4 * 64 + z)]

/-- The last group, where it is padded: the bytes that are not padding. -/
def decodeLast (w x : Char) (y z : Option ℕ) : Option (List UInt8) := do
  let w ← bits w
  let x ← bits x
  match y, z with
  | none, _ => some ((group w x 0 0).take 1)
  | some y, none => some ((group w x y 0).take 2)
  | some y, some z => some (group w x y z)

/-- `base64.b64decode(s, validate=True)`.  Padding that nothing is missing for is passed over,
however much it is. -/
def decode : List Char → Option (List UInt8)
  | [] => some []
  | w :: x :: y :: z :: digits =>
      if digits = [] ∧ z = pad then
        if y = pad then decodeLast w x none none
        else do
          let y ← bits y
          decodeLast w x (some y) none
      else do
        let bytes ← decodeLast w x (some (← bits y)) (some (← bits z))
        let others ← (if digits.all (· = pad) then some [] else decode digits)
        some (bytes ++ others)
  | _ => none

/-! ## The round trip -/

/-- The bytes of their own digits. -/
theorem group_digits (a b c : UInt8) :
    group (a.toNat / 4) (a.toNat % 4 * 16 + b.toNat / 16) (b.toNat % 16 * 4 + c.toNat / 64)
      (c.toNat % 64) = [a, b, c] := by
  have ha := a.toNat_lt
  have hb := b.toNat_lt
  have hc := c.toNat_lt
  have first : a.toNat / 4 * 4 + (a.toNat % 4 * 16 + b.toNat / 16) / 16 = a.toNat := by omega
  have second : (a.toNat % 4 * 16 + b.toNat / 16) % 16 * 16 +
      (b.toNat % 16 * 4 + c.toNat / 64) / 4 = b.toNat := by omega
  have third : (b.toNat % 16 * 4 + c.toNat / 64) % 4 * 64 + c.toNat % 64 = c.toNat := by omega
  rw [group, first, second, third]
  simp only [UInt8.ofNat_toNat]

/-- Digits come first: there is nothing in padding alone. -/
theorem eq_nil_of_encode_pads {bytes : List UInt8}
    (pads : (encode bytes).all (· = pad) = true) : bytes = [] := by
  have first {a : UInt8} {digits : List Char}
      (pads : (digit (a.toNat / 4) :: digits).all (· = pad) = true) : False := by
    have ha := a.toNat_lt
    have isPad := List.all_eq_true.mp pads _ List.mem_cons_self
    exact digit_ne_pad (by omega) (of_decide_eq_true isPad)
  cases bytes using encode.induct with
  | case1 => rfl
  | case2 a => exact (first pads).elim
  | case3 a b => exact (first pads).elim
  | case4 a b c bytes => exact (first pads).elim

theorem decode_encode (bytes : List UInt8) : decode (encode bytes) = some bytes := by
  induction bytes using encode.induct with
  | case1 => rfl
  | case2 a =>
      have ha := a.toNat_lt
      have whole := group_digits a 0 0
      simp only [encode, decode, decodeLast, true_and, if_true, bits_digit (n := a.toNat / 4) (by omega),
        bits_digit (n := a.toNat % 4 * 16) (by omega), Option.bind_eq_bind, Option.bind_some]
      have zero : (0 : UInt8).toNat = 0 := rfl
      simp only [zero, Nat.zero_div, Nat.zero_mod, Nat.zero_mul, Nat.add_zero] at whole
      rw [whole]
      rfl
  | case3 a b =>
      have ha := a.toNat_lt
      have hb := b.toNat_lt
      have whole := group_digits a b 0
      have zero : (0 : UInt8).toNat = 0 := rfl
      simp only [zero, Nat.zero_div, Nat.zero_mod, Nat.add_zero] at whole
      have notPad : digit (b.toNat % 16 * 4) ≠ pad := digit_ne_pad (by omega)
      simp only [encode, decode, decodeLast, true_and, if_true, if_neg notPad,
        bits_digit (n := a.toNat / 4) (by omega),
        bits_digit (n := a.toNat % 4 * 16 + b.toNat / 16) (by omega),
        bits_digit (n := b.toNat % 16 * 4) (by omega), Option.bind_eq_bind, Option.bind_some]
      rw [whole]
      rfl
  | case4 a b c bytes ih =>
      have ha := a.toNat_lt
      have hb := b.toNat_lt
      have hc := c.toNat_lt
      have notPad : ¬ (encode bytes = [] ∧ digit (c.toNat % 64) = pad) := fun padded =>
        digit_ne_pad (by omega) padded.2
      simp only [encode, decode, decodeLast, if_neg notPad,
        bits_digit (n := a.toNat / 4) (by omega),
        bits_digit (n := a.toNat % 4 * 16 + b.toNat / 16) (by omega),
        bits_digit (n := b.toNat % 16 * 4 + c.toNat / 64) (by omega),
        bits_digit (n := c.toNat % 64) (by omega), Option.bind_eq_bind, Option.bind_some, ih]
      have others : (if (encode bytes).all (· = pad) then some [] else some bytes) = some bytes := by
        split
        · rename_i pads
          rw [eq_nil_of_encode_pads pads]
        · rfl
      rw [group_digits, others]
      rfl

example : decode "TWFu=".toList = decode "TWFu".toList := by decide

/-! ## The alphabet -/

def Digit (c : Char) : Prop := (bits c).isSome

instance (c : Char) : Decidable (Digit c) := inferInstanceAs (Decidable (_ = true))

theorem digit_digit {n : ℕ} (small : n < 64) : Digit (digit n) := by
  rw [Digit, bits_digit small]
  rfl

theorem encode_alphabet (bytes : List UInt8) : ∀ c ∈ encode bytes, Digit c ∨ c = pad := by
  induction bytes using encode.induct with
  | case1 => simp [encode]
  | case2 a =>
      have ha := a.toNat_lt
      have first : Digit (digit (a.toNat / 4)) := digit_digit (by omega)
      have second : Digit (digit (a.toNat % 4 * 16)) := digit_digit (by omega)
      simp [encode, first, second]
  | case3 a b =>
      have ha := a.toNat_lt
      have hb := b.toNat_lt
      have first : Digit (digit (a.toNat / 4)) := digit_digit (by omega)
      have second : Digit (digit (a.toNat % 4 * 16 + b.toNat / 16)) := digit_digit (by omega)
      have third : Digit (digit (b.toNat % 16 * 4)) := digit_digit (by omega)
      simp [encode, first, second, third]
  | case4 a b c bytes ih =>
      have ha := a.toNat_lt
      have hb := b.toNat_lt
      have hc := c.toNat_lt
      have first : Digit (digit (a.toNat / 4)) := digit_digit (by omega)
      have second : Digit (digit (a.toNat % 4 * 16 + b.toNat / 16)) := digit_digit (by omega)
      have third : Digit (digit (b.toNat % 16 * 4 + c.toNat / 64)) := digit_digit (by omega)
      have fourth : Digit (digit (c.toNat % 64)) := digit_digit (by omega)
      simpa [encode, first, second, third, fourth] using ih

theorem decodeLast_alphabet {w x : Char} {y z : Option ℕ} {bytes : List UInt8}
    (decoded : decodeLast w x y z = some bytes) : Digit w ∧ Digit x := by
  unfold decodeLast at decoded
  unfold Digit
  cases hw : bits w with
  | none => simp [hw] at decoded
  | some _ =>
      cases hx : bits x with
      | none => simp [hw, hx] at decoded
      | some _ => exact ⟨rfl, rfl⟩

theorem decode_alphabet : ∀ {text : List Char} {bytes : List UInt8}, decode text = some bytes →
    ∀ c ∈ text, Digit c ∨ c = pad
  | [], _, _ => by simp
  | [_], _, decoded => by simp [decode] at decoded
  | [_, _], _, decoded => by simp [decode] at decoded
  | [_, _, _], _, decoded => by simp [decode] at decoded
  | w :: x :: y :: z :: digits, bytes, decoded => by
      rw [decode] at decoded
      split at decoded
      · rename_i padded
        obtain ⟨rfl, rfl⟩ := padded
        split at decoded
        · rename_i padding
          obtain ⟨first, second⟩ := decodeLast_alphabet decoded
          simp [first, second, padding]
        · obtain ⟨third, bits_, last⟩ := Option.bind_eq_some_iff.mp decoded
          obtain ⟨first, second⟩ := decodeLast_alphabet last
          have three : Digit y := by rw [Digit, bits_]; rfl
          simp [first, second, three]
      · obtain ⟨third, bits_, rest⟩ := Option.bind_eq_some_iff.mp decoded
        obtain ⟨fourth, bits_', rest⟩ := Option.bind_eq_some_iff.mp rest
        obtain ⟨group_, last, rest⟩ := Option.bind_eq_some_iff.mp rest
        obtain ⟨others, decoded', _⟩ := Option.bind_eq_some_iff.mp rest
        obtain ⟨first, second⟩ := decodeLast_alphabet last
        have three : Digit y := by rw [Digit, bits_]; rfl
        have four : Digit z := by rw [Digit, bits_']; rfl
        have later : ∀ c ∈ digits, Digit c ∨ c = pad := by
          split at decoded'
          · rename_i pads
            exact fun c member => .inr (of_decide_eq_true (List.all_eq_true.mp pads c member))
          · exact decode_alphabet decoded'
        simpa [first, second, three, four] using later

end CentaurApex.Theory.Base64
