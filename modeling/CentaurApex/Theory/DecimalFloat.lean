/-
# Theory.DecimalFloat -- reading decimal text as a binary64

Parsing a float from text is where exact numbers end: the decimal value is
rounded to the nearest binary64, ties to even, so `1e400` reads as an infinity
and `1e-400` as zero, and the words `inf`, `infinity` and `nan` read as special
values.  `parseFloat` follows the grammar

    Float  ::= Sign? ( 'inf' | 'infinity' | 'nan' | Number )
    Number ::= ( Digit+ | Digit+ '.' Digit* | Digit* '.' Digit+ ) Exp?
    Exp    ::= 'e' Sign? Digit+

with letters of either case, and accepts the whole text or nothing.  Text is a
list of characters.

Rounding to an integer is monotone (`roundHalfEven_mono`) and off by at most a half
(`roundHalfEven_error`); an integer of at most 53 bits is not rounded
(`toBinary64_intCast`).
-/
import CentaurApex.Theory.ExtNum
import Mathlib.Data.Int.Log
import Mathlib.Data.Rat.Floor

namespace CentaurApex.Theory

open CentaurApex.Theory.ExtNum (fin)

set_option autoImplicit false

/-! ## Rounding -/

/-- The nearest integer, ties to even. -/
def roundHalfEven (q : ℚ) : ℤ :=
  let below := ⌊q⌋
  if q - below < 1 / 2 then below
  else if 1 / 2 < q - below then below + 1
  else if below % 2 = 0 then below
  else below + 1

theorem roundHalfEven_bounds (q : ℚ) : ⌊q⌋ ≤ roundHalfEven q ∧ roundHalfEven q ≤ ⌊q⌋ + 1 := by
  unfold roundHalfEven
  dsimp only
  split_ifs <;> omega

theorem roundHalfEven_error (q : ℚ) : |(roundHalfEven q : ℚ) - q| ≤ 1 / 2 := by
  have below := Int.floor_le q
  have above := Int.lt_floor_add_one q
  unfold roundHalfEven
  dsimp only
  split_ifs <;> push_cast <;> rw [abs_le] <;> constructor <;> linarith

@[simp] theorem roundHalfEven_intCast (n : ℤ) : roundHalfEven n = n := by
  simp [roundHalfEven]

theorem roundHalfEven_mono {a b : ℚ} (le : a ≤ b) : roundHalfEven a ≤ roundHalfEven b := by
  rcases (Int.floor_mono le).lt_or_eq with lt | same
  · have := (roundHalfEven_bounds a).2
    have := (roundHalfEven_bounds b).1
    omega
  · unfold roundHalfEven
    rw [same]
    dsimp only
    split_ifs <;> first | omega | linarith

/-- The exponent of the last of the 53 significant bits, subnormals included. -/
def lastBitExponent (q : ℚ) : ℤ := max (Int.log 2 |q| - 52) (-1074)

/-- The nearest binary64, an infinity from `2 ^ 1024` on. -/
def toBinary64 (q : ℚ) : ExtNum ℚ :=
  let unit : ℚ := 2 ^ lastBitExponent q
  let rounded := roundHalfEven (q / unit) * unit
  if 2 ^ 1024 ≤ |rounded| then (if 0 < q then .posInf else .negInf) else fin rounded

/-- What is not positive is not rounded to something positive. -/
theorem toBinary64_nonpos {q : ℚ} (nonpos : q ≤ 0) : ¬ fin 0 < toBinary64 q := by
  have unit : (0 : ℚ) < 2 ^ lastBitExponent q := zpow_pos (by norm_num) _
  have below : q / 2 ^ lastBitExponent q ≤ (0 : ℤ) := by
    rw [Int.cast_zero]
    exact div_nonpos_of_nonpos_of_nonneg nonpos unit.le
  have rounded : roundHalfEven (q / 2 ^ lastBitExponent q) ≤ 0 := by
    simpa only [roundHalfEven_intCast] using roundHalfEven_mono below
  have scaled : (roundHalfEven (q / 2 ^ lastBitExponent q) : ℚ) * 2 ^ lastBitExponent q ≤ 0 :=
    mul_nonpos_of_nonpos_of_nonneg (by exact_mod_cast rounded) unit.le
  unfold toBinary64
  dsimp only
  rw [if_neg (not_lt.mpr nonpos)]
  split
  · exact fun lt => lt
  · exact fun positive => absurd (ExtNum.fin_lt_fin.mp positive) (not_lt.mpr scaled)

/-- An integer of at most 53 bits is a double. -/
theorem toBinary64_intCast {n : ℤ} (small : |n| < 2 ^ 53) : toBinary64 n = fin (n : ℚ) := by
  have smallQ : |(n : ℚ)| < 2 ^ 53 := by exact_mod_cast small
  obtain ⟨k, exponent⟩ : ∃ k : ℕ, lastBitExponent (n : ℚ) = -k := by
    have log : Int.log 2 |(n : ℚ)| ≤ 52 := by
      rcases eq_or_ne n 0 with rfl | nonzero
      · simp
      · have lt : Int.log 2 |(n : ℚ)| < 53 :=
          (Int.lt_zpow_iff_log_lt (by decide) (by positivity)).mp (by exact_mod_cast smallQ)
        omega
    refine ⟨(-lastBitExponent (n : ℚ)).toNat, ?_⟩
    unfold lastBitExponent
    omega
  have scaled : (n : ℚ) / 2 ^ lastBitExponent (n : ℚ) = ((n * 2 ^ k : ℤ) : ℚ) := by
    rw [exponent, zpow_neg, zpow_natCast, div_inv_eq_mul]
    push_cast
    rfl
  have back : ((n * 2 ^ k : ℤ) : ℚ) * 2 ^ lastBitExponent (n : ℚ) = n := by
    rw [exponent, zpow_neg, zpow_natCast]
    push_cast
    rw [mul_inv_cancel_right₀ (by positivity)]
  unfold toBinary64
  dsimp only
  rw [scaled, roundHalfEven_intCast, back, if_neg]
  exact not_le.mpr (smallQ.trans (pow_lt_pow_right₀ (by norm_num) (by norm_num)))

/-! ## Text -/

/-- The leading decimal digits, and what follows them. -/
def takeDigits : List Char → List Nat × List Char
  | [] => ([], [])
  | c :: cs =>
      if c.isDigit then ((c.toNat - '0'.toNat) :: (takeDigits cs).1, (takeDigits cs).2)
      else ([], c :: cs)

def digitsValue (ds : List Nat) : Nat := ds.foldl (fun n d => 10 * n + d) 0

/-- An optional sign: whether it is a minus, and what follows it. -/
def takeSign : List Char → Bool × List Char
  | '-' :: cs => (true, cs)
  | '+' :: cs => (false, cs)
  | cs => (false, cs)

def parseExponent : List Char → Option ℤ
  | [] => some 0
  | c :: cs =>
      let (minus, body) := takeSign cs
      let (digits, rest) := takeDigits body
      if (c = 'e' ∨ c = 'E') ∧ digits ≠ [] ∧ rest = [] then
        some (if minus then -(digitsValue digits : ℤ) else digitsValue digits)
      else none

def parseNumber (cs : List Char) : Option ℚ :=
  let (whole, rest) := takeDigits cs
  let (fraction, rest) :=
    match rest with
    | '.' :: rest => takeDigits rest
    | rest => ([], rest)
  if whole = [] ∧ fraction = [] then none
  else (parseExponent rest).map fun e : ℤ =>
    (digitsValue (whole ++ fraction) : ℚ) * (10 : ℚ) ^ (e - (fraction.length : ℤ))

def parseFloat (cs : List Char) : Option (ExtNum ℚ) :=
  let (minus, body) := takeSign cs
  let word := body.map Char.toLower
  let magnitude :=
    if word = ['i', 'n', 'f'] ∨ word = ['i', 'n', 'f', 'i', 'n', 'i', 't', 'y'] then some .posInf
    else if word = ['n', 'a', 'n'] then some .nan
    else (parseNumber body).map toBinary64
  magnitude.map fun x => if minus then -x else x

/-- Unicode `White_Space`. -/
def isWhiteSpace (c : Char) : Bool :=
  (9 ≤ c.toNat && c.toNat ≤ 13) || (0x2000 ≤ c.toNat && c.toNat ≤ 0x200A) ||
    [0x20, 0x85, 0xA0, 0x1680, 0x2028, 0x2029, 0x202F, 0x205F, 0x3000].contains c.toNat

def trim (cs : List Char) : List Char :=
  ((cs.dropWhile isWhiteSpace).reverse.dropWhile isWhiteSpace).reverse

/-- A text with no blank at either end. -/
theorem trim_eq {first last : Char} {cs : List Char} (head : isWhiteSpace first = false)
    (end_ : isWhiteSpace last = false) :
    trim (first :: (cs ++ [last])) = first :: (cs ++ [last]) := by
  have front : (first :: (cs ++ [last])).dropWhile isWhiteSpace = first :: (cs ++ [last]) :=
    List.dropWhile_cons_of_neg (by simp [head])
  have reversed : (first :: (cs ++ [last])).reverse = last :: (first :: cs).reverse := by simp
  rw [trim, front, reversed, List.dropWhile_cons_of_neg (by simp [end_]), ← reversed,
    List.reverse_reverse]

example : parseFloat (trim " 1.5e1\n".toList) = some (fin 15) := by decide +kernel

example : parseFloat "-Infinity".toList = some .negInf := by decide +kernel

example : parseFloat "1e400".toList = some .posInf := by decide +kernel

example : parseFloat "1.5x".toList = none := by decide +kernel

end CentaurApex.Theory
