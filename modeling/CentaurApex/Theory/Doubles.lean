/-
# Theory.Doubles -- what one operation on doubles gives

An operation on doubles gives the double nearest its exact result: an infinity where that is too
large, zero where it is too small (`toDouble`).  Most properties do not see the rounding, and are
read over exact numbers; some see the ends of the range.

* `toBinary64_error`: a result is off by at most half a unit in its last place.
* `toBinary64_overflows_iff`: it is infinite from `2 ^ 1024 - 2 ^ 970` on.
* `toBinary64_positive_iff`: it is a positive number exactly in between (`InRange`): half of the
  smallest double is rounded to zero.
-/
import CentaurApex.Theory.DecimalFloat

namespace CentaurApex.Theory

open CentaurApex.Theory.ExtNum (fin)

set_option autoImplicit false

/-- A double, or the exact result of an operation on doubles. -/
abbrev Double : Type := ExtNum ℚ

/-- The result of an operation, as a double. -/
def toDouble : Double → Double
  | .fin q => toBinary64 q
  | x => x

/-- A number within the range of the doubles, and not rounded: an infinity where its double is
one, zero where that is zero. -/
def clamp (q : ℚ) : Double :=
  match toBinary64 q with
  | .fin r => if r = 0 then fin 0 else fin q
  | x => x

/-! ## The significand -/

section Significand

variable {x : ℚ}

theorem unit_pos (x : ℚ) : (0 : ℚ) < 2 ^ lastBitExponent x := zpow_pos (by norm_num) _

/-- The significand to which a number is rounded. -/
def significand (x : ℚ) : ℤ := roundHalfEven (x / 2 ^ lastBitExponent x)

theorem toBinary64_eq (x : ℚ) :
    toBinary64 x = if 2 ^ 1024 ≤ |(significand x : ℚ) * 2 ^ lastBitExponent x| then
      (if 0 < x then .posInf else .negInf)
    else fin ((significand x : ℚ) * 2 ^ lastBitExponent x) := rfl

theorem significand_zero : significand 0 = 0 := by
  rw [significand, zero_div, ← Int.cast_zero, roundHalfEven_intCast]

/-- What is rounded keeps its sign. -/
theorem rounded_nonneg (nonneg : 0 ≤ x) :
    (0 : ℚ) ≤ significand x * 2 ^ lastBitExponent x := by
  have scaled : ((0 : ℤ) : ℚ) ≤ x / 2 ^ lastBitExponent x := by
    rw [Int.cast_zero]
    exact div_nonneg nonneg (unit_pos x).le
  have rounded := roundHalfEven_mono scaled
  rw [roundHalfEven_intCast] at rounded
  exact mul_nonneg (by exact_mod_cast rounded) (unit_pos x).le

end Significand

/-! ## Signs -/

theorem toBinary64_nonneg {q : ℚ} (nonneg : 0 ≤ q) : ¬ toBinary64 q < fin 0 := by
  rw [toBinary64_eq]
  split
  · rename_i large
    split
    · exact ExtNum.not_posInf_lt _
    · rename_i nonpos
      obtain rfl : q = 0 := le_antisymm (not_lt.mp nonpos) nonneg
      rw [significand_zero, Int.cast_zero, zero_mul, abs_zero] at large
      exact absurd large (not_le.mpr (pow_pos (by norm_num) _))
  · exact not_lt.mpr (rounded_nonneg nonneg)

theorem toDouble_not_neg {x : Double} (nonneg : ¬ x < fin 0) : ¬ toDouble x < fin 0 := by
  cases x with
  | fin q => exact toBinary64_nonneg (not_lt.mp nonneg)
  | nan => exact id
  | posInf => exact id
  | negInf => exact absurd trivial nonneg

theorem pos_of_toDouble_pos {x : Double} (pos : fin 0 < toDouble x) : fin 0 < x := by
  cases x with
  | fin q =>
      show 0 < q
      by_contra nonpos
      exact toBinary64_nonpos (not_lt.mp nonpos) pos
  | nan => exact pos
  | posInf => exact pos
  | negInf => exact pos

/-! ## Nearest integers -/

section Nearest

variable {y : ℚ} {k : ℤ}

theorem le_roundHalfEven (above : (k : ℚ) - 1 / 2 < y) : k ≤ roundHalfEven y := by
  have error := abs_le.mp (roundHalfEven_error y)
  have near : (k : ℚ) - 1 < roundHalfEven y := by linarith
  have : k - 1 < roundHalfEven y := by exact_mod_cast near
  omega

theorem roundHalfEven_lt (below : y < (k : ℚ) - 1 / 2) : roundHalfEven y < k := by
  have error := abs_le.mp (roundHalfEven_error y)
  have near : (roundHalfEven y : ℚ) < k := by linarith
  exact_mod_cast near

/-- The middle goes to the even neighbour. -/
theorem roundHalfEven_middle :
    roundHalfEven ((k : ℚ) - 1 / 2) = if k % 2 = 0 then k else k - 1 := by
  have floor : ⌊(k : ℚ) - 1 / 2⌋ = k - 1 := by
    rw [Int.floor_eq_iff]
    push_cast
    constructor <;> linarith
  unfold roundHalfEven
  rw [floor]
  push_cast
  split_ifs <;> first | omega | linarith

end Nearest

/-! ## The last place -/

section LastPlace

variable {x : ℚ}

/-- **Half a unit in the last place.** -/
theorem toBinary64_error {q : ℚ} (finite : toBinary64 x = fin q) :
    |q - x| ≤ 2 ^ lastBitExponent x / 2 := by
  have unit := unit_pos x
  unfold toBinary64 at finite
  dsimp only at finite
  split at finite
  · split at finite <;> cases finite
  · obtain rfl := ExtNum.fin.inj finite
    have error := roundHalfEven_error (x / 2 ^ lastBitExponent x)
    have scaled : (roundHalfEven (x / 2 ^ lastBitExponent x) : ℚ) * 2 ^ lastBitExponent x - x =
        ((roundHalfEven (x / 2 ^ lastBitExponent x) : ℚ) - x / 2 ^ lastBitExponent x) *
          2 ^ lastBitExponent x := by
      field_simp
    rw [scaled, abs_mul, abs_of_pos unit]
    calc _ ≤ 1 / 2 * 2 ^ lastBitExponent x := mul_le_mul_of_nonneg_right error unit.le
      _ = 2 ^ lastBitExponent x / 2 := by ring

end LastPlace

/-! ## The ends of the range -/

section Range

variable {x : ℚ}

/-- The powers at the top, counted in half units of the largest double's last place. -/
theorem top_powers : ∃ u : ℚ, 0 < u ∧ (2 : ℚ) ^ 1024 = 2 ^ 54 * u ∧ (2 : ℚ) ^ 1023 = 2 ^ 53 * u ∧
    (2 : ℚ) ^ (971 : ℤ) = 2 * u ∧ (2 : ℚ) ^ 970 = u := by
  have place : (2 : ℚ) ^ (971 : ℤ) = 2 ^ 971 := zpow_natCast 2 971
  refine ⟨2 ^ 970, pow_pos (by norm_num) _, pow_add 2 54 970, pow_add 2 53 970, ?_, rfl⟩
  rw [place]
  exact (pow_succ' 2 970)

/-- The smallest positive double, counted in the middle below it. -/
theorem bottom_powers :
    ∃ u : ℚ, 0 < u ∧ (2 : ℚ) ^ (-1074 : ℤ) = 2 * u ∧ (1 / 2 : ℚ) ^ 1075 = u := by
  have cast : (1 / 2 : ℚ) ^ (1074 : ℤ) = (1 / 2) ^ 1074 := zpow_natCast _ 1074
  have split : (1 / 2 : ℚ) ^ 1075 = (1 / 2) ^ 1074 * (1 / 2) := pow_succ _ _
  refine ⟨(1 / 2) ^ 1075, pow_pos (by norm_num) _, ?_, rfl⟩
  rw [zpow_neg, ← inv_zpow, inv_eq_one_div, cast, split]
  generalize (1 / 2 : ℚ) ^ 1074 = u
  linarith

theorem lastBitExponent_eq (positive : 0 < x) :
    lastBitExponent x = max (Int.log 2 x - 52) (-1074) := by
  rw [lastBitExponent, abs_of_pos positive]

theorem le_log (positive : 0 < x) {n : ℕ} (above : 2 ^ n ≤ x) : (n : ℤ) ≤ Int.log 2 x := by
  rw [← Int.zpow_le_iff_le_log (by norm_num) positive, zpow_natCast]
  exact_mod_cast above

theorem log_lt (positive : 0 < x) {n : ℕ} (below : x < 2 ^ n) : Int.log 2 x < n := by
  rw [← Int.lt_zpow_iff_log_lt (by norm_num) positive, zpow_natCast]
  exact_mod_cast below

theorem le_significand {n : ℤ} (above : n * 2 ^ lastBitExponent x ≤ x) :
    (n : ℚ) ≤ significand x := by
  have scaled : (n : ℚ) ≤ x / 2 ^ lastBitExponent x := (le_div_iff₀ (unit_pos x)).mpr above
  have rounded := roundHalfEven_mono scaled
  rw [roundHalfEven_intCast] at rounded
  exact_mod_cast rounded

/-- From the middle above the largest double on, the rounding leaves the range. -/
theorem rounded_large (large : 2 ^ 1024 - 2 ^ 970 ≤ x) :
    2 ^ 1024 ≤ (significand x : ℚ) * 2 ^ lastBitExponent x := by
  obtain ⟨u, unit, top, below, place971, place970⟩ := top_powers
  rw [top, place970] at large
  have high : (2 : ℚ) ^ 1023 ≤ x := by
    rw [below]
    linarith only [large, unit]
  have positive : 0 < x := by linarith only [large, unit]
  have log := le_log positive high
  have place : lastBitExponent x = Int.log 2 x - 52 := by
    rw [lastBitExponent_eq positive]
    omega
  rcases log.eq_or_lt with last | above
  · have unit971 : (2 : ℚ) ^ lastBitExponent x = 2 * u := by
      rw [place, ← last]
      exact place971
    have scaled : (((2 : ℤ) ^ 53 : ℤ) : ℚ) - 1 / 2 ≤ x / 2 ^ lastBitExponent x := by
      rw [unit971, le_div_iff₀ (by linarith only [unit])]
      push_cast
      linarith only [large]
    have middle := roundHalfEven_mono scaled
    rw [roundHalfEven_middle, if_pos (by norm_num)] at middle
    have bits : (2 ^ 53 : ℚ) ≤ significand x := by exact_mod_cast middle
    rw [unit971, top]
    nlinarith only [bits, unit]
  · have split : (2 : ℚ) ^ Int.log 2 x = 2 ^ 52 * 2 ^ lastBitExponent x := by
      have exponents : Int.log 2 x = (52 : ℕ) + lastBitExponent x := by
        rw [place]
        push_cast
        ring
      rw [exponents, zpow_add₀ (by norm_num), zpow_natCast]
    have first := Int.zpow_log_le_self (b := 2) (by norm_num) positive
    rw [Nat.cast_ofNat, split] at first
    have bits : (2 ^ 52 : ℚ) ≤ significand x := by
      have counted := le_significand (n := 2 ^ 52) (x := x) (by push_cast; exact first)
      exact_mod_cast counted
    calc (2 : ℚ) ^ 1024 = 2 ^ ((1024 : ℕ) : ℤ) := (zpow_natCast _ _).symm
      _ ≤ 2 ^ Int.log 2 x := zpow_le_zpow_right₀ (by norm_num) (by omega)
      _ = 2 ^ 52 * 2 ^ lastBitExponent x := split
      _ ≤ significand x * 2 ^ lastBitExponent x := mul_le_mul_of_nonneg_right bits (unit_pos x).le

/-- Below it, the rounding stays in the range. -/
theorem rounded_small (positive : 0 < x) (small : x < 2 ^ 1024 - 2 ^ 970) :
    (significand x : ℚ) * 2 ^ lastBitExponent x < 2 ^ 1024 := by
  obtain ⟨u, unit, top, below, place971, place970⟩ := top_powers
  rw [top, place970] at small
  have high : x < 2 ^ 1024 := by
    rw [top]
    linarith only [small, unit]
  have log := log_lt positive high
  rcases (Int.le_sub_one_of_lt log).eq_or_lt with last | less
  · have unit971 : (2 : ℚ) ^ lastBitExponent x = 2 * u := by
      rw [lastBitExponent_eq positive, last]
      exact place971
    have scaled : x / 2 ^ lastBitExponent x < (((2 : ℤ) ^ 53 : ℤ) : ℚ) - 1 / 2 := by
      rw [unit971, div_lt_iff₀ (by linarith only [unit])]
      push_cast
      linarith only [small]
    have bits : significand x < 2 ^ 53 := roundHalfEven_lt scaled
    have bits : (significand x : ℚ) < 2 ^ 53 := by exact_mod_cast bits
    rw [unit971, top]
    nlinarith only [bits, unit]
  · have half : x < 2 ^ (1023 : ℕ) := by
      have above := (Int.lt_zpow_iff_log_lt (b := 2) (x := 1023) (by norm_num) positive).mpr less
      rw [Nat.cast_ofNat] at above
      exact lt_of_lt_of_eq above (zpow_natCast 2 1023)
    have unit970 : (2 : ℚ) ^ lastBitExponent x ≤ 2 * u := by
      rw [← place971]
      refine zpow_le_zpow_right₀ (by norm_num) ?_
      rw [lastBitExponent_eq positive]
      omega
    have error := (abs_le.mp (roundHalfEven_error (x / 2 ^ lastBitExponent x))).2
    have near : (significand x : ℚ) ≤ x / 2 ^ lastBitExponent x + 1 / 2 := by
      rw [significand]
      linarith only [error]
    have spread : (x / 2 ^ lastBitExponent x + 1 / 2) * 2 ^ lastBitExponent x =
        x + 2 ^ lastBitExponent x / 2 := by
      have := (unit_pos x).ne'
      field_simp
    have bounded := mul_le_mul_of_nonneg_right near (unit_pos x).le
    rw [spread] at bounded
    rw [below] at half
    rw [top]
    linarith only [bounded, half, unit970, unit]

theorem significand_pos_iff (positive : 0 < x) : 0 < significand x ↔ (1 / 2) ^ 1075 < x := by
  have half : ((1 : ℤ) : ℚ) - 1 / 2 = 1 / 2 := by norm_num
  have place := lastBitExponent_eq positive
  obtain ⟨u, unit, bottom, middle⟩ := bottom_powers
  rw [middle]
  constructor
  · intro some_
    by_contra tiny
    rw [not_lt] at tiny
    have low : lastBitExponent x = -1074 := by
      have log : Int.log 2 x < -1074 := by
        rw [← Int.lt_zpow_iff_log_lt (by norm_num) positive, Nat.cast_ofNat, bottom]
        linarith only [tiny, unit]
      omega
    have scaled : x / 2 ^ lastBitExponent x ≤ ((1 : ℤ) : ℚ) - 1 / 2 := by
      rw [half, div_le_iff₀ (unit_pos x), low, bottom]
      linarith only [tiny]
    have rounded := roundHalfEven_mono scaled
    rw [roundHalfEven_middle, if_neg (by norm_num)] at rounded
    exact absurd some_ (not_lt.mpr rounded)
  · intro above
    refine Int.lt_of_add_one_le (le_roundHalfEven ?_)
    rw [zero_add, half, lt_div_iff₀ (unit_pos x)]
    rcases max_choice (Int.log 2 x - 52) (-1074) with high | low
    · have first := Int.zpow_log_le_self (b := 2) (by norm_num) positive
      have less : (2 : ℚ) ^ (Int.log 2 x - 52) ≤ 2 ^ Int.log 2 x :=
        zpow_le_zpow_right₀ (by norm_num) (by omega)
      rw [Nat.cast_ofNat] at first
      have unit := unit_pos x
      rw [place, high] at unit ⊢
      linarith only [first, less, unit]
    · rw [place, low, bottom]
      linarith only [above]

/-- **A result is infinite** from the middle above the largest double on. -/
theorem toBinary64_overflows_iff (positive : 0 < x) :
    toBinary64 x = .posInf ↔ 2 ^ 1024 - 2 ^ 970 ≤ x := by
  rw [toBinary64_eq, abs_of_nonneg (rounded_nonneg positive.le), if_pos positive]
  constructor
  · intro infinite
    by_contra small
    rw [if_neg (not_le.mpr (rounded_small positive (not_le.mp small)))] at infinite
    cases infinite
  · intro large
    rw [if_pos (rounded_large large)]

/-- Between the middle below the smallest positive double and the one above the largest. -/
def InRange (x : ℚ) : Prop := (1 / 2) ^ 1075 < x ∧ x < 2 ^ 1024 - 2 ^ 970

theorem InRange.pos (inside : InRange x) : 0 < x := lt_trans (pow_pos (by norm_num) _) inside.1

/-- **A result is a positive number** exactly when it is in the range. -/
theorem toBinary64_positive_iff : (∃ q, toBinary64 x = fin q ∧ 0 < q) ↔ InRange x := by
  constructor
  · rintro ⟨q, rounded, some_⟩
    have positive : 0 < x := by
      by_contra nonpos
      refine toBinary64_nonpos (not_lt.mp nonpos) ?_
      rw [rounded]
      exact ExtNum.fin_lt_fin.mpr some_
    have small : x < 2 ^ 1024 - 2 ^ 970 := by
      by_contra large
      rw [(toBinary64_overflows_iff positive).mpr (not_lt.mp large)] at rounded
      cases rounded
    refine ⟨(significand_pos_iff positive).mp ?_, small⟩
    rw [toBinary64_eq] at rounded
    split at rounded
    · cases rounded
    · obtain rfl := ExtNum.fin.inj rounded
      exact_mod_cast pos_of_mul_pos_left some_ (unit_pos x).le
  · intro inside
    have positive := inside.pos
    have some_ : (0 : ℚ) < significand x * 2 ^ lastBitExponent x :=
      mul_pos (by exact_mod_cast (significand_pos_iff positive).mpr inside.1) (unit_pos x)
    refine ⟨_, ?_, some_⟩
    rw [toBinary64_eq, abs_of_pos some_, if_neg (not_le.mpr (rounded_small positive inside.2))]

example : toDouble (fin 100 / fin (1 / 10 ^ 308)) = .posInf := by decide +kernel

example : toDouble (fin ((1 / 2) ^ 1074) / fin 2) = fin 0 := by decide +kernel

end Range

end CentaurApex.Theory
