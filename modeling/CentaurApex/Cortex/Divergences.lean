/-
# Cortex.Divergences -- price against momentum, at the last two extremes

An extreme is strictly beyond every close of a window on both sides.  Where the closes at the
last two extremes of a kind move one way and the momentum the other, there is a divergence.
Momentum is the change of the close over a window of its own, and zero where there is no such
window yet.

* **The extremes** (`mem_pivots_iff`): the sliding window finds exactly the strict local
  extremes.
* **Far enough back** (`gate_passes`): where both momenta exist, there are closes enough.
* **Divergences are real, exactly when** (`reports_diverging_iff`): for each kind of extremes,
  one is reported where one is, if and only if no momentum that is missing at the earlier
  extreme stands in the way as a zero (`Padded`).

Refuting pole `padded_divergence`: a first high three bars from the start, with a momentum over
five.
-/
import CentaurApex.Cortex.MarketContext
import Mathlib.Data.List.GetD

namespace CentaurApex.Cortex

open CentaurApex.Theory

set_option autoImplicit false

/-! ## The detector -/

/-- Which extremes are looked at: highs, and lows. -/
inductive Extremes where
  | highs | lows
  deriving DecidableEq, Repr

inductive DivergenceKind where
  | regular | hidden
  deriving DecidableEq, Repr

inductive DivergenceSide where
  | bull | bear
  deriving DecidableEq, Repr

structure Divergence where
  kind : DivergenceKind
  side : DivergenceSide
  strength : ℚ
  deriving DecidableEq

/-- The windows are numbers of bars; the closes before or after a pivot have no maximum if there
are none. -/
structure DivergenceDetector where
  pivotWindow : ℕ
  rocWindow : ℕ
  pivotWindow_pos : 1 ≤ pivotWindow

theorem three_bars : 1 ≤ 3 := by decide

/-- `DivergenceDetector()` -/
def DivergenceDetector.default_ : DivergenceDetector := ⟨3, 5, three_bars⟩

/-- `closes[i]` -/
def closeAt (closes : List ℚ) (i : ℕ) : ℚ := closes.getD i 0

/-- The bar is beyond its neighbours, `window` of them on each side. -/
def isPivot (vals : List ℚ) (window : ℕ) (extremes : Extremes) (i : ℕ) : Bool :=
  let v := closeAt vals i
  let left := (vals.drop (i - window)).take window
  let right := (vals.drop (i + 1)).take window
  match extremes with
  | .highs => left.max?.any (· < v) && right.max?.any (· < v)
  | .lows => left.min?.any (v < ·) && right.min?.any (v < ·)

/-- `_pivots` -/
def pivots (vals : List ℚ) (window : ℕ) (extremes : Extremes) : List ℕ :=
  (List.range' window (vals.length - window - window)).filter (isPivot vals window extremes)

/-- `closes[i] - closes[i - roc_window]`, and before that zeros. -/
def osc (closes : List ℚ) (rocWindow i : ℕ) : ℚ :=
  if rocWindow ≤ i then closeAt closes i - closeAt closes (i - rocWindow) else 0

/-- `_strength` -/
def strength (a b : ℚ) : ℚ := min (|b - a| / max |a| (max |b| (1 / 10 ^ 9))) 2

/-- The divergence at the last two of the pivots. -/
def divergenceAt (closes : List ℚ) (rocWindow : ℕ) (extremes : Extremes) (pivots : List ℕ) :
    Option Divergence :=
  match pivots.reverse with
  | p2 :: p1 :: _ =>
      let priceDir := closeAt closes p2 - closeAt closes p1
      let oscDir := osc closes rocWindow p2 - osc closes rocWindow p1
      let strength := strength (osc closes rocWindow p1) (osc closes rocWindow p2)
      if extremes = .highs ∧ 0 < priceDir ∧ oscDir < 0 then some ⟨.regular, .bear, strength⟩
      else if extremes = .highs ∧ priceDir < 0 ∧ 0 < oscDir then some ⟨.hidden, .bull, strength⟩
      else if extremes = .lows ∧ priceDir < 0 ∧ 0 < oscDir then some ⟨.regular, .bull, strength⟩
      else if extremes = .lows ∧ 0 < priceDir ∧ oscDir < 0 then some ⟨.hidden, .bear, strength⟩
      else none
  | _ => none

namespace DivergenceDetector

variable (d : DivergenceDetector) (closes : List ℚ)

def find (extremes : Extremes) : Option Divergence :=
  divergenceAt closes d.rocWindow extremes (pivots closes d.pivotWindow extremes)

def detect : List Divergence :=
  if closes.length < d.pivotWindow * 2 + d.rocWindow + 2 then []
  else (d.find closes .highs).toList ++ (d.find closes .lows).toList

end DivergenceDetector

/-! ## Extremes -/

/-- `b` is on the inner side of `a`. -/
def Exceeds : Extremes → ℚ → ℚ → Prop
  | .highs, a, b => b < a
  | .lows, a, b => a < b

/-- Strictly beyond all closes within `window` bars on both sides, which there are. -/
structure StrictExtreme (closes : List ℚ) (window : ℕ) (extremes : Extremes) (i : ℕ) : Prop where
  before : window ≤ i
  after : i + window < closes.length
  beyond : ∀ j, j ≠ i → i ≤ j + window → j ≤ i + window →
    Exceeds extremes (closeAt closes i) (closeAt closes j)

/-- The last two numbers with a property. -/
structure LastTwo (P : ℕ → Prop) (p1 p2 : ℕ) : Prop where
  lt : p1 < p2
  first : P p1
  second : P p2
  last : ∀ p, P p → p = p2 ∨ p ≤ p1

theorem LastTwo.unique {P : ℕ → Prop} {p1 p2 q1 q2 : ℕ} (p : LastTwo P p1 p2)
    (q : LastTwo P q1 q2) : p1 = q1 ∧ p2 = q2 := by
  have := p.lt
  have := q.lt
  have := p.last q1 q.first
  have := p.last q2 q.second
  have := q.last p1 p.first
  have := q.last p2 p.second
  omega

/-- The greatest of a slice is less than `v`: there is a slice, and all of it is. -/
theorem max?_any_iff {xs : List ℚ} {v : ℚ} :
    xs.max?.any (· < v) = true ↔ xs ≠ [] ∧ ∀ x ∈ xs, x < v := by
  cases greatest : xs.max? with
  | none =>
      obtain rfl := List.max?_eq_none_iff.mp greatest
      simp
  | some a =>
      obtain ⟨member, le⟩ := List.max?_eq_some_iff.mp greatest
      simp only [Option.any_some, decide_eq_true_eq]
      exact ⟨fun lt => ⟨List.ne_nil_of_mem member, fun x inside => (le x inside).trans_lt lt⟩,
        fun all => all.2 a member⟩

theorem min?_any_iff {xs : List ℚ} {v : ℚ} :
    xs.min?.any (v < ·) = true ↔ xs ≠ [] ∧ ∀ x ∈ xs, v < x := by
  cases least : xs.min? with
  | none =>
      obtain rfl := List.min?_eq_none_iff.mp least
      simp
  | some a =>
      obtain ⟨member, le⟩ := List.min?_eq_some_iff.mp least
      simp only [Option.any_some, decide_eq_true_eq]
      exact ⟨fun lt => ⟨List.ne_nil_of_mem member, fun x inside => lt.trans_le (le x inside)⟩,
        fun all => all.2 a member⟩

/-- What is in a slice of closes. -/
theorem mem_slice_iff {closes : List ℚ} {start window : ℕ} (inside : start + window ≤ closes.length)
    {x : ℚ} : x ∈ (closes.drop start).take window ↔
      ∃ j, start ≤ j ∧ j < start + window ∧ closeAt closes j = x := by
  rw [List.mem_iff_getElem]
  constructor
  · rintro ⟨k, bound, rfl⟩
    have bound' : k < window ∧ start + k < closes.length := by
      rw [List.length_take, List.length_drop] at bound
      omega
    refine ⟨start + k, by omega, by omega, ?_⟩
    rw [List.getElem_take, List.getElem_drop, closeAt, List.getD_eq_getElem _ _ bound'.2]
  · rintro ⟨j, le, lt, rfl⟩
    refine ⟨j - start, by rw [List.length_take, List.length_drop]; omega, ?_⟩
    rw [List.getElem_take, List.getElem_drop, closeAt, List.getD_eq_getElem _ _ (by omega)]
    congr 1
    omega

theorem slice_ne_nil {closes : List ℚ} {start window : ℕ} (pos : 1 ≤ window)
    (inside : start + window ≤ closes.length) : (closes.drop start).take window ≠ [] := by
  intro nil
  have := congrArg List.length nil
  rw [List.length_take, List.length_drop, List.length_nil] at this
  omega

/-- All of both slices is on the inner side. -/
theorem isPivot_iff {closes : List ℚ} {window i : ℕ} (pos : 1 ≤ window) (before : window ≤ i)
    (after : i + window < closes.length) {extremes : Extremes} :
    isPivot closes window extremes i = true ↔ ∀ j, j ≠ i → i ≤ j + window → j ≤ i + window →
      Exceeds extremes (closeAt closes i) (closeAt closes j) := by
  have left : (∀ x ∈ (closes.drop (i - window)).take window,
      Exceeds extremes (closeAt closes i) x) ↔
      ∀ j, i ≤ j + window → j < i → Exceeds extremes (closeAt closes i) (closeAt closes j) := by
    constructor
    · intro all j low lt
      exact all _ ((mem_slice_iff (by omega)).mpr ⟨j, by omega, by omega, rfl⟩)
    · intro all x inside
      obtain ⟨j, low, lt, rfl⟩ := (mem_slice_iff (by omega)).mp inside
      exact all j (by omega) (by omega)
  have right : (∀ x ∈ (closes.drop (i + 1)).take window, Exceeds extremes (closeAt closes i) x) ↔
      ∀ j, i < j → j ≤ i + window → Exceeds extremes (closeAt closes i) (closeAt closes j) := by
    constructor
    · intro all j gt high
      exact all _ ((mem_slice_iff (by omega)).mpr ⟨j, by omega, by omega, rfl⟩)
    · intro all x inside
      obtain ⟨j, low, lt, rfl⟩ := (mem_slice_iff (by omega)).mp inside
      exact all j (by omega) (by omega)
  have both : isPivot closes window extremes i = true ↔
      (∀ x ∈ (closes.drop (i - window)).take window, Exceeds extremes (closeAt closes i) x) ∧
      ∀ x ∈ (closes.drop (i + 1)).take window, Exceeds extremes (closeAt closes i) x := by
    have leftSome := slice_ne_nil pos (show i - window + window ≤ closes.length by omega)
    have rightSome := slice_ne_nil pos (show i + 1 + window ≤ closes.length by omega)
    cases extremes with
    | highs =>
        dsimp only [isPivot]
        rw [Bool.and_eq_true, max?_any_iff, max?_any_iff]
        exact and_congr (and_iff_right leftSome) (and_iff_right rightSome)
    | lows =>
        dsimp only [isPivot]
        rw [Bool.and_eq_true, min?_any_iff, min?_any_iff]
        exact and_congr (and_iff_right leftSome) (and_iff_right rightSome)
  rw [both, left, right]
  constructor
  · rintro ⟨earlier, later⟩ j ne low high
    rcases lt_or_gt_of_ne ne with lt | gt
    · exact earlier j low lt
    · exact later j gt high
  · intro all
    exact ⟨fun j low lt => all j lt.ne low (by omega), fun j gt high => all j gt.ne' (by omega) high⟩

/-- **The sliding window finds the strict extremes.** -/
theorem mem_pivots_iff {closes : List ℚ} {window : ℕ} (pos : 1 ≤ window) {extremes : Extremes}
    {i : ℕ} : i ∈ pivots closes window extremes ↔ StrictExtreme closes window extremes i := by
  rw [pivots, List.mem_filter, List.mem_range'_1]
  constructor
  · rintro ⟨⟨before, within⟩, pivot⟩
    have after : i + window < closes.length := by omega
    exact ⟨before, after, (isPivot_iff pos before after).mp pivot⟩
  · rintro ⟨before, after, beyond⟩
    exact ⟨by omega, (isPivot_iff pos before after).mpr beyond⟩

/-- The last two of an increasing list. -/
theorem lastTwo_iff {P : ℕ → Prop} {xs : List ℕ} (increasing : xs.Pairwise (· < ·))
    (mem : ∀ {i}, i ∈ xs ↔ P i) {p1 p2 : ℕ} :
    (∃ rest, xs.reverse = p2 :: p1 :: rest) ↔ LastTwo P p1 p2 := by
  have ends {p1 p2 : ℕ} {rest : List ℕ} (last : xs.reverse = p2 :: p1 :: rest) :
      LastTwo P p1 p2 := by
    have decreasing : (p2 :: p1 :: rest).Pairwise (· > ·) := by
      rw [← last]
      exact List.pairwise_reverse.mpr increasing
    have inside {i : ℕ} : P i ↔ i = p2 ∨ i = p1 ∨ i ∈ rest := by
      rw [← mem, ← List.mem_reverse, last, List.mem_cons, List.mem_cons]
    obtain ⟨below2, decreasing⟩ := List.pairwise_cons.mp decreasing
    obtain ⟨below1, -⟩ := List.pairwise_cons.mp decreasing
    refine ⟨below2 p1 List.mem_cons_self, inside.mpr (.inr (.inl rfl)), inside.mpr (.inl rfl), ?_⟩
    intro p holds
    rcases inside.mp holds with rfl | rfl | earlier
    · exact .inl rfl
    · exact .inr le_rfl
    · exact .inr (below1 p earlier).le
  constructor
  · rintro ⟨rest, last⟩
    exact ends last
  · intro two
    have first := List.mem_reverse.mpr (mem.mpr two.first)
    have second := List.mem_reverse.mpr (mem.mpr two.second)
    have lt := two.lt
    match split : xs.reverse with
    | [] =>
        rw [split] at first
        cases first
    | [p] =>
        rw [split] at first second
        rw [List.mem_singleton] at first second
        omega
    | q2 :: q1 :: rest =>
        obtain ⟨rfl, rfl⟩ := (ends split).unique two
        exact ⟨rest, rfl⟩

theorem pairwise_pivots (closes : List ℚ) (window : ℕ) (extremes : Extremes) :
    (pivots closes window extremes).Pairwise (· < ·) :=
  List.Pairwise.filter _ List.pairwise_lt_range'

/-! ## Momentum -/

/-- The rate of change at a bar that has one. -/
def momentum (closes : List ℚ) (rocWindow i : ℕ) : ℚ :=
  closeAt closes i - closeAt closes (i - rocWindow)

/-- Two moves in opposite directions. -/
def Opposite (a b : ℚ) : Prop := 0 < a ∧ b < 0 ∨ a < 0 ∧ 0 < b

/-- A divergence is told by what it says of which extremes. -/
def Divergence.extremes (d : Divergence) : Extremes :=
  match d.kind, d.side with
  | .regular, .bear => .highs
  | .hidden, .bull => .highs
  | .regular, .bull => .lows
  | .hidden, .bear => .lows

theorem divergenceAt_extremes {closes : List ℚ} {roc : ℕ} {extremes : Extremes}
    {pivots : List ℕ} {d : Divergence}
    (found : divergenceAt closes roc extremes pivots = some d) : d.extremes = extremes := by
  unfold divergenceAt at found
  split at found
  · dsimp only at found
    split_ifs at found with bear hiddenBull bull hiddenBear
    · obtain rfl := Option.some.inj found
      exact bear.1.symm
    · obtain rfl := Option.some.inj found
      exact hiddenBull.1.symm
    · obtain rfl := Option.some.inj found
      exact bull.1.symm
    · obtain rfl := Option.some.inj found
      exact hiddenBear.1.symm
  · cases found

/-- There is a divergence at the last two pivots where price and oscillator go opposite ways. -/
theorem exists_divergenceAt_iff {closes : List ℚ} {roc : ℕ} {extremes : Extremes}
    {pivots : List ℕ} :
    (∃ d, divergenceAt closes roc extremes pivots = some d) ↔
      ∃ p1 p2, (∃ rest, pivots.reverse = p2 :: p1 :: rest) ∧
        Opposite (closeAt closes p2 - closeAt closes p1)
          (osc closes roc p2 - osc closes roc p1) := by
  unfold divergenceAt
  split
  · rename_i p2 p1 rest last
    have ends : (∃ q1 q2, (∃ rest', pivots.reverse = q2 :: q1 :: rest') ∧
        Opposite (closeAt closes q2 - closeAt closes q1)
          (osc closes roc q2 - osc closes roc q1)) ↔
        Opposite (closeAt closes p2 - closeAt closes p1)
          (osc closes roc p2 - osc closes roc p1) := by
      constructor
      · rintro ⟨q1, q2, ⟨rest', last'⟩, opposite⟩
        rw [last] at last'
        obtain ⟨rfl, same⟩ := List.cons.inj last'
        obtain ⟨rfl, -⟩ := List.cons.inj same
        exact opposite
      · exact fun opposite => ⟨p1, p2, ⟨rest, last⟩, opposite⟩
    rw [ends, Opposite]
    cases extremes with
    | highs =>
        simp only [true_and, reduceCtorEq, false_and, if_false]
        split_ifs <;> simp_all
    | lows =>
        simp only [true_and, reduceCtorEq, false_and, if_false]
        split_ifs <;> simp_all
  · rename_i none_
    refine iff_of_false (by simp) ?_
    rintro ⟨p1, p2, ⟨rest, last⟩, -⟩
    exact none_ p2 p1 rest last

namespace DivergenceDetector

variable (d : DivergenceDetector) (closes : List ℚ) (extremes : Extremes)

/-- The last two extremes of a kind. -/
def Last (p1 p2 : ℕ) : Prop := LastTwo (StrictExtreme closes d.pivotWindow extremes) p1 p2

/-- Price and momentum, which both extremes have, go opposite ways between the last two. -/
def Diverges : Prop :=
  ∃ p1 p2, d.Last closes extremes p1 p2 ∧ d.rocWindow ≤ p1 ∧
    Opposite (closeAt closes p2 - closeAt closes p1)
      (momentum closes d.rocWindow p2 - momentum closes d.rocWindow p1)

/-- One divergence at most is reported of these extremes, and one is where one is. -/
structure ReportsDiverging : Prop where
  once : ((d.detect closes).filter fun found => found.extremes = extremes).length ≤ 1
  iff : (∃ found ∈ d.detect closes, found.extremes = extremes) ↔ d.Diverges closes extremes

/-- The earlier extreme has no momentum, the later one has, there are closes enough, and price
and the later momentum go opposite ways. -/
def Padded : Prop :=
  ∃ p1 p2, d.Last closes extremes p1 p2 ∧ p1 < d.rocWindow ∧ d.rocWindow ≤ p2 ∧
    d.pivotWindow * 2 + d.rocWindow + 2 ≤ closes.length ∧
    Opposite (closeAt closes p2 - closeAt closes p1) (momentum closes d.rocWindow p2)

/-- **Far enough back**: two extremes of a kind are a window apart, and where the earlier one
has a momentum there are closes enough. -/
theorem gate_passes {p1 p2 : ℕ} (last : d.Last closes extremes p1 p2) (far : d.rocWindow ≤ p1) :
    d.pivotWindow * 2 + d.rocWindow + 2 ≤ closes.length := by
  have apart : p1 + d.pivotWindow < p2 := by
    by_contra near
    have lt := last.lt
    have first := last.first.beyond p2 (by omega) (by omega) (by omega)
    have second := last.second.beyond p1 (by omega) (by omega) (by omega)
    cases extremes with
    | highs => exact lt_asymm (α := ℚ) first second
    | lows => exact lt_asymm (α := ℚ) first second
  have := last.second.after
  omega

theorem find_iff : (∃ found, d.find closes extremes = some found) ↔
    ∃ p1 p2, d.Last closes extremes p1 p2 ∧
      Opposite (closeAt closes p2 - closeAt closes p1)
        (osc closes d.rocWindow p2 - osc closes d.rocWindow p1) := by
  rw [find, exists_divergenceAt_iff]
  refine exists_congr fun p1 => exists_congr fun p2 => and_congr_left fun _ => ?_
  exact lastTwo_iff (pairwise_pivots _ _ _) (mem_pivots_iff d.pivotWindow_pos)

/-- What is reported of a kind of extremes. -/
theorem filter_detect : (d.detect closes).filter (fun found => found.extremes = extremes) =
    if closes.length < d.pivotWindow * 2 + d.rocWindow + 2 then []
    else (d.find closes extremes).toList := by
  have kept (other : Extremes) :
      ((d.find closes other).toList.filter fun found => found.extremes = extremes) =
        if other = extremes then (d.find closes other).toList else [] := by
    cases found : d.find closes other with
    | none => simp
    | some divergence =>
        have same : divergence.extremes = other := divergenceAt_extremes found
        rw [Option.toList_some, List.filter_singleton, same]
        by_cases here : other = extremes
        · rw [if_pos here, decide_eq_true here]
          rfl
        · rw [if_neg here, decide_eq_false here]
          rfl
  rw [detect]
  split
  · rfl
  · rw [List.filter_append, kept, kept]
    cases extremes with
    | highs => simp
    | lows => simp

/-- **Divergences are real, exactly where no momentum is missing**: for each kind of extremes,
whatever the windows and the closes, at most one divergence is reported, and one exactly where
price and momentum go opposite ways between the last two extremes that both have a momentum, if
and only if the zero that stands for a missing momentum does not make one (`Padded`). -/
theorem reports_diverging_iff :
    d.ReportsDiverging closes extremes ↔ ¬ d.Padded closes extremes := by
  have filtered := d.filter_detect closes extremes
  have mem_iff : (∃ found ∈ d.detect closes, found.extremes = extremes) ↔
      ∃ found, found ∈ (d.detect closes).filter fun found => found.extremes = extremes := by
    simp only [List.mem_filter, decide_eq_true_eq]
  by_cases few : closes.length < d.pivotWindow * 2 + d.rocWindow + 2
  · rw [if_pos few] at filtered
    have unpadded : ¬ d.Padded closes extremes := by
      rintro ⟨p1, p2, -, -, -, enough, -⟩
      omega
    refine iff_of_true ⟨by rw [filtered]; exact Nat.zero_le 1, ?_⟩ unpadded
    rw [mem_iff, filtered]
    refine iff_of_false (by simp) ?_
    rintro ⟨p1, p2, last, far, -⟩
    have := d.gate_passes closes extremes last far
    omega
  rw [if_neg few] at filtered
  have once : ((d.detect closes).filter fun found => found.extremes = extremes).length ≤ 1 := by
    rw [filtered]
    cases d.find closes extremes <;> simp
  have found_iff : (∃ found ∈ d.detect closes, found.extremes = extremes) ↔
      ∃ found, d.find closes extremes = some found := by
    rw [mem_iff, filtered]
    simp only [Option.mem_toList]
  have reports : d.ReportsDiverging closes extremes ↔
      ((∃ found, d.find closes extremes = some found) ↔ d.Diverges closes extremes) :=
    ⟨fun reports => found_iff.symm.trans reports.iff, fun iff => ⟨once, found_iff.trans iff⟩⟩
  rw [reports, d.find_iff closes extremes]
  by_cases two : ∃ p1 p2, d.Last closes extremes p1 p2
  · obtain ⟨p1, p2, last⟩ := two
    have at_ {Q : ℕ → ℕ → Prop} : (∃ q1 q2, d.Last closes extremes q1 q2 ∧ Q q1 q2) ↔ Q p1 p2 := by
      constructor
      · rintro ⟨q1, q2, other, holds⟩
        obtain ⟨rfl, rfl⟩ := other.unique last
        exact holds
      · exact fun holds => ⟨p1, p2, last, holds⟩
    rw [Diverges, Padded, at_, at_, at_]
    have lt := last.lt
    by_cases far : d.rocWindow ≤ p1
    · -- both momenta exist: the oscillator is the momentum
      rw [osc, osc, if_pos far, if_pos (by omega)]
      exact iff_of_true (and_iff_right far).symm fun padded => absurd padded.1 (not_lt.mpr far)
    have near := not_le.mp far
    have still : ¬ (d.rocWindow ≤ p1 ∧ Opposite (closeAt closes p2 - closeAt closes p1)
        (momentum closes d.rocWindow p2 - momentum closes d.rocWindow p1)) := fun both => far both.1
    rw [iff_false_right still, not_iff_not, osc, osc, if_neg far, sub_zero]
    by_cases later : d.rocWindow ≤ p2
    · rw [if_pos later]
      exact ⟨fun opposite => ⟨near, later, not_lt.mp few, opposite⟩, fun padded => padded.2.2.2⟩
    · rw [if_neg later]
      refine iff_of_false ?_ fun padded => later padded.2.1
      rintro (⟨-, down⟩ | ⟨-, up⟩)
      · exact lt_irrefl (0 : ℚ) down
      · exact lt_irrefl (0 : ℚ) up
  · have none_ {Q : ℕ → ℕ → Prop} : ¬ ∃ q1 q2, d.Last closes extremes q1 q2 ∧ Q q1 q2 := by
      rintro ⟨q1, q2, last, -⟩
      exact two ⟨q1, q2, last⟩
    exact iff_of_true (iff_of_false none_ none_) none_

/-- Refuting pole: a high at bar three, before there is a momentum over five, and at bar nine a
lower one, above the close five bars before. -/
theorem padded_divergence :
    ¬ ∀ (d : DivergenceDetector), 1 ≤ d.rocWindow → ∀ (closes : List ℚ) (extremes : Extremes),
      d.ReportsDiverging closes extremes := by
  intro always
  have reports := always default_ (by decide) [10, 11, 12, 20, 12, 11, 10, 11, 12, 15, 12, 11, 10]
    .highs
  have found : ∃ found ∈ default_.detect [10, 11, 12, 20, 12, 11, 10, 11, 12, 15, 12, 11, 10],
      found.extremes = .highs := by decide +kernel
  obtain ⟨p1, p2, last, far, -⟩ := reports.iff.mp found
  have highs : pivots [10, 11, 12, 20, 12, 11, 10, 11, 12, 15, 12, 11, 10] 3 .highs = [3, 9] := by
    decide +kernel
  have first := (mem_pivots_iff default_.pivotWindow_pos).mpr last.first
  have second := (mem_pivots_iff default_.pivotWindow_pos).mpr last.second
  have lt := last.lt
  have far : 5 ≤ p1 := far
  rw [show default_.pivotWindow = 3 from rfl, highs] at first second
  simp only [List.mem_cons, List.not_mem_nil, or_false] at first second
  omega

end DivergenceDetector

end CentaurApex.Cortex
