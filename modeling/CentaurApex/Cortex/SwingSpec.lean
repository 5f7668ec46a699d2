/-
# Cortex.SwingSpec -- what a list of swings says about its candles

The detector carries a direction and two running pivots, and a wide candle may confirm a
swing of each kind.  What it reports is said without it (`SwingSpec`): swings of alternate kind,
in the order of their candles, a reversal apart, each at the extreme of the candles from the
swing before it to its own.

* **A pivot is a running extreme** (`Spanned.high`, `Spanned.low`): of the candles since the
  last swing, its own candle included.
* **A swing is an extreme** (`zigzagSwings_spec`): for every history, range and multiple; a
  reversal that no price move reaches (an infinity, NaN) confirms none.
* **So a price is one of the history's** (`SwingSpec.price_mem`).
-/
import CentaurApex.Cortex.Coils

namespace CentaurApex.Cortex

open CentaurApex.Theory
open CentaurApex.Theory.ExtNum (fin)
open CentaurApex.Theory.Python

set_option autoImplicit false

/-! ## The candles of a swing -/

/-- The candles from the `a`-th on, before the `b`-th. -/
def span (candles : List Candle) (a b : ℕ) : List Candle := (candles.take b).drop a

section Span

variable {candles : List Candle} {a i : ℕ} {c : Candle}

theorem span_succ (here : candles[i]? = some c) (le : a ≤ i) :
    span candles a (i + 1) = span candles a i ++ [c] := by
  obtain ⟨inside, -⟩ := List.getElem?_eq_some_iff.mp here
  have reach : a ≤ (candles.take i).length := by
    rw [List.length_take, Nat.min_eq_left inside.le]
    exact le
  rw [span, span, List.take_add_one, here, Option.toList_some, List.drop_append_of_le_length reach]

theorem span_self (here : candles[i]? = some c) : span candles i (i + 1) = [c] := by
  have none_ : span candles i i = [] := List.drop_eq_nil_of_le (List.length_take_le _ _)
  rw [span_succ here le_rfl, none_, List.nil_append]

theorem span_sublist (candles : List Candle) (a b : ℕ) : (span candles a b).Sublist candles :=
  (List.drop_sublist _ _).trans (List.take_sublist _ _)

end Span

theorem max?_concat (values : List ℚ) (x : ℚ) :
    (values ++ [x]).max? = some ((values.max?.map (max · x)).getD x) := by
  cases values with
  | nil => rfl
  | cons v values => simp [List.max?, List.foldl_append]

theorem min?_concat (values : List ℚ) (x : ℚ) :
    (values ++ [x]).min? = some ((values.min?.map (min · x)).getD x) := by
  cases values with
  | nil => rfl
  | cons v values => simp [List.min?, List.foldl_append]

/-! ## The specification -/

/-- How far the price went from a swing to the next, which is of the other kind. -/
def Swing.turn (before after : Swing) : ℚ :=
  match before.kind with
  | .high => before.price - after.price
  | .low => after.price - before.price

/-- The candle of the last swing, or the first of all. -/
def sinceOf (swings : List Swing) : ℕ := (swings.getLast?.map Swing.candleIndex).getD 0

/-- The swing's price is the extreme of the candles from the `a`-th to its own. -/
def Swing.Extreme (candles : List Candle) (a : ℕ) (s : Swing) : Prop :=
  match s.kind with
  | .high => ((span candles a (s.candleIndex + 1)).map Candle.high).max? = some s.price
  | .low => ((span candles a (s.candleIndex + 1)).map Candle.low).min? = some s.price

/-- What the swings of a history are: `m` is the least reversal. -/
structure SwingSpec (m : ExtNum ℚ) (candles : List Candle) (swings : List Swing) : Prop where
  alternating : swings.IsChain fun a b => a.kind ≠ b.kind
  ordered : swings.IsChain fun a b => a.candleIndex ≤ b.candleIndex
  inside : ∀ s ∈ swings, s.candleIndex < candles.length
  apart : swings.IsChain fun a b => m ≤ fin (a.turn b) ∧ 0 < a.turn b
  extreme : ∀ before s, before ++ [s] <+: swings → s.Extreme candles (sinceOf before)

section Spec

variable {m : ExtNum ℚ} {candles : List Candle} {swings : List Swing}

theorem swingSpec_nil (m : ExtNum ℚ) (candles : List Candle) : SwingSpec m candles [] :=
  ⟨.nil, .nil, by simp, .nil, by simp⟩

/-- What the next swing has to be. -/
structure Follows (m : ExtNum ℚ) (candles : List Candle) (swings : List Swing) (s : Swing) :
    Prop where
  other : ∀ last ∈ swings.getLast?, last.kind ≠ s.kind
  later : sinceOf swings ≤ s.candleIndex
  inside : s.candleIndex < candles.length
  apart : ∀ last ∈ swings.getLast?, m ≤ fin (last.turn s) ∧ 0 < last.turn s
  extreme : s.Extreme candles (sinceOf swings)

theorem SwingSpec.concat (spec : SwingSpec m candles swings) {s : Swing}
    (follows : Follows m candles swings s) : SwingSpec m candles (swings ++ [s]) where
  alternating := isChain_concat spec.alternating follows.other
  ordered := isChain_concat spec.ordered fun last member => by
    have later := follows.later
    rwa [sinceOf, Option.mem_def.mp member] at later
  inside := by
    intro t member
    rcases List.mem_append.mp member with earlier | new
    · exact spec.inside t earlier
    · rw [List.mem_singleton.mp new]
      exact follows.inside
  apart := isChain_concat spec.apart follows.apart
  extreme := by
    intro before t initial
    rcases List.prefix_concat_iff.mp initial with all | earlier
    · obtain ⟨rfl, last⟩ := List.append_inj' all rfl
      obtain rfl := (List.cons.inj last).1
      exact follows.extreme
    · exact spec.extreme before t earlier

/-- The price of a swing is the high or the low of a candle. -/
theorem SwingSpec.price_mem (spec : SwingSpec m candles swings) {s : Swing} (member : s ∈ swings) :
    (s.kind = .high → s.price ∈ candles.map Candle.high) ∧
      (s.kind = .low → s.price ∈ candles.map Candle.low) := by
  obtain ⟨before, after, rfl⟩ := List.append_of_mem member
  have extreme := spec.extreme before s ⟨after, by rw [List.append_assoc]; rfl⟩
  unfold Swing.Extreme at extreme
  constructor
  · intro high
    rw [high] at extreme
    exact ((span_sublist _ _ _).map _).subset (List.max?_mem extreme)
  · intro low
    rw [low] at extreme
    exact ((span_sublist _ _ _).map _).subset (List.min?_mem extreme)

end Spec

namespace Zigzag

/-! ## The pivots are running extremes -/

section Spanned

variable {m : ℚ} {i : ℕ} {c : Candle} {candles : List Candle} {z z' : Zigzag}

/-- The candle of the last swing, which the pivot runs from. -/
def since (z : Zigzag) : ℕ := sinceOf z.swings

/-- After the candles before the `i`-th. -/
structure Spanned (m : ℚ) (candles : List Candle) (i : ℕ) (z : Zigzag) : Prop where
  since_le : z.since ≤ i
  high : z.direction ≠ .down →
    z.pivotHigh = ((span candles z.since i).map Candle.high).max?
  low : z.direction ≠ .up → z.pivotLow = ((span candles z.since i).map Candle.low).min?
  up : z.direction = .up →
    ∃ h ∈ z.pivotHigh, ∀ s ∈ z.swings.getLast?, s.kind = .low ∧ m ≤ h - s.price
  down : z.direction = .down →
    ∃ l ∈ z.pivotLow, ∀ s ∈ z.swings.getLast?, s.kind = .high ∧ m ≤ s.price - l
  begun : z.direction = .none_ → z.swings = []
  spec : SwingSpec (fin m) candles z.swings

theorem spanned_start (m : ℚ) (candles : List Candle) : Spanned m candles 0 start :=
  ⟨le_rfl, fun _ => rfl, fun _ => rfl, fun up => (by cases up), fun down => (by cases down),
    fun _ => rfl, swingSpec_nil _ _⟩

theorem Spanned.peak_eq (before : Spanned m candles i z) (here : candles[i]? = some c)
    (open_ : z.direction ≠ .down) :
    ((span candles z.since (i + 1)).map Candle.high).max? = some (z.peak c) := by
  rw [span_succ here before.since_le, List.map_append, List.map_singleton, max?_concat,
    ← before.high open_]
  rfl

theorem Spanned.trough_eq (before : Spanned m candles i z) (here : candles[i]? = some c)
    (open_ : z.direction ≠ .up) :
    ((span candles z.since (i + 1)).map Candle.low).min? = some (z.trough c) := by
  rw [span_succ here before.since_le, List.map_append, List.map_singleton, min?_concat,
    ← before.low open_]
  rfl

/-- A high confirmed by the candle. -/
theorem Spanned.follows_high (before : Spanned m candles i z) (pos : 0 < m)
    (here : candles[i]? = some c) (open_ : z.direction ≠ .down) :
    Follows (fin m) candles z.swings ⟨.high, z.peak c, i⟩ := by
  have due : ∀ s ∈ z.swings.getLast?, s.kind = .low ∧ m ≤ z.peak c - s.price := by
    intro s last
    cases direction : z.direction with
    | none_ =>
        rw [before.begun direction] at last
        cases last
    | up =>
        obtain ⟨h, pivot, far⟩ := before.up direction
        obtain ⟨kind, reach⟩ := far s last
        exact ⟨kind, reach.trans (sub_le_sub_right (pivot_le_peak pivot) _)⟩
    | down => exact absurd direction open_
  obtain ⟨inside, -⟩ := List.getElem?_eq_some_iff.mp here
  refine ⟨fun s last => ?_, before.since_le, inside, fun s last => ?_, before.peak_eq here open_⟩
  · rw [(due s last).1]
    exact (by decide : SwingKind.low ≠ .high)
  · obtain ⟨kind, far⟩ := due s last
    have turn : s.turn ⟨.high, z.peak c, i⟩ = z.peak c - s.price := by rw [Swing.turn, kind]
    rw [turn]
    exact ⟨far, pos.trans_le far⟩

/-- A low confirmed by the candle. -/
theorem Spanned.follows_low (before : Spanned m candles i z) (pos : 0 < m)
    (here : candles[i]? = some c) (open_ : z.direction ≠ .up) :
    Follows (fin m) candles z.swings ⟨.low, z.trough c, i⟩ := by
  have due : ∀ s ∈ z.swings.getLast?, s.kind = .high ∧ m ≤ s.price - z.trough c := by
    intro s last
    cases direction : z.direction with
    | none_ =>
        rw [before.begun direction] at last
        cases last
    | up => exact absurd direction open_
    | down =>
        obtain ⟨l, pivot, far⟩ := before.down direction
        obtain ⟨kind, reach⟩ := far s last
        exact ⟨kind, reach.trans (sub_le_sub_left (trough_le_pivot pivot) _)⟩
  obtain ⟨inside, -⟩ := List.getElem?_eq_some_iff.mp here
  refine ⟨fun s last => ?_, before.since_le, inside, fun s last => ?_, before.trough_eq here open_⟩
  · rw [(due s last).1]
    exact (by decide : SwingKind.high ≠ .low)
  · obtain ⟨kind, far⟩ := due s last
    have turn : s.turn ⟨.low, z.trough c, i⟩ = s.price - z.trough c := by rw [Swing.turn, kind]
    rw [turn]
    exact ⟨far, pos.trans_le far⟩

/-- The second swing of a wide candle. -/
theorem follows_bounce (swings : List Swing) (pos : 0 < m) (here : candles[i]? = some c) {h : ℚ}
    (high : c.high ≤ h) (wide : m ≤ c.high - c.low) :
    Follows (fin m) candles (swings ++ [⟨.high, h, i⟩]) ⟨.low, c.low, i⟩ := by
  obtain ⟨inside, -⟩ := List.getElem?_eq_some_iff.mp here
  have since_ : sinceOf (swings ++ [⟨.high, h, i⟩]) = i := by
    rw [sinceOf, List.getLast?_concat]
    rfl
  have last_ : ∀ s ∈ (swings ++ [Swing.mk .high h i]).getLast?, s = ⟨.high, h, i⟩ := by
    intro s last
    rw [List.getLast?_concat] at last
    exact (Option.some.inj last).symm
  refine ⟨fun s last => ?_, since_.le, inside, fun s last => ?_, ?_⟩
  · rw [last_ s last]
    exact (by decide : SwingKind.high ≠ .low)
  · rw [last_ s last]
    have far : m ≤ h - c.low := wide.trans (sub_le_sub_right high _)
    exact ⟨far, pos.trans_le far⟩
  · rw [since_, Swing.Extreme, span_self here]
    rfl

/-- A candle that has just confirmed a swing begins the next pivot. -/
theorem since_concat (d : Direction) (a b : Option ℚ) (swings : List Swing) (s : Swing) :
    since ⟨d, a, b, swings ++ [s]⟩ = s.candleIndex := by
  rw [since, sinceOf, List.getLast?_concat]
  rfl

theorem Spanned.step (before : Spanned m candles i z) (pos : 0 < m) (here : candles[i]? = some c)
    (stepped : Stepped m i c z z') : Spanned m candles (i + 1) z' := by
  cases stepped with
  | bounce open_ far wide =>
      have swung := (before.spec.concat (before.follows_high pos here open_)).concat
        (follows_bounce _ pos here (z.high_le_peak c) wide)
      rw [List.append_assoc, List.singleton_append] at swung
      have since_ : since ⟨.up, some c.high, none,
          z.swings ++ [⟨.high, z.peak c, i⟩, ⟨.low, c.low, i⟩]⟩ = i := by
        simp [since, sinceOf]
      refine ⟨since_.trans_le i.le_succ, fun _ => ?_, fun notUp => absurd rfl notUp,
        fun _ => ⟨c.high, rfl, fun s last => ?_⟩, fun down => (by cases down),
        fun none_ => (by cases none_), swung⟩
      · rw [since_, span_self here]
        rfl
      · obtain rfl : Swing.mk .low c.low i = s := by simpa using last
        exact ⟨rfl, wide⟩
  | drop open_ far narrow =>
      have swung := before.spec.concat (before.follows_high pos here open_)
      have since_ := since_concat .down none (some c.low) z.swings ⟨.high, z.peak c, i⟩
      refine ⟨since_.trans_le i.le_succ, fun notDown => absurd rfl notDown, fun _ => ?_,
        fun up => (by cases up), fun _ => ⟨c.low, rfl, fun s last => ?_⟩,
        fun none_ => (by cases none_), swung⟩
      · rw [since_, span_self here]
        rfl
      · obtain rfl : Swing.mk .high (z.peak c) i = s := by simpa using last
        exact ⟨rfl, far⟩
  | rise open_ far near =>
      have swung := before.spec.concat (before.follows_low pos here open_)
      have since_ := since_concat .up (some c.high) none z.swings ⟨.low, z.trough c, i⟩
      refine ⟨since_.trans_le i.le_succ, fun _ => ?_, fun notUp => absurd rfl notUp,
        fun _ => ⟨c.high, rfl, fun s last => ?_⟩, fun down => (by cases down),
        fun none_ => (by cases none_), swung⟩
      · rw [since_, span_self here]
        rfl
      · obtain rfl : Swing.mk .low (z.trough c) i = s := by simpa using last
        exact ⟨rfl, far⟩
  | climb up near =>
      have notDown : z.direction ≠ .down := by rw [up]; decide
      obtain ⟨h, pivot, reach⟩ := before.up up
      refine ⟨before.since_le.trans i.le_succ, fun _ => (before.peak_eq here notDown).symm,
        fun notUp => absurd up notUp, fun _ => ⟨z.peak c, rfl, fun s last => ?_⟩,
        fun down => absurd down notDown, before.begun, before.spec⟩
      obtain ⟨kind, far⟩ := reach s last
      exact ⟨kind, far.trans (sub_le_sub_right (pivot_le_peak pivot) _)⟩
  | sink down near =>
      have notUp : z.direction ≠ .up := by rw [down]; decide
      obtain ⟨l, pivot, reach⟩ := before.down down
      refine ⟨before.since_le.trans i.le_succ, fun notDown => absurd down notDown,
        fun _ => (before.trough_eq here notUp).symm, fun up => absurd up notUp,
        fun _ => ⟨z.trough c, rfl, fun s last => ?_⟩, before.begun, before.spec⟩
      obtain ⟨kind, far⟩ := reach s last
      exact ⟨kind, far.trans (sub_le_sub_left (trough_le_pivot pivot) _)⟩
  | wait none_ near near' =>
      have notDown : z.direction ≠ .down := by rw [none_]; decide
      have notUp : z.direction ≠ .up := by rw [none_]; decide
      exact ⟨before.since_le.trans i.le_succ, fun _ => (before.peak_eq here notDown).symm,
        fun _ => (before.trough_eq here notUp).symm, fun up => absurd up notUp,
        fun down => absurd down notDown, before.begun, before.spec⟩

/-- The candles after those seen so far. -/
theorem Spanned.run {older later : List Candle}
    (spanned : Spanned m (older ++ later) older.length z) (pos : 0 < m) :
    Spanned m (older ++ later) (older ++ later).length (run (fin m) older.length z later) := by
  induction later generalizing older z with
  | nil => simpa only [List.append_nil, Zigzag.run] using spanned
  | cons c later ih =>
      have here : (older ++ c :: later)[older.length]? = some c := by simp
      have next := spanned.step pos here (step_stepped m older.length c z)
      have shift : older ++ c :: later = older ++ [c] ++ later := by simp
      have count : older.length + 1 = (older ++ [c]).length := by simp
      rw [shift, count] at next
      rw [shift, Zigzag.run, count]
      exact ih next

end Spanned

end Zigzag

/-- The least reversal is a positive number, or is not reached. -/
theorem max2_minReversal (x : ExtNum ℚ) :
    (∃ m : ℚ, 0 < m ∧ max2 x (fin minReversal) = fin m) ∨
      ∀ y : ℚ, ¬ max2 x (fin minReversal) ≤ fin y := by
  cases x with
  | fin q => exact .inl ⟨max q minReversal, lt_max_of_lt_right minReversal_pos, max2_fin q _⟩
  | posInf => exact .inr fun y => ExtNum.not_posInf_le_fin y
  | negInf => exact .inl ⟨minReversal, minReversal_pos, rfl⟩
  | nan => exact .inr fun y => ExtNum.not_nan_le _

/-- The loop from its start. -/
theorem Zigzag.run_spec {minMove : ExtNum ℚ}
    (reversal : (∃ m : ℚ, 0 < m ∧ minMove = fin m) ∨ ∀ y : ℚ, ¬ minMove ≤ fin y)
    (candles : List Candle) :
    SwingSpec minMove candles (Zigzag.run minMove 0 .start candles).swings := by
  rcases reversal with ⟨m, pos, rfl⟩ | unreached
  · have spanned : Spanned m ([] ++ candles) ([] : List Candle).length start :=
      spanned_start m candles
    exact (spanned.run pos).spec
  · rw [run_unreached unreached]
    exact swingSpec_nil _ _

/-- **The swings of a history** alternate, in the order of their candles, at least the
reversal apart, a high above the lows beside it; and each is the extreme of the candles
from the swing before it to its own. -/
theorem zigzagSwings_spec (candles : List Candle) (atr : ℚ) (mult : ExtNum ℚ) :
    SwingSpec (max2 (fin atr * mult) (fin minReversal)) candles
      (zigzagSwings candles atr mult) :=
  Zigzag.run_spec (max2_minReversal _) candles

/-- A wide candle confirms two swings, and the second runs from the candle itself. -/
example : zigzagSwings [bar 10 11 10, bar 4 15 5, bar 1 2 1] 3 (fin 1) =
    [⟨.high, 15, 1⟩, ⟨.low, 4, 1⟩, ⟨.high, 15, 2⟩] := by decide +kernel

end CentaurApex.Cortex
