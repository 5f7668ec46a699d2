/-
# Cortex.LateTicks -- candles of a stream in any order

The aggregator closes its candle when a tick has another bucket, earlier or later.  So the
candles of a stream are the moves from one bucket to another (`feedAll_shifts`), whatever
the order of the ticks, and

* **the series runs forward exactly when no tick is late** (`late_ticks_iff`): every candle
  opens before it closes and after the one before, if and only if no tick that counts has
  an earlier bucket than the one before it.

Satisfiable pole `ordered_buckets_drill`: a stream whose times are out of order, but not its
buckets.  Refuting pole `late_tick_reopens`: a tick one second late across a boundary.
-/
import CentaurApex.Cortex.Candles

namespace CentaurApex.Cortex

open CentaurApex.Theory
open CentaurApex.Theory.ExtNum (fin)
open CentaurApex.Theory.Python

set_option autoImplicit false

/-! ## Moves -/

/-- The moves from a number to another along a list. -/
def shifts : List ℤ → List (ℤ × ℤ)
  | a :: b :: others => if b ≠ a then (a, b) :: shifts (b :: others) else shifts (b :: others)
  | _ => []

theorem shifts_cons_cons (a b : ℤ) (others : List ℤ) :
    shifts (a :: b :: others) = shifts [a, b] ++ shifts (b :: others) := by
  by_cases moved : b ≠ a
  · rw [shifts, shifts, if_pos moved, if_pos moved]
    rfl
  · rw [shifts, shifts, if_neg moved, if_neg moved]
    rfl

/-- A list that does not fall moves upward only. -/
theorem shifts_forward {bs : List ℤ} (chain : bs.IsChain (· ≤ ·)) : ∀ p ∈ shifts bs, p.1 < p.2 := by
  fun_induction shifts bs with
  | case1 a b others moved ih =>
      rw [List.isChain_cons_cons] at chain
      exact List.forall_mem_cons.mpr ⟨lt_of_le_of_ne chain.1 (Ne.symm moved), ih chain.2⟩
  | case2 a b others same ih =>
      rw [List.isChain_cons_cons] at chain
      exact ih chain.2
  | case3 => simp

theorem isChain_of_shifts {bs : List ℤ} (forward : ∀ p ∈ shifts bs, p.1 < p.2) :
    bs.IsChain (· ≤ ·) := by
  fun_induction shifts bs with
  | case1 a b others moved ih =>
      obtain ⟨first, others⟩ := List.forall_mem_cons.mp forward
      exact .cons_cons first.le (ih others)
  | case2 a b others same ih => exact .cons_cons (not_not.mp same).ge (ih forward)
  | case3 bs short =>
      obtain - | ⟨a, - | ⟨b, others⟩⟩ := bs
      · exact .nil
      · exact .singleton a
      · exact absurd rfl (short a b others)

/-- A move begins no lower than the list. -/
theorem le_of_shift {a : ℤ} {bs : List ℤ} (chain : (a :: bs).IsChain (· ≤ ·)) :
    ∀ p ∈ shifts (a :: bs), a ≤ p.1 := by
  induction bs generalizing a with
  | nil => simp [shifts]
  | cons b others ih =>
      rw [List.isChain_cons_cons] at chain
      intro p member
      rw [shifts_cons_cons, List.mem_append] at member
      rcases member with first | later
      · by_cases moved : b ≠ a
        · rw [shifts, if_pos moved] at first
          rw [List.mem_singleton.mp first]
        · rw [shifts, if_neg moved] at first
          cases first
      · exact chain.1.trans (ih chain.2 p later)

theorem shifts_increasing {bs : List ℤ} (chain : bs.IsChain (· ≤ ·)) :
    ((shifts bs).map Prod.fst).Pairwise (· < ·) := by
  fun_induction shifts bs with
  | case1 a b others moved ih =>
      rw [List.isChain_cons_cons] at chain
      have less : a < b := lt_of_le_of_ne chain.1 (Ne.symm moved)
      refine List.pairwise_cons.mpr ⟨?_, ih chain.2⟩
      intro start member
      obtain ⟨p, later, rfl⟩ := List.mem_map.mp member
      exact less.trans_le (le_of_shift chain.2 p later)
  | case2 a b others same ih =>
      rw [List.isChain_cons_cons] at chain
      exact ih chain.2
  | case3 => simp

/-! ## The candles of a stream -/

/-- The buckets of the ticks that count, in the order they came. -/
def bucketsOf (timeframe : ℚ) (ticks : List (ExtNum ℚ × ℚ)) : List ℤ :=
  ticks.filterMap fun tick =>
    match tick.1 with
    | .fin price => if price ≤ 0 then none else some (bucketOf timeframe tick.2)
    | _ => none

/-- When a candle opened and when it closed. -/
def Candle.bounds (c : Candle) : ℚ × ℚ := (c.tOpen, c.tClose)

/-- A move between buckets, as times. -/
def times (timeframe : ℚ) (move : ℤ × ℤ) : ℚ × ℚ := (move.1 * timeframe, move.2 * timeframe)

namespace CandleAggregator

/-- A tick that counts closes a candle where it moves to another bucket. -/
theorem feed_shifts {timeframe : ℚ} (pos : 0 < timeframe) {agg : CandleAggregator}
    (frame : agg.timeframe = timeframe) {current : Option ℤ}
    (opened : agg.bucketOpen = current.map fun b : ℤ => (b : ℚ) * timeframe) {price : ℚ}
    (valid : 0 < price) (ts : ℚ) :
    ∃ closes fed, agg.feed (fin price) (fin ts) = .ok (closes, fed) ∧ fed.timeframe = timeframe ∧
      fed.bucketOpen = some (bucketOf timeframe ts * timeframe) ∧
      closes.toList.map Candle.bounds =
        (shifts (current.toList ++ [bucketOf timeframe ts])).map (times timeframe) := by
  have here : agg.bucket (fin ts) = .ok (bucketOf timeframe ts * timeframe) := by
    rw [← frame] at pos ⊢
    exact bucket_fin pos ts
  cases current with
  | none =>
      rw [Option.map_none] at opened
      refine ⟨none, (agg.restart (bucketOf timeframe ts * timeframe) price).count price, ?_, frame,
        rfl, rfl⟩
      simp only [feed, if_neg (not_le.mpr valid), here, opened]
  | some bucket =>
      rw [Option.map_some] at opened
      by_cases same : bucketOf timeframe ts = bucket
      · refine ⟨none, agg.count price, ?_, frame, opened.trans (by rw [same]), ?_⟩
        · simp only [feed, if_neg (not_le.mpr valid), here, opened, same, ne_eq, not_true_eq_false,
            if_false]
        · simp [shifts, same]
      · have moved : bucketOf timeframe ts * timeframe ≠ bucket * timeframe := by
          intro equal
          exact same (by exact_mod_cast mul_right_cancel₀ pos.ne' equal)
        refine ⟨some (agg.candle (bucket * timeframe) (bucketOf timeframe ts * timeframe)),
          (agg.restart (bucketOf timeframe ts * timeframe) price).count price, ?_, frame, rfl, ?_⟩
        · simp only [feed, if_neg (not_le.mpr valid), here, opened, ne_eq, moved, not_false_eq_true,
            if_true]
        · simp [shifts, same, Candle.bounds, candle, times]

/-- **The candles of a stream are its moves between buckets.** -/
theorem feedAll_shifts {timeframe : ℚ} (pos : 0 < timeframe) {agg : CandleAggregator}
    (frame : agg.timeframe = timeframe) {current : Option ℤ}
    (opened : agg.bucketOpen = current.map fun b : ℤ => (b : ℚ) * timeframe)
    (ticks : List (ExtNum ℚ × ℚ)) :
    ∃ closed last, agg.feedAll (ticks.map fun tick => (tick.1, fin tick.2)) = .ok (closed, last) ∧
      closed.map Candle.bounds =
        (shifts (current.toList ++ bucketsOf timeframe ticks)).map (times timeframe) := by
  induction ticks generalizing agg current with
  | nil =>
      refine ⟨[], agg, rfl, ?_⟩
      cases current <;> simp [bucketsOf, shifts]
  | cons tick ticks ih =>
      obtain ⟨price, ts⟩ := tick
      rcases pricedTicks_cons (price, fin ts) [] with ⟨unpriced, -⟩ | ⟨price, valid, rfl, -⟩
      · have skipped : bucketsOf timeframe ((price, ts) :: ticks) = bucketsOf timeframe ticks := by
          refine List.filterMap_cons_none ?_
          cases price with
          | fin price =>
              by_cases nonpositive : price ≤ 0
              · simp [nonpositive]
              · simp [pricedTicks, nonpositive] at unpriced
          | _ => rfl
        rw [List.map_cons, feedAll_cons_unpriced agg unpriced, skipped]
        exact ih frame opened
      · have counted : bucketsOf timeframe ((fin price, ts) :: ticks) =
            bucketOf timeframe ts :: bucketsOf timeframe ticks :=
          List.filterMap_cons_some (if_neg (not_le.mpr valid))
        obtain ⟨closes, fed, step, frame', opened', first⟩ := feed_shifts pos frame opened valid ts
        have opened' : fed.bucketOpen =
            (some (bucketOf timeframe ts)).map fun b : ℤ => (b : ℚ) * timeframe := opened'
        obtain ⟨others, last, run, rest⟩ := ih frame' opened'
        refine ⟨closes.toList ++ others, last, ?_, ?_⟩
        · rw [List.map_cons, feedAll, step]
          simp only [run]
        · rw [List.map_append, first, rest, counted, ← List.map_append]
          cases current with
          | none => rfl
          | some bucket => exact congrArg _ (shifts_cons_cons bucket _ _).symm

end CandleAggregator

/-! ## The series -/

/-- Every candle opens before it closes, and after the one before. -/
structure Forward (candles : List Candle) : Prop where
  closes_after : ∀ c ∈ candles, c.tOpen < c.tClose
  increasing : (candles.map Candle.tOpen).Pairwise (· < ·)

theorem forward_iff {timeframe : ℚ} (pos : 0 < timeframe) {candles : List Candle} {bs : List ℤ}
    (same : candles.map Candle.bounds = (shifts bs).map (times timeframe)) :
    Forward candles ↔ bs.IsChain (· ≤ ·) := by
  have starts : candles.map Candle.tOpen =
      ((shifts bs).map Prod.fst).map fun b : ℤ => (b : ℚ) * timeframe := by
    have first := congrArg (List.map Prod.fst) same
    rw [List.map_map, List.map_map] at first
    rw [List.map_map]
    exact first
  have less {a b : ℤ} : (a : ℚ) * timeframe < b * timeframe ↔ a < b := by
    rw [mul_lt_mul_iff_left₀ pos, Int.cast_lt]
  constructor
  · intro forward
    refine isChain_of_shifts fun move member => ?_
    have bounds : times timeframe move ∈ candles.map Candle.bounds := by
      rw [same]
      exact List.mem_map_of_mem member
    obtain ⟨c, inside, at_⟩ := List.mem_map.mp bounds
    have rises := forward.closes_after c inside
    rw [show c.tOpen = move.1 * timeframe from congrArg Prod.fst at_,
      show c.tClose = move.2 * timeframe from congrArg Prod.snd at_] at rises
    exact less.mp rises
  · intro chain
    refine ⟨fun c inside => ?_, ?_⟩
    · have bounds : c.bounds ∈ (shifts bs).map (times timeframe) := by
        rw [← same]
        exact List.mem_map_of_mem inside
      obtain ⟨move, member, at_⟩ := List.mem_map.mp bounds
      rw [show c.tOpen = move.1 * timeframe from (congrArg Prod.fst at_).symm,
        show c.tClose = move.2 * timeframe from (congrArg Prod.snd at_).symm]
      exact less.mpr (shifts_forward chain move member)
    · rw [starts]
      exact (shifts_increasing chain).map _ fun _ _ => less.mpr

/-- **The series runs forward exactly when no tick is late**: the buckets of the ticks that
count never fall. -/
theorem late_ticks_iff (timeframe : ℚ) (pos : 0 < timeframe) (ticks : List (ExtNum ℚ × ℚ)) :
    ∃ closed agg, (CandleAggregator.new timeframe).feedAll
        (ticks.map fun tick => (tick.1, fin tick.2)) = .ok (closed, agg) ∧
      (Forward closed ↔ (bucketsOf timeframe ticks).IsChain (· ≤ ·)) := by
  have idle : (CandleAggregator.new timeframe).bucketOpen =
      (none : Option ℤ).map fun b : ℤ => (b : ℚ) * timeframe := rfl
  obtain ⟨closed, agg, run, same⟩ := CandleAggregator.feedAll_shifts pos rfl idle ticks
  exact ⟨closed, agg, run, forward_iff pos same⟩

/-- Satisfiable pole: times that go back within a bucket, and a late tick that counts for
nothing. -/
theorem ordered_buckets_drill :
    ∃ closed agg, (CandleAggregator.new 60).feedAll
        ([(fin 100, 5), (fin 101, 2), (fin 102, 130), (.nan, 3), (fin 99, 121), (fin 98, 240)].map
          fun tick => (tick.1, fin tick.2)) = .ok (closed, agg) ∧ Forward closed := by
  obtain ⟨closed, agg, run, forward⟩ := late_ticks_iff 60 (by norm_num)
    [(fin 100, 5), (fin 101, 2), (fin 102, 130), (.nan, 3), (fin 99, 121), (fin 98, 240)]
  exact ⟨closed, agg, run, forward.mpr (by decide +kernel)⟩

/-- Refuting pole: a tick of the minute before, a second late, closes a candle backward and
opens that minute's candle a second time. -/
theorem late_tick_reopens :
    ¬ ∀ timeframe : ℚ, 0 < timeframe → ∀ (ticks : List (ExtNum ℚ × ℚ)) (closed : List Candle)
      (agg : CandleAggregator), (CandleAggregator.new timeframe).feedAll
        (ticks.map fun tick => (tick.1, fin tick.2)) = .ok (closed, agg) → Forward closed := by
  intro always
  have pos : (0 : ℚ) < 60 := by norm_num
  have idle : (CandleAggregator.new 60).bucketOpen =
      (none : Option ℤ).map fun b : ℤ => (b : ℚ) * 60 := rfl
  obtain ⟨closed, agg, run, same⟩ := CandleAggregator.feedAll_shifts pos rfl idle
    [(fin 100, 59), (fin 101, 60), (fin 100, 59)]
  have chain := (forward_iff pos same).mp (always 60 pos _ closed agg run)
  exact absurd chain (by decide +kernel)

end CentaurApex.Cortex
