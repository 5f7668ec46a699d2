/-
# Cortex.Candles -- the aggregator groups ticks by bucket

What a stream of ticks is for is said without the aggregator: the ticks whose price
is a positive number, grouped by the bucket of their time (`bucketOf`), and a candle
for each group (`Summarizes`).  The aggregator keeps one group at a time.  Its
invariant (`Aggregated`) has the groups closed so far and the one being formed; a
tick of the same bucket extends the last, a tick of a later bucket closes it and
begins the next (`Aggregated.feed`).

`candles_of_stream`: so the candles closed by a stream, with the one still forming,
are those of its groups, in order and without loss.
-/
import CentaurApex.Cortex.MarketContext
import Mathlib.Algebra.BigOperators.Group.List.Lemmas
import Mathlib.Algebra.Order.Floor.Ring
import Mathlib.Data.Rat.Floor
import Mathlib.Order.Bounds.Basic

namespace CentaurApex.Cortex

open CentaurApex.Theory
open CentaurApex.Theory.ExtNum (fin)
open CentaurApex.Theory.Python

set_option autoImplicit false

/-! ## Groups -/

/-- The ticks a candle can count: those with a positive number for a price. -/
def pricedTicks (ticks : List PriceTick) : List (ℚ × ExtNum ℚ) :=
  ticks.filterMap fun tick =>
    match tick.1 with
    | .fin price => if price ≤ 0 then none else some (price, tick.2)
    | _ => none

/-- The bucket of a time. -/
def bucketOf (timeframe ts : ℚ) : ℤ := ⌊ts / timeframe⌋

/-- The prices of a bucket, in the order they came. -/
def pricesIn (timeframe : ℚ) (stream : List (ℚ × ℚ)) (bucket : ℤ) : List ℚ :=
  (stream.filter fun tick => bucketOf timeframe tick.2 = bucket).map Prod.fst

/-- The candle of some prices. -/
structure CandleOf (prices : List ℚ) (start : ℚ) (candle : Candle) : Prop where
  open_ : prices.head? = some candle.open_
  close : prices.getLast? = some candle.close
  high : IsGreatest {p | p ∈ prices} candle.high
  low : IsLeast {p | p ∈ prices} candle.low
  volume : candle.volume = prices.length
  tOpen : candle.tOpen = start

/-- A candle is that of its bucket's prices. -/
def Summarizes (timeframe : ℚ) (stream : List (ℚ × ℚ)) (bucket : ℤ) (candle : Candle) : Prop :=
  CandleOf (pricesIn timeframe stream bucket) (bucket * timeframe) candle

theorem pricedTicks_pos {ticks : List PriceTick} {tick : ℚ × ExtNum ℚ}
    (member : tick ∈ pricedTicks ticks) : 0 < tick.1 := by
  obtain ⟨⟨price, ts⟩, _, counted⟩ := List.mem_filterMap.mp member
  cases price with
  | fin price =>
      dsimp only at counted
      split at counted
      · cases counted
      · rename_i positive
        obtain rfl := Option.some.inj counted
        exact not_le.mp positive
  | _ => cases counted

theorem bucketOf_mono {timeframe : ℚ} (pos : 0 < timeframe) {t t' : ℚ} (le : t ≤ t') :
    bucketOf timeframe t ≤ bucketOf timeframe t' :=
  Int.floor_le_floor (div_le_div_of_nonneg_right le pos.le)

theorem pricesIn_append (timeframe : ℚ) (stream : List (ℚ × ℚ)) (tick : ℚ × ℚ) (bucket : ℤ) :
    pricesIn timeframe (stream ++ [tick]) bucket =
      pricesIn timeframe stream bucket ++
        if bucketOf timeframe tick.2 = bucket then [tick.1] else [] := by
  unfold pricesIn
  rw [List.filter_append, List.map_append]
  congr 1
  by_cases here : bucketOf timeframe tick.2 = bucket
  · rw [if_pos here, List.filter_cons_of_pos (by simpa using here)]
    rfl
  · rw [if_neg here, List.filter_cons_of_neg (by simpa using here)]
    rfl

/-- A bucket has prices when it has ticks. -/
theorem pricesIn_eq_nil {timeframe : ℚ} {stream : List (ℚ × ℚ)} {bucket : ℤ}
    (none_ : ∀ tick ∈ stream, bucketOf timeframe tick.2 ≠ bucket) :
    pricesIn timeframe stream bucket = [] := by
  rw [pricesIn, List.filter_eq_nil_iff.mpr (by simpa using none_), List.map_nil]

/-! ## A candle price by price -/

theorem candleOf_singleton (price start closed : ℚ) :
    CandleOf [price] start ⟨price, price, price, price, start, closed, 1⟩ := by
  refine ⟨rfl, rfl, ?_, ?_, by simp, rfl⟩ <;> simp [IsGreatest, IsLeast, upperBounds, lowerBounds]

/-- One more price. -/
theorem CandleOf.append {prices : List ℚ} {start : ℚ} {candle : Candle}
    (of : CandleOf prices start candle) (price closed : ℚ) :
    CandleOf (prices ++ [price]) start
      ⟨candle.open_, max candle.high price, min candle.low price, price, candle.tOpen, closed,
        candle.volume + 1⟩ := by
  have members : {p | p ∈ prices ++ [price]} = insert price {p | p ∈ prices} := by
    ext p
    simp [or_comm]
  refine ⟨?_, by simp, ?_, ?_, ?_, of.tOpen⟩
  · rw [List.head?_append, of.open_]
    rfl
  · rw [members, max_comm]
    exact of.high.insert price
  · rw [members, min_comm]
    exact of.low.insert price
  · rw [List.length_append, List.length_singleton, Nat.cast_add, Nat.cast_one, of.volume]

/-- A tick of another bucket leaves a candle alone. -/
theorem Summarizes.append_of_ne {timeframe : ℚ} {stream : List (ℚ × ℚ)} {bucket : ℤ}
    {candle : Candle} (summarizes : Summarizes timeframe stream bucket candle) {tick : ℚ × ℚ}
    (other : bucketOf timeframe tick.2 ≠ bucket) :
    Summarizes timeframe (stream ++ [tick]) bucket candle := by
  rw [Summarizes, pricesIn_append, if_neg other, List.append_nil]
  exact summarizes

/-! ## The aggregator along a stream -/

namespace CandleAggregator

/-- The aggregator after a stream that closed some candles: nothing yet, or the closed
groups `buckets` and the one being formed. -/
inductive Aggregated (timeframe : ℚ) :
    List (ℚ × ℚ) → List Candle → CandleAggregator → Prop where
  | idle : Aggregated timeframe [] [] (.new timeframe)
  | forming {stream : List (ℚ × ℚ)} {closed : List Candle} {agg : CandleAggregator}
      (buckets : List ℤ) (bucket : ℤ) (frame : agg.timeframe = timeframe)
      (opened : agg.bucketOpen = some (bucket * timeframe))
      (increasing : (buckets ++ [bucket]).Pairwise (· < ·))
      (all : ∀ b, b ∈ buckets ++ [bucket] ↔ ∃ tick ∈ stream, bucketOf timeframe tick.2 = b)
      (last : ∀ tick ∈ stream.getLast?, bucketOf timeframe tick.2 = bucket)
      (candles : List.Forall₂ (fun b candle => b < bucket ∧ Summarizes timeframe stream b candle)
        buckets closed)
      (current : ∀ t, Summarizes timeframe stream bucket (agg.candle (bucket * timeframe) t))
      (counted : (closed.map Candle.volume).sum + agg.v = stream.length) :
      Aggregated timeframe stream closed agg

theorem bucket_fin {agg : CandleAggregator} (pos : 0 < agg.timeframe) (ts : ℚ) :
    agg.bucket (fin ts) = .ok (bucketOf agg.timeframe ts * agg.timeframe) :=
  if_neg pos.ne'

/-- The candle of the first price of a bucket. -/
theorem candle_restart (agg : CandleAggregator) (bucket price start t : ℚ) :
    ((agg.restart bucket price).count price).candle start t =
      ⟨price, price, price, price, start, t, 1⟩ := by
  simp [candle, restart, count]

/-- The first tick of a bucket. -/
theorem summarizes_restart {timeframe : ℚ} {stream : List (ℚ × ℚ)} {price ts : ℚ}
    (fresh : ∀ tick ∈ stream, bucketOf timeframe tick.2 ≠ bucketOf timeframe ts)
    (agg : CandleAggregator) (t : ℚ) :
    Summarizes timeframe (stream ++ [(price, ts)]) (bucketOf timeframe ts)
      (((agg.restart (bucketOf timeframe ts * timeframe) price).count price).candle
        (bucketOf timeframe ts * timeframe) t) := by
  rw [Summarizes, pricesIn_append, if_pos rfl, pricesIn_eq_nil fresh, candle_restart,
    List.nil_append]
  exact candleOf_singleton price _ t

/-- The next tick of a stream. -/
theorem Aggregated.feed {timeframe : ℚ} (pos : 0 < timeframe) {stream : List (ℚ × ℚ)}
    {closed : List Candle} {agg : CandleAggregator} (aggregated : Aggregated timeframe stream closed agg)
    {price ts : ℚ} (valid : 0 < price) (ordered : ∀ tick ∈ stream.getLast?, tick.2 ≤ ts) :
    ∃ closes fed, agg.feed (fin price) (fin ts) = .ok (closes, fed) ∧
      Aggregated timeframe (stream ++ [(price, ts)]) (closed ++ closes.toList) fed := by
  cases aggregated with
  | idle =>
      refine ⟨none, (restart (.new timeframe) (bucketOf timeframe ts * timeframe) price).count price,
        ?_, ?_⟩
      · simp only [CandleAggregator.feed, if_neg (not_le.mpr valid),
          @bucket_fin (.new timeframe) pos]
        rfl
      · exact .forming [] (bucketOf timeframe ts) rfl rfl (by simp) (by simp [eq_comm]) (by simp)
          .nil (fun t => summarizes_restart (by simp) _ t) (by simp [restart, count])
  | forming buckets bucket frame opened increasing all last candles current counted =>
      have here : agg.bucket (fin ts) = .ok (bucketOf timeframe ts * timeframe) := by
        rw [← frame] at pos ⊢
        exact bucket_fin pos ts
      have behind : ∀ tick ∈ stream, bucketOf timeframe tick.2 ≤ bucket := by
        intro tick member
        have among := (all _).mpr ⟨tick, member, rfl⟩
        rcases List.mem_append.mp among with earlier | current
        · exact ((List.pairwise_append.mp increasing).2.2 _ earlier _ (by simp)).le
        · exact (List.mem_singleton.mp current).le
      have ahead : bucket ≤ bucketOf timeframe ts := by
        obtain ⟨tick, member, _⟩ := (all bucket).mp (by simp)
        have latest := List.getLast?_eq_some_getLast (List.ne_nil_of_mem member)
        rw [← last _ latest]
        exact bucketOf_mono pos (ordered _ latest)
      by_cases same : bucketOf timeframe ts = bucket
      · -- the bucket goes on
        refine ⟨none, agg.count price, ?_, ?_⟩
        · simp only [CandleAggregator.feed, if_neg (not_le.mpr valid), here, opened, same, ne_eq,
            not_true_eq_false, if_false]
        · rw [Option.toList_none, List.append_nil]
          refine .forming buckets bucket frame opened increasing (fun b => ?_) (by simp [same])
            (candles.imp fun b candle summarized => ?_) (fun t => ?_) ?_
          · rw [all]
            constructor
            · rintro ⟨tick, member, rfl⟩
              exact ⟨tick, List.mem_append_left _ member, rfl⟩
            · rintro ⟨tick, member, rfl⟩
              rcases List.mem_append.mp member with earlier | new
              · exact ⟨tick, earlier, rfl⟩
              · rw [List.mem_singleton.mp new, same]
                exact (all bucket).mp (by simp)
          · exact ⟨summarized.1, summarized.2.append_of_ne (same.trans_ne summarized.1.ne')⟩
          · have grown := (current t).append price t
            rw [Summarizes, pricesIn_append, if_pos same]
            exact grown
          · rw [List.length_append, List.length_singleton, Nat.cast_add, Nat.cast_one, ← counted,
              add_assoc]
            rfl
      · -- the bucket closes and the next begins
        have after : bucket < bucketOf timeframe ts := lt_of_le_of_ne ahead (Ne.symm same)
        have moved : bucketOf timeframe ts * timeframe ≠ bucket * timeframe := by
          intro equal
          exact same (by exact_mod_cast mul_right_cancel₀ pos.ne' equal)
        refine ⟨some (agg.candle (bucket * timeframe) (bucketOf timeframe ts * timeframe)),
          (agg.restart (bucketOf timeframe ts * timeframe) price).count price, ?_, ?_⟩
        · simp only [CandleAggregator.feed, if_neg (not_le.mpr valid), here, opened, ne_eq, moved,
            not_false_eq_true, if_true]
        · refine .forming (buckets ++ [bucket]) (bucketOf timeframe ts) frame rfl ?_ (fun b => ?_)
            (by simp) ?_ (fun t => summarizes_restart
              (fun tick member => ((behind tick member).trans_lt after).ne) _ t) ?_
          · refine List.pairwise_append.mpr ⟨increasing, List.pairwise_singleton _ _, ?_⟩
            intro b member b' new
            obtain ⟨tick, inside, rfl⟩ := (all b).mp member
            rw [List.mem_singleton.mp new]
            exact (behind tick inside).trans_lt after
          · rw [List.mem_append, all, List.mem_singleton]
            constructor
            · rintro (⟨tick, member, rfl⟩ | rfl)
              · exact ⟨tick, List.mem_append_left _ member, rfl⟩
              · exact ⟨(price, ts), by simp, rfl⟩
            · rintro ⟨tick, member, rfl⟩
              rcases List.mem_append.mp member with earlier | new
              · exact Or.inl ⟨tick, earlier, rfl⟩
              · rw [List.mem_singleton.mp new]
                exact Or.inr rfl
          · refine List.rel_append (candles.imp fun b candle summarized => ?_)
              (List.Forall₂.cons ?_ .nil)
            · exact ⟨summarized.1.trans after,
                summarized.2.append_of_ne (summarized.1.trans after).ne'⟩
            · exact ⟨after, (current _).append_of_ne same⟩
          · simp [← counted, restart, count, candle]

/-! ## Streams -/

/-- A tick whose price is not a positive number. -/
theorem feed_unpriced (agg : CandleAggregator) {tick : PriceTick}
    (unpriced : pricedTicks [tick] = []) : agg.feed tick.1 tick.2 = .ok (none, agg) := by
  obtain ⟨price, ts⟩ := tick
  cases price with
  | fin price =>
      by_cases nonpositive : price ≤ 0
      · simp only [feed, if_pos nonpositive]
      · simp [pricedTicks, nonpositive] at unpriced
  | _ => rfl

/-- A tick that counts, or one that does not. -/
theorem pricedTicks_cons (tick : PriceTick) (ticks : List PriceTick) :
    (pricedTicks [tick] = [] ∧ pricedTicks (tick :: ticks) = pricedTicks ticks) ∨
      ∃ price, 0 < price ∧ tick.1 = fin price ∧
        pricedTicks (tick :: ticks) = (price, tick.2) :: pricedTicks ticks := by
  obtain ⟨price, ts⟩ := tick
  cases price with
  | fin price =>
      by_cases nonpositive : price ≤ 0
      · exact Or.inl (by simp [pricedTicks, nonpositive])
      · exact Or.inr ⟨price, not_le.mp nonpositive, rfl, by simp [pricedTicks, nonpositive]⟩
  | _ => exact Or.inl ⟨rfl, rfl⟩

theorem feedAll_cons_unpriced (agg : CandleAggregator) {tick : PriceTick}
    (unpriced : pricedTicks [tick] = []) (ticks : List PriceTick) :
    agg.feedAll (tick :: ticks) = agg.feedAll ticks := by
  simp only [feedAll, feed_unpriced agg unpriced]
  cases agg.feedAll ticks <;> rfl

/-- **Only the ticks that count have an effect.** -/
theorem feedAll_pricedTicks (agg : CandleAggregator) (ticks : List PriceTick) :
    agg.feedAll ticks = agg.feedAll ((pricedTicks ticks).map fun tick => (fin tick.1, tick.2)) := by
  induction ticks generalizing agg with
  | nil => rfl
  | cons tick ticks ih =>
      rcases pricedTicks_cons tick ticks with ⟨unpriced, same⟩ | ⟨price, _, priced, same⟩
      · rw [feedAll_cons_unpriced agg unpriced, same, ih]
      · obtain ⟨_, ts⟩ := tick
        obtain rfl := priced
        rw [same, List.map_cons, feedAll, feedAll]
        cases agg.feed (fin price) ts with
        | error e => rfl
        | ok fed => simp only [ih fed.2]

/-- **The groups of a stream**, from wherever it goes on. -/
theorem Aggregated.feedAll {timeframe : ℚ} (pos : 0 < timeframe) {past : List (ℚ × ℚ)}
    {closed : List Candle} {agg : CandleAggregator} (aggregated : Aggregated timeframe past closed agg)
    {stream : List (ℚ × ℚ)} (valid : ∀ tick ∈ stream, 0 < tick.1)
    (ordered : (past ++ stream).Pairwise fun tick tick' => tick.2 ≤ tick'.2) :
    ∃ others last, agg.feedAll (stream.map fun tick => (fin tick.1, fin tick.2)) = .ok (others, last) ∧
      Aggregated timeframe (past ++ stream) (closed ++ others) last := by
  induction stream generalizing past closed agg with
  | nil => exact ⟨[], agg, rfl, by simpa using aggregated⟩
  | cons tick stream ih =>
      obtain ⟨price, ts⟩ := tick
      obtain ⟨positive, rest⟩ := List.forall_mem_cons.mp valid
      have before : ∀ tick ∈ past.getLast?, tick.2 ≤ ts := fun tick latest =>
        (List.pairwise_append.mp ordered).2.2 tick (List.mem_of_getLast? latest) (price, ts) (by simp)
      obtain ⟨closes, fed, step, next⟩ := aggregated.feed pos positive before
      rw [List.append_cons] at ordered
      obtain ⟨others, last, run, final⟩ := ih next rest ordered
      refine ⟨closes.toList ++ others, last, ?_, ?_⟩
      · rw [List.map_cons, CandleAggregator.feedAll, step]
        simp only [run]
      · rw [List.append_cons past, ← List.append_assoc closed]
        exact final

/-- The candle being formed, seen at the last tick. -/
theorem Aggregated.forming_last {timeframe : ℚ} (pos : 0 < timeframe) {stream : List (ℚ × ℚ)}
    {closed : List Candle} {agg : CandleAggregator} (aggregated : Aggregated timeframe stream closed agg)
    {tsLast : ℚ} (last : ∀ tick ∈ stream.getLast?, tick.2 = tsLast) :
    ∃ forming, agg.forming (fin tsLast) = .ok forming ∧
      (∃ buckets : List ℤ, buckets.Pairwise (· < ·) ∧
        (∀ b, b ∈ buckets ↔ ∃ tick ∈ stream, bucketOf timeframe tick.2 = b) ∧
        List.Forall₂ (Summarizes timeframe stream) buckets (closed ++ forming.toList)) ∧
      ((closed ++ forming.toList).map Candle.volume).sum = stream.length := by
  cases aggregated with
  | idle =>
      refine ⟨none, ?_, ⟨[], .nil, by simp, .nil⟩, rfl⟩
      simp only [CandleAggregator.forming, @bucket_fin (.new timeframe) pos]
      rfl
  | forming buckets bucket frame opened increasing all latest candles current counted =>
      obtain ⟨tick, member, _⟩ := (all bucket).mp (by simp)
      have some_ := List.getLast?_eq_some_getLast (List.ne_nil_of_mem member)
      have here : agg.bucket (fin tsLast) = .ok (bucket * timeframe) := by
        rw [← frame] at pos
        rw [bucket_fin pos, frame, ← latest _ some_, last _ some_]
      refine ⟨some (agg.candle (bucket * timeframe) tsLast), ?_, ⟨buckets ++ [bucket], increasing,
        all, ?_⟩, ?_⟩
      · simp only [CandleAggregator.forming, here, opened, ne_eq, not_true_eq_false, if_false]
      · exact List.rel_append (candles.imp fun _ _ summarized => summarized.2)
          (.cons (current tsLast) .nil)
      · rw [List.map_append, List.sum_append, ← counted]
        simp [candle]

end CandleAggregator

/-- **Candle aggregation is grouping by bucket**: the candles a stream closes, followed by
the one forming at its last tick, are one for each bucket that has a tick with a
positive price, in order, and count every such tick once; the other ticks have no
effect. -/
theorem candles_of_stream (timeframe : ℚ) (pos : 0 < timeframe) (ticks : List PriceTick)
    (stream : List (ℚ × ℚ))
    (valid : pricedTicks ticks = stream.map fun tick => (tick.1, fin tick.2))
    (ordered : stream.Pairwise fun tick tick' => tick.2 ≤ tick'.2)
    (tsLast : ℚ) (last : ∀ tick ∈ stream.getLast?, tick.2 = tsLast) :
    ∃ closed agg forming,
      (CandleAggregator.new timeframe).feedAll ticks = .ok (closed, agg) ∧
      (CandleAggregator.new timeframe).feedAll
        (stream.map fun tick => (fin tick.1, fin tick.2)) = .ok (closed, agg) ∧
      agg.forming (fin tsLast) = .ok forming ∧
      (∃ buckets : List ℤ, buckets.Pairwise (· < ·) ∧
        (∀ b, b ∈ buckets ↔ ∃ tick ∈ stream, bucketOf timeframe tick.2 = b) ∧
        List.Forall₂ (Summarizes timeframe stream) buckets (closed ++ forming.toList)) ∧
      ((closed ++ forming.toList).map Candle.volume).sum = stream.length := by
  have positive : ∀ tick ∈ stream, 0 < tick.1 := by
    intro tick member
    have counted : (tick.1, fin tick.2) ∈ pricedTicks ticks := by
      rw [valid]
      exact List.mem_map.mpr ⟨tick, member, rfl⟩
    exact pricedTicks_pos counted
  obtain ⟨closed, agg, run, aggregated⟩ :=
    CandleAggregator.Aggregated.idle.feedAll pos positive ordered
  obtain ⟨forming, formed, groups, counted⟩ := aggregated.forming_last pos last
  refine ⟨closed, agg, forming, ?_, run, formed, groups, counted⟩
  rw [CandleAggregator.feedAll_pricedTicks, valid, List.map_map]
  exact run

/-- Satisfiable pole: a bucket left empty, a tick that closes one candle and opens the
next, and ticks that count for nothing, in every position. -/
theorem candles_of_stream_drill :
    ∃ closed agg forming,
      (CandleAggregator.new 60).feedAll [(.nan, .nan), (fin 100, fin 0), (fin (-5), fin 400),
        (fin 104, fin 10), (fin 99, fin 130), (.posInf, .posInf)] = .ok (closed, agg) ∧
      agg.forming (fin 130) = .ok forming ∧
      ((closed ++ forming.toList).map Candle.volume).sum = 3 := by
  obtain ⟨closed, agg, forming, run, _, formed, _, counted⟩ := candles_of_stream 60 (by norm_num)
    [(.nan, .nan), (fin 100, fin 0), (fin (-5), fin 400), (fin 104, fin 10), (fin 99, fin 130),
      (.posInf, .posInf)] [(100, 0), (104, 10), (99, 130)] (by decide +kernel) (by decide +kernel)
    130 (by simp)
  exact ⟨closed, agg, forming, run, formed, counted.trans (by norm_num)⟩

end CentaurApex.Cortex
