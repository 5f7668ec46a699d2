/-
# Cortex.ContextEngine -- what an engine knows is in its last candles

The engine and the watcher both keep an aggregator and the last of the candles it closed
(`CandleWindow`), and no two of them see a stream from the same tick on: one is restarted, one
joined late.  Two windows on one stream come together (`Joining`): with the first tick
that counts they are in the same bucket, with the first candle that closes their aggregators
are the same, and from then on they close the same candles.

* `windows_join`: after one candle more than they keep, they are the same window.
* `engines_join`: so two engines, whatever each took in before, are then in the same state,
  and what they return of the rest of the stream is the same.

Satisfiable pole `fresh_engine_joins`: an engine that is new, and one that is not.
-/
import CentaurApex.Cortex.Candles
import CentaurApex.Cortex.EventEngine
import CentaurApex.Cortex.EventWatcher
import CentaurApex.Cortex.TrueRanges
import CentaurApex.Theory.Machine

namespace CentaurApex.Cortex

open CentaurApex.Theory
open CentaurApex.Theory.ExtNum (fin)
open CentaurApex.Theory.Python
open CentaurApex.Theory.PyValue (text record)

set_option autoImplicit false

/-! ## Windows -/

/-- An aggregator, and the last of the candles it closed. -/
@[ext]
structure CandleWindow where
  aggregator : CandleAggregator
  candles : List Candle
  deriving DecidableEq

namespace CandleWindow

/-- The candle a tick closes, and the window after it. -/
def take (maxCandles : ℕ) (s : CandleWindow) (tick : PriceTick) :
    Except PyError (Option Candle × CandleWindow) :=
  match s.aggregator.feed tick.1 tick.2 with
  | .error e => .error e
  | .ok (none, aggregator) => .ok (none, { s with aggregator })
  | .ok (some closed, aggregator) =>
      .ok (some closed, ⟨aggregator, lastN maxCandles (s.candles ++ [closed])⟩)

/-- A window on a stream: what is no tick passes it by, and a tick that raises. -/
def machine (maxCandles : ℕ) : Machine CandleWindow (Option PriceTick) (Option Candle) where
  step s tick :=
    match tick with
    | none => (none, s)
    | some tick =>
        match s.take maxCandles tick with
        | .ok (closed, s) => (closed, s)
        | .error _ => (none, s)

end CandleWindow

/-! ## Coming together -/

theorem lastN_few {α : Type} (k : ℕ) (xs : List α) : (lastN k xs).length ≤ k := by
  rw [lastN, List.length_drop]
  omega

/-- One more at the end. -/
theorem lastN_concat {α : Type} {k : ℕ} (pos : 0 < k) (xs : List α) (x : α) :
    lastN k (xs ++ [x]) = lastN (k - 1) xs ++ [x] := by
  have same : (xs ++ [x]).length - k = xs.length - (k - 1) := by
    rw [List.length_append, List.length_singleton]
    omega
  rw [lastN, lastN, same, List.drop_append_of_le_length (by omega)]

/-- The same tick of two aggregators in the same bucket. -/
inductive FedAlike (agg agg' : CandleAggregator) (price ts : ExtNum ℚ) : Prop
  | raises {e : PyError} (raised : agg.feed price ts = .error e)
      (raised' : agg'.feed price ts = .error e)
  | within {fed fed' : CandleAggregator} (taken : agg.feed price ts = .ok (none, fed))
      (taken' : agg'.feed price ts = .ok (none, fed')) (frame : fed.timeframe = fed'.timeframe)
      (opened : fed.bucketOpen = fed'.bucketOpen)
  | closes {c c' : Candle} {fed : CandleAggregator} (taken : agg.feed price ts = .ok (some c, fed))
      (taken' : agg'.feed price ts = .ok (some c', fed))

namespace CandleAggregator

/-- What is begun anew has nothing of before but its clock. -/
theorem restart_eq {agg agg' : CandleAggregator} (frame : agg.timeframe = agg'.timeframe)
    (bucket price : ℚ) : agg.restart bucket price = agg'.restart bucket price := by
  rw [restart, restart, frame]

/-- A tick closes a candle of both or of neither, and if it does they go on as one. -/
theorem fed_alike {agg agg' : CandleAggregator} (frame : agg.timeframe = agg'.timeframe)
    (opened : agg.bucketOpen = agg'.bucketOpen) (price ts : ExtNum ℚ) :
    FedAlike agg agg' price ts := by
  have clock : agg'.bucket ts = agg.bucket ts := by
    unfold bucket
    rw [frame]
  cases price with
  | fin price =>
      by_cases nonpositive : price ≤ 0
      · exact .within (if_pos nonpositive) (if_pos nonpositive) frame opened
      cases here : agg.bucket ts with
      | error e =>
          refine .raises (e := e) ?_ ?_
          · simp only [feed, if_neg nonpositive, here]
          · simp only [feed, if_neg nonpositive, clock, here]
      | ok bucket =>
          cases current : agg.bucketOpen with
          | none =>
              have taken : agg.feed (fin price) ts =
                  .ok (none, (agg.restart bucket price).count price) := by
                simp only [feed, if_neg nonpositive, here, current]
              have taken' : agg'.feed (fin price) ts =
                  .ok (none, (agg'.restart bucket price).count price) := by
                simp only [feed, if_neg nonpositive, clock, here, ← opened, current]
              exact .within taken taken' frame rfl
          | some start =>
              by_cases moved : bucket ≠ start
              · have closed : agg.feed (fin price) ts =
                    .ok (some (agg.candle start bucket), (agg.restart bucket price).count price) := by
                  simp only [feed, if_neg nonpositive, here, current, if_pos moved]
                have closed' : agg'.feed (fin price) ts =
                    .ok (some (agg'.candle start bucket), (agg.restart bucket price).count price) := by
                  simp only [feed, if_neg nonpositive, clock, here, ← opened, current, if_pos moved,
                    restart_eq frame]
                exact .closes closed closed'
              · have taken : agg.feed (fin price) ts = .ok (none, agg.count price) := by
                  simp only [feed, if_neg nonpositive, here, current, if_neg moved]
                have taken' : agg'.feed (fin price) ts = .ok (none, agg'.count price) := by
                  simp only [feed, if_neg nonpositive, clock, here, ← opened, current, if_neg moved]
                exact .within taken taken' frame opened
  | _ => exact .within rfl rfl frame opened

/-- A tick that counts is in one bucket, whoever takes it. -/
theorem feed_counts {agg : CandleAggregator} (pos : 0 < agg.timeframe) {price : ℚ}
    (positive : 0 < price) (ts : ℚ) :
    ∃ closed fed, agg.feed (fin price) (fin ts) = .ok (closed, fed) ∧
      fed.timeframe = agg.timeframe ∧
      fed.bucketOpen = some (bucketOf agg.timeframe ts * agg.timeframe) := by
  have here := bucket_fin pos ts
  cases current : agg.bucketOpen with
  | none =>
      refine ⟨none, (agg.restart (bucketOf agg.timeframe ts * agg.timeframe) price).count price, ?_,
        rfl, rfl⟩
      simp only [feed, if_neg (not_le.mpr positive), here, current]
  | some start =>
      by_cases moved : bucketOf agg.timeframe ts * agg.timeframe ≠ start
      · refine ⟨some (agg.candle start (bucketOf agg.timeframe ts * agg.timeframe)),
          (agg.restart (bucketOf agg.timeframe ts * agg.timeframe) price).count price, ?_, rfl, rfl⟩
        simp only [feed, if_neg (not_le.mpr positive), here, current, if_pos moved]
      · refine ⟨none, agg.count price, ?_, rfl, ?_⟩
        · simp only [feed, if_neg (not_le.mpr positive), here, current, if_neg moved]
        · exact current.trans (congrArg some (not_not.mp moved).symm)

end CandleAggregator

/-- Two windows on one stream, and the candles both have closed: in the same bucket at first,
then with one aggregator, and each of the candles after the first theirs in common. -/
structure Joining (maxCandles n : ℕ) (s s' : CandleWindow) : Prop where
  frame : s.aggregator.timeframe = s'.aggregator.timeframe
  opened : s.aggregator.bucketOpen = s'.aggregator.bucketOpen
  formed : 0 < n → s.aggregator = s'.aggregator
  recent : lastN (n - 1) s.candles = lastN (n - 1) s'.candles
  few : s.candles.length ≤ maxCandles
  few' : s'.candles.length ≤ maxCandles

namespace Joining

variable {maxCandles n : ℕ} {s s' : CandleWindow}

theorem all (joining : Joining maxCandles n s s') (many : maxCandles < n) : s = s' := by
  have recent := joining.recent
  have short := joining.few
  have short' := joining.few'
  rw [lastN_of_length (by omega), lastN_of_length (by omega)] at recent
  exact CandleWindow.ext (joining.formed (by omega)) recent

theorem close (joining : Joining maxCandles n s s') {c c' : Candle} (same : 0 < n → c = c')
    (aggregator : CandleAggregator) :
    Joining maxCandles (n + 1) ⟨aggregator, lastN maxCandles (s.candles ++ [c])⟩
      ⟨aggregator, lastN maxCandles (s'.candles ++ [c'])⟩ := by
  refine ⟨rfl, rfl, fun _ => rfl, ?_, lastN_few _ _, lastN_few _ _⟩
  rw [Nat.add_sub_cancel]
  rcases Nat.eq_zero_or_pos n with rfl | pos
  · simp only [lastN, Nat.sub_zero, List.drop_length]
  obtain rfl := same pos
  by_cases within : n ≤ maxCandles
  · rw [lastN_lastN within, lastN_lastN within, lastN_concat pos, lastN_concat pos, joining.recent]
  · rw [joining.all (not_le.mp within)]

end Joining

/-- The candles that have closed, as some replies tell. -/
def closings {σ ι ο : Type} (closes : ο → Bool) (events : List (Event σ ι ο)) : ℕ :=
  (events.map fun e => closes e.reply).count true

namespace CandleWindow

section Step

variable (maxCandles : ℕ) {n : ℕ} {s s' : CandleWindow} (tick : PriceTick)

theorem step_raises {e : PyError} (raised : s.aggregator.feed tick.1 tick.2 = .error e) :
    (machine maxCandles).step s (some tick) = (none, s) := by
  simp only [machine, take, raised]

theorem step_within {fed : CandleAggregator}
    (taken : s.aggregator.feed tick.1 tick.2 = .ok (none, fed)) :
    (machine maxCandles).step s (some tick) = (none, { s with aggregator := fed }) := by
  simp only [machine, take, taken]

theorem step_closes {c : Candle} {fed : CandleAggregator}
    (taken : s.aggregator.feed tick.1 tick.2 = .ok (some c, fed)) :
    (machine maxCandles).step s (some tick) =
      (some c, ⟨fed, lastN maxCandles (s.candles ++ [c])⟩) := by
  simp only [machine, take, taken]

variable {maxCandles}

/-- **One tick of two windows that are coming together**: both close a candle or neither does,
the same once one has closed, and they are nearer by it. -/
theorem step_joining (joining : Joining maxCandles n s s') (tick : Option PriceTick) :
    let out := (machine maxCandles).step s tick
    let out' := (machine maxCandles).step s' tick
    out.1.isSome = out'.1.isSome ∧ (0 < n → out.1 = out'.1) ∧
      Joining maxCandles (n + out.1.toList.length) out.2 out'.2 := by
  cases tick with
  | none => exact ⟨rfl, fun _ => rfl, joining⟩
  | some tick =>
      dsimp only
      cases CandleAggregator.fed_alike joining.frame joining.opened tick.1 tick.2 with
      | raises raised raised' =>
          rw [step_raises _ _ raised, step_raises _ _ raised']
          exact ⟨rfl, fun _ => rfl, joining⟩
      | within taken taken' frame opened =>
          rw [step_within _ _ taken, step_within _ _ taken']
          refine ⟨rfl, fun _ => rfl, frame, opened, fun formed => ?_, joining.recent, joining.few,
            joining.few'⟩
          rw [joining.formed formed, taken'] at taken
          cases taken
          rfl
      | @closes c c' fed taken taken' =>
          have same : 0 < n → c = c' := by
            intro formed
            rw [joining.formed formed, taken'] at taken
            cases taken
            rfl
          rw [step_closes _ _ taken, step_closes _ _ taken']
          exact ⟨rfl, fun formed => congrArg some (same formed), joining.close same fed⟩

/-- A tick that is taken leaves a window no longer than it may be. -/
theorem step_fed {closed : Option Candle} {fed : CandleAggregator}
    (taken : s.aggregator.feed tick.1 tick.2 = .ok (closed, fed))
    (few : s.candles.length ≤ maxCandles) :
    ((machine maxCandles).step s (some tick)).2.aggregator = fed ∧
      ((machine maxCandles).step s (some tick)).2.candles.length ≤ maxCandles := by
  cases closed with
  | none =>
      rw [step_within _ _ taken]
      exact ⟨rfl, few⟩
  | some c =>
      rw [step_closes _ _ taken]
      exact ⟨rfl, lastN_few _ _⟩

/-- With a tick that counts two windows are in the same bucket. -/
theorem step_counts (frame : s.aggregator.timeframe = s'.aggregator.timeframe)
    (pos : 0 < s.aggregator.timeframe) (few : s.candles.length ≤ maxCandles)
    (few' : s'.candles.length ≤ maxCandles) {price : ℚ} (positive : 0 < price) (ts : ℚ) :
    Joining maxCandles 0 ((machine maxCandles).step s (some (fin price, fin ts))).2
      ((machine maxCandles).step s' (some (fin price, fin ts))).2 := by
  obtain ⟨_, fed, taken, kept, opened⟩ := CandleAggregator.feed_counts pos positive ts
  obtain ⟨_, fed', taken', kept', opened'⟩ :=
    CandleAggregator.feed_counts (frame ▸ pos) positive ts
  obtain ⟨same, short⟩ := step_fed (fin price, fin ts) taken few
  obtain ⟨same', short'⟩ := step_fed (fin price, fin ts) taken' few'
  refine ⟨?_, ?_, fun formed => absurd formed (lt_irrefl 0), ?_, short, short'⟩
  · rw [same, same', kept, kept', frame]
  · rw [same, same', opened, opened', frame]
  · simp only [lastN, Nat.zero_sub, Nat.sub_zero, List.drop_length]

end Step

theorem sum_closings (events : List (Event CandleWindow (Option PriceTick) (Option Candle))) :
    (events.map fun e => e.reply.toList.length).sum = closings Option.isSome events := by
  induction events with
  | nil => rfl
  | cons e events ih =>
      rw [List.map_cons, List.sum_cons, ih, closings, closings, List.map_cons, List.count_cons,
        add_comm]
      cases e.reply <;> rfl

/-- **Two windows on one stream become the same window**: after a tick that counts, and one
candle more than they keep. -/
theorem windows_join {maxCandles : ℕ} {s s' : CandleWindow}
    (frame : s.aggregator.timeframe = s'.aggregator.timeframe)
    (pos : 0 < s.aggregator.timeframe) (few : s.candles.length ≤ maxCandles)
    (few' : s'.candles.length ≤ maxCandles) {price : ℚ} (positive : 0 < price) (ts : ℚ)
    (ticks : List (Option PriceTick))
    (many : maxCandles < closings Option.isSome ((machine maxCandles).trace
      ((machine maxCandles).step s (some (fin price, fin ts))).2 ticks)) :
    (machine maxCandles).run s (some (fin price, fin ts) :: ticks) =
      (machine maxCandles).run s' (some (fin price, fin ts) :: ticks) := by
  have joined := (machine maxCandles).run_gains (R := Joining maxCandles)
    (fun closed => closed.toList.length)
    (fun n s s' tick joining => (step_joining joining tick).2.2)
    (step_counts frame pos few few' positive ts) ticks
  rw [Nat.zero_add, sum_closings] at joined
  exact joined.all many

end CandleWindow

/-! ## The engine -/

/-- `round(x, digits)` -/
def roundTo (digits : ℕ) (x : ℚ) : ℚ := roundHalfEven (x * 10 ^ digits) / 10 ^ digits

@[ext]
structure MarketContextEngine where
  assetId : String
  params : MarketContextParams
  aggregator : CandleAggregator
  candles : List Candle
  context : MarketContext

namespace MarketContextEngine

/-- The clock of the aggregator is that of the parameters. -/
def new (assetId : String) (params : MarketContextParams) (timeframe : ℚ) : MarketContextEngine :=
  ⟨assetId, params, .new timeframe, [], params.seeding assetId []⟩

def snapshot (engine : MarketContextEngine) : Value :=
  let ctx := engine.context
  record [("asset_id", text ctx.assetId), ("timeframe_s", .float ctx.timeframeS),
    ("closed_candles", count ctx.closedCandles), ("atr", num (roundTo 8 ctx.atr)),
    ("regime", text ctx.regime.name), ("phase", text ctx.phase.name),
    ("bias", text ctx.bias.name), ("momentum", num (roundTo 6 ctx.momentum)),
    ("swing_high", orNone num ctx.swingHigh), ("swing_low", orNone num ctx.swingLow),
    ("coil_bounds", orNone (fun bounds => .list [num bounds.1, num bounds.2]) ctx.coilBounds),
    ("structure_age_candles", count ctx.structureAgeCandles),
    ("expected_remaining_candles",
      orNone (fun n => num (roundTo 2 n)) ctx.expectedRemainingCandles),
    ("expansion_potential_candles",
      orNone (fun n => num (roundTo 2 n)) ctx.expansionPotentialCandles),
    ("integrity", .bool ctx.integrity), ("break_level", orNone num ctx.breakLevel)]

/-- A tick as it is passed in, and `time.time()` as it is. -/
abbrev Tick : Type := ℚ × Dict

-- `float(text)`
variable (ofText : String → Option (ExtNum ℚ))

/-- The price and the time of a tick: without a time it is now. -/
def readTick (tick : Tick) : Except PyError PriceTick := do
  let price ← toFloat ofText (orElse (get tick.2 "price" (.float (fin 0))) (.float (fin 0)))
  let ts ← toFloat ofText (get tick.2 "timestamp" (.float (fin tick.1)))
  return (price, ts)

/-- The engine after a candle has closed. -/
def close (engine : MarketContextEngine) (aggregator : CandleAggregator) (closed : Candle) :
    MarketContextEngine :=
  let candles := engine.candles ++ [closed]
  let candles :=
    if engine.params.maxCandles < candles.length then lastN engine.params.maxCandles candles
    else candles
  { engine with
    aggregator
    candles
    context := buildContext candles engine.params engine.assetId }

def ingest (engine : MarketContextEngine) (tick : Tick) :
    Except PyError (Option Value × MarketContextEngine) := do
  let (price, ts) ← readTick ofText tick
  let (closed, aggregator) ← engine.aggregator.feed price ts
  match closed with
  | none => return (none, { engine with aggregator })
  | some closed =>
      let engine := engine.close aggregator closed
      return (some engine.snapshot, engine)

/-- An engine and its ticks: one that raises is lost. -/
def machine : Machine MarketContextEngine Tick (Except PyError (Option Value)) where
  step engine tick :=
    match engine.ingest ofText tick with
    | .ok (snapshot, engine) => (.ok snapshot, engine)
    | .error e => (.error e, engine)

/-- A snapshot was returned. -/
def returns : Except PyError (Option Value) → Bool
  | .ok (some _) => true
  | _ => false

def window (engine : MarketContextEngine) : CandleWindow := ⟨engine.aggregator, engine.candles⟩

/-- What an engine keeps to: its clock, no more candles than it may have, and the context of
those. -/
structure Kept (assetId : String) (params : MarketContextParams) (timeframe : ℚ)
    (engine : MarketContextEngine) : Prop where
  name : engine.assetId = assetId
  tuned : engine.params = params
  frame : engine.aggregator.timeframe = timeframe
  few : engine.candles.length ≤ params.maxCandles
  current : engine.context = buildContext engine.candles params assetId

section Kept

variable {assetId : String} {params : MarketContextParams} {timeframe : ℚ}
  {engine engine' : MarketContextEngine}

theorem new_kept (assetId : String) (params : MarketContextParams) (timeframe : ℚ) :
    Kept assetId params timeframe (new assetId params timeframe) :=
  ⟨rfl, rfl, rfl, Nat.zero_le _, (if_pos (Nat.succ_pos _)).symm⟩

/-- Engines that keep to the same are as their windows are. -/
theorem Kept.ext (kept : Kept assetId params timeframe engine)
    (kept' : Kept assetId params timeframe engine') (same : engine.window = engine'.window) :
    engine = engine' := by
  have aggregator : engine.aggregator = engine'.aggregator := congrArg CandleWindow.aggregator same
  have candles : engine.candles = engine'.candles := congrArg CandleWindow.candles same
  refine MarketContextEngine.ext (kept.name.trans kept'.name.symm)
    (kept.tuned.trans kept'.tuned.symm) aggregator candles ?_
  rw [kept.current, kept'.current, candles]

/-- The history is cut to the candles it may have, if there are more. -/
theorem close_candles (engine : MarketContextEngine) (aggregator : CandleAggregator)
    (closed : Candle) :
    (engine.close aggregator closed).candles =
      lastN engine.params.maxCandles (engine.candles ++ [closed]) := by
  unfold close
  dsimp only
  split
  · rfl
  · rename_i few
    exact (lastN_of_length (not_lt.mp few)).symm

theorem Kept.close (kept : Kept assetId params timeframe engine) {aggregator : CandleAggregator}
    (frame : aggregator.timeframe = timeframe) (closed : Candle) :
    Kept assetId params timeframe (engine.close aggregator closed) := by
  refine ⟨kept.name, kept.tuned, frame, ?_, ?_⟩
  · rw [close_candles, kept.tuned]
    exact lastN_few _ _
  · rw [← kept.tuned, ← kept.name]
    rfl

variable (ofText : String → Option (ExtNum ℚ))

/-- What one tick does to an engine. -/
inductive Ingested (engine : MarketContextEngine) (tick : Tick) :
    Except PyError (Option Value) × MarketContextEngine → Prop
  | unread {e : PyError} (unread : readTick ofText tick = .error e) :
      Ingested engine tick (.error e, engine)
  | raises {e : PyError} {price ts : ExtNum ℚ} (reads : readTick ofText tick = .ok (price, ts))
      (raised : engine.aggregator.feed price ts = .error e) : Ingested engine tick (.error e, engine)
  | within {price ts : ExtNum ℚ} {fed : CandleAggregator}
      (reads : readTick ofText tick = .ok (price, ts))
      (taken : engine.aggregator.feed price ts = .ok (none, fed)) :
      Ingested engine tick (.ok none, { engine with aggregator := fed })
  | closes {price ts : ExtNum ℚ} {closed : Candle} {fed : CandleAggregator}
      (reads : readTick ofText tick = .ok (price, ts))
      (taken : engine.aggregator.feed price ts = .ok (some closed, fed)) :
      Ingested engine tick
        (.ok (some (engine.close fed closed).snapshot), engine.close fed closed)

theorem machine_ingested (engine : MarketContextEngine) (tick : Tick) :
    Ingested ofText engine tick ((machine ofText).step engine tick) := by
  cases reads : readTick ofText tick with
  | error e =>
      have out : (machine ofText).step engine tick = (.error e, engine) := by
        simp only [machine, ingest, reads]
        rfl
      exact out ▸ .unread reads
  | ok read =>
      obtain ⟨price, ts⟩ := read
      cases taken : engine.aggregator.feed price ts with
      | error e =>
          have out : (machine ofText).step engine tick = (.error e, engine) := by
            simp only [machine, ingest, reads, taken, bind, Except.bind]
          exact out ▸ .raises reads taken
      | ok fed =>
          obtain ⟨closed, fed⟩ := fed
          cases closed with
          | none =>
              have out : (machine ofText).step engine tick =
                  (.ok none, { engine with aggregator := fed }) := by
                simp only [machine, ingest, reads, taken, bind, Except.bind, pure, Except.pure]
              exact out ▸ .within reads taken
          | some closed =>
              have out : (machine ofText).step engine tick =
                  (.ok (some (engine.close fed closed).snapshot), engine.close fed closed) := by
                simp only [machine, ingest, reads, taken, bind, Except.bind, pure, Except.pure]
              exact out ▸ .closes reads taken

theorem Kept.step (kept : Kept assetId params timeframe engine) (tick : Tick) :
    Kept assetId params timeframe ((machine ofText).step engine tick).2 := by
  generalize out : (machine ofText).step engine tick = next
  have ingested := out ▸ machine_ingested ofText engine tick
  cases ingested with
  | unread => exact kept
  | raises => exact kept
  | within reads taken =>
      exact ⟨kept.name, kept.tuned,
        (CandleAggregator.feed_timeframe taken).trans kept.frame, kept.few, kept.current⟩
  | closes reads taken =>
      exact kept.close ((CandleAggregator.feed_timeframe taken).trans kept.frame) _

theorem Kept.run (kept : Kept assetId params timeframe engine) (ticks : List Tick) :
    Kept assetId params timeframe ((machine ofText).run engine ticks) :=
  (machine ofText).run_invariant (fun _ tick kept => kept.step ofText tick) kept ticks

/-- The tick that is read, if it can be. -/
def tickOf (tick : Tick) : Option PriceTick := (readTick ofText tick).toOption

/-- An engine returns a snapshot when its window closes a candle. -/
theorem step_window (kept : Kept assetId params timeframe engine) (tick : Tick) :
    let out := (machine ofText).step engine tick
    let seen := (CandleWindow.machine params.maxCandles).step engine.window (tickOf ofText tick)
    returns out.1 = seen.1.isSome ∧ out.2.window = seen.2 := by
  dsimp only
  generalize out : (machine ofText).step engine tick = next
  have ingested := out ▸ machine_ingested ofText engine tick
  cases ingested with
  | unread unread =>
      rw [tickOf, unread]
      exact ⟨rfl, rfl⟩
  | @raises e price ts reads raised =>
      rw [tickOf, reads]
      have step :=
        CandleWindow.step_raises params.maxCandles (s := engine.window) (price, ts) raised
      exact ⟨congrArg (fun out => out.1.isSome) step.symm, congrArg Prod.snd step.symm⟩
  | @within price ts fed reads taken =>
      rw [tickOf, reads]
      have step := CandleWindow.step_within params.maxCandles (s := engine.window) (price, ts) taken
      exact ⟨congrArg (fun out => out.1.isSome) step.symm, congrArg Prod.snd step.symm⟩
  | @closes price ts closed fed reads taken =>
      rw [tickOf, reads]
      have step :=
        CandleWindow.step_closes params.maxCandles (s := engine.window) (price, ts) taken
      refine ⟨congrArg (fun out => out.1.isSome) step.symm,
        Eq.trans ?_ (congrArg Prod.snd step.symm)⟩
      rw [← kept.tuned]
      exact congrArg (CandleWindow.mk _) (close_candles engine _ _)

theorem run_window (kept : Kept assetId params timeframe engine) (ticks : List Tick) :
    ((machine ofText).trace engine ticks).map (fun e => returns e.reply) =
        ((CandleWindow.machine params.maxCandles).trace engine.window
          (ticks.map (tickOf ofText))).map (fun e => e.reply.isSome) ∧
      ((machine ofText).run engine ticks).window =
        (CandleWindow.machine params.maxCandles).run engine.window (ticks.map (tickOf ofText)) :=
  (machine ofText).run_project (CandleWindow.machine params.maxCandles) window (tickOf ofText)
    returns Option.isSome (fun _ tick kept => kept.step ofText tick)
    (fun _ tick kept => step_window ofText kept tick) kept ticks

end Kept

/-- **What an engine knows is in its last candles.**  Two engines for one market, whatever each
took in before, are in the same state after a tick that counts and one snapshot more than the
candles they keep. -/
theorem engines_join (ofText : String → Option (ExtNum ℚ)) (assetId : String)
    (params : MarketContextParams) {timeframe : ℚ} (clock : params.timeframeS = fin timeframe)
    (past past' : List Tick) {first : Tick} {price ts : ℚ}
    (reads : readTick ofText first = .ok (fin price, fin ts)) (positive : 0 < price)
    (ticks : List Tick)
    (many : params.maxCandles < closings returns ((machine ofText).trace
      ((machine ofText).run (new assetId params timeframe) (past ++ [first])) ticks)) :
    (machine ofText).run (new assetId params timeframe) (past ++ first :: ticks) =
      (machine ofText).run (new assetId params timeframe) (past' ++ first :: ticks) := by
  have pos : 0 < timeframe := by
    have positive := params.timeframe_pos
    rwa [clock, ExtNum.fin_lt_fin] at positive
  have all := (new_kept assetId params timeframe).run ofText
  have here : tickOf ofText first = some (fin price, fin ts) := by
    rw [tickOf, reads]
    rfl
  rw [(machine ofText).run_append, Machine.run, Machine.run, closings,
    (run_window ofText ((all past).step ofText first) ticks).1,
    (step_window ofText (all past) first).2, here] at many
  rw [(machine ofText).run_append, (machine ofText).run_append]
  refine ((all past).run ofText _).ext ((all past').run ofText _) ?_
  rw [(run_window ofText (all past) _).2, (run_window ofText (all past') _).2, List.map_cons, here]
  exact CandleWindow.windows_join ((all past).frame.trans (all past').frame.symm)
    (pos.trans_eq (all past).frame.symm) (all past).few (all past').few positive ts _ many

/-- A price of `n`, at the beginning of the `n`-th bucket. -/
def bucketTick (n : ℕ) : Tick := (0, [("price", .int n), ("timestamp", .int (n * 300))])

/-- Parameters with the shortest history there may be. -/
def shortParams : MarketContextParams :=
  { defaultParams with maxCandles := 30, maxCandles_ge := le_rfl }

/-- Satisfiable pole: an engine that has seen a few prices, the last in the same bucket, and one
that is new. -/
theorem fresh_engine_joins :
    (machine fun _ => none).run (new "SYNTH" shortParams 300)
        ([bucketTick 1, bucketTick 3] ++
          bucketTick 3 :: (List.range 31).map fun n => bucketTick (n + 4)) =
      (machine fun _ => none).run (new "SYNTH" shortParams 300)
        (bucketTick 3 :: (List.range 31).map fun n => bucketTick (n + 4)) := by
  have reads : readTick (fun _ => none) (bucketTick 3) = .ok (fin 3, fin 900) := by decide +kernel
  exact engines_join _ "SYNTH" shortParams rfl [bucketTick 1, bucketTick 3] [] reads
    (by decide) _ (by decide +kernel)

/-- What the engines have of the first bucket they share, while it is in their history. -/
def oldestVolume (past : List Tick) (later : ℕ) : Option ℚ :=
  ((machine fun _ => none).run (new "SYNTH" shortParams 300)
    (past ++ bucketTick 3 :: (List.range later).map fun n => bucketTick (n + 4))).candles.head?.map
      Candle.volume

-- a snapshot less is not enough
example : oldestVolume [bucketTick 1, bucketTick 3] 30 = some 2 ∧ oldestVolume [] 30 = some 1 := by
  decide +kernel

end MarketContextEngine

end CentaurApex.Cortex
