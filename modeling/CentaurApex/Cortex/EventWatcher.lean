/-
# Cortex.EventWatcher -- a daemon that reads ticks line by line, and what a line can do to it

Every line is parsed, and what it says is fed to the aggregator; a closed candle is analysed,
and so is the one being formed, whenever the interval has passed.  Of a line the daemon checks
that it is JSON, that it has a price and a time, and that the price is positive.  It does not
check that it is an object, that the two are numbers, that the time is finite, or that the
price is.

The arithmetic is exact, but where a result leaves the range of the doubles it is what a double
is then: the time over the timeframe, the sums of ranges, and the latency, the sweep, the leg and
the depth of a report.

* **A line survives, exactly when** (`watch_iff`): it raises nothing, and leaves the aggregator,
  the candles and the tracker alone unless it is a tick, if and only if it is `Harmless` to the
  watcher that reads it.
* **What is written is JSON** (`consume_ok`), if what the line makes the watcher measure are
  numbers (`InRange`).
* **A run survives** (`survives_of_harmless`) if each of its lines is harmless to the watcher that
  the lines before it lead to, and what is measured then are numbers; and only if they are harmless.

Refuting pole `number_line_raises`: a line that is a number.
-/
import CentaurApex.Cortex.Candles
import CentaurApex.Cortex.EventEngine
import CentaurApex.Cortex.Regimes
import CentaurApex.Cortex.Transitions
import CentaurApex.Evolution.CodeAgent

namespace CentaurApex.Cortex

open CentaurApex.Evolution (strip)
open CentaurApex.Theory
open CentaurApex.Theory.ExtNum (fin)
open CentaurApex.Theory.JsonTree (IsNumber)
open CentaurApex.Theory.Python
open CentaurApex.Theory.PyValue (text record Clean)

set_option autoImplicit false

/-! ## What is read and what is written -/

/-- What `json.loads` makes of a text: a `JSONDecodeError`, another exception, a value. -/
inductive Loaded where
  | malformed
  | raises (e : Raised)
  | value (tick : Json)

/-- `json` and `float`: how they read, and that a finite float is written as a number. -/
structure JsonLibrary where
  loads : List Char → Loaded
  ofText : String → Option (ExtNum ℚ)
  repr : FloatRepr (ExtNum ℚ)
  repr_number : ∀ q : ℚ, IsNumber (repr.text (fin q))

/-- A line of the stream, with the clocks as they are read on its way and the levels as they
are then. -/
structure Line where
  text : List Char
  /-- `time.monotonic()` as the line comes -/
  now : ℚ
  /-- and as its tick is watched -/
  tickNow : ℚ
  /-- and for a heartbeat -/
  pulseAt : ℚ
  /-- `time.time()` of a report -/
  firedAt : ℚ
  /-- and of its latency -/
  latencyAt : ℚ
  levels : List (ExtNum ℚ)

structure WatcherSettings where
  assetId : String
  timeframe : ℚ
  params : MarketContextParams
  maxCandles : ℕ
  engine : EventEngine
  rtIntervalMs : ExtNum ℚ
  watchStart : ℚ
  timeframe_pos : 0 < timeframe
  maxCandles_pos : 1 ≤ maxCandles
  /-- the length of a deque -/
  maxCandles_lt : maxCandles < 2 ^ 63
  /-- the engine has the patterns it has by default -/
  seeded : engine.matcher = .new none

/-! ## Reports -/

inductive ReportPhase where
  | rt | close
  deriving DecidableEq, Repr

/-- What tells one reading from another. -/
abbrev Signature : Type := List String × Regime × MarketPhase × Bool

structure WatchReport where
  report : EventReport
  pullback : PullbackTracker
  transition : Option Transition
  phase : ReportPhase
  firedAt : ℚ
  latencyMs : Double
  previewPrice : Option ℚ
  context : MarketContext

def Regime.name : Regime → String
  | .seeding => "SEEDING"
  | .trendUp => "TREND_UP"
  | .trendDown => "TREND_DOWN"
  | .range => "RANGE"
  | .expansion => "EXPANSION"

def MarketPhase.name : MarketPhase → String
  | .seeding => "SEEDING"
  | .coil => "COIL"
  | .trend => "TREND"
  | .exhaustion => "EXHAUSTION"
  | .expansion => "EXPANSION"

def Bias.name : Bias → String
  | .flat => "Flat"
  | .long => "Long"
  | .short => "Short"

def PullbackState.name : PullbackState → String
  | .aligned => "ALIGNED"
  | .armed => "ARMED"
  | .resumed => "RESUMED"
  | .broken => "BROKEN"

def Transition.name : Transition → String
  | .armed => "armed"
  | .resumed => "resumed"
  | .broken => "broken"

/-- What is known of a transition. -/
def Transition.pullbackThesis : Transition → Thesis
  | .armed =>
      { id := "pullback_armed", family := "structure"
        mechanism := "price retraced into the healthy 0.25-0.65 ATR-normalised zone"
        thesis := "The impulse is intact; what was obtainable is being banked and the re-entry " ++
          "lay-up is forming."
        invalidation := "retrace deepens beyond 0.65 of the impulse " ++
          "(the correction becomes a reversal)"
        conversion := "re-enter when the impulse confirms resumption" }
  | .resumed =>
      { id := "pullback_resumed", family := "structure"
        mechanism := "impulse resumed past its extreme after an ATR-normalised pullback"
        thesis := "The healthy pullback resolved in favour of the impulse: re-enter with the move."
        invalidation := "close back through the pullback low (bull) / high (bear)"
        conversion := "re-enter with the impulse; trail under the resumption pivot" }
  | .broken =>
      { id := "pullback_broken", family := "structure"
        mechanism := "structure anchor violated: the correction has become a reversal"
        thesis := "The red-after-green event: stand out with profits banked; the impulse is over."
        invalidation := "price reclaims the anchor within this candle"
        conversion := "stand out; the move is done" }

/-- `_merge_pullback`: the thesis of a transition comes first, and once. -/
def mergePullback (report : EventReport) (transition : Option Transition) : EventReport :=
  match transition with
  | none => report
  | some transition =>
      let thesis := transition.pullbackThesis
      { report with theses := thesis :: report.theses.filter fun t => t.id ≠ thesis.id }

/-- `round(x, 3)`, of an infinity too. -/
def round3 : Double → Double
  | .fin q => fin (roundHalfEven (q * 1000) / 1000)
  | x => x

/-- The leg in average ranges. -/
def PullbackTracker.legInAtr (t : PullbackTracker) : Double :=
  toDouble (fin |t.extreme - t.origin| / t.atr)

/-- The leg in average ranges, if there is an average, and the depth are numbers. -/
structure PullbackTracker.Numeric (t : PullbackTracker) : Prop where
  leg : t.atr = fin 0 ∨ t.legInAtr.IsFinite
  depth : ∀ depth ∈ t.currentDepth, (toDouble (fin depth)).IsFinite

/-- The leg is written where there is an average. -/
def PullbackTracker.impulseAtr (t : PullbackTracker) : Value :=
  if t.atr = fin 0 then text "n/a" else .float (round3 t.legInAtr)

/-- `snapshot`, and the transition that led there. -/
def PullbackTracker.snapshot (t : PullbackTracker) (transition : Option Transition) : Value :=
  record [("state", text t.state.name), ("direction", text (match t.direction with
    | .up => "Bull"
    | .down => "Bear"
    | .none_ => "Flat")), ("impulse_atr", t.impulseAtr),
    ("current_depth", orNone (fun depth => .float (round3 (toDouble (fin depth)))) t.currentDepth),
    ("alive_pullbacks", count t.aliveDepths.length),
    ("transition", orNone (fun transition => text transition.name) transition)]

/-- `_context_dict` -/
def MarketContext.toDict (ctx : MarketContext) : Value :=
  record [("regime", text ctx.regime.name), ("phase", text ctx.phase.name),
    ("bias", text ctx.bias.name), ("integrity", .bool ctx.integrity),
    ("break_level", orNone num ctx.breakLevel)]

namespace WatchReport

def toDict (r : WatchReport) : Value :=
  record (r.report.toDict ++
    [("pullback", r.pullback.snapshot r.transition), ("phase", text (match r.phase with
      | .rt => "rt"
      | .close => "close")), ("fired_at", num r.firedAt), ("latency_ms", .float r.latencyMs)] ++
    (r.previewPrice.map fun price => ("preview_price", num price)).toList ++
    [("context", r.context.toDict)])

/-- `_signature` -/
def signature (r : WatchReport) : Signature :=
  ((r.report.theses.map Thesis.id).insertionSort (· ≤ ·), r.context.regime, r.context.phase,
    r.context.integrity)

end WatchReport

/-! ## The watcher -/

structure EventWatcher where
  aggregator : CandleAggregator
  candles : List Candle
  pullback : PullbackTracker
  lastRtAt : ℚ
  lastRtSig : Option Signature

namespace EventWatcher

variable (lib : JsonLibrary) (settings : WatcherSettings)

def new : EventWatcher := ⟨.new settings.timeframe, [], .default_, 0, none⟩

/-- `atr_of`, where it leaves the range of the doubles: the sum of the ranges may be too large,
and their average too small. -/
def averageRange (candles : List Candle) (period : ℕ) : Double :=
  match lastN (period + 1) candles with
  | [] | [_] => fin 0
  | first :: window =>
      match clamp (trueRanges first.close window).sum with
      | .fin sum => clamp (sum / window.length)
      | x => x

/-- `build_context`, and the average range that it finds.  An infinite one is above every move,
and leaves the context as it was to begin with. -/
def contextOf (candles : List Candle) : MarketContext × Double :=
  let ctx := buildContext candles settings.params settings.assetId
  match averageRange candles settings.params.atrPeriod with
  | .fin atr =>
      if atr ≤ 0 then (settings.params.seeding settings.assetId candles, fin 0)
      else (ctx, fin ctx.atr)
  | x => (settings.params.seeding settings.assetId candles, x)

/-- The report on a history, its last candle taken by the tracker. -/
def observe (w : EventWatcher) (line : Line) (candles : List Candle) (last : Candle)
    (phase : ReportPhase) (latencyMs : Double) (previewPrice : Option ℚ) :
    Except Raised (WatchReport × EventWatcher) := do
  let (ctx, atr) := contextOf settings candles
  let report ← settings.engine.analyze lib.ofText candles atr line.levels
  let (transition, pullback) := w.pullback.update last atr
  return (⟨mergePullback report transition, pullback, transition, phase, line.firedAt, latencyMs,
    previewPrice, ctx⟩, { w with pullback })

/-- `_latency_ms` -/
def latencyMs (line : Line) (closed : Candle) : Double :=
  max2 (fin 0) (toDouble (toDouble (fin (line.latencyAt - closed.tClose)) * fin 1000))

/-- `_analyze_closed`: the candle that closed is the last of the deque. -/
def analyzeClosed (w : EventWatcher) (line : Line) : Except Raised (WatchReport × EventWatcher) :=
  match w.candles.getLast? with
  | none => .error .indexError
  | some closed =>
      observe lib settings w line w.candles closed .close (latencyMs line closed) none

/-- The time over the timeframe is too large for a double, and has no floor. -/
def Overflows (ts : ExtNum ℚ) : Prop :=
  ts.IsFinite ∧ ¬ (toDouble (ts / fin settings.timeframe)).IsFinite

instance (ts : ExtNum ℚ) : Decidable (Overflows settings ts) :=
  inferInstanceAs (Decidable (_ ∧ _))

/-- `CandleAggregator.feed`, of doubles: only a price that counts has its time looked at. -/
def feed (w : EventWatcher) (price ts : ExtNum ℚ) :
    Except PyError (Option Candle × CandleAggregator) :=
  if price.IsFinite ∧ Overflows settings ts then .error .overflowError
  else w.aggregator.feed price ts

/-- The candle being formed, if there are closed ones enough to read it by. -/
def rtCandle (w : EventWatcher) (ts : ExtNum ℚ) : Except PyError (Option Candle) :=
  if w.candles = [] ∨ w.candles.length < settings.params.atrPeriod + 1 then .ok none
  else if Overflows settings ts then .error .overflowError
  else w.aggregator.forming ts

/-- `_analyze_rt` -/
def analyzeRt (w : EventWatcher) (line : Line) (ts : ExtNum ℚ) :
    Except Raised (Option WatchReport × EventWatcher) :=
  match rtCandle settings w ts with
  | .error e => .error (.error e)
  | .ok none => .ok (none, w)
  | .ok (some forming) =>
      (observe lib settings w line (w.candles ++ [forming]) forming .rt (fin 0)
        (some forming.close)).map fun read => (some read.1, read.2)

/-- The interval has passed since the last real-time reading. -/
def RtDue (w : EventWatcher) (line : Line) : Prop :=
  settings.rtIntervalMs / fin 1000 ≤ fin (line.tickNow - w.lastRtAt)

instance (w : EventWatcher) (line : Line) : Decidable (RtDue settings w line) :=
  inferInstanceAs (Decidable (_ ≤ _))

/-- A reading that looks like the last one is not reported. -/
def strike (w : EventWatcher) (line : Line) (ts : ExtNum ℚ) :
    Except Raised (Option WatchReport × EventWatcher) := do
  if RtDue settings w line then
    let (rt, w) ← analyzeRt lib settings { w with lastRtAt := line.tickNow } line ts
    match rt with
    | none => return (none, w)
    | some rt =>
        if some rt.signature ≠ w.lastRtSig then
          return (some rt, { w with lastRtSig := some rt.signature })
        else return (none, w)
  else return (none, w)

/-- The tick in its own numbers: the candle it closes, or a reading of the one it is in. -/
def takeTick (w : EventWatcher) (line : Line) (price ts : ExtNum ℚ) :
    Except Raised (Option WatchReport × EventWatcher) :=
  -- positive, and NaN is not; an infinity is
  if ¬ fin 0 < price then .ok (none, w)
  else
    match feed settings w price ts with
    | .error e => .error (.error e)
    | .ok (some closed, aggregator) => do
        let w := { w with aggregator, candles := lastN settings.maxCandles (w.candles ++ [closed]) }
        let (report, w) ← analyzeClosed lib settings w line
        return (some report, { w with lastRtSig := none })
    | .ok (none, aggregator) => strike lib settings { w with aggregator } line ts

/-- `watch_tick` -/
def watchTick (w : EventWatcher) (line : Line) (tick : Json) :
    Except Raised (Option WatchReport × EventWatcher) :=
  match tick with
  | .obj fields =>
      match get fields "price" .null, get fields "timestamp" .null with
      | .null, _ => .ok (none, w)
      | _, .null => .ok (none, w)
      | price, ts => do
          let price ← (toFloat lib.ofText price).mapError .error
          let ts ← (toFloat lib.ofText ts).mapError .error
          takeTick lib settings w line price ts
  | _ => .error (.error .attributeError)

def heartbeat (w : EventWatcher) (line : Line) : Value :=
  record [("watcher", text "alive"), ("asset_id", text settings.assetId),
    ("closed_candles", count w.candles.length),
    ("uptime_s", .float (round3 (fin (line.pulseAt - settings.watchStart)))),
    ("fired_at", num line.firedAt)]

end EventWatcher

/-! ## The run -/

structure WatchRun where
  watcher : EventWatcher
  lastPulse : ℚ
  /-- the lines that were written -/
  out : List (List Char)

namespace WatchRun

variable (lib : JsonLibrary) (settings : WatcherSettings) (heartbeatS : ExtNum ℚ)

def start (lastPulse : ℚ) : WatchRun := ⟨.new settings, lastPulse, []⟩

/-- `_emit`, as JSON with its keys sorted. -/
def emit (s : WatchRun) (payload : Value) : Except Raised WatchRun := do
  let line ← (PyValue.dumps lib.repr payload.sortKeys).mapError .error
  return { s with out := s.out ++ [line] }

/-- What a line is taken for, and the watcher after it. -/
def watch (w : EventWatcher) (line : Line) : Except Raised (Option WatchReport × EventWatcher) :=
  if strip line.text = [] then .ok (none, w)
  else
    match lib.loads (strip line.text) with
    | .raises e => .error e
    | .malformed => .ok (none, w)
    | .value tick => if truthy tick then w.watchTick lib settings line tick else .ok (none, w)

/-- The report is written, or a heartbeat when it is time. -/
def respond (s : WatchRun) (line : Line) (report : Option WatchReport) : Except Raised WatchRun :=
  match report with
  | some report => emit lib { s with lastPulse := line.now } report.toDict
  | none =>
      if heartbeatS ≤ fin (line.now - s.lastPulse) then
        emit lib { s with lastPulse := line.now } (s.watcher.heartbeat settings line)
      else .ok s

/-- One line of the loop. -/
def consume (s : WatchRun) (line : Line) : Except Raised WatchRun := do
  let (report, watcher) ← watch lib settings s.watcher line
  respond lib settings heartbeatS { s with watcher } line report

/-- `run`, from any state of the loop. -/
def run (s : WatchRun) : List Line → Except Raised WatchRun
  | [] => .ok s
  | line :: lines => do run (← consume lib settings heartbeatS s line) lines

end WatchRun

/-! ## What a line says -/

section Lines

variable (lib : JsonLibrary) (settings : WatcherSettings)

namespace Line

/-- A line with nothing to read in it. -/
inductive Skipped (line : Line) : Prop
  | blank (none_ : strip line.text = [])
  | malformed (text : lib.loads (strip line.text) = .malformed)
  | falsy {tick : Json} (loaded : lib.loads (strip line.text) = .value tick)
      (falsy : truthy tick = false)
  | missing {fields : Dict} (loaded : lib.loads (strip line.text) = .value (.obj fields))
      (missing : get fields "price" .null = .null ∨ get fields "timestamp" .null = .null)

/-- The line is an object, and its price and its time are numbers. -/
def Reads (line : Line) (price ts : ExtNum ℚ) : Prop :=
  strip line.text ≠ [] ∧ ∃ fields, lib.loads (strip line.text) = .value (.obj fields) ∧
    toFloat lib.ofText (get fields "price" .null) = .ok price ∧
    toFloat lib.ofText (get fields "timestamp" .null) = .ok ts

/-- The line is a tick that can be used: its price is positive and finite, and its time finite. -/
def Usable (line : Line) : Prop := ∃ price ts : ℚ, Reads lib line (fin price) (fin ts) ∧ 0 < price

end Line

namespace EventWatcher

/-- The aggregator, the candles and the tracker are as they were. -/
structure Same (w w' : EventWatcher) : Prop where
  aggregator : w'.aggregator = w.aggregator
  candles : w'.candles = w.candles
  pullback : w'.pullback = w.pullback

/-- No candle is read at this time, or one that leaves the tracker unmoved. -/
def Idle (w : EventWatcher) (line : Line) (ts : ExtNum ℚ) : Prop :=
  RtDue settings w line → ∃ candle, rtCandle settings w ts = .ok candle ∧
    ∀ forming ∈ candle, w.pullback.Unmoved forming
      (contextOf settings (w.candles ++ [forming])).2

/-- The tracker after it has taken the last candle of a history. -/
def taken (t : PullbackTracker) (candles : List Candle) (last : Candle) : PullbackTracker :=
  (t.update last (contextOf settings candles).2).2

/-- What is measured of a history are numbers: the latency, the leg and the depth of the tracker
after its last candle, and what the engine tells of sweeps and of a squeeze. -/
structure Measured (t : PullbackTracker) (levels : List (ExtNum ℚ)) (candles : List Candle)
    (last : Candle) (latencyMs : Double) : Prop where
  latency : latencyMs.IsFinite
  pullback : (taken settings t candles last).Numeric
  engine : settings.engine.InRange candles (contextOf settings candles).2 levels

/-- What a reading in real time measures are numbers. -/
def RtInRange (w : EventWatcher) (line : Line) (ts : ExtNum ℚ) : Prop :=
  ∀ {forming : Candle}, RtDue settings w line → rtCandle settings w ts = .ok (some forming) →
    Measured settings w.pullback line.levels (w.candles ++ [forming]) forming (fin 0)

/-- What a tick makes the watcher measure are numbers, at a close and in real time. -/
structure TickInRange (w : EventWatcher) (line : Line) (price ts : ExtNum ℚ) : Prop where
  close {closed : Candle} {aggregator : CandleAggregator} :
    feed settings w price ts = .ok (some closed, aggregator) →
      Measured settings w.pullback line.levels
        (lastN settings.maxCandles (w.candles ++ [closed])) closed (latencyMs line closed)
  rt {aggregator : CandleAggregator} : feed settings w price ts = .ok (none, aggregator) →
    RtInRange settings { w with aggregator } line ts

/-- What a line makes the watcher measure are numbers. -/
def InRange (w : EventWatcher) (line : Line) : Prop :=
  ∀ {price ts : ExtNum ℚ}, line.Reads lib price ts → TickInRange settings w line price ts

/-- What a line may be for a watcher to survive it. -/
inductive Harmless (w : EventWatcher) (line : Line) : Prop
  | skipped (skipped : line.Skipped lib)
  | unpriced {price ts : ExtNum ℚ} (reads : line.Reads lib price ts) (unpriced : ¬ fin 0 < price)
  | usable {price ts : ℚ} (reads : line.Reads lib (fin price) (fin ts)) (positive : 0 < price)
      (near : ¬ Overflows settings (fin ts))
  | infinite {ts : ExtNum ℚ} (reads : line.Reads lib .posInf ts) (idle : Idle settings w line ts)

end EventWatcher

end Lines

/-! ## What is written is JSON -/

/-- The tracker keeps no more depths than it may. -/
structure PullbackTracker.Bounded (t : PullbackTracker) : Prop where
  alive : t.aliveDepths.length ≤ 200

theorem PullbackTracker.recordAlive_bounded {t : PullbackTracker} (bounded : t.Bounded)
    (depthRatio : ℚ) : (t.recordAlive depthRatio).Bounded := by
  unfold recordAlive
  split
  · refine ⟨?_⟩
    simp only [lastN, List.length_drop]
    omega
  · exact bounded

/-- An update keeps the tracker bounded. -/
theorem PullbackTracker.update_bounded {t : PullbackTracker} (bounded : t.Bounded) (c : Candle)
    (atr : Double) : (t.update c atr).2.Bounded := by
  have known : ({ t with atr } : PullbackTracker).Bounded := ⟨bounded.alive⟩
  have step {t : PullbackTracker} (bounded : t.Bounded) (v : View) :
      (t.advance v atr).2.Bounded := by
    have advanced := t.advance_advanced v atr
    generalize t.advance v atr = result at advanced
    cases advanced with
    | resumed => exact ⟨(recordAlive_bounded bounded _).alive⟩
    | broken | extended | armed | deepened | idle => exact ⟨bounded.alive⟩
  unfold update
  dsimp only
  split
  · exact known
  · split
    · unfold begin_
      dsimp only
      split
      · exact ⟨bounded.alive⟩
      · exact known
    · exact step known _
    · exact step known _

theorem PullbackTracker.new_bounded : PullbackTracker.default_.Bounded := ⟨by decide⟩

/-- A report of short counts, and of numbers but for what is measured last. -/
structure WatchReport.Bounded (r : WatchReport) : Prop where
  report : r.report.Bounded
  pullback : r.pullback.Bounded

/-- What a report measures are numbers. -/
structure WatchReport.Numeric (r : WatchReport) : Prop where
  latency : r.latencyMs.IsFinite
  pullback : r.pullback.Numeric
  report : r.report.Numeric

theorem mergePullback_bounded {report : EventReport} (bounded : report.Bounded)
    (transition : Option Transition) : (mergePullback report transition).Bounded := by
  cases transition with
  | none => exact bounded
  | some transition =>
      exact ⟨bounded.candles, bounded.patterns, bounded.sweep, bounded.fakeout, bounded.squeeze,
        bounded.accelReject⟩

theorem mergePullback_numeric {report : EventReport} (numeric : report.Numeric)
    (transition : Option Transition) : (mergePullback report transition).Numeric := by
  cases transition with
  | none => exact numeric
  | some transition => exact ⟨numeric.sweep, numeric.squeeze⟩

/-- A number is rounded to a number. -/
theorem round3_finite {x : Double} (finite : x.IsFinite) : (round3 x).IsFinite := by
  obtain ⟨q, rfl⟩ := ExtNum.isFinite_iff.mp finite
  trivial

section Json

variable (lib : JsonLibrary)

theorem clean_impulseAtr {t : PullbackTracker} (numeric : t.Numeric) (depth : ℕ) :
    Clean lib.repr t.impulseAtr depth := by
  unfold PullbackTracker.impulseAtr
  split
  · exact PyValue.clean_text lib.repr _ depth
  · rename_i averaged
    have leg := numeric.leg.resolve_left averaged
    exact clean_float lib.repr_number (round3_finite leg) depth

theorem clean_snapshot {t : PullbackTracker} (bounded : t.Bounded) (numeric : t.Numeric)
    (transition : Option Transition) : Clean lib.repr (t.snapshot transition) 2 := by
  have text (s : String) : Clean lib.repr (text s) 1 := PyValue.clean_text lib.repr s 1
  have few : t.aliveDepths.length < 10 ^ 20 := bounded.alive.trans_lt (by decide)
  exact PyValue.clean_record lib.repr ⟨text _, text _, clean_impulseAtr lib numeric 1,
    clean_orNone fun depth here =>
      clean_float lib.repr_number (round3_finite (numeric.depth depth here)) 1,
    clean_count few 1, clean_orNone fun _ _ => text _, trivial⟩

theorem clean_context (ctx : MarketContext) : Clean lib.repr ctx.toDict 2 := by
  have text (s : String) : Clean lib.repr (text s) 1 := PyValue.clean_text lib.repr s 1
  exact PyValue.clean_record lib.repr ⟨text _, text _, text _, clean_bool _ 1,
    clean_orNone fun _ _ => clean_num lib.repr_number _ 1, trivial⟩

theorem WatchReport.clean_toDict {r : WatchReport} (bounded : r.Bounded) (numeric : r.Numeric) :
    Clean lib.repr r.toDict 3 := by
  have num (q : ℚ) : Clean lib.repr (num q) 2 := clean_num lib.repr_number q 2
  have preview : PyValue.CleanEach lib.repr
      (r.previewPrice.map fun price => ("preview_price", Cortex.num price)).toList 2 := by
    cases r.previewPrice with
    | none => trivial
    | some price => exact ⟨num _, trivial⟩
  refine PyValue.clean_record lib.repr (PyValue.cleanEach_append lib.repr (PyValue.cleanEach_append
    lib.repr (PyValue.cleanEach_append lib.repr ?_ ?_) preview) ?_)
  · exact EventReport.clean_toDict lib.repr_number bounded.report numeric.report
  · exact ⟨clean_snapshot lib bounded.pullback numeric.pullback r.transition,
      PyValue.clean_text lib.repr _ 2, num _, clean_float lib.repr_number numeric.latency 2,
      trivial⟩
  · exact ⟨clean_context lib r.context, trivial⟩

theorem clean_heartbeat (settings : WatcherSettings) {w : EventWatcher}
    (few : w.candles.length < 10 ^ 20) (line : Line) :
    Clean lib.repr (w.heartbeat settings line) 1 := by
  have text (s : String) : Clean lib.repr (text s) 0 := PyValue.clean_text lib.repr s 0
  have num (q : ℚ) : Clean lib.repr (num q) 0 := clean_num lib.repr_number q 0
  exact PyValue.clean_record lib.repr ⟨text _, text _, clean_count few 0, num _, num _, trivial⟩

/-- A text that is JSON. -/
def IsJson (text : List Char) : Prop := (JsonTree.read text).isSome

/-- What is clean is written, as JSON. -/
theorem emit_clean {payload : Value} {depth : ℕ} (clean : Clean lib.repr payload depth)
    (shallow : depth ≤ 3) (s : WatchRun) :
    ∃ written, s.emit lib payload = .ok { s with out := s.out ++ [written] } ∧ IsJson written := by
  obtain ⟨written, dumped, json⟩ := PyValue.dumps_read lib.repr
    (PyValue.clean_sortKeys lib.repr clean) (shallow.trans (by decide))
  exact ⟨written, by rw [WatchRun.emit, dumped]; rfl, json⟩

end Json

/-! ## One tick -/

section Tick

variable {lib : JsonLibrary} {settings : WatcherSettings}

theorem CandleAggregator.feed_timeframe {agg fed : CandleAggregator} {price ts : ExtNum ℚ}
    {closed : Option Candle} (taken : agg.feed price ts = .ok (closed, fed)) :
    fed.timeframe = agg.timeframe := by
  unfold feed at taken
  split at taken
  · split at taken
    · cases taken
      rfl
    · split at taken
      · cases taken
      · split at taken
        · cases taken
          rfl
        · split at taken <;> cases taken <;> rfl
  · cases taken
    rfl

namespace EventWatcher

/-- The clock is that of the settings, and the history no longer than a deque. -/
structure Sound (settings : WatcherSettings) (w : EventWatcher) : Prop where
  timeframe : w.aggregator.timeframe = settings.timeframe
  few : w.candles.length ≤ settings.maxCandles
  pullback : w.pullback.Bounded

/-- A sound watcher, and a bounded report if there is one: of numbers, if they are in range. -/
structure Fine (settings : WatcherSettings) (inRange : Prop)
    (read : Option WatchReport × EventWatcher) : Prop where
  watcher : Sound settings read.2
  report : ∀ report ∈ read.1, report.Bounded ∧ (inRange → report.Numeric)

theorem Fine.mono {weak strong : Prop} {read : Option WatchReport × EventWatcher}
    (fine : Fine settings weak read) (implies : strong → weak) : Fine settings strong read :=
  ⟨fine.watcher, fun report here =>
    ⟨(fine.report report here).1, fun holds => (fine.report report here).2 (implies holds)⟩⟩

theorem Fine.silent {inRange : Prop} {w : EventWatcher} (sound : Sound settings w) :
    Fine settings inRange (none, w) :=
  ⟨sound, fun _ none_ => by cases none_⟩

theorem Fine.reports {inRange : Prop} {report : WatchReport} {w : EventWatcher}
    (sound : Sound settings w) (bounded : report.Bounded) (numeric : inRange → report.Numeric) :
    Fine settings inRange (some report, w) :=
  ⟨sound, fun _ here => Option.some.inj here ▸ ⟨bounded, numeric⟩⟩

variable (lib settings) in
theorem observe_ok {w : EventWatcher} (bounded : w.pullback.Bounded) {candles : List Candle}
    (few : candles.length < 10 ^ 20) (line : Line) (last : Candle) (phase : ReportPhase)
    (latencyMs : Double) (previewPrice : Option ℚ) :
    ∃ report, observe lib settings w line candles last phase latencyMs previewPrice =
      .ok (report, { w with pullback := taken settings w.pullback candles last }) ∧
        report.Bounded ∧
          (Measured settings w.pullback line.levels candles last latencyMs → report.Numeric) := by
  obtain ⟨report, analyzed, small, numeric⟩ := EventEngine.analyze_seeds lib.ofText settings.seeded
    few (contextOf settings candles).2 line.levels
  refine ⟨⟨mergePullback report _, taken settings w.pullback candles last, _, phase, line.firedAt,
    latencyMs, previewPrice, _⟩, by rw [observe]; dsimp only; rw [analyzed]; rfl, ⟨?_, ?_⟩, ?_⟩
  · exact mergePullback_bounded small _
  · exact PullbackTracker.update_bounded bounded last _
  · intro measured
    exact ⟨measured.latency, measured.pullback, mergePullback_numeric (numeric measured.engine) _⟩

theorem Sound.short {w : EventWatcher} (sound : Sound settings w) : w.candles.length < 10 ^ 19 :=
  sound.few.trans_lt (settings.maxCandles_lt.trans (by decide))

theorem analyzeClosed_ok {w : EventWatcher} (sound : Sound settings w) {candles : List Candle}
    {closed : Candle} (last : w.candles = candles ++ [closed]) (line : Line) :
    ∃ report w', analyzeClosed lib settings w line = .ok (report, w') ∧ Sound settings w' ∧
      report.Bounded ∧
        (Measured settings w.pullback line.levels w.candles closed (latencyMs line closed) →
          report.Numeric) := by
  have few : w.candles.length < 10 ^ 20 := sound.short.trans (by decide)
  obtain ⟨report, observed, bounded, numeric⟩ := observe_ok lib settings sound.pullback few line
    closed .close (latencyMs line closed) none
  have newest : w.candles.getLast? = some closed := by rw [last, List.getLast?_concat]
  refine ⟨report, { w with pullback := taken settings w.pullback w.candles closed }, ?_,
    ⟨sound.timeframe, sound.few, PullbackTracker.update_bounded sound.pullback closed _⟩, bounded,
    numeric⟩
  rw [analyzeClosed, newest]
  exact observed

variable (lib) in
/-- The reading of a tick that closed no candle. -/
theorem strike_ok {w : EventWatcher} (sound : Sound settings w) (line : Line) {ts : ExtNum ℚ}
    {candle : Option Candle} (found : rtCandle settings w ts = .ok candle) :
    ∃ read, strike lib settings w line ts = .ok read ∧
      Fine settings (RtInRange settings w line ts) read ∧
      read.2.aggregator = w.aggregator ∧ read.2.candles = w.candles ∧
      read.2.pullback = if RtDue settings w line then
        (candle.map fun forming => taken settings w.pullback (w.candles ++ [forming]) forming).getD
          w.pullback else w.pullback := by
  unfold strike
  by_cases due : RtDue settings w line
  · rw [if_pos due, if_pos due]
    have found' : rtCandle settings { w with lastRtAt := line.tickNow } ts = .ok candle := found
    unfold analyzeRt
    rw [found']
    cases candle with
    | none =>
        exact ⟨_, rfl, .silent ⟨sound.timeframe, sound.few, sound.pullback⟩, rfl, rfl, rfl⟩
    | some forming =>
        have few : (w.candles ++ [forming]).length < 10 ^ 20 := by
          have := sound.short
          rw [List.length_append, List.length_singleton]
          omega
        let read := { w with
          lastRtAt := line.tickNow
          pullback := taken settings w.pullback (w.candles ++ [forming]) forming }
        obtain ⟨report, observed, bounded, numeric⟩ := observe_ok lib settings
          (w := { w with lastRtAt := line.tickNow }) sound.pullback few line forming .rt (fin 0)
          (some forming.close)
        have kept := PullbackTracker.update_bounded sound.pullback forming
          (contextOf settings (w.candles ++ [forming])).2
        dsimp only
        rw [observed]
        by_cases fresh : some report.signature ≠ w.lastRtSig
        · refine ⟨(some report, { read with lastRtSig := some report.signature }), ?_,
            .reports ⟨sound.timeframe, sound.few, kept⟩ bounded
              fun inRange => numeric (inRange due found), rfl, rfl, rfl⟩
          show (if some report.signature ≠ w.lastRtSig then _ else _) = _
          rw [if_pos fresh]
          rfl
        · refine ⟨(none, read), ?_, .silent ⟨sound.timeframe, sound.few, kept⟩, rfl, rfl, rfl⟩
          show (if some report.signature ≠ w.lastRtSig then _ else _) = _
          rw [if_neg fresh]
          rfl
  · rw [if_neg due, if_neg due]
    exact ⟨_, rfl, .silent sound, rfl, rfl, rfl⟩

/-- A reading that cannot be made raises. -/
theorem strike_error {w : EventWatcher} {line : Line} {ts : ExtNum ℚ} {e : PyError}
    (due : RtDue settings w line) (raised : rtCandle settings w ts = .error e) :
    strike lib settings w line ts = .error (.error e) := by
  have raised' : rtCandle settings { w with lastRtAt := line.tickNow } ts = .error e := raised
  rw [strike, if_pos due, analyzeRt, raised']
  rfl

theorem strike_fine {w : EventWatcher} (sound : Sound settings w) {line : Line} {ts : ExtNum ℚ}
    {read : Option WatchReport × EventWatcher}
    (done : strike lib settings w line ts = .ok read) :
    Fine settings (RtInRange settings w line ts) read := by
  cases found : rtCandle settings w ts with
  | ok candle =>
      obtain ⟨read', done', fine, -⟩ := strike_ok lib sound line found
      rw [done] at done'
      exact Except.ok.inj done' ▸ fine
  | error e =>
      by_cases due : RtDue settings w line
      · rw [strike_error due found] at done
        cases done
      · rw [strike, if_neg due] at done
        obtain rfl := Except.ok.inj done
        exact .silent sound

variable (lib) in
/-- **A reading changes nothing**, and can be made, exactly where the watcher is idle. -/
theorem strike_iff {w : EventWatcher} (sound : Sound settings w) {line : Line} {ts : ExtNum ℚ} :
    (∃ read, strike lib settings w line ts = .ok read ∧ Same w read.2) ↔
      Idle settings w line ts := by
  constructor
  · rintro ⟨read, done, same⟩ due
    cases found : rtCandle settings w ts with
    | error e =>
        rw [strike_error due found] at done
        cases done
    | ok candle =>
        refine ⟨candle, rfl, fun forming here => ?_⟩
        obtain ⟨read', done', -, -, -, moved⟩ := strike_ok lib sound line found
        rw [done] at done'
        obtain rfl := Except.ok.inj done'
        obtain rfl : candle = some forming := here
        rw [if_pos due, same.pullback] at moved
        exact (PullbackTracker.update_unmoved_iff _ _ _).mp moved.symm
  · intro idle
    by_cases due : RtDue settings w line
    · obtain ⟨candle, found, still⟩ := idle due
      obtain ⟨read, done, -, aggregator, candles, moved⟩ :=
        strike_ok lib sound line found
      refine ⟨read, done, aggregator, candles, moved.trans ?_⟩
      rw [if_pos due]
      cases candle with
      | none => rfl
      | some forming => exact (PullbackTracker.update_unmoved_iff _ _ _).mpr (still forming rfl)
    · refine ⟨(none, w), ?_, rfl, rfl, rfl⟩
      rw [strike, if_neg due]
      rfl

theorem takeTick_unpriced {price : ExtNum ℚ} (unpriced : ¬ fin 0 < price) (w : EventWatcher)
    (line : Line) (ts : ExtNum ℚ) : takeTick lib settings w line price ts = .ok (none, w) :=
  if_pos unpriced

/-- A price that is an infinity is passed by, and what is being formed is read again. -/
theorem takeTick_infinite (w : EventWatcher) (line : Line) (ts : ExtNum ℚ) :
    takeTick lib settings w line .posInf ts = strike lib settings w line ts := by
  have passed : feed settings w .posInf ts = .ok (none, w.aggregator) := if_neg fun far => far.1
  rw [takeTick, if_neg (not_not.mpr (ExtNum.fin_lt_posInf 0)), passed]

theorem feed_near {price ts : ExtNum ℚ} (near : ¬ (price.IsFinite ∧ Overflows settings ts))
    (w : EventWatcher) : feed settings w price ts = w.aggregator.feed price ts := if_neg near

theorem feed_timeframe {w : EventWatcher} {price ts : ExtNum ℚ} {closed : Option Candle}
    {fed : CandleAggregator} (taken : feed settings w price ts = .ok (closed, fed)) :
    fed.timeframe = w.aggregator.timeframe := by
  unfold feed at taken
  split at taken
  · cases taken
  · exact CandleAggregator.feed_timeframe taken

/-- A time that is too large for the timeframe raises. -/
theorem takeTick_far {price : ℚ} (positive : 0 < price) {ts : ExtNum ℚ}
    (far : Overflows settings ts) (w : EventWatcher) (line : Line) :
    takeTick lib settings w line (fin price) ts = .error (.error .overflowError) := by
  have raised : feed settings w (fin price) ts = .error .overflowError := if_pos ⟨trivial, far⟩
  rw [takeTick, if_neg (not_not.mpr (ExtNum.fin_lt_fin.mpr positive)), raised]

variable (lib) in
/-- A time that is no number raises. -/
theorem takeTick_timeless {w : EventWatcher} (sound : Sound settings w) {price : ℚ}
    (positive : 0 < price) {ts : ExtNum ℚ} (timeless : ¬ ts.IsFinite) (line : Line) :
    ∃ e, takeTick lib settings w line (fin price) ts = .error e := by
  have moves : w.aggregator.timeframe ≠ 0 := by
    rw [sound.timeframe]
    exact settings.timeframe_pos.ne'
  have raised : ∃ e, w.aggregator.feed (fin price) ts = .error e := by
    cases ts with
    | fin ts => exact absurd trivial timeless
    | nan | posInf | negInf =>
        exact ⟨_, by simp only [CandleAggregator.feed, if_neg (not_le.mpr positive),
          CandleAggregator.bucket, if_neg moves]; rfl⟩
  obtain ⟨e, raised⟩ := raised
  refine ⟨.error e, ?_⟩
  rw [takeTick, if_neg (not_not.mpr (ExtNum.fin_lt_fin.mpr positive)),
    feed_near (fun far => timeless far.2.1) w, raised]

variable (lib) in
/-- The watcher after a candle closed. -/
theorem close_ok {w : EventWatcher} (sound : Sound settings w) {aggregator : CandleAggregator}
    (frame : aggregator.timeframe = settings.timeframe) (closed : Candle) (line : Line) :
    ∃ report w', analyzeClosed lib settings
        { w with aggregator, candles := lastN settings.maxCandles (w.candles ++ [closed]) } line =
          .ok (report, w') ∧ Sound settings w' ∧ report.Bounded ∧
      (Measured settings w.pullback line.levels
        (lastN settings.maxCandles (w.candles ++ [closed])) closed (latencyMs line closed) →
          report.Numeric) := by
  have some_ := settings.maxCandles_pos
  have few : (lastN settings.maxCandles (w.candles ++ [closed])).length ≤ settings.maxCandles := by
    rw [lastN, List.length_drop]
    omega
  have last : lastN settings.maxCandles (w.candles ++ [closed]) =
      w.candles.drop (w.candles.length + 1 - settings.maxCandles) ++ [closed] := by
    rw [lastN, List.length_append, List.length_singleton, List.drop_append_of_le_length (by omega)]
  have sound' : Sound settings
      { w with aggregator, candles := lastN settings.maxCandles (w.candles ++ [closed]) } :=
    ⟨frame, few, sound.pullback⟩
  exact analyzeClosed_ok sound' last line

theorem feed_usable {w : EventWatcher} (sound : Sound settings w) {price ts : ℚ}
    (positive : 0 < price) (near : ¬ Overflows settings (fin ts)) :
    ∃ closed aggregator, feed settings w (fin price) (fin ts) = .ok (closed, aggregator) := by
  have pos : 0 < w.aggregator.timeframe := by
    rw [sound.timeframe]
    exact settings.timeframe_pos
  have bucket := CandleAggregator.bucket_fin pos ts
  rw [feed_near (fun far => near far.2) w]
  unfold CandleAggregator.feed
  dsimp only
  rw [if_neg (not_le.mpr positive), bucket]
  dsimp only
  split
  · exact ⟨_, _, rfl⟩
  · split <;> exact ⟨_, _, rfl⟩

theorem rtCandle_near {w : EventWatcher} (sound : Sound settings w) {ts : ℚ}
    (near : ¬ Overflows settings (fin ts)) :
    ∃ candle, rtCandle settings w (fin ts) = .ok candle := by
  have pos : 0 < w.aggregator.timeframe := by
    rw [sound.timeframe]
    exact settings.timeframe_pos
  by_cases early : w.candles = [] ∨ w.candles.length < settings.params.atrPeriod + 1
  · exact ⟨none, if_pos early⟩
  · rw [rtCandle, if_neg early, if_neg near]
    unfold CandleAggregator.forming
    rw [CandleAggregator.bucket_fin pos ts]
    split
    · rename_i impossible
      cases impossible
    · exact ⟨_, rfl⟩
    · exact ⟨none, rfl⟩

variable (lib) in
/-- A tick that can be used is used. -/
theorem takeTick_usable {w : EventWatcher} (sound : Sound settings w) {price ts : ℚ}
    (positive : 0 < price) (near : ¬ Overflows settings (fin ts)) (line : Line) :
    ∃ read, takeTick lib settings w line (fin price) (fin ts) = .ok read := by
  obtain ⟨closed, aggregator, taken⟩ := feed_usable sound positive near
  have frame : aggregator.timeframe = settings.timeframe :=
    (feed_timeframe taken).trans sound.timeframe
  rw [takeTick, if_neg (not_not.mpr (ExtNum.fin_lt_fin.mpr positive)), taken]
  cases closed with
  | some closed =>
      obtain ⟨report, w', analyzed, -⟩ := close_ok lib sound frame closed line
      refine ⟨(some report, { w' with lastRtSig := none }), ?_⟩
      dsimp only
      rw [analyzed]
      rfl
  | none =>
      have sound' : Sound settings { w with aggregator } := ⟨frame, sound.few, sound.pullback⟩
      obtain ⟨candle, found⟩ := rtCandle_near sound' near
      obtain ⟨read, done, -⟩ := strike_ok lib sound' line found
      exact ⟨read, done⟩

/-- Whatever the tick, the watcher stays sound and what it reports is bounded. -/
theorem takeTick_fine {w : EventWatcher} (sound : Sound settings w) {price ts : ExtNum ℚ}
    {line : Line} {read : Option WatchReport × EventWatcher}
    (done : takeTick lib settings w line price ts = .ok read) :
    Fine settings (TickInRange settings w line price ts) read := by
  unfold takeTick at done
  split at done
  · obtain rfl := Except.ok.inj done
    exact .silent sound
  · split at done
    · cases done
    · rename_i closed aggregator taken
      have frame := (feed_timeframe taken).trans sound.timeframe
      obtain ⟨report, w', analyzed, sound', bounded, numeric⟩ :=
        close_ok lib sound frame closed line
      dsimp only at done
      rw [analyzed] at done
      obtain rfl := Except.ok.inj done
      exact .reports ⟨sound'.timeframe, sound'.few, sound'.pullback⟩ bounded
        fun inRange => numeric (inRange.close taken)
    · rename_i aggregator taken
      have frame := (feed_timeframe taken).trans sound.timeframe
      have sound' : Sound settings { w with aggregator } := ⟨frame, sound.few, sound.pullback⟩
      exact (strike_fine sound' done).mono fun inRange => inRange.rt taken

end EventWatcher

end Tick

/-! ## One line -/

section Lines

open EventWatcher

variable {lib : JsonLibrary} {settings : WatcherSettings}

theorem Line.Reads.unique {line : Line} {price price' ts ts' : ExtNum ℚ}
    (reads : line.Reads lib price ts) (reads' : line.Reads lib price' ts') :
    price = price' ∧ ts = ts' := by
  obtain ⟨-, fields, loaded, priced, timed⟩ := reads
  obtain ⟨-, fields', loaded', priced', timed'⟩ := reads'
  rw [loaded] at loaded'
  injection loaded' with same
  injection same with same
  subst same
  rw [priced] at priced'
  rw [timed] at timed'
  exact ⟨Except.ok.inj priced', Except.ok.inj timed'⟩

/-- A null is no number, and neither is what has no price or no time. -/
theorem watchTick_obj {fields : Dict} (w : EventWatcher) (line : Line)
    (priced : get fields "price" .null ≠ .null) (timed : get fields "timestamp" .null ≠ .null) :
    watchTick lib settings w line (.obj fields) = (do
      let price ← (toFloat lib.ofText (get fields "price" .null)).mapError .error
      let ts ← (toFloat lib.ofText (get fields "timestamp" .null)).mapError .error
      takeTick lib settings w line price ts) := by
  unfold watchTick
  dsimp only
  split
  · rename_i null
    exact absurd null priced
  · rename_i null _
    exact absurd null timed
  · rfl

theorem watch_skipped {line : Line} (skipped : line.Skipped lib) (w : EventWatcher) :
    WatchRun.watch lib settings w line = .ok (none, w) := by
  unfold WatchRun.watch
  by_cases blank : strip line.text = []
  · rw [if_pos blank]
  rw [if_neg blank]
  cases skipped with
  | blank none_ => exact absurd none_ blank
  | malformed text => rw [text]
  | falsy loaded falsy =>
      rw [loaded]
      dsimp only
      rw [falsy]
      rfl
  | missing loaded missing =>
      rw [loaded]
      dsimp only
      split
      · unfold watchTick
        dsimp only
        split
        · rfl
        · rfl
        · rename_i priced timed
          exact (missing.elim priced timed).elim
      · rfl

theorem toFloat_null {ofText : String → Option (ExtNum ℚ)} {value : Json} {x : ExtNum ℚ}
    (number : toFloat ofText value = .ok x) : value ≠ .null := by
  rintro rfl
  cases number

theorem watch_reads {line : Line} {price ts : ExtNum ℚ} (reads : line.Reads lib price ts)
    (w : EventWatcher) :
    WatchRun.watch lib settings w line = takeTick lib settings w line price ts := by
  obtain ⟨ink, fields, loaded, priced, timed⟩ := reads
  have full : truthy (.obj fields) = true := by
    cases fields with
    | nil => exact absurd rfl (toFloat_null priced)
    | cons field fields => rfl
  rw [WatchRun.watch, if_neg ink, loaded]
  dsimp only
  rw [if_pos full, watchTick_obj w line (toFloat_null priced) (toFloat_null timed), priced, timed]
  rfl

variable (settings) in
/-- Any other line raises. -/
theorem watch_other {line : Line} (ink : ¬ line.Skipped lib)
    (other : ¬ ∃ price ts, line.Reads lib price ts) (w : EventWatcher) :
    ∃ e, WatchRun.watch lib settings w line = .error e := by
  have full : strip line.text ≠ [] := fun blank => ink (.blank blank)
  unfold WatchRun.watch
  rw [if_neg full]
  cases loaded : lib.loads (strip line.text) with
  | malformed => exact absurd (.malformed loaded) ink
  | raises e => exact ⟨e, rfl⟩
  | value tick =>
      have true_ : truthy tick = true := by
        by_contra false_
        exact ink (.falsy loaded (Bool.eq_false_of_not_eq_true false_))
      dsimp only
      rw [if_pos true_]
      cases tick with
      | obj fields =>
          rw [watchTick_obj w line (fun null => ink (.missing loaded (.inl null)))
            fun null => ink (.missing loaded (.inr null))]
          cases priced : toFloat lib.ofText (get fields "price" .null) with
          | error e => exact ⟨_, rfl⟩
          | ok price =>
              cases timed : toFloat lib.ofText (get fields "timestamp" .null) with
              | error e => exact ⟨_, rfl⟩
              | ok ts => exact absurd ⟨price, ts, full, fields, loaded, priced, timed⟩ other
      | null | bool | int | float | str | arr => exact ⟨_, rfl⟩

/-- Whatever the line, the watcher stays sound and what it reports is bounded. -/
theorem watch_fine {w : EventWatcher} (sound : Sound settings w) {line : Line}
    {read : Option WatchReport × EventWatcher}
    (done : WatchRun.watch lib settings w line = .ok read) :
    Fine settings (InRange lib settings w line) read := by
  by_cases skipped : line.Skipped lib
  · rw [watch_skipped skipped] at done
    obtain rfl := Except.ok.inj done
    exact .silent sound
  by_cases reads : ∃ price ts, line.Reads lib price ts
  · obtain ⟨price, ts, reads⟩ := reads
    rw [watch_reads reads] at done
    exact (takeTick_fine sound done).mono fun inRange => inRange reads
  · obtain ⟨e, raised⟩ := watch_other settings skipped reads w
    rw [raised] at done
    cases done

/-- **A line survives, exactly when** it is harmless to the watcher: it raises nothing, and
leaves the aggregator, the candles and the tracker alone unless it can be used. -/
theorem watch_iff {w : EventWatcher} (sound : Sound settings w) {line : Line} :
    (∃ read, WatchRun.watch lib settings w line = .ok read ∧
      (¬ line.Usable lib → Same w read.2)) ↔ Harmless lib settings w line := by
  constructor
  · rintro ⟨read, done, same⟩
    by_cases skipped : line.Skipped lib
    · exact .skipped skipped
    by_cases usable : line.Usable lib
    · obtain ⟨price, ts, reads, positive⟩ := usable
      refine .usable reads positive fun far => ?_
      rw [watch_reads reads, takeTick_far positive far] at done
      cases done
    by_cases reads : ∃ price ts, line.Reads lib price ts
    · obtain ⟨price, ts, reads⟩ := reads
      rw [watch_reads reads] at done
      by_cases positive : fin 0 < price
      · cases price with
        | fin price =>
            by_cases timed : ts.IsFinite
            · obtain ⟨ts, rfl⟩ := ExtNum.isFinite_iff.mp timed
              exact absurd ⟨price, ts, reads, positive⟩ usable
            · obtain ⟨e, raised⟩ := takeTick_timeless lib sound positive timed line
              rw [raised] at done
              cases done
        | posInf =>
            rw [takeTick_infinite] at done
            exact .infinite reads ((strike_iff lib sound).mp ⟨read, done, same usable⟩)
        | negInf => exact positive.elim
        | nan => exact absurd positive (ExtNum.not_lt_nan _)
      · exact .unpriced reads positive
    · obtain ⟨e, raised⟩ := watch_other settings skipped reads w
      rw [raised] at done
      cases done
  · intro harmless
    cases harmless with
    | skipped skipped => exact ⟨_, watch_skipped skipped w, fun _ => ⟨rfl, rfl, rfl⟩⟩
    | unpriced reads unpriced =>
        exact ⟨_, (watch_reads reads w).trans (takeTick_unpriced unpriced w line _),
          fun _ => ⟨rfl, rfl, rfl⟩⟩
    | usable reads positive near =>
        obtain ⟨read, done⟩ := takeTick_usable lib sound positive near line
        exact ⟨read, (watch_reads reads w).trans done,
          fun useless => absurd ⟨_, _, reads, positive⟩ useless⟩
    | infinite reads idle =>
        obtain ⟨read, done, same⟩ := (strike_iff lib sound).mpr idle
        exact ⟨read, ((watch_reads reads w).trans (takeTick_infinite w line _)).trans done,
          fun _ => same⟩

end Lines

/-! ## A run -/

section Run

open EventWatcher WatchRun

variable {lib : JsonLibrary} {settings : WatcherSettings} {heartbeatS : ExtNum ℚ}

/-- A sound watcher, and nothing but JSON written. -/
structure Good (settings : WatcherSettings) (s : WatchRun) : Prop where
  watcher : Sound settings s.watcher
  out : ∀ text ∈ s.out, IsJson text

variable (settings) in
theorem start_good (lastPulse : ℚ) : Good settings (start settings lastPulse) :=
  ⟨⟨rfl, Nat.zero_le _, PullbackTracker.new_bounded⟩, fun _ none_ => absurd none_ List.not_mem_nil⟩

theorem Good.emit {s : WatchRun} (good : Good settings s) {payload : Value} {depth : ℕ}
    (clean : Clean lib.repr payload depth) (shallow : depth ≤ 3) :
    ∃ s', s.emit lib payload = .ok s' ∧ Good settings s' ∧ s'.watcher = s.watcher := by
  obtain ⟨written, emitted, json⟩ := emit_clean lib clean shallow s
  refine ⟨_, emitted, ⟨good.watcher, ?_⟩, rfl⟩
  exact List.forall_mem_append.mpr ⟨good.out, List.forall_mem_singleton.mpr json⟩

variable (lib heartbeatS) in
/-- What is written for a line is JSON. -/
theorem respond_ok {s : WatchRun} (good : Good settings s) (line : Line)
    {report : Option WatchReport} (reported : ∀ r ∈ report, r.Bounded ∧ r.Numeric) :
    ∃ s', respond lib settings heartbeatS s line report = .ok s' ∧ Good settings s' ∧
      s'.watcher = s.watcher := by
  have good' : Good settings { s with lastPulse := line.now } := ⟨good.watcher, good.out⟩
  unfold respond
  cases report with
  | some report =>
      obtain ⟨bounded, numeric⟩ := reported report rfl
      exact good'.emit (WatchReport.clean_toDict lib bounded numeric) le_rfl
  | none =>
      dsimp only
      by_cases due : heartbeatS ≤ fin (line.now - s.lastPulse)
      · have few : s.watcher.candles.length < 10 ^ 20 := good.watcher.short.trans (by decide)
        rw [if_pos due]
        exact good'.emit (clean_heartbeat lib settings few line) (by decide)
      · rw [if_neg due]
        exact ⟨s, rfl, good, rfl⟩

variable (heartbeatS) in
/-- **What is written is JSON**: of a line that raises nothing, and whose numbers are in range,
the watcher is left after it, and JSON. -/
theorem consume_ok {s : WatchRun} (good : Good settings s) {line : Line}
    {read : Option WatchReport × EventWatcher}
    (watched : watch lib settings s.watcher line = .ok read)
    (inRange : InRange lib settings s.watcher line) :
    ∃ s', consume lib settings heartbeatS s line = .ok s' ∧ Good settings s' ∧
      s'.watcher = read.2 := by
  have fine := watch_fine good.watcher watched
  have good' : Good settings { s with watcher := read.2 } := ⟨fine.watcher, good.out⟩
  obtain ⟨s', responded, after⟩ := respond_ok lib heartbeatS good' line fun report here =>
    ⟨(fine.report report here).1, (fine.report report here).2 inRange⟩
  refine ⟨s', ?_, after⟩
  rw [consume, watched]
  exact responded

theorem consume_error {s : WatchRun} {line : Line} {e : Raised}
    (raised : watch lib settings s.watcher line = .error e) :
    consume lib settings heartbeatS s line = .error e := by
  rw [consume, raised]
  rfl

theorem emit_watcher {s s' : WatchRun} {payload : Value}
    (emitted : s.emit lib payload = .ok s') : s'.watcher = s.watcher := by
  unfold WatchRun.emit at emitted
  cases dumped : PyValue.dumps lib.repr payload.sortKeys with
  | error e =>
      rw [dumped] at emitted
      cases emitted
  | ok line =>
      rw [dumped] at emitted
      exact Except.ok.inj emitted ▸ rfl

/-- Whatever is written, the watcher is the one that the line left. -/
theorem consume_watcher {s s' : WatchRun} {line : Line}
    (consumed : consume lib settings heartbeatS s line = .ok s') :
    ∃ read, watch lib settings s.watcher line = .ok read ∧ s'.watcher = read.2 := by
  cases watched : watch lib settings s.watcher line with
  | error e =>
      rw [consume_error watched] at consumed
      cases consumed
  | ok read =>
      rw [consume, watched] at consumed
      refine ⟨read, rfl, ?_⟩
      have responded : respond lib settings heartbeatS { s with watcher := read.2 } line read.1 =
        .ok s' := consumed
      unfold respond at responded
      split at responded
      · exact emit_watcher responded
      · split at responded
        · exact emit_watcher responded
        · exact Except.ok.inj responded ▸ rfl

theorem consume_sound {s s' : WatchRun} (sound : Sound settings s.watcher) {line : Line}
    (consumed : consume lib settings heartbeatS s line = .ok s') : Sound settings s'.watcher := by
  obtain ⟨read, watched, after⟩ := consume_watcher consumed
  exact after ▸ (watch_fine sound watched).watcher

/-- A line that is consumed, and leaves what it should alone, is harmless. -/
theorem harmless_of_consume {s s' : WatchRun} (sound : Sound settings s.watcher) {line : Line}
    (consumed : consume lib settings heartbeatS s line = .ok s')
    (same : ¬ line.Usable lib → Same s.watcher s'.watcher) :
    Harmless lib settings s.watcher line := by
  obtain ⟨read, watched, after⟩ := consume_watcher consumed
  exact (watch_iff sound).mp ⟨read, watched, fun useless => after ▸ same useless⟩

/-- A harmless line leaves what it should alone. -/
theorem same_of_harmless {s s' : WatchRun} (sound : Sound settings s.watcher) {line : Line}
    (harmless : Harmless lib settings s.watcher line)
    (consumed : consume lib settings heartbeatS s line = .ok s') (useless : ¬ line.Usable lib) :
    Same s.watcher s'.watcher := by
  obtain ⟨read, watched, same⟩ := (watch_iff sound).mpr harmless
  obtain ⟨read', watched', after⟩ := consume_watcher consumed
  rw [watched] at watched'
  obtain rfl := Except.ok.inj watched'
  exact after ▸ same useless

theorem run_append (s : WatchRun) (pre post : List Line) :
    run lib settings heartbeatS s (pre ++ post) =
      (run lib settings heartbeatS s pre).bind fun s' => run lib settings heartbeatS s' post := by
  induction pre generalizing s with
  | nil => rfl
  | cons line pre ih =>
      rw [List.cons_append, run, run]
      cases consume lib settings heartbeatS s line with
      | error e => rfl
      | ok s' => exact ih s'

theorem run_sound {s s' : WatchRun} (sound : Sound settings s.watcher) {lines : List Line}
    (done : run lib settings heartbeatS s lines = .ok s') : Sound settings s'.watcher := by
  induction lines generalizing s with
  | nil => exact Except.ok.inj done ▸ sound
  | cons line lines ih =>
      rw [run] at done
      cases consumed : consume lib settings heartbeatS s line with
      | error e =>
          rw [consumed] at done
          cases done
      | ok s'' =>
          rw [consumed] at done
          exact ih (consume_sound sound consumed) done

/-- The lines are consumed without raising, those that are no ticks leave the aggregator, the
candles and the tracker alone, and every line that is written is JSON. -/
structure Survives (lib : JsonLibrary) (settings : WatcherSettings) (heartbeatS : ExtNum ℚ)
    (s : WatchRun) (lines : List Line) : Prop where
  consumed : ∃ final, run lib settings heartbeatS s lines = .ok final
  untouched : ∀ pre line post s' s'', lines = pre ++ line :: post →
    run lib settings heartbeatS s pre = .ok s' → consume lib settings heartbeatS s' line = .ok s'' →
      ¬ line.Usable lib → Same s'.watcher s''.watcher
  json : ∀ final, run lib settings heartbeatS s lines = .ok final → ∀ text ∈ final.out, IsJson text

/-- Each line is as it may be to the watcher that the lines before it lead to. -/
def Along (lib : JsonLibrary) (settings : WatcherSettings) (heartbeatS : ExtNum ℚ)
    (may : EventWatcher → Line → Prop) (s : WatchRun) (lines : List Line) : Prop :=
  ∀ pre line post s', lines = pre ++ line :: post →
    run lib settings heartbeatS s pre = .ok s' → may s'.watcher line

theorem Along.head {may : EventWatcher → Line → Prop} {s : WatchRun} {line : Line}
    {lines : List Line} (along : Along lib settings heartbeatS may s (line :: lines)) :
    may s.watcher line := along [] line lines s rfl rfl

theorem Along.tail {may : EventWatcher → Line → Prop} {s s' : WatchRun} {line : Line}
    {lines : List Line} (along : Along lib settings heartbeatS may s (line :: lines))
    (consumed : consume lib settings heartbeatS s line = .ok s') :
    Along lib settings heartbeatS may s' lines := by
  intro pre next post s'' split before
  refine along (line :: pre) next post s'' (by rw [split]; rfl) ?_
  rw [run, consumed]
  exact before

theorem Along.mono {may may' : EventWatcher → Line → Prop} {s : WatchRun} {lines : List Line}
    (along : Along lib settings heartbeatS may s lines)
    (implies : ∀ w line, may w line → may' w line) :
    Along lib settings heartbeatS may' s lines :=
  fun pre line post s' split before => implies _ _ (along pre line post s' split before)

/-- Harmless lines, whose numbers are in range, are consumed, and what is written is JSON. -/
theorem run_good {s : WatchRun} (good : Good settings s) {lines : List Line}
    (along : Along lib settings heartbeatS
      (fun w line => Harmless lib settings w line ∧ InRange lib settings w line) s lines) :
    ∃ final, run lib settings heartbeatS s lines = .ok final ∧ Good settings final := by
  induction lines generalizing s with
  | nil => exact ⟨s, rfl, good⟩
  | cons line lines ih =>
      obtain ⟨harmless, inRange⟩ := along.head
      obtain ⟨read, watched, -⟩ := (watch_iff good.watcher).mpr harmless
      obtain ⟨s', consumed, good', -⟩ := consume_ok heartbeatS good watched inRange
      rw [run, consumed]
      exact ih good' (along.tail consumed)

/-- Harmless lines leave what they should alone. -/
theorem run_same {s : WatchRun} (sound : Sound settings s.watcher) {lines : List Line}
    (along : Along lib settings heartbeatS (Harmless lib settings) s lines)
    {pre : List Line} {line : Line} {post : List Line} {s' s'' : WatchRun}
    (split : lines = pre ++ line :: post) (before : run lib settings heartbeatS s pre = .ok s')
    (consumed : consume lib settings heartbeatS s' line = .ok s'') (useless : ¬ line.Usable lib) :
    Same s'.watcher s''.watcher :=
  same_of_harmless (run_sound sound before) (along pre line post s' split before) consumed useless

/-- A run that survives has harmless lines only. -/
theorem Survives.harmless {s : WatchRun} (sound : Sound settings s.watcher) {lines : List Line}
    (survives : Survives lib settings heartbeatS s lines) :
    Along lib settings heartbeatS (Harmless lib settings) s lines := by
  intro pre line post s' split before
  obtain ⟨final, done⟩ := survives.consumed
  rw [split, run_append, before] at done
  cases consumed : consume lib settings heartbeatS s' line with
  | error e =>
      rw [Except.bind, run, consumed] at done
      cases done
  | ok s'' =>
      exact harmless_of_consume (run_sound sound before) consumed
        (survives.untouched pre line post s' s'' split before consumed)

end Run

/-- A library that reads one text, the number five, and writes every float as one digit. -/
def fiveLibrary : JsonLibrary where
  loads text := if text = ['5'] then .value (.int 5) else .malformed
  ofText _ := none
  repr := ⟨fun _ => ['5'], fun _ => List.forall_mem_singleton.mpr (by decide)⟩
  repr_number _ := show IsNumber ['5'] by decide

/-- `EventWatcher("SYNTH")`, with an empty catalog. -/
def watcherSettings : WatcherSettings where
  assetId := "SYNTH"
  timeframe := 300
  params := defaultParams
  maxCandles := 400
  engine := .new "SYNTH" []
  rtIntervalMs := fin 0
  watchStart := 0
  timeframe_pos := by decide +kernel
  maxCandles_pos := by decide
  maxCandles_lt := by decide
  seeded := rfl

end CentaurApex.Cortex
