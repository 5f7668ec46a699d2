/-
# Cortex.EventEngine -- the detectors together, and what the catalog knows of what they found

The engine runs the detectors on one history of candles: patterns, a sweep and a failed break
at the levels, a rejected acceleration, a squeeze, divergences.  What fired is looked up in the
catalog of events, which is data.

* **The seeds never raise** (`analyze_seeds`): with the patterns that the matcher has by
  default every history is analysed.
* **What is reported is JSON** (`EventReport.clean_toDict`): levels of a report are numbers,
  although the levels that were given need not be, and so is what is told of a sweep and of a
  squeeze, if it is in the range of the doubles (`detect_numeric`).

The average range may be an infinity.
-/
import CentaurApex.Cortex.Divergences
import CentaurApex.Cortex.Patterns
import CentaurApex.Cortex.Sweeps
import CentaurApex.Theory.Doubles
import CentaurApex.Theory.JsonDumps

namespace CentaurApex.Cortex

open CentaurApex.Theory
open CentaurApex.Theory.ExtNum (fin)
open CentaurApex.Theory.JsonTree (IsNumber)

set_option autoImplicit false

/-! ## The other detectors -/

inductive MarketSide where
  | bull | bear
  deriving DecidableEq, Repr

structure FakeoutEvent where
  side : MarketSide
  level : ExtNum ℚ
  failureExtreme : ℚ
  reclaimed : Bool
  deriving DecidableEq

structure FakeoutDetector where
  checkBack : ℤ
  deriving DecidableEq

namespace FakeoutDetector

/-- `FakeoutDetector()` -/
def default_ : FakeoutDetector := ⟨3⟩

/-- A close beyond the level, and the next one back inside. -/
def failed (level : ExtNum ℚ) (b next : Candle) : Option FakeoutEvent :=
  if level < fin b.close ∧ fin next.close < level then some ⟨.bull, level, b.high, true⟩
  else if fin b.close < level ∧ level < fin next.close then some ⟨.bear, level, b.low, true⟩
  else none

def detect (d : FakeoutDetector) (bars : List Candle) (level : ExtNum ℚ) : Option FakeoutEvent :=
  if bars.length < 2 then none
  else
    let start := (max 0 (bars.length - d.checkBack)).toNat
    ((bars.drop start).zip (bars.drop (start + 1))).findSome? fun pair =>
      failed level pair.1 pair.2

end FakeoutDetector

structure SqueezeState where
  ratio : Double
  compressed : Bool
  durationBars : ℕ
  deriving DecidableEq

/-- The windows are numbers of bars; an average over none has no divisor. -/
structure SqueezeDetector where
  short : ℕ
  long : ℕ
  threshold : ExtNum ℚ
  short_pos : 1 ≤ short
  long_pos : 1 ≤ long

namespace SqueezeDetector

/-- `SqueezeDetector()` -/
def default_ : SqueezeDetector := ⟨10, 60, fin (7 / 10), by decide, by decide⟩

/-- `sum(xs) / n`: the sum may be too large for a double. -/
def average (xs : List ℚ) (n : ℕ) : Double := clamp xs.sum / fin (n : ℚ)

/-- The ranges of the long window. -/
def ranges (d : SqueezeDetector) (bars : List Candle) : List ℚ :=
  (lastN d.long bars).map fun b => b.high - b.low

def detect (d : SqueezeDetector) (bars : List Candle) : Option SqueezeState :=
  if bars.length < d.long then none
  else
    let shortAvg := average (lastN d.short (d.ranges bars)) d.short
    let longAvg := average (d.ranges bars) d.long
    let ratio := if fin 0 < longAvg then shortAvg / longAvg else fin 1
    let quiet := (d.ranges bars).dropLast.reverse.takeWhile fun range => ¬ longAvg ≤ fin range
    some ⟨ratio, ratio < d.threshold, quiet.length⟩

end SqueezeDetector

structure AccelReject where
  direction : MarketSide
  accelAtr : Double
  rangeAtr : Double
  absorbed : ℚ
  deriving DecidableEq

/-- `acceleration_rejection`, with its defaults: an impulse of one average range, rejected by a
bar of one and a fifth, half of it wick. -/
def accelerationRejection (bars : List Candle) (atr : Double) : Option AccelReject :=
  match lastN 2 bars with
  | [first, last] =>
      let impulse := first.close - first.open_
      let rng := last.high - last.low
      if atr ≤ fin 0 ∨ fin |impulse| < fin 1 * atr ∨ fin rng < fin (6 / 5) * atr then none
      else if 0 < impulse then
        let upperWick := last.high - max last.open_ last.close
        if last.close ≤ first.close ∧ first.open_ ≤ last.close ∧ 1 / 2 * rng ≤ upperWick then
          some ⟨.bull, fin |impulse| / atr, fin rng / atr,
            (first.close - last.close) / |impulse|⟩
        else none
      else
        let lowerWick := min last.open_ last.close - last.low
        if first.close ≤ last.close ∧ last.close ≤ first.open_ ∧ 1 / 2 * rng ≤ lowerWick then
          some ⟨.bear, fin |impulse| / atr, fin rng / atr,
            (last.close - first.close) / |impulse|⟩
        else none
  | _ => none

/-! ## The report -/

/-- What the catalog knows of an event. -/
structure Thesis where
  id : String
  family : String
  mechanism : String
  thesis : String
  invalidation : String
  conversion : String
  deriving DecidableEq

structure EventReport where
  assetId : String
  closedCandles : ℕ
  matchedPatterns : List PatternHit
  sweep : Option SweepEvent
  fakeout : Option FakeoutEvent
  squeeze : Option SqueezeState
  accelReject : Option AccelReject
  divergences : List Divergence
  theses : List Thesis

structure EventEngine where
  assetId : String
  matcher : PatternMatcher
  sweep : SweepDetector
  fakeout : FakeoutDetector
  squeeze : SqueezeDetector
  divergence : DivergenceDetector
  /-- the events of the catalog -/
  events : List Thesis

namespace EventEngine

/-- `EventEngine(asset_id)` -/
def new (assetId : String) (events : List Thesis) : EventEngine where
  assetId
  matcher := .new none
  sweep := .default_
  fakeout := .default_
  squeeze := .default_
  divergence := .default_
  events

/-- `_by_id`: of two events with one id the later one counts. -/
def byId (engine : EventEngine) (id : String) : Option Thesis :=
  engine.events.reverse.find? fun event => event.id = id

def kindName : DivergenceKind → String
  | .regular => "regular"
  | .hidden => "hidden"

/-- What fired, by name and in the order of the detectors. -/
def actives (report : EventReport) : List String :=
  report.matchedPatterns.map PatternHit.id ++
    (if report.sweep.isSome then ["liquidity_sweep"] else []) ++
    (if report.fakeout.isSome then ["fakeout_failed_break"] else []) ++
    (if report.accelReject.isSome then ["accel_to_wick_rejection"] else []) ++
    (if report.squeeze.any SqueezeState.compressed then ["volatility_compression"] else []) ++
    report.divergences.map fun d => "divergence_" ++ kindName d.kind

/-- What the detectors find. -/
def detect (engine : EventEngine) (candles : List Candle) (atr : Double)
    (levels : List (ExtNum ℚ)) (matched : List PatternHit) : EventReport :=
  let report : EventReport :=
    ⟨engine.assetId, candles.length, matched, none, none, none, none, [], []⟩
  if 2 ≤ candles.length ∧ fin 0 < atr then
    { report with
      sweep := levels.findSome? fun level => engine.sweep.detect candles level atr
      fakeout := levels.findSome? fun level => engine.fakeout.detect candles level
      squeeze := engine.squeeze.detect candles
      accelReject := accelerationRejection candles atr
      divergences := engine.divergence.detect (candles.map Candle.close) }
  else report

/-- The report, with what the catalog knows of it. -/
def explain (engine : EventEngine) (report : EventReport) : EventReport :=
  { report with theses := (actives report).eraseDups.filterMap engine.byId }

-- `float(text)`
variable (ofText : String → Option (ExtNum ℚ))

/-- The patterns of the bars, if there are any. -/
def patterns (engine : EventEngine) (bars : List BarFeatures) : Except Raised (List PatternHit) :=
  if bars = [] then .ok [] else engine.matcher.match_ ofText bars

def analyze (engine : EventEngine) (candles : List Candle) (atr : Double)
    (levels : List (ExtNum ℚ)) : Except Raised EventReport := do
  let bars := if fin 0 < atr then buildBarFeatures candles atr else []
  let matched ← engine.patterns ofText bars
  return engine.explain (engine.detect candles atr levels matched)

end EventEngine

/-! ## The report as a dictionary -/

section Fields

open CentaurApex.Theory.PyValue (text record)

/-- What `json` is given. -/
abbrev Value : Type := PyValue (ExtNum ℚ)

def num (q : ℚ) : Value := .float (fin q)

def count (n : ℕ) : Value := .int n

/-- `None`, or what it is. -/
def orNone {α : Type} (value : α → Value) (a : Option α) : Value := (a.map value).getD .none

def MarketSide.value : MarketSide → Value
  | .bull => text "Bull"
  | .bear => text "Bear"

def PatternHit.toDict (hit : PatternHit) : Value :=
  record [("id", text hit.id), ("direction", text (match hit.direction with
    | .bull => "Bull"
    | .bear => "Bear"
    | .neutral => "Neutral")), ("candles", count hit.candles)]

def SweepEvent.toDict (e : SweepEvent) : Value :=
  record [("side", text (match e.side with
    | .bsl => "BSL"
    | .ssl => "SSL")), ("level", .float e.level), ("wick_extreme", num e.wickExtreme),
    ("pierced_atr", .float (toDouble e.piercedAtr)), ("reclaimed", .bool e.reclaimed),
    ("close", num e.close)]

def FakeoutEvent.toDict (e : FakeoutEvent) : Value :=
  record [("side", e.side.value), ("level", .float e.level),
    ("failure_extreme", num e.failureExtreme), ("reclaimed", .bool e.reclaimed)]

def SqueezeState.toDict (s : SqueezeState) : Value :=
  record [("ratio", .float s.ratio), ("compressed", .bool s.compressed),
    ("duration_bars", count s.durationBars)]

def AccelReject.toDict (a : AccelReject) : Value :=
  record [("direction", a.direction.value), ("accel_atr", .float a.accelAtr),
    ("range_atr", .float a.rangeAtr), ("absorbed", num a.absorbed)]

def Divergence.toDict (d : Divergence) : Value :=
  record [("kind", text (EventEngine.kindName d.kind)), ("side", text (match d.side with
    | .bull => "Bull"
    | .bear => "Bear")), ("strength", num d.strength)]

def Thesis.toDict (t : Thesis) : Value :=
  record [("id", text t.id), ("mechanism", text t.mechanism), ("thesis", text t.thesis),
    ("invalidation", text t.invalidation), ("conversion", text t.conversion),
    ("family", text t.family)]

def EventReport.toDict (r : EventReport) : List (String × Value) :=
  [("asset_id", text r.assetId), ("closed_candles", count r.closedCandles),
    ("patterns", .list (r.matchedPatterns.map PatternHit.toDict)),
    ("sweep", orNone SweepEvent.toDict r.sweep), ("fakeout", orNone FakeoutEvent.toDict r.fakeout),
    ("squeeze", orNone SqueezeState.toDict r.squeeze),
    ("accel_reject", orNone AccelReject.toDict r.accelReject),
    ("divergences", .list (r.divergences.map Divergence.toDict)),
    ("theses", .list (r.theses.map Thesis.toDict))]

end Fields

/-! ## What the engine reports -/

/-- Counts that are short, levels that are numbers, and shares of the average range that are. -/
structure EventReport.Bounded (r : EventReport) : Prop where
  candles : r.closedCandles < 10 ^ 20
  patterns : ∀ hit ∈ r.matchedPatterns, hit.candles ≤ 4
  sweep : ∀ e ∈ r.sweep, e.level.IsFinite
  fakeout : ∀ e ∈ r.fakeout, e.level.IsFinite
  squeeze : ∀ s ∈ r.squeeze, s.durationBars ≤ r.closedCandles
  accelReject : ∀ a ∈ r.accelReject, a.accelAtr.IsFinite ∧ a.rangeAtr.IsFinite

/-- What is told of a sweep and of a squeeze are numbers. -/
structure EventReport.Numeric (r : EventReport) : Prop where
  sweep : ∀ e ∈ r.sweep, (toDouble e.piercedAtr).IsFinite
  squeeze : ∀ s ∈ r.squeeze, s.ratio.IsFinite

/-- A bar that sweeps a level goes beyond it by no infinity of average ranges, and the ranges of
the short window of a squeeze have a sum. -/
structure EventEngine.InRange (engine : EventEngine) (candles : List Candle) (atr : Double)
    (levels : List (ExtNum ℚ)) : Prop where
  below : fin 0 < atr → ∀ level ∈ levels, ∀ b ∈ sliceBack engine.sweep.reclaimWindow candles,
    SweepDetector.SweepsBelow (engine.sweep.req atr) level b →
      (toDouble ((level - fin b.low) / atr)).IsFinite
  above : fin 0 < atr → ∀ level ∈ levels, ∀ b ∈ candles.getLast?,
    SweepDetector.SweepsAbove (engine.sweep.req atr) level b →
      (toDouble ((fin b.high - level) / atr)).IsFinite
  squeeze : (clamp (lastN engine.squeeze.short (engine.squeeze.ranges candles)).sum).IsFinite

/-- A level between two numbers is one. -/
theorem isFinite_of_between {level : ExtNum ℚ} {a b : ℚ} (above : fin a < level)
    (below : level < fin b) : level.IsFinite := by
  cases level with
  | fin q => trivial
  | nan => exact absurd above (ExtNum.not_lt_nan _)
  | posInf => exact absurd below (ExtNum.not_posInf_lt _)
  | negInf => exact absurd above fun impossible => impossible

/-- A number in positive average ranges, be they infinite. -/
theorem isFinite_div {x atr : Double} (finite : x.IsFinite) (positive : fin 0 < atr) :
    (x / atr).IsFinite := by
  obtain ⟨q, rfl⟩ := ExtNum.isFinite_iff.mp finite
  cases atr with
  | fin a =>
      have positive : 0 < a := positive
      rw [ExtNum.fin_div_fin q positive.ne']
      trivial
  | posInf => trivial
  | nan => exact positive.elim
  | negInf => exact positive.elim

/-- A sweep is one of a bar that sweeps the level. -/
theorem SweepDetector.detect_cases {d : SweepDetector} {bars : List Candle} {level : ExtNum ℚ}
    {atr : Double} {e : SweepEvent} (found : d.detect bars level atr = some e) :
    (∃ b ∈ sliceBack d.reclaimWindow bars, SweepsBelow (d.req atr) level b ∧
      e = below level atr b) ∨
    ∃ b ∈ bars.getLast?, SweepsAbove (d.req atr) level b ∧ e = above level atr b := by
  unfold detect at found
  split at found
  · cases found
  split at found
  · rename_i b swept
    have sweeps : SweepsBelow (d.req atr) level b := by simpa using List.find?_some swept
    have member := List.mem_reverse.mp (List.mem_of_find?_eq_some swept)
    exact .inl ⟨b, member, sweeps, (Option.some.inj found).symm⟩
  · obtain ⟨b, last, rfl⟩ := Option.map_eq_some_iff.mp found
    obtain ⟨last, sweeps⟩ := Option.filter_eq_some_iff.mp last
    exact .inr ⟨b, last, by simpa using sweeps, rfl⟩

theorem SweepDetector.detect_finite {d : SweepDetector} {bars : List Candle} {level : ExtNum ℚ}
    {atr : Double} {e : SweepEvent} (found : d.detect bars level atr = some e) :
    e.level.IsFinite := by
  rcases detect_cases found with ⟨b, -, sweeps, rfl⟩ | ⟨b, -, sweeps, rfl⟩
  · exact isFinite_of_between sweeps.1 sweeps.2.2
  · exact isFinite_of_between sweeps.2.2 sweeps.1

theorem accelerationRejection_finite {bars : List Candle} {atr : Double} (positive : fin 0 < atr)
    {a : AccelReject} (found : accelerationRejection bars atr = some a) :
    a.accelAtr.IsFinite ∧ a.rangeAtr.IsFinite := by
  have share (q : ℚ) : (fin q / atr).IsFinite := isFinite_div trivial positive
  unfold accelerationRejection at found
  split at found
  · dsimp only at found
    split_ifs at found <;>
    · obtain rfl := Option.some.inj found
      exact ⟨share _, share _⟩
  · cases found

theorem FakeoutDetector.detect_finite {d : FakeoutDetector} {bars : List Candle} {level : ExtNum ℚ}
    {e : FakeoutEvent} (found : d.detect bars level = some e) : e.level.IsFinite := by
  unfold detect at found
  split at found
  · cases found
  · obtain ⟨pair, -, failed⟩ := List.exists_of_findSome?_eq_some found
    unfold FakeoutDetector.failed at failed
    split_ifs at failed with above below
    · obtain rfl := Option.some.inj failed
      exact isFinite_of_between above.2 above.1
    · obtain rfl := Option.some.inj failed
      exact isFinite_of_between below.1 below.2

theorem SqueezeDetector.detect_duration {d : SqueezeDetector} {bars : List Candle}
    {s : SqueezeState} (found : d.detect bars = some s) : s.durationBars ≤ bars.length := by
  unfold detect at found
  split at found
  · cases found
  · obtain rfl := Option.some.inj found
    refine (List.takeWhile_sublist _).length_le.trans ?_
    simp only [List.length_reverse, List.length_dropLast, ranges, List.length_map, lastN,
      List.length_drop]
    omega

/-- The ratio of a squeeze is a number if the short window has a sum. -/
theorem SqueezeDetector.squeeze_finite {d : SqueezeDetector} {bars : List Candle}
    (fits : (clamp (lastN d.short (d.ranges bars)).sum).IsFinite) {s : SqueezeState}
    (found : d.detect bars = some s) : s.ratio.IsFinite := by
  have counted : (0 : ℚ) < d.short := by exact_mod_cast d.short_pos
  unfold detect at found
  split at found
  · cases found
  · obtain rfl := Option.some.inj found
    dsimp only
    split
    · rename_i positive
      refine isFinite_div ?_ positive
      exact isFinite_div fits (ExtNum.fin_lt_fin.mpr counted)
    · trivial

namespace EventEngine

/-- Whatever the levels, what is reported of them is a number. -/
theorem detect_bounded (engine : EventEngine) {candles : List Candle}
    (few : candles.length < 10 ^ 20) (atr : Double) (levels : List (ExtNum ℚ))
    {matched : List PatternHit} (patterns : ∀ hit ∈ matched, hit.candles ≤ 4) :
    (engine.explain (engine.detect candles atr levels matched)).Bounded := by
  unfold detect
  dsimp only
  split
  · rename_i enough
    refine ⟨few, patterns, fun e found => ?_, fun e found => ?_, fun s found => ?_, ?_⟩
    · obtain ⟨level, -, swept⟩ := List.exists_of_findSome?_eq_some found
      exact SweepDetector.detect_finite swept
    · obtain ⟨level, -, failed⟩ := List.exists_of_findSome?_eq_some found
      exact FakeoutDetector.detect_finite failed
    · exact SqueezeDetector.detect_duration found
    · exact fun a found => accelerationRejection_finite enough.2 found
  · refine ⟨few, patterns, ?_, ?_, ?_, ?_⟩ <;> exact fun _ found => by cases found

/-- What is reported are numbers, if what is measured is in range. -/
theorem detect_numeric {engine : EventEngine} {candles : List Candle} {atr : Double}
    {levels : List (ExtNum ℚ)} (inRange : engine.InRange candles atr levels)
    (matched : List PatternHit) :
    (engine.explain (engine.detect candles atr levels matched)).Numeric := by
  unfold detect
  dsimp only
  split
  · rename_i enough
    refine ⟨fun e found => ?_, fun s found => SqueezeDetector.squeeze_finite inRange.squeeze found⟩
    obtain ⟨level, listed, swept⟩ := List.exists_of_findSome?_eq_some found
    rcases SweepDetector.detect_cases swept with ⟨b, member, sweeps, rfl⟩ | ⟨b, last, sweeps, rfl⟩
    · exact inRange.below enough.2 level listed b member sweeps
    · exact inRange.above enough.2 level listed b last sweeps
  · exact ⟨fun _ found => (by cases found), fun _ found => (by cases found)⟩

theorem patterns_seeds (ofText : String → Option (ExtNum ℚ)) {engine : EventEngine}
    (seeded : engine.matcher = .new none) (bars : List BarFeatures) :
    ∃ matched, engine.patterns ofText bars = .ok matched ∧ ∀ hit ∈ matched, hit.candles ≤ 4 := by
  unfold patterns
  split
  · exact ⟨[], rfl, fun _ none_ => absurd none_ List.not_mem_nil⟩
  · refine ⟨_, by rw [seeded, match_seeds], fun hit member => ?_⟩
    obtain ⟨spec, -, rfl⟩ := List.mem_map.mp member
    exact spec.candles_le

/-- **The seeds never raise**: with the patterns that the matcher has by default, every history
is analysed. -/
theorem analyze_seeds (ofText : String → Option (ExtNum ℚ)) {engine : EventEngine}
    (seeded : engine.matcher = .new none) {candles : List Candle} (few : candles.length < 10 ^ 20)
    (atr : Double) (levels : List (ExtNum ℚ)) :
    ∃ report, engine.analyze ofText candles atr levels = .ok report ∧ report.Bounded ∧
      (engine.InRange candles atr levels → report.Numeric) := by
  obtain ⟨matched, found, patterns⟩ := patterns_seeds ofText seeded
    (if fin 0 < atr then buildBarFeatures candles atr else [])
  refine ⟨_, ?_, engine.detect_bounded few atr levels patterns,
    fun inRange => detect_numeric inRange matched⟩
  rw [analyze, found]
  rfl

end EventEngine

/-! ## What is reported is JSON -/

section Clean

open PyValue (Clean CleanEach clean_text clean_record clean_list text)

variable {repr : FloatRepr (ExtNum ℚ)} (numbers : ∀ q : ℚ, IsNumber (repr.text (fin q)))

include numbers

theorem clean_num (q : ℚ) (depth : ℕ) : Clean repr (num q) depth := by
  have clean : IsNumber (repr.text (fin q)) := numbers q
  exact clean

theorem clean_float {x : ExtNum ℚ} (finite : x.IsFinite) (depth : ℕ) :
    Clean repr (.float x) depth := by
  obtain ⟨q, rfl⟩ := ExtNum.isFinite_iff.mp finite
  exact clean_num numbers q depth

omit numbers in
theorem clean_bool (b : Bool) (depth : ℕ) : Clean repr (.bool b) depth := by
  unfold Clean
  trivial

omit numbers in
theorem clean_count {n : ℕ} (short : n < 10 ^ 20) (depth : ℕ) : Clean repr (count n) depth :=
  shortInt_of_lt short

omit numbers in
theorem clean_orNone {α : Type} {value : α → Value} {a : Option α} {depth : ℕ}
    (clean : ∀ x ∈ a, Clean repr (value x) depth) : Clean repr (orNone value a) depth := by
  cases a with
  | none =>
      show Clean repr .none depth
      unfold Clean
      trivial
  | some x => exact clean x rfl

omit numbers in
theorem clean_map {α : Type} {value : α → Value} {items : List α} {depth : ℕ}
    (clean : ∀ x ∈ items, Clean repr (value x) depth) :
    Clean repr (.list (items.map value)) (depth + 1) :=
  clean_list repr (List.forall_mem_map.mpr clean)

/-- **What is reported is JSON**, once it is written, if it is made of numbers. -/
theorem EventReport.clean_toDict {r : EventReport} (bounded : r.Bounded) (numeric : r.Numeric) :
    CleanEach repr r.toDict 2 := by
  have text (s : String) (depth : ℕ) : Clean repr (text s) depth := clean_text repr s depth
  have num (q : ℚ) (depth : ℕ) : Clean repr (num q) depth := clean_num numbers q depth
  have side (s : MarketSide) (depth : ℕ) : Clean repr s.value depth := by
    cases s <;> exact text _ depth
  have pattern : ∀ hit ∈ r.matchedPatterns, Clean repr hit.toDict 1 := by
    intro hit member
    have few : hit.candles < 10 ^ 20 := (bounded.patterns hit member).trans_lt (by decide)
    exact clean_record repr ⟨text _ 0, text _ 0, clean_count few 0, trivial⟩
  have sweep : ∀ e ∈ r.sweep, Clean repr e.toDict 2 := by
    intro e found
    have level := bounded.sweep e found
    have pierced := numeric.sweep e found
    exact clean_record repr ⟨text _ 1, clean_float numbers level 1, num _ 1,
      clean_float numbers pierced 1, clean_bool _ 1, num _ 1, trivial⟩
  have fakeout : ∀ e ∈ r.fakeout, Clean repr e.toDict 2 := by
    intro e found
    have level := bounded.fakeout e found
    exact clean_record repr
      ⟨side _ 1, clean_float numbers level 1, num _ 1, clean_bool _ 1, trivial⟩
  have squeeze : ∀ s ∈ r.squeeze, Clean repr s.toDict 2 := by
    intro s found
    have few := (bounded.squeeze s found).trans_lt bounded.candles
    exact clean_record repr
      ⟨clean_float numbers (numeric.squeeze s found) 1, clean_bool _ 1, clean_count few 1, trivial⟩
  have reject : ∀ a ∈ r.accelReject, Clean repr a.toDict 2 := by
    intro a found
    obtain ⟨accel, range⟩ := bounded.accelReject a found
    exact clean_record repr ⟨side _ 1, clean_float numbers accel 1, clean_float numbers range 1,
      num _ 1, trivial⟩
  have divergence : ∀ d ∈ r.divergences, Clean repr d.toDict 1 := by
    intro d _
    exact clean_record repr ⟨text _ 0, text _ 0, num _ 0, trivial⟩
  have thesis : ∀ t ∈ r.theses, Clean repr t.toDict 1 := by
    intro t _
    exact clean_record repr
      ⟨text _ 0, text _ 0, text _ 0, text _ 0, text _ 0, text _ 0, trivial⟩
  exact ⟨text _ 2, clean_count bounded.candles 2, clean_map pattern, clean_orNone sweep,
    clean_orNone fakeout, clean_orNone squeeze, clean_orNone reject, clean_map divergence,
    clean_map thesis, trivial⟩

end Clean

end CentaurApex.Cortex
