/-
# Cortex.MarketContext -- candles, swings and the market's context

A tick stream is folded into candles on a fixed clock (`CandleAggregator`); a history
of candles is read for its structure (`buildContext`): its average true range, the
swings that reversed by a multiple of it, and from them the regime.

Arithmetic is exact.  What may be an infinity or NaN is an `ExtNum`: the price and
the time of a tick, and the multiples of the parameters, which the schema only asks
to be positive.  Candles and all that is computed from them are numbers.
-/
import CentaurApex.Theory.Json

namespace CentaurApex.Cortex

open CentaurApex.Theory
open CentaurApex.Theory.ExtNum (fin)
open CentaurApex.Theory.Python

set_option autoImplicit false

/-! ## Candles -/

structure Candle where
  open_ : ℚ
  high : ℚ
  low : ℚ
  close : ℚ
  tOpen : ℚ
  tClose : ℚ
  volume : ℚ
  deriving DecidableEq, Repr

/-- A tick: its price and its time. -/
abbrev PriceTick : Type := ExtNum ℚ × ExtNum ℚ

structure CandleAggregator where
  timeframe : ℚ
  bucketOpen : Option ℚ
  o : ℚ
  h : ℚ
  l : ℚ
  c : ℚ
  v : ℚ
  deriving DecidableEq, Repr

namespace CandleAggregator

def new (timeframe : ℚ) : CandleAggregator := ⟨timeframe, none, 0, 0, 0, 0, 0⟩

/-- `math.floor` of an infinity or of NaN raises. -/
def bucket (agg : CandleAggregator) (ts : ExtNum ℚ) : Except PyError ℚ :=
  if agg.timeframe = 0 then .error .zeroDivisionError
  else
    match ts with
    | .fin ts => .ok (⌊ts / agg.timeframe⌋ * agg.timeframe)
    | .nan => .error (.valueError "cannot convert float NaN to integer" none)
    | _ => .error .overflowError

/-- The candle that opened at `opened`, as far as it got. -/
def candle (agg : CandleAggregator) (opened closed : ℚ) : Candle :=
  ⟨agg.o, agg.h, agg.l, agg.c, opened, closed, agg.v⟩

def restart (agg : CandleAggregator) (bucket price : ℚ) : CandleAggregator :=
  { agg with bucketOpen := some bucket, o := price, h := price, l := price, c := price, v := 0 }

def count (agg : CandleAggregator) (price : ℚ) : CandleAggregator :=
  { agg with h := max agg.h price, l := min agg.l price, c := price, v := agg.v + 1 }

/-- A price that is not a positive number is passed by, whatever its time. -/
def feed (agg : CandleAggregator) (price ts : ExtNum ℚ) :
    Except PyError (Option Candle × CandleAggregator) :=
  match price with
  | .fin price =>
      if price ≤ 0 then .ok (none, agg)
      else
        match agg.bucket ts with
        | .error e => .error e
        | .ok bucket =>
            match agg.bucketOpen with
            | none => .ok (none, (agg.restart bucket price).count price)
            | some opened =>
                if bucket ≠ opened then
                  .ok (some (agg.candle opened bucket), (agg.restart bucket price).count price)
                else .ok (none, agg.count price)
  | _ => .ok (none, agg)

def forming (agg : CandleAggregator) (ts : ExtNum ℚ) : Except PyError (Option Candle) :=
  match agg.bucket ts, ts, agg.bucketOpen with
  | .error e, _, _ => .error e
  | .ok bucket, .fin ts, some opened =>
      .ok (if bucket ≠ opened then none else some (agg.candle opened ts))
  -- only a number has a bucket
  | .ok _, _, _ => .ok none

/-- The candles a stream of ticks closes, and the aggregator after it. -/
def feedAll (agg : CandleAggregator) :
    List PriceTick → Except PyError (List Candle × CandleAggregator)
  | [] => .ok ([], agg)
  | (price, ts) :: ticks =>
      match agg.feed price ts with
      | .error e => .error e
      | .ok (closed, fed) =>
          match fed.feedAll ticks with
          | .error e => .error e
          | .ok (others, last) => .ok (closed.toList ++ others, last)

end CandleAggregator

/-! ## Parameters and context -/

structure MarketContextParams where
  timeframeS : ExtNum ℚ
  atrPeriod : ℕ
  swingAtrMultiple : ExtNum ℚ
  rangeHeightAtr : ExtNum ℚ
  extensionAtrMultiple : ExtNum ℚ
  minSwings : ℕ
  lookbackSwings : ℕ
  maxCandles : ℕ
  impulseAtrMultiple : ExtNum ℚ
  timeframe_pos : fin 0 < timeframeS
  atrPeriod_ge : 2 ≤ atrPeriod
  swing_pos : fin 0 < swingAtrMultiple
  range_pos : fin 0 < rangeHeightAtr
  extension_pos : fin 0 < extensionAtrMultiple
  minSwings_ge : 2 ≤ minSwings
  lookback_ge : 2 ≤ lookbackSwings
  maxCandles_ge : 30 ≤ maxCandles
  impulse_pos : fin 0 < impulseAtrMultiple

inductive Regime where
  | seeding | trendUp | trendDown | range | expansion
  deriving DecidableEq, Repr

inductive MarketPhase where
  | seeding | coil | trend | exhaustion | expansion
  deriving DecidableEq, Repr

inductive Bias where
  | flat | long | short
  deriving DecidableEq, Repr

structure MarketContext where
  assetId : String
  timeframeS : ExtNum ℚ
  closedCandles : ℕ
  atr : ℚ
  regime : Regime
  phase : MarketPhase
  bias : Bias
  momentum : ℚ
  swingHigh : Option ℚ
  swingLow : Option ℚ
  coilBounds : Option (ℚ × ℚ)
  structureAgeCandles : ℕ
  expectedRemainingCandles : Option ℚ
  expansionPotentialCandles : Option ℚ
  integrity : Bool
  breakLevel : Option ℚ
  deriving DecidableEq

/-! ## Lists from their end -/

/-- `xs[-k:]` -/
def lastN {α : Type} (k : ℕ) (xs : List α) : List α := xs.drop (xs.length - k)

/-- `candles[-k].close` -/
def closeBack (candles : List Candle) (k : ℕ) : ℚ :=
  ((candles[candles.length - k]?).map Candle.close).getD 0

/-! ## Average true range -/

def trueRange (prevClose : ℚ) (c : Candle) : ℚ :=
  max (c.high - c.low) (max |c.high - prevClose| |c.low - prevClose|)

def trueRanges : ℚ → List Candle → List ℚ
  | _, [] => []
  | prevClose, c :: candles => trueRange prevClose c :: trueRanges c.close candles

def atrOf (candles : List Candle) (period : ℕ) : ℚ :=
  match lastN (period + 1) candles with
  | [] | [_] => 0
  | first :: window => (trueRanges first.close window).sum / window.length

/-! ## Swings -/

inductive SwingKind where
  | high | low
  deriving DecidableEq, Repr

structure Swing where
  kind : SwingKind
  price : ℚ
  candleIndex : ℕ
  deriving DecidableEq, Repr

/-- The direction `0`, `1` or `-1`: a swing not yet begun, upward, downward. -/
inductive Direction where
  | none_ | up | down
  deriving DecidableEq, Repr

structure Zigzag where
  direction : Direction
  pivotHigh : Option ℚ
  pivotLow : Option ℚ
  swings : List Swing
  deriving DecidableEq

namespace Zigzag

def start : Zigzag := ⟨.none_, none, none, []⟩

variable (minMove : ExtNum ℚ) (i : ℕ) (c : Candle)

/-- The upper pivot moves up, and is confirmed once the price is far enough below it. -/
def seekHigh (z : Zigzag) : Zigzag :=
  if z.direction ≠ .down then
    let pivotHigh := (z.pivotHigh.map (max · c.high)).getD c.high
    if minMove ≤ fin (pivotHigh - c.low) then
      ⟨.down, none, some c.low, z.swings ++ [⟨.high, pivotHigh, i⟩]⟩
    else { z with pivotHigh := some pivotHigh }
  else z

def seekLow (z : Zigzag) : Zigzag :=
  if z.direction ≠ .up then
    let pivotLow := (z.pivotLow.map (min · c.low)).getD c.low
    if minMove ≤ fin (c.high - pivotLow) then
      ⟨.up, some c.high, none, z.swings ++ [⟨.low, pivotLow, i⟩]⟩
    else { z with pivotLow := some pivotLow }
  else z

def step (z : Zigzag) : Zigzag := (z.seekHigh minMove i c).seekLow minMove i c

/-- The loop over the candles, from the `i`-th on. -/
def run (i : ℕ) (z : Zigzag) : List Candle → Zigzag
  | [] => z
  | c :: candles => run (i + 1) (z.step minMove i c) candles

end Zigzag

/-- The least reversal, whatever the range. -/
def minReversal : ℚ := 1 / 10 ^ 12

def zigzagSwings (candles : List Candle) (atr : ℚ) (mult : ExtNum ℚ) : List Swing :=
  (Zigzag.run (max2 (fin atr * mult) (fin minReversal)) 0 .start candles).swings

def prices (kind : SwingKind) (swings : List Swing) : List ℚ :=
  (swings.filter fun s => s.kind = kind).map Swing.price

/-- The last of the prices against the one before it. -/
def slope (values : List ℚ) : ℤ :=
  match values.reverse with
  | last :: before :: _ => if before < last then 1 else if last < before then -1 else 0
  | _ => 0

def polarity (swings : List Swing) : ℤ :=
  slope (prices .high (lastN 8 swings)) + slope (prices .low (lastN 8 swings))

/-- `statistics.median` -/
def median (deltas : List ℚ) : ℚ :=
  let sorted := deltas.mergeSort
  if sorted.length % 2 = 1 then sorted.getD (sorted.length / 2) 0
  else (sorted.getD (sorted.length / 2 - 1) 0 + sorted.getD (sorted.length / 2) 0) / 2

def cycleMedian (swings : List Swing) : Option ℚ :=
  let idxs := (lastN 6 swings).map fun s => (s.candleIndex : ℚ)
  if idxs.length < 3 then none else some (median (List.zipWith (fun a b => b - a) idxs idxs.tail))

/-! ## The context -/

namespace MarketContextParams

variable (params : MarketContextParams) (assetId : String) (candles : List Candle)

/-- The number of recent highs, and of recent lows: `params.lookback_swings // 2`, of the
negated number. -/
def recent : ℕ := (params.lookbackSwings + 1) / 2

/-- What is known before there are enough candles. -/
def seeding : MarketContext :=
  { assetId, timeframeS := params.timeframeS, closedCandles := candles.length, atr := 0
    regime := .seeding, phase := .seeding, bias := .flat, momentum := 0
    swingHigh := none, swingLow := none, coilBounds := none, structureAgeCandles := 0
    expectedRemainingCandles := none, expansionPotentialCandles := none
    integrity := true, breakLevel := none }

def momentumOf (atr : ℚ) : ℚ :=
  (closeBack candles 1 - closeBack candles params.atrPeriod) / (atr * params.atrPeriod)

/-- A single bar that moved many average ranges. -/
def impulse (atr : ℚ) : MarketContext :=
  let move := closeBack candles 1 - closeBack candles 2
  { params.seeding assetId candles with
    atr
    regime := .expansion
    phase := .expansion
    bias := if 0 < move then .long else .short
    momentum := move / (atr * params.atrPeriod)
    integrity := false
    breakLevel := some (closeBack candles 2) }

/-- The highest of the recent highs. -/
def swingHigh (swings : List Swing) : Option ℚ :=
  (lastN params.recent (prices .high swings)).max?

/-- The lowest of the recent lows. -/
def swingLow (swings : List Swing) : Option ℚ :=
  (lastN params.recent (prices .low swings)).min?

/-- The band of the recent swings, if it is narrow. -/
def coilBounds (swings : List Swing) (atr : ℚ) : Option (ℚ × ℚ) :=
  match params.swingHigh swings, params.swingLow swings with
  | some high, some low =>
      if fin (high - low) < params.rangeHeightAtr * fin atr then some (low, high) else none
  | _, _ => none

/-- The structure of the swings, before it is classified. -/
def structure_ (atr : ℚ) (swings : List Swing) : MarketContext :=
  { params.seeding assetId candles with
    atr
    swingHigh := params.swingHigh swings
    swingLow := params.swingLow swings
    bias := if (swings.getLast?.map Swing.kind) = some .low then .long else .short
    coilBounds := params.coilBounds swings atr
    momentum := params.momentumOf candles atr }

/-- The last close is out of the coil. -/
def breakout (ctx : MarketContext) (swings : List Swing) (last low high : ℚ) : MarketContext :=
  { ctx with
    regime := .expansion
    phase := .expansion
    bias := if high < last then .long else .short
    integrity := false
    breakLevel := some (if high < last then high else low)
    expansionPotentialCandles := none
    expectedRemainingCandles := (cycleMedian swings).filter (· ≠ 0) }

def trend (ctx : MarketContext) (atr : ℚ) (swings : List Swing) (last : ℚ) (score : ℤ) :
    MarketContext :=
  let age := candles.length - 1 - ((swings.getLast?.map Swing.candleIndex).getD 0)
  let ref := if 0 < score then ctx.swingLow else ctx.swingHigh
  let leg := (ref.map fun ref => |last - ref|).getD 0
  let broken := ref.any fun level => if 0 < score then last < level else level < last
  { ctx with
    regime := if 0 < score then .trendUp else .trendDown
    bias := if 0 < score then .long else .short
    structureAgeCandles := age
    expectedRemainingCandles := (cycleMedian swings).map fun cycle => max 0 (cycle - age)
    phase :=
      if params.extensionAtrMultiple * fin atr ≤ fin leg ∧ |ctx.momentum| < 1 / 4 then .exhaustion
      else .trend
    integrity := !broken
    breakLevel := if broken then ref else none }

def coil (ctx : MarketContext) (atr last low high : ℚ) : MarketContext :=
  { ctx with
    regime := .range
    phase := .coil
    expansionPotentialCandles := some (max (min (last - low) (high - last) / atr) 0)
    expectedRemainingCandles := none
    integrity := true
    breakLevel := none }

/-- The regime of a structure: a broken coil, a trend, a coil, or none. -/
def classify (atr : ℚ) (swings : List Swing) : MarketContext :=
  let ctx := params.structure_ assetId candles atr swings
  let last := closeBack candles 1
  let score := polarity swings
  match ctx.coilBounds with
  | some (low, high) =>
      if high < last ∨ last < low then breakout ctx swings last low high
      else if score ≠ 0 then params.trend candles ctx atr swings last score
      else coil ctx atr last low high
  | none =>
      if score ≠ 0 then params.trend candles ctx atr swings last score
      else { ctx with regime := .seeding, phase := .seeding }

end MarketContextParams

def buildContext (candles : List Candle) (params : MarketContextParams) (assetId : String) :
    MarketContext :=
  if candles.length < params.atrPeriod + 2 then params.seeding assetId candles
  else
    let atr := atrOf candles params.atrPeriod
    if atr ≤ 0 then { params.seeding assetId candles with atr }
    else if params.impulseAtrMultiple * fin atr ≤ fin |closeBack candles 1 - closeBack candles 2| then
      params.impulse assetId candles atr
    else
      let swings := zigzagSwings candles atr params.swingAtrMultiple
      if swings.length < params.minSwings then { params.seeding assetId candles with atr }
      else params.classify assetId candles atr swings

/-! ## What a regime says -/

section Regimes

variable {params : MarketContextParams} {candles : List Candle} {assetId : String}

/-- The swings of a history, in its own average range. -/
def MarketContextParams.swingsOf (params : MarketContextParams) (candles : List Candle) :
    List Swing :=
  zigzagSwings candles (atrOf candles params.atrPeriod) params.swingAtrMultiple

/-- The history has swings enough to be classified, and no impulse at its end. -/
structure Classified (params : MarketContextParams) (candles : List Candle) : Prop where
  long : params.atrPeriod + 2 ≤ candles.length
  moves : 0 < atrOf candles params.atrPeriod
  calm : ¬ params.impulseAtrMultiple * fin (atrOf candles params.atrPeriod) ≤
    fin |closeBack candles 1 - closeBack candles 2|
  swings : params.minSwings ≤ (params.swingsOf candles).length

theorem buildContext_eq (classified : Classified params candles) :
    buildContext candles params assetId =
      params.classify assetId candles (atrOf candles params.atrPeriod) (params.swingsOf candles) := by
  have many : ¬ (zigzagSwings candles (atrOf candles params.atrPeriod)
      params.swingAtrMultiple).length < params.minSwings := not_lt.mpr classified.swings
  unfold buildContext
  rw [if_neg (not_lt.mpr classified.long), if_neg (not_le.mpr classified.moves),
    if_neg classified.calm, if_neg many]
  rfl

/-- A history that is not classified is seeding, or expands. -/
theorem regime_of_not_classified (assetId : String) (unclassified : ¬ Classified params candles) :
    (buildContext candles params assetId).regime = .seeding ∨
      (buildContext candles params assetId).regime = .expansion := by
  unfold buildContext
  by_cases short : candles.length < params.atrPeriod + 2
  · exact .inl (by rw [if_pos short]; rfl)
  rw [if_neg short]
  by_cases still : atrOf candles params.atrPeriod ≤ 0
  · exact .inl (by rw [if_pos still]; rfl)
  rw [if_neg still]
  by_cases sudden : params.impulseAtrMultiple * fin (atrOf candles params.atrPeriod) ≤
      fin |closeBack candles 1 - closeBack candles 2|
  · exact .inr (by rw [if_pos sudden]; rfl)
  rw [if_neg sudden]
  by_cases few : (zigzagSwings candles (atrOf candles params.atrPeriod)
      params.swingAtrMultiple).length < params.minSwings
  · exact .inl (by rw [if_pos few]; rfl)
  · exact absurd ⟨not_lt.mp short, not_le.mp still, sudden, not_lt.mp few⟩ unclassified

theorem trend_regime (ctx : MarketContext) (atr : ℚ) (swings : List Swing) (last : ℚ)
    (score : ℤ) : (params.trend candles ctx atr swings last score).regime =
      if 0 < score then .trendUp else .trendDown := rfl

/-- The last close is not out of the coil, if there is one. -/
def Inside (params : MarketContextParams) (candles : List Candle) (atr : ℚ)
    (swings : List Swing) : Prop :=
  ∀ band ∈ params.coilBounds swings atr,
    band.1 ≤ closeBack candles 1 ∧ closeBack candles 1 ≤ band.2

instance (params : MarketContextParams) (candles : List Candle) (atr : ℚ)
    (swings : List Swing) : Decidable (Inside params candles atr swings) :=
  inferInstanceAs (Decidable (∀ band ∈ params.coilBounds swings atr, _))

section Classify

variable {atr : ℚ} {swings : List Swing}

theorem classify_broken (outside : ¬ Inside params candles atr swings) :
    (params.classify assetId candles atr swings).regime = .expansion := by
  unfold Inside at outside
  push Not at outside
  obtain ⟨band, bounds, out⟩ := outside
  have broken : band.2 < closeBack candles 1 ∨ closeBack candles 1 < band.1 := by
    rcases lt_or_ge (closeBack candles 1) band.1 with below | above
    · exact .inr below
    · exact .inl (out above)
  simp only [MarketContextParams.classify, MarketContextParams.structure_,
    Option.mem_def.mp bounds, if_pos broken]
  rfl

/-- A close inside a band breaks out on neither side. -/
theorem Inside.kept (inside : Inside params candles atr swings) {band : ℚ × ℚ}
    (bounds : params.coilBounds swings atr = some band) :
    ¬ (band.2 < closeBack candles 1 ∨ closeBack candles 1 < band.1) := by
  obtain ⟨above, below⟩ := inside band bounds
  rintro (out | out)
  · exact absurd out (not_lt.mpr below)
  · exact absurd out (not_lt.mpr above)

theorem classify_trend (inside : Inside params candles atr swings) (score : polarity swings ≠ 0) :
    (params.classify assetId candles atr swings).regime =
      if 0 < polarity swings then .trendUp else .trendDown := by
  cases bounds : params.coilBounds swings atr with
  | none =>
      simp only [MarketContextParams.classify, MarketContextParams.structure_, bounds,
        if_pos score, trend_regime]
  | some band =>
      have kept := inside.kept bounds
      simp only [MarketContextParams.classify, MarketContextParams.structure_, bounds,
        if_neg kept, if_pos score, trend_regime]

theorem classify_flat (assetId : String) (inside : Inside params candles atr swings)
    (score : polarity swings = 0) :
    (params.classify assetId candles atr swings).coilBounds = params.coilBounds swings atr ∧
      (params.classify assetId candles atr swings).regime =
        (if (params.coilBounds swings atr).isSome then .range else .seeding) ∧
      (params.classify assetId candles atr swings).phase =
        (if (params.coilBounds swings atr).isSome then .coil else .seeding) := by
  have still : ¬ polarity swings ≠ 0 := not_not.mpr score
  cases bounds : params.coilBounds swings atr with
  | none =>
      simp only [MarketContextParams.classify, MarketContextParams.structure_, bounds, if_neg still]
      exact ⟨trivial, rfl, rfl⟩
  | some band =>
      have kept := inside.kept bounds
      simp only [MarketContextParams.classify, MarketContextParams.structure_, bounds,
        if_neg kept, if_neg still]
      exact ⟨rfl, rfl, rfl⟩

end Classify

/-- The history is classified as a range. -/
structure Ranging (params : MarketContextParams) (candles : List Candle) : Prop where
  classified : Classified params candles
  inside : Inside params candles (atrOf candles params.atrPeriod) (params.swingsOf candles)
  flat : polarity (params.swingsOf candles) = 0
  narrow : (params.coilBounds (params.swingsOf candles) (atrOf candles params.atrPeriod)).isSome

/-- The history is classified as an upward trend. -/
structure Rising (params : MarketContextParams) (candles : List Candle) : Prop where
  classified : Classified params candles
  inside : Inside params candles (atrOf candles params.atrPeriod) (params.swingsOf candles)
  upward : 0 < polarity (params.swingsOf candles)

theorem regime_eq_of_classified (classified : Classified params candles) :
    (buildContext candles params assetId).regime =
      if Inside params candles (atrOf candles params.atrPeriod) (params.swingsOf candles) then
        if polarity (params.swingsOf candles) = 0 then
          if (params.coilBounds (params.swingsOf candles) (atrOf candles params.atrPeriod)).isSome
          then .range else .seeding
        else if 0 < polarity (params.swingsOf candles) then .trendUp else .trendDown
      else .expansion := by
  rw [buildContext_eq classified]
  by_cases inside : Inside params candles (atrOf candles params.atrPeriod) (params.swingsOf candles)
  · rw [if_pos inside]
    by_cases flat : polarity (params.swingsOf candles) = 0
    · rw [if_pos flat]
      exact (classify_flat assetId inside flat).2.1
    · rw [if_neg flat]
      exact classify_trend inside flat
  · rw [if_neg inside]
    exact classify_broken inside

/-- **A range** is a coil that holds the last close, with swings that lean neither way. -/
theorem regime_range_iff :
    (buildContext candles params assetId).regime = .range ↔ Ranging params candles := by
  by_cases classified : Classified params candles
  · rw [regime_eq_of_classified classified]
    constructor
    · intro range
      split at range
      · split at range
        · split at range
          · exact ⟨classified, ‹_›, ‹_›, ‹_›⟩
          · cases range
        · split at range <;> cases range
      · cases range
    · rintro ⟨-, inside, flat, narrow⟩
      rw [if_pos inside, if_pos flat, if_pos narrow]
  · constructor
    · intro range
      rcases regime_of_not_classified assetId classified with other | other <;>
        (rw [range] at other; cases other)
    · exact fun ranging => absurd ranging.classified classified

theorem regime_trendUp_iff :
    (buildContext candles params assetId).regime = .trendUp ↔ Rising params candles := by
  by_cases classified : Classified params candles
  · rw [regime_eq_of_classified classified]
    constructor
    · intro trend
      split at trend
      · split at trend
        · split at trend <;> cases trend
        · split at trend
          · exact ⟨classified, ‹_›, ‹_›⟩
          · cases trend
      · cases trend
    · rintro ⟨-, inside, upward⟩
      rw [if_pos inside, if_neg upward.ne', if_pos upward]
  · constructor
    · intro trend
      rcases regime_of_not_classified assetId classified with other | other <;>
        (rw [trend] at other; cases other)
    · exact fun rising => absurd rising.classified classified

/-- A range has its phase and its bounds. -/
theorem Ranging.coil (ranging : Ranging params candles) :
    (buildContext candles params assetId).phase = .coil ∧
      (buildContext candles params assetId).coilBounds.isSome := by
  obtain ⟨bounds, -, phase⟩ := classify_flat assetId ranging.inside ranging.flat
  rw [buildContext_eq ranging.classified]
  exact ⟨phase.trans (if_pos ranging.narrow), bounds ▸ ranging.narrow⟩

end Regimes

end CentaurApex.Cortex
