/-
# Adapters.LiveFeed -- klines from the venue, and what of them is read

The venue answers a request for klines with a list of rows.  `fetchKlines` decodes a page of
them into candles, `fetchHistory` walks back page by page, and `fetchLastPrice` reads one close.
Prices and volumes go through `toFloatOf`: whatever `float()` reads, if it is positive.

* **A row is decoded, exactly when** its prices and its volume read as positive numbers
  (`accepted_iff`).  Infinities are, a volume of zero is not; `decoding_iff` says where that
  differs from the rows that are in order.
* **The last price is the last close, exactly when** it is no text (`decoding_iff` again): the
  other decoder of the row takes numbers only.

Refuting pole `untraded_refused`: a minute in which nothing was traded.
-/
import CentaurApex.Cortex.Patterns
import Mathlib.Data.List.Sort

namespace CentaurApex.Adapters

open CentaurApex.Theory
open CentaurApex.Theory.Python
open CentaurApex.Theory.ExtNum (fin)
open CentaurApex.Cortex (Raised)

set_option autoImplicit false

/-! ## Requests -/

/-- `INTERVAL_MAP` -/
def intervalMap : List (ℤ × String) :=
  [(60, "1m"), (300, "5m"), (900, "15m"), (3600, "1h"), (14400, "4h"), (86400, "1d")]

/-- `TIMEFRAME_MS` -/
def timeframeMs : List (ℤ × ℤ) := intervalMap.map fun entry => (entry.1, entry.1 * 1000)

/-- The messages of a `LiveFeedError`. -/
inductive LiveFeedError where
  /-- "request failed: {exc}" -/
  | requestFailed (exc : String)
  /-- "malformed JSON response" -/
  | malformedJson
  /-- "invalid {what}: {v!r}" -/
  | invalid (what : String) (v : Json)
  /-- "non-finite {what}: {f!r}" -/
  | nonFinite (what : String) (f : ExtNum ℚ)
  /-- "unsupported timeframe: {timeframe_s}" -/
  | unsupportedTimeframe (timeframeS : ℚ)
  /-- "limit must be 1..1000, got {limit}" -/
  | limit (got : ℤ)
  /-- "unexpected kline response shape" -/
  | unexpectedShape
  /-- "empty kline response" -/
  | emptyResponse
  /-- "invalid price" -/
  | invalidPrice

/-- What leaves the adapter. -/
inductive FeedError where
  | feed (e : LiveFeedError)
  | raised (e : Raised)

/-- The query of a request. -/
structure KlineQuery where
  symbol : String
  interval : String
  limit : ℤ
  endTime : Option ℤ
  deriving DecidableEq

/-- `_http_json`, of the kline endpoint. -/
abbrev HttpJson : Type := KlineQuery → Except FeedError Json

/-! ## Rows -/

/-- A `Candle` as it is decoded: a number may be an infinity. -/
structure FeedCandle where
  open_ : ExtNum ℚ
  high : ExtNum ℚ
  low : ExtNum ℚ
  close : ExtNum ℚ
  tOpen : ExtNum ℚ
  tClose : ExtNum ℚ
  volume : ExtNum ℚ
  deriving DecidableEq

/-- `row[i]` -/
def rowItem (row : Json) (i : ℕ) : Except FeedError Json :=
  match row with
  | .arr items =>
      match items[i]? with
      | some item => .ok item
      | none => .error (.raised .indexError)
  | .str text =>
      match text.toList[i]? with
      | some c => .ok (.str c.toString)
      | none => .error (.raised .indexError)
  | .obj _ => .error (.raised (.error (.keyError (toString i))))
  | _ => .error (.raised (.error .typeError))

/-- Towards zero. -/
def truncate (q : ℚ) : ℤ := if 0 ≤ q then ⌊q⌋ else ⌈q⌉

@[simp] theorem truncate_intCast (n : ℤ) : truncate n = n := by
  unfold truncate
  split
  · exact Int.floor_intCast n
  · exact Int.ceil_intCast n

/-- `int(x)` of a float. -/
def intOfFloat : ExtNum ℚ → Except PyError ℤ
  | .fin q => .ok (truncate q)
  | .nan => .error (.valueError "cannot convert float NaN to integer" none)
  | _ => .error .overflowError

section Decode

-- `ofText`: how `float()` reads a text
variable (ofText : String → Option (ExtNum ℚ))

/-- `_to_float` -/
def toFloatOf (v : Json) (what : String) : Except FeedError (ExtNum ℚ) :=
  match toFloat ofText v with
  | .ok f => if fin 0 < f then .ok f else .error (.feed (.nonFinite what f))
  | .error .typeError => .error (.feed (.invalid what v))
  | .error (.valueError _ _) => .error (.feed (.invalid what v))
  | .error e => .error (.raised (.error e))

/-- `float(ms) / 1000.0` -/
def secondsOf (ms : Json) : Except FeedError (ExtNum ℚ) :=
  match toFloat ofText ms with
  | .ok f => .ok (f / fin 1000)
  | .error e => .error (.raised (.error e))

/-- `_parse_kline` -/
def parseKline (row : Json) : Except FeedError FeedCandle := do
  let openMs ← rowItem row 0
  let openP ← rowItem row 1
  let high ← rowItem row 2
  let low ← rowItem row 3
  let close ← rowItem row 4
  let volume ← rowItem row 5
  let closeMs ← rowItem row 6
  let open_ ← toFloatOf ofText openP "open"
  let high ← toFloatOf ofText high "high"
  let low ← toFloatOf ofText low "low"
  let close ← toFloatOf ofText close "close"
  let tOpen ← secondsOf ofText openMs
  let tClose ← secondsOf ofText closeMs
  let volume ← toFloatOf ofText volume "volume"
  return ⟨open_, high, low, close, tOpen, tClose, volume⟩

/-- The order of `rows.sort(key=lambda c: c.t_open)`. -/
def NotAfter (a b : FeedCandle) : Prop := ¬ b.tOpen < a.tOpen

instance (a b : FeedCandle) : Decidable (NotAfter a b) := inferInstanceAs (Decidable (¬ _))

/-- What `fetch_klines` makes of a response. -/
def klinesOf : Json → Except FeedError (List FeedCandle)
  | .arr data => do
      let rows ← data.mapM (parseKline ofText)
      return rows.insertionSort NotAfter
  | _ => .error (.feed .unexpectedShape)

/-- `isinstance(close, (int, float))`, and not `close <= 0` -/
def isPrice : Json → Bool
  | .int n => 0 < n
  | .float f => ¬ f ≤ fin 0
  | .bool b => b
  | _ => false

/-- What `fetch_last_price` makes of a response. -/
def lastPriceOf : Json → Except FeedError (ExtNum ℚ)
  | .arr data =>
      match data.getLast? with
      | none => .error (.feed .emptyResponse)
      | some row => do
          let close ← rowItem row 4
          if isPrice close then (number close).mapError fun e => .raised (.error e)
          else .error (.feed .invalidPrice)
  | _ => .error (.feed .emptyResponse)

variable (http : HttpJson) (symbol : String)

def fetchKlines (timeframeS : ℚ) (limit : ℤ) (endMs : Option ℤ) :
    Except FeedError (List FeedCandle) :=
  match intervalMap.lookup (truncate timeframeS) with
  | none => .error (.feed (.unsupportedTimeframe timeframeS))
  | some interval =>
      if ¬ (1 ≤ limit ∧ limit ≤ 1000) then .error (.feed (.limit limit))
      else (http ⟨symbol, interval, limit, endMs⟩).bind (klinesOf ofText)

def fetchLastPrice : Except FeedError (ExtNum ℚ) := do
  lastPriceOf (← http ⟨symbol, "1m", 1, none⟩)

/-- The loop of `fetch_history`, as long as the fuel lasts. -/
def fetchBack (timeframeS : ℚ) (batch oldest interval : ℤ) :
    ℕ → ℤ → List FeedCandle → Option (Except FeedError (List FeedCandle))
  | 0, _, _ => none
  | fuel + 1, cursor, out =>
      if cursor ≤ oldest then some (.ok out)
      else
        match fetchKlines ofText http symbol timeframeS batch (some cursor) with
        | .error e => some (.error e)
        | .ok [] => some (.ok out)
        | .ok (first :: rows) =>
            match intOfFloat (first.tOpen * fin 1000) with
            | .error e => some (.error (.raised (.error e)))
            | .ok ms => fetchBack timeframeS batch oldest interval fuel (ms - interval)
                (first :: rows ++ out)

/-- Where `fetch_history` ends; `nowMs` is the clock, in milliseconds. -/
def lastMs (endMs : Option ℤ) (nowMs : ℚ) : ℤ := endMs.getD (truncate nowMs)

/-- `fetch_history` -/
def fetchHistory (timeframeS : ℚ) (historyMs : ExtNum ℚ) (batch : ℤ) (endMs : Option ℤ)
    (nowMs : ℚ) (fuel : ℕ) : Option (Except FeedError (List FeedCandle)) :=
  match intOfFloat historyMs with
  | .error e => some (.error (.raised (.error e)))
  | .ok history =>
      fetchBack ofText http symbol timeframeS batch (lastMs endMs nowMs - history)
        ((timeframeMs.lookup (truncate timeframeS)).getD 60000) fuel (lastMs endMs nowMs) []

end Decode

/-! ## The rows that are in order -/

/-- A row of the venue: two times in milliseconds that a double holds exactly, and between them
prices and a volume, as texts or as numbers. -/
structure Kline where
  openMs : ℤ
  open_ : Json
  high : Json
  low : Json
  close : Json
  volume : Json
  closeMs : ℤ
  rest : List Json
  open_exact : floatOfInt openMs = .ok (fin openMs)
  close_exact : floatOfInt closeMs = .ok (fin closeMs)

namespace Kline

def row (k : Kline) : Json :=
  .arr (.int k.openMs :: k.open_ :: k.high :: k.low :: k.close :: k.volume :: .int k.closeMs :: k.rest)

def prices (k : Kline) : List Json := [k.open_, k.high, k.low, k.close]

end Kline

/-- A venue that answers every request with one page. -/
def serving (page : List Json) : HttpJson := fun _ => .ok (.arr page)

section Accepted

variable (ofText : String → Option (ExtNum ℚ))

/-- The value reads as a positive number, finite or not. -/
def ReadsPositive (v : Json) : Prop := ∃ f, toFloat ofText v = .ok f ∧ fin 0 < f

/-- The value reads as a finite number that is positive. -/
def ReadsPrice (v : Json) : Prop := ∃ q : ℚ, toFloat ofText v = .ok (fin q) ∧ 0 < q

/-- The value reads as a finite number that is not negative. -/
def ReadsVolume (v : Json) : Prop := ∃ q : ℚ, toFloat ofText v = .ok (fin q) ∧ 0 ≤ q

namespace Kline

variable (k : Kline)

/-- The row is decoded. -/
def Accepted : Prop := ∃ candle, parseKline ofText k.row = .ok candle

/-- The row is in order. -/
def Valid : Prop := (∀ price ∈ k.prices, ReadsPrice ofText price) ∧ ReadsVolume ofText k.volume

/-- Every number of the row is positive, and one of them is an infinity. -/
def Unbounded : Prop :=
  (∀ v ∈ k.prices ++ [k.volume], ReadsPositive ofText v) ∧
    ∃ v ∈ k.prices ++ [k.volume], toFloat ofText v = .ok .posInf

/-- The prices are in order, and nothing was traded. -/
def Untraded : Prop :=
  (∀ price ∈ k.prices, ReadsPrice ofText price) ∧ toFloat ofText k.volume = .ok (fin 0)

end Kline

/-! ## What is decoded -/

variable {ofText}

theorem readsPrice_iff {v : Json} :
    ReadsPrice ofText v ↔ ReadsPositive ofText v ∧ toFloat ofText v ≠ .ok .posInf := by
  constructor
  · rintro ⟨q, reads, positive⟩
    refine ⟨⟨fin q, reads, positive⟩, fun infinite => ?_⟩
    rw [reads] at infinite
    cases infinite
  · rintro ⟨⟨f, reads, positive⟩, bounded⟩
    cases f with
    | fin q => exact ⟨q, reads, positive⟩
    | posInf => exact absurd reads bounded
    | negInf => exact positive.elim
    | nan => exact absurd positive (ExtNum.not_lt_nan _)

theorem readsVolume_iff {v : Json} :
    ReadsVolume ofText v ↔ ReadsPrice ofText v ∨ toFloat ofText v = .ok (fin 0) := by
  constructor
  · rintro ⟨q, reads, nonneg⟩
    rcases nonneg.eq_or_lt with rfl | positive
    · exact .inr reads
    · exact .inl ⟨q, reads, positive⟩
  · rintro (⟨q, reads, positive⟩ | reads)
    · exact ⟨q, reads, positive.le⟩
    · exact ⟨0, reads, le_rfl⟩

theorem toFloatOf_ok_iff {v : Json} {what : String} {f : ExtNum ℚ} :
    toFloatOf ofText v what = .ok f ↔ toFloat ofText v = .ok f ∧ fin 0 < f := by
  unfold toFloatOf
  cases reads : toFloat ofText v with
  | ok g =>
      dsimp only
      by_cases positive : fin 0 < g
      · rw [if_pos positive]
        constructor
        · intro same
          obtain rfl := Except.ok.inj same
          exact ⟨rfl, positive⟩
        · rintro ⟨same, -⟩
          rw [Except.ok.inj same]
      · rw [if_neg positive]
        constructor
        · intro same
          cases same
        · rintro ⟨same, positive'⟩
          obtain rfl := Except.ok.inj same
          exact absurd positive' positive
  | error e => cases e <;> simp

namespace Kline

variable (k : Kline)

/-- What a row is decoded to, if its numbers are positive. -/
def candle (open_ high low close volume : ExtNum ℚ) : FeedCandle :=
  ⟨open_, high, low, close, fin (k.openMs / 1000), fin (k.closeMs / 1000), volume⟩

/-- The fields of a row are there, and its times are read. -/
theorem parse_row : parseKline ofText k.row = (do
    let open_ ← toFloatOf ofText k.open_ "open"
    let high ← toFloatOf ofText k.high "high"
    let low ← toFloatOf ofText k.low "low"
    let close ← toFloatOf ofText k.close "close"
    let volume ← toFloatOf ofText k.volume "volume"
    return k.candle open_ high low close volume) := by
  have opens : secondsOf ofText (.int k.openMs) = .ok (fin (k.openMs / 1000)) := by
    simp only [secondsOf, toFloat, number, k.open_exact]
    rw [ExtNum.fin_div_fin _ (by norm_num)]
  have closes : secondsOf ofText (.int k.closeMs) = .ok (fin (k.closeMs / 1000)) := by
    simp only [secondsOf, toFloat, number, k.close_exact]
    rw [ExtNum.fin_div_fin _ (by norm_num)]
  unfold parseKline row
  simp only [rowItem, List.getElem?_cons_zero, List.getElem?_cons_succ, bind, Except.bind, opens,
    closes]
  rfl

/-- A row whose numbers are positive is decoded to them. -/
theorem parse_of_positive {open_ high low close volume : ExtNum ℚ}
    (opens : toFloatOf ofText k.open_ "open" = .ok open_)
    (highs : toFloatOf ofText k.high "high" = .ok high)
    (lows : toFloatOf ofText k.low "low" = .ok low)
    (closes : toFloatOf ofText k.close "close" = .ok close)
    (volumes : toFloatOf ofText k.volume "volume" = .ok volume) :
    parseKline ofText k.row = .ok (k.candle open_ high low close volume) := by
  rw [parse_row, opens, highs, lows, closes, volumes]
  rfl

theorem parse_ok_iff {decoded : FeedCandle} :
    parseKline ofText k.row = .ok decoded ↔
      ∃ open_ high low close volume, toFloatOf ofText k.open_ "open" = .ok open_ ∧
        toFloatOf ofText k.high "high" = .ok high ∧ toFloatOf ofText k.low "low" = .ok low ∧
        toFloatOf ofText k.close "close" = .ok close ∧
        toFloatOf ofText k.volume "volume" = .ok volume ∧
        decoded = k.candle open_ high low close volume := by
  constructor
  · intro parsed
    rw [parse_row] at parsed
    obtain ⟨open_, opens, parsed⟩ := bind_ok_iff.mp parsed
    obtain ⟨high, highs, parsed⟩ := bind_ok_iff.mp parsed
    obtain ⟨low, lows, parsed⟩ := bind_ok_iff.mp parsed
    obtain ⟨close, closes, parsed⟩ := bind_ok_iff.mp parsed
    obtain ⟨volume, volumes, parsed⟩ := bind_ok_iff.mp parsed
    exact ⟨open_, high, low, close, volume, opens, highs, lows, closes, volumes,
      (Except.ok.inj parsed).symm⟩
  · rintro ⟨open_, high, low, close, volume, opens, highs, lows, closes, volumes, rfl⟩
    exact k.parse_of_positive opens highs lows closes volumes

/-- **A row is decoded exactly when** its prices and its volume read as positive numbers. -/
theorem accepted_iff :
    k.Accepted ofText ↔ ∀ v ∈ k.prices ++ [k.volume], ReadsPositive ofText v := by
  simp only [prices, List.cons_append, List.nil_append, List.forall_mem_cons, List.not_mem_nil,
    false_implies, implies_true, and_true]
  constructor
  · rintro ⟨decoded, parsed⟩
    obtain ⟨_, _, _, _, _, opens, highs, lows, closes, volumes, -⟩ := k.parse_ok_iff.mp parsed
    exact ⟨⟨_, toFloatOf_ok_iff.mp opens⟩, ⟨_, toFloatOf_ok_iff.mp highs⟩,
      ⟨_, toFloatOf_ok_iff.mp lows⟩, ⟨_, toFloatOf_ok_iff.mp closes⟩,
      ⟨_, toFloatOf_ok_iff.mp volumes⟩⟩
  · rintro ⟨⟨_, opens⟩, ⟨_, highs⟩, ⟨_, lows⟩, ⟨_, closes⟩, ⟨_, volumes⟩⟩
    exact ⟨_, k.parse_of_positive (toFloatOf_ok_iff.mpr opens) (toFloatOf_ok_iff.mpr highs)
      (toFloatOf_ok_iff.mpr lows) (toFloatOf_ok_iff.mpr closes) (toFloatOf_ok_iff.mpr volumes)⟩

/-- The rows that are decoded are those in order, but where a number is infinite or nothing was
traded. -/
theorem accepted_valid_iff :
    (k.Accepted ofText ↔ k.Valid ofText) ↔ ¬ (k.Unbounded ofText ∨ k.Untraded ofText) := by
  have split {P : Json → Prop} : (∀ v ∈ k.prices ++ [k.volume], P v) ↔
      (∀ price ∈ k.prices, P price) ∧ P k.volume := by
    simp only [List.forall_mem_append, List.forall_mem_singleton]
  have positive {v : Json} (reads : ReadsPrice ofText v) : ReadsPositive ofText v :=
    (readsPrice_iff.mp reads).1
  rw [accepted_iff]
  constructor
  · rintro same (⟨all, v, member, infinite⟩ | ⟨inOrder, nothing⟩)
    · obtain ⟨inOrder, volume⟩ := same.mp all
      rcases List.mem_append.mp member with price | last
      · exact (readsPrice_iff.mp (inOrder v price)).2 infinite
      · obtain rfl := List.mem_singleton.mp last
        obtain ⟨q, reads, -⟩ := volume
        rw [infinite] at reads
        cases reads
    · have valid : k.Valid ofText := ⟨inOrder, readsVolume_iff.mpr (.inr nothing)⟩
      obtain ⟨f, reads, traded⟩ := (split.mp (same.mpr valid)).2
      rw [nothing] at reads
      obtain rfl := Except.ok.inj reads
      exact absurd traded (lt_irrefl (0 : ℚ))
  · intro neither
    obtain ⟨bounded, traded⟩ := not_or.mp neither
    constructor
    · intro all
      have finite (v : Json) (member : v ∈ k.prices ++ [k.volume]) : ReadsPrice ofText v :=
        readsPrice_iff.mpr ⟨all v member, fun infinite => bounded ⟨all, v, member, infinite⟩⟩
      obtain ⟨inOrder, volume⟩ := split.mp finite
      exact ⟨inOrder, readsVolume_iff.mpr (.inl volume)⟩
    · rintro ⟨inOrder, volume⟩
      refine split.mpr ⟨fun price member => positive (inOrder price member), ?_⟩
      rcases readsVolume_iff.mp volume with reads | nothing
      · exact positive reads
      · exact absurd ⟨inOrder, nothing⟩ traded

end Kline

/-! ## The last price -/

/-- A page is decoded when every row of it is. -/
theorem klinesOf_ok_iff {page : List Json} {candles : List FeedCandle} :
    klinesOf ofText (.arr page) = .ok candles ↔
      ∃ rows, List.Forall₂ (fun row candle => parseKline ofText row = .ok candle) page rows ∧
        candles = rows.insertionSort NotAfter := by
  rw [klinesOf, bind_ok_iff]
  refine exists_congr fun rows => ?_
  rw [mapM_ok_iff]
  exact and_congr_right fun _ =>
    ⟨fun sorted => (Except.ok.inj sorted).symm, fun sorted => congrArg Except.ok sorted.symm⟩

/-- What a fetch that succeeds was answered. -/
theorem klinesOf_of_fetch {http : HttpJson} {symbol : String} {timeframeS : ℚ} {limit : ℤ}
    {endMs : Option ℤ} {candles : List FeedCandle}
    (fetched : fetchKlines ofText http symbol timeframeS limit endMs = .ok candles) :
    ∃ interval data, http ⟨symbol, interval, limit, endMs⟩ = .ok data ∧
      klinesOf ofText data = .ok candles := by
  unfold fetchKlines at fetched
  split at fetched
  · cases fetched
  · rename_i interval _
    split at fetched
    · cases fetched
    · obtain ⟨data, answered, decoded⟩ := bind_ok_iff.mp fetched
      exact ⟨interval, data, answered, decoded⟩

variable (ofText) in
/-- On the page, whenever its klines are fetched, the last price is the close of the last row. -/
def PriceAgrees (page : List Json) : Prop :=
  ∀ symbol timeframeS limit endMs candles last candle,
    fetchKlines ofText (serving page) symbol timeframeS limit endMs = .ok candles →
      page.getLast? = some last → parseKline ofText last = .ok candle →
        fetchLastPrice (serving page) symbol = .ok candle.close

variable (ofText) in
/-- The page is decoded, and the close of its last row is a text. -/
def ClosesInText (page : List Json) : Prop :=
  (∃ candles, klinesOf ofText (.arr page) = .ok candles) ∧
    ∃ last text, page.getLast? = some last ∧ rowItem last 4 = .ok (.str text)

/-- The close of a row that is decoded. -/
theorem close_of_parse {row : Json} {candle : FeedCandle}
    (parsed : parseKline ofText row = .ok candle) :
    ∃ close, rowItem row 4 = .ok close ∧ toFloat ofText close = .ok candle.close ∧
      fin 0 < candle.close := by
  unfold parseKline at parsed
  obtain ⟨_, -, parsed⟩ := bind_ok_iff.mp parsed
  obtain ⟨_, -, parsed⟩ := bind_ok_iff.mp parsed
  obtain ⟨_, -, parsed⟩ := bind_ok_iff.mp parsed
  obtain ⟨_, -, parsed⟩ := bind_ok_iff.mp parsed
  obtain ⟨close, there, parsed⟩ := bind_ok_iff.mp parsed
  obtain ⟨_, -, parsed⟩ := bind_ok_iff.mp parsed
  obtain ⟨_, -, parsed⟩ := bind_ok_iff.mp parsed
  obtain ⟨_, -, parsed⟩ := bind_ok_iff.mp parsed
  obtain ⟨_, -, parsed⟩ := bind_ok_iff.mp parsed
  obtain ⟨_, -, parsed⟩ := bind_ok_iff.mp parsed
  obtain ⟨f, read, parsed⟩ := bind_ok_iff.mp parsed
  obtain ⟨_, -, parsed⟩ := bind_ok_iff.mp parsed
  obtain ⟨_, -, parsed⟩ := bind_ok_iff.mp parsed
  obtain ⟨_, -, parsed⟩ := bind_ok_iff.mp parsed
  obtain rfl := Except.ok.inj parsed
  exact ⟨close, there, toFloatOf_ok_iff.mp read⟩

/-- A number that reads as positive is a price. -/
theorem isPrice_of_reads {close : Json} {f : ExtNum ℚ} (reads : toFloat ofText close = .ok f)
    (positive : fin 0 < f) (number_ : ∀ text, close ≠ .str text) :
    isPrice close = true ∧ number close = .ok f := by
  have read : number close = .ok f := by
    cases close with
    | str text => exact absurd rfl (number_ text)
    | _ => exact reads
  refine ⟨?_, read⟩
  cases close with
  | int n =>
      by_contra nonpos
      have le : (n : ℚ) ≤ 0 := by
        simp only [isPrice, decide_eq_true_eq, not_lt] at nonpos
        exact_mod_cast nonpos
      have not_positive := toBinary64_nonpos le
      rw [number] at read
      unfold floatOfInt at read
      split at read
      · rename_i x rounded
        obtain rfl := Except.ok.inj read
        exact not_positive (rounded ▸ positive)
      · cases read
  | float x =>
      obtain rfl := Except.ok.inj read
      simpa only [isPrice, decide_eq_true_eq] using ExtNum.not_le_of_lt positive
  | bool b =>
      cases b with
      | true => rfl
      | false =>
          obtain rfl := Except.ok.inj read
          exact absurd positive (lt_irrefl (0 : ℚ))
  | null => cases read
  | str text => exact absurd rfl (number_ text)
  | arr items => cases read
  | obj fields => cases read

/-- A text is no price. -/
theorem lastPriceOf_text {page : List Json} {last : Json} {text : String}
    (newest : page.getLast? = some last) (there : rowItem last 4 = .ok (.str text)) :
    lastPriceOf (.arr page) = .error (.feed .invalidPrice) := by
  simp only [lastPriceOf, newest, there, bind, Except.bind, isPrice, Bool.false_eq_true, if_false]

theorem lastPriceOf_number {page : List Json} {last close : Json} {f : ExtNum ℚ}
    (newest : page.getLast? = some last) (there : rowItem last 4 = .ok close)
    (price : isPrice close = true) (read : number close = .ok f) :
    lastPriceOf (.arr page) = .ok f := by
  simp only [lastPriceOf, newest, there, bind, Except.bind, if_pos price, read]
  rfl

/-- **The last price is the last close exactly when** no page that is decoded closes in a
text. -/
theorem priceAgrees_iff (page : List Json) :
    PriceAgrees ofText page ↔ ¬ ClosesInText ofText page := by
  constructor
  · rintro agrees ⟨⟨candles, decoded⟩, last, text, newest, there⟩
    have fetched : fetchKlines ofText (serving page) "" 60 1 none = .ok candles := decoded
    obtain ⟨rows, parsed, -⟩ := klinesOf_ok_iff.mp decoded
    obtain ⟨candle, candle_⟩ : ∃ candle, parseKline ofText last = .ok candle := by
      obtain ⟨i, inside, rfl⟩ := List.getElem_of_mem (List.mem_of_getLast? newest)
      have same := parsed.length_eq
      exact ⟨rows[i], parsed.get inside (by omega)⟩
    have price := agrees "" 60 1 none candles last candle fetched newest candle_
    have refused : fetchLastPrice (serving page) "" = .error (.feed .invalidPrice) :=
      lastPriceOf_text newest there
    rw [refused] at price
    cases price
  · intro number_ symbol timeframeS limit endMs candles last candle fetched newest parsed
    obtain ⟨interval, data, answered, decoded⟩ := klinesOf_of_fetch fetched
    obtain rfl : Json.arr page = data := Except.ok.inj answered
    obtain ⟨close, there, reads, positive⟩ := close_of_parse parsed
    have noText (text : String) (same : close = .str text) : False :=
      number_ ⟨⟨candles, decoded⟩, last, text, newest, same ▸ there⟩
    obtain ⟨price, read⟩ := isPrice_of_reads reads positive noText
    exact lastPriceOf_number newest there price read

/-- **Decoding is exact, exactly when**: for every row in the format of the venue, it is decoded
if and only if it is in order, unless a number is infinite or nothing was traded; and for every
page, the last price is the close of the last row, unless that is a text. -/
theorem decoding_iff (ofText : String → Option (ExtNum ℚ)) :
    (∀ k : Kline, (k.Accepted ofText ↔ k.Valid ofText) ↔
      ¬ (k.Unbounded ofText ∨ k.Untraded ofText)) ∧
    ∀ page : List Json, PriceAgrees ofText page ↔ ¬ ClosesInText ofText page :=
  ⟨fun k => k.accepted_valid_iff, priceAgrees_iff⟩

end Accepted

/-- `["1", "1", "1", "1"]`, and no volume: the first minute of the epoch. -/
def untraded : Kline where
  openMs := 0
  open_ := .str "1"
  high := .str "1"
  low := .str "1"
  close := .str "1"
  volume := .str "0"
  closeMs := 59999
  rest := []
  open_exact := floatOfInt_small (by decide)
  close_exact := floatOfInt_small (by decide)

/-- Refuting pole: the row of a minute in which nothing was traded is refused. -/
theorem untraded_refused :
    ¬ ∀ ofText : String → Option (ExtNum ℚ),
      (∀ k : Kline, k.Accepted ofText ↔ k.Valid ofText) ∧ ∀ page, PriceAgrees ofText page := by
  intro always
  have exact_ := (always fun text => parseFloat text.toList).1 untraded
  refine untraded.accepted_valid_iff.mp exact_ (.inr ⟨?_, by decide +kernel⟩)
  simp only [Kline.prices, List.forall_mem_cons, List.not_mem_nil, false_implies, implies_true,
    and_true]
  have one : toFloat (fun text => parseFloat text.toList) (.str "1") = .ok (fin 1) := by
    decide +kernel
  exact ⟨⟨1, one, one_pos⟩, ⟨1, one, one_pos⟩, ⟨1, one, one_pos⟩, ⟨1, one, one_pos⟩⟩

end CentaurApex.Adapters
