/-
# Cortex.Patterns -- candle patterns as data, and the interpreter that reads them

A pattern is a list of conditions on the last bars, each a dictionary of untyped values: which
bar, which of its features, an operator and a number.  The schema says no more than that; the
interpreter finds out, condition by condition, and stops at the first that does not hold.

* **What a condition means** (`readCondition_ok_iff`): it can be read exactly when it is
  `WellFormed`, and then it is true exactly when it `Holds`.
* **What a pattern means** (`match_iff`): the patterns with bars enough whose conditions all
  hold are returned, if and only if every condition that is reached is well formed.  Otherwise
  the whole catalog raises.

Refuting pole `bar_out_of_window`: a pattern over one bar that asks for the one before it.
-/
import CentaurApex.Cortex.MarketContext
import CentaurApex.Theory.PyDict

namespace CentaurApex.Cortex

open CentaurApex.Theory
open CentaurApex.Theory.Python
open CentaurApex.Theory.ExtNum (fin)

set_option autoImplicit false

/-- What stops a program: an exception that names what it met, or one of the interpreter's. -/
inductive Raised where
  | indexError
  | recursionError
  | error (e : PyError)
  deriving DecidableEq, Repr

/-! ## Bars -/

structure BarFeatures where
  candle : Candle
  atr : ExtNum ℚ
  deriving DecidableEq

namespace BarFeatures

variable (f : BarFeatures)

def body : ℚ := f.candle.close - f.candle.open_

def bodyAbs : ℚ := |f.body|

def rng : ℚ := max (f.candle.high - f.candle.low) (1 / 10 ^ 12)

def bodyRatio : ℚ := min (f.bodyAbs / f.rng) 1

def upperWick : ℚ := max (f.candle.high - max f.candle.open_ f.candle.close) 0

def lowerWick : ℚ := max (min f.candle.open_ f.candle.close - f.candle.low) 0

def uwRatio : ℚ := f.upperWick / f.rng

def lwRatio : ℚ := f.lowerWick / f.rng

def direction : ℤ := if 0 < f.body then 1 else if f.body < 0 then -1 else 0

/-- A range in average ranges; none where the average is not positive. -/
def atrScale : ExtNum ℚ := if 0 < f.atr then fin f.rng / f.atr else 0

def asDict : List (String × ExtNum ℚ) :=
  [("open", fin f.candle.open_), ("high", fin f.candle.high), ("low", fin f.candle.low),
    ("close", fin f.candle.close), ("body", fin f.body), ("body_abs", fin f.bodyAbs),
    ("rng", fin f.rng), ("body_ratio", fin f.bodyRatio), ("upper_wick", fin f.upperWick),
    ("lower_wick", fin f.lowerWick), ("uw_ratio", fin f.uwRatio), ("lw_ratio", fin f.lwRatio),
    ("direction", fin f.direction), ("atr_scale", f.atrScale)]

/-- The features, by name. -/
def names : List String :=
  ["open", "high", "low", "close", "body", "body_abs", "rng", "body_ratio", "upper_wick",
    "lower_wick", "uw_ratio", "lw_ratio", "direction", "atr_scale"]

theorem asDict_names : f.asDict.map Prod.fst = names := rfl

end BarFeatures

def buildBarFeatures (candles : List Candle) (atr : ExtNum ℚ) : List BarFeatures :=
  candles.map fun c => ⟨c, atr⟩

/-! ## Untyped values -/

/-- An object of another class, by what it answers to the interpreter. -/
structure Foreign where
  /-- as an index of a list -/
  index : Except Raised ℤ
  /-- as a key of a dictionary -/
  key : Except Raised String
  /-- `float(o)` -/
  float : Except Raised (ExtNum ℚ)
  /-- as the operator of a comparison -/
  op : Except Raised String

/-- A value that the schema does not constrain. -/
inductive AnyValue where
  | json (value : Json)
  | object (o : Foreign)

namespace AnyValue

def index : AnyValue → Except Raised ℤ
  | json (.int n) => .ok n
  | json (.bool b) => .ok (if b then 1 else 0)
  | json _ => .error (.error .typeError)
  | object o => o.index

/-- A list and a dict cannot be hashed; any other value is a key, though not of a string's
dictionary. -/
def key : AnyValue → Except Raised String
  | json (.str s) => .ok s
  | json (.arr _) => .error (.error .typeError)
  | json (.obj _) => .error (.error .typeError)
  | json _ => .error (.error (.keyError "feature"))
  | object o => o.key

def float (ofText : String → Option (ExtNum ℚ)) : AnyValue → Except Raised (ExtNum ℚ)
  | json value => (toFloat ofText value).mapError .error
  | object o => o.float

/-- A value that is no string equals no operator. -/
def op : AnyValue → Except Raised String
  | json (.str s) => .ok s
  | json _ => .error (.error (.valueError "unknown op" none))
  | object o => o.op

end AnyValue

/-! ## Specifications -/

inductive PatternDirection where
  | bull | bear | neutral
  deriving DecidableEq, Repr

abbrev Condition : Type := PyDict String AnyValue

structure PatternSpec where
  id : String
  direction : PatternDirection
  candles : ℕ
  conditions : List Condition
  candles_pos : 1 ≤ candles
  candles_le : candles ≤ 4

structure PatternHit where
  id : String
  direction : PatternDirection
  candles : ℕ
  deriving DecidableEq

def PatternSpec.hit (spec : PatternSpec) : PatternHit := ⟨spec.id, spec.direction, spec.candles⟩

/-! ## Operators -/

inductive Op where
  | gt | gte | lt | lte | eq | neq
  deriving DecidableEq, Repr

namespace Op

def text : Op → String
  | gt => "gt"
  | gte => "gte"
  | lt => "lt"
  | lte => "lte"
  | eq => "eq"
  | neq => "neq"

/-- How close numbers are that count as equal. -/
def tolerance : ExtNum ℚ := fin (1 / 10 ^ 9)

/-- What an operator says of two numbers. -/
def Relates : Op → ExtNum ℚ → ExtNum ℚ → Prop
  | gt, left, right => right < left
  | gte, left, right => right ≤ left
  | lt, left, right => left < right
  | lte, left, right => left ≤ right
  | eq, left, right => (left - right).abs < tolerance
  | neq, left, right => tolerance ≤ (left - right).abs

instance : (op : Op) → (left right : ExtNum ℚ) → Decidable (op.Relates left right)
  | gt, left, right => inferInstanceAs (Decidable (right < left))
  | gte, left, right => inferInstanceAs (Decidable (right ≤ left))
  | lt, left, right => inferInstanceAs (Decidable (left < right))
  | lte, left, right => inferInstanceAs (Decidable (left ≤ right))
  | eq, left, right => inferInstanceAs (Decidable ((left - right).abs < tolerance))
  | neq, left, right => inferInstanceAs (Decidable (tolerance ≤ (left - right).abs))

end Op

/-! ## The catalog -/

/-- A condition as the catalog writes it. -/
def Condition.of (bar : ℤ) (feature : String) (op : Op) (value : Json) : Condition :=
  ⟨[("bar", .json (.int bar)), ("feature", .json (.str feature)), ("op", .json (.str op.text)),
    ("value", .json value)], by simp⟩

/-- A seed of one bar or two. -/
def seed (id : String) (direction : PatternDirection) (conditions : List Condition)
    (two : Bool) : PatternSpec :=
  ⟨id, direction, if two then 2 else 1, conditions, by cases two <;> decide,
    by cases two <;> decide⟩

section Seeds

def small (feature : String) (value : ℚ) : Condition := .of (-1) feature .lt (.float (fin value))

def large (feature : String) (value : ℚ) : Condition := .of (-1) feature .gt (.float (fin value))

def turned (bar : ℤ) (direction : ℤ) : Condition := .of bar "direction" .eq (.int direction)

def seedPatterns : List PatternSpec :=
  [seed "doji" .neutral [small "body_ratio" (1 / 10)] false,
    seed "spinning_top" .neutral
      [small "body_ratio" (3 / 10), large "uw_ratio" (1 / 5), large "lw_ratio" (1 / 5)] false,
    seed "hammer" .bull
      [small "body_ratio" (2 / 5), large "lw_ratio" (1 / 2), small "uw_ratio" (3 / 20)] false,
    seed "inverted_hammer" .bull
      [small "body_ratio" (2 / 5), large "uw_ratio" (1 / 2), small "lw_ratio" (3 / 20)] false,
    seed "shooting_star" .bear
      [small "body_ratio" (2 / 5), large "uw_ratio" (1 / 2), small "lw_ratio" (3 / 20)] false,
    seed "hanging_man" .bear
      [small "body_ratio" (2 / 5), large "lw_ratio" (1 / 2), small "uw_ratio" (3 / 20)] false,
    seed "marubozu_bull" .bull
      [large "body_ratio" (9 / 10), small "uw_ratio" (3 / 100), small "lw_ratio" (3 / 100),
        turned (-1) 1] false,
    seed "marubozu_bear" .bear
      [large "body_ratio" (9 / 10), small "uw_ratio" (3 / 100), small "lw_ratio" (3 / 100),
        turned (-1) (-1)] false,
    seed "bull_engulfing" .bull [turned (-2) (-1), turned (-1) 1] true,
    seed "bear_engulfing" .bear [turned (-2) 1, turned (-1) (-1)] true]

end Seeds

structure PatternMatcher where
  specs : List PatternSpec

/-- `specs or` the seeds: an empty list is replaced too. -/
def PatternMatcher.new (specs : Option (List PatternSpec)) : PatternMatcher :=
  match specs with
  | some (spec :: specs) => ⟨spec :: specs⟩
  | _ => ⟨seedPatterns⟩

/-! ## The interpreter -/

/-- `_cmp` -/
def cmp (left right : ExtNum ℚ) (op : String) : Except Raised Bool :=
  if op = "gt" then .ok (right < left)
  else if op = "gte" then .ok (right ≤ left)
  else if op = "lt" then .ok (left < right)
  else if op = "lte" then .ok (left ≤ right)
  else if op = "eq" then .ok ((left - right).abs < fin (1 / 10 ^ 9))
  else if op = "neq" then .ok (fin (1 / 10 ^ 9) ≤ (left - right).abs)
  else .error (.error (.valueError ("unknown op: " ++ op) none))

/-- `cond[key]` -/
def Condition.item (cond : Condition) (key : String) : Except Raised AnyValue :=
  match cond.get? key with
  | some value => .ok value
  | none => .error (.error (.keyError key))

/-- `xs[b]`, from the end for a negative index. -/
def pyIndex {α : Type} (xs : List α) (b : ℤ) : Option α :=
  if 0 ≤ b then xs[b.toNat]?
  else if -b ≤ xs.length then xs[(xs.length + b).toNat]?
  else none

theorem isSome_pyIndex {α : Type} {xs : List α} {b : ℤ} :
    (pyIndex xs b).isSome ↔ -(xs.length : ℤ) ≤ b ∧ b < xs.length := by
  unfold pyIndex
  by_cases front : 0 ≤ b
  · rw [if_pos front, Option.isSome_iff_ne_none, ne_eq, List.getElem?_eq_none_iff]
    omega
  by_cases back : -b ≤ xs.length
  · rw [if_neg front, if_pos back, Option.isSome_iff_ne_none, ne_eq, List.getElem?_eq_none_iff]
    omega
  · rw [if_neg front, if_neg back]
    simp only [Option.isSome_none, Bool.false_eq_true, false_iff]
    omega

/-- `window[b]` -/
def barAt (window : List BarFeatures) (b : ℤ) : Except Raised BarFeatures :=
  match pyIndex window b with
  | some bar => .ok bar
  | none => .error .indexError

/-- `fb[feature]` -/
def BarFeatures.feature (f : BarFeatures) (name : String) : Except Raised (ExtNum ℚ) :=
  match f.asDict.lookup name with
  | some x => .ok x
  | none => .error (.error (.keyError name))

section Interpreter

-- `float(text)`
variable (ofText : String → Option (ExtNum ℚ))

/-- One condition, its parts read in the order of the call. -/
def readCondition (window : List BarFeatures) (cond : Condition) : Except Raised Bool := do
  let fb ← barAt window (← (← cond.item "bar").index)
  let left ← fb.feature (← (← cond.item "feature").key)
  let right ← (← cond.item "value").float ofText
  cmp left right (← (← cond.item "op").op)

/-- The conditions, up to the first that is not true. -/
def readConditions (window : List BarFeatures) : List Condition → Except Raised Bool
  | [] => .ok true
  | cond :: conds => do
      if ← readCondition ofText window cond then readConditions window conds else return false

def matchSpecs (bars : List BarFeatures) : List PatternSpec → Except Raised (List PatternHit)
  | [] => .ok []
  | spec :: specs => do
      if bars.length < spec.candles then matchSpecs bars specs
      else
        let ok ← readConditions ofText (lastN spec.candles bars) spec.conditions
        let hits ← matchSpecs bars specs
        return if ok then spec.hit :: hits else hits

def PatternMatcher.match_ (matcher : PatternMatcher) (bars : List BarFeatures) :
    Except Raised (List PatternHit) := matchSpecs ofText bars matcher.specs

/-! ## What a condition means -/

/-- A part of a condition, read. -/
def Reads {α : Type} (cond : Condition) (key : String) (read : AnyValue → Except Raised α)
    (P : α → Prop) : Prop :=
  ∃ value a, cond.get? key = some value ∧ read value = .ok a ∧ P a

/-- A condition that can be read on a window of `k` bars: a bar of the window, a feature, a
number and an operator. -/
structure WellFormed (k : ℕ) (cond : Condition) : Prop where
  bar : Reads cond "bar" AnyValue.index fun b => -k ≤ b ∧ b < k
  feature : Reads cond "feature" AnyValue.key fun name => name ∈ BarFeatures.names
  value : Reads cond "value" (AnyValue.float ofText) fun _ => True
  op : Reads cond "op" AnyValue.op fun text => ∃ op : Op, op.text = text

/-- The feature of the bar that the condition names is related to its number. -/
def Holds (window : List BarFeatures) (cond : Condition) : Prop :=
  ∃ (fb : BarFeatures) (x y : ExtNum ℚ) (op : Op),
    Reads cond "bar" AnyValue.index (fun b => barAt window b = .ok fb) ∧
    Reads cond "feature" AnyValue.key (fun name => fb.asDict.lookup name = some x) ∧
    Reads cond "value" (AnyValue.float ofText) (fun number => number = y) ∧
    Reads cond "op" AnyValue.op (fun text => text = op.text) ∧ op.Relates x y

theorem item_ok_iff {cond : Condition} {key : String} {value : AnyValue} :
    cond.item key = .ok value ↔ cond.get? key = some value := by
  unfold Condition.item
  cases cond.get? key with
  | none => simp
  | some v => simp

theorem feature_ok_iff {f : BarFeatures} {name : String} {x : ExtNum ℚ} :
    f.feature name = .ok x ↔ f.asDict.lookup name = some x := by
  unfold BarFeatures.feature
  cases f.asDict.lookup name with
  | none => simp
  | some v => simp

theorem exists_feature_iff {f : BarFeatures} {name : String} :
    (∃ x, f.asDict.lookup name = some x) ↔ name ∈ BarFeatures.names := by
  rw [← f.asDict_names, ← Option.isSome_iff_exists, List.lookup_isSome_iff, List.mem_map]
  constructor
  · rintro ⟨p, member, same⟩
    exact ⟨p, member, (beq_iff_eq.mp same).symm⟩
  · rintro ⟨p, member, rfl⟩
    exact ⟨p, member, beq_self_eq_true _⟩

theorem barAt_ok_iff {window : List BarFeatures} {b : ℤ} {fb : BarFeatures} :
    barAt window b = .ok fb ↔ pyIndex window b = some fb := by
  unfold barAt
  cases pyIndex window b with
  | none => simp
  | some v => simp

theorem exists_barAt_iff {window : List BarFeatures} {b : ℤ} :
    (∃ fb, barAt window b = .ok fb) ↔ -(window.length : ℤ) ≤ b ∧ b < window.length := by
  rw [← isSome_pyIndex, Option.isSome_iff_exists]
  exact exists_congr fun _ => barAt_ok_iff

theorem cmp_text (op : Op) (left right : ExtNum ℚ) :
    cmp left right op.text = .ok (op.Relates left right) := by
  cases op <;> rfl

/-- Only the six operators compare. -/
theorem exists_op {left right : ExtNum ℚ} {text : String} {b : Bool}
    (compared : cmp left right text = .ok b) : ∃ op : Op, op.text = text := by
  by_contra unknown
  have not_ (op : Op) : text ≠ op.text := fun same => unknown ⟨op, same.symm⟩
  have gt : text ≠ "gt" := not_ .gt
  have gte : text ≠ "gte" := not_ .gte
  have lt : text ≠ "lt" := not_ .lt
  have lte : text ≠ "lte" := not_ .lte
  have eq : text ≠ "eq" := not_ .eq
  have neq : text ≠ "neq" := not_ .neq
  rw [cmp, if_neg gt, if_neg gte, if_neg lt, if_neg lte, if_neg eq, if_neg neq] at compared
  cases compared

/-- What it takes to read a condition, and what it says. -/
theorem readCondition_iff {window : List BarFeatures} {cond : Condition} {b : Bool} :
    readCondition ofText window cond = .ok b ↔
      ∃ (fb : BarFeatures) (x y : ExtNum ℚ) (op : Op),
        Reads cond "bar" AnyValue.index (fun b => barAt window b = .ok fb) ∧
        Reads cond "feature" AnyValue.key (fun name => fb.asDict.lookup name = some x) ∧
        Reads cond "value" (AnyValue.float ofText) (fun number => number = y) ∧
        Reads cond "op" AnyValue.op (fun text => text = op.text) ∧ b = decide (op.Relates x y) := by
  unfold readCondition
  simp only [bind_ok_iff, item_ok_iff, feature_ok_iff, Reads]
  constructor
  · rintro ⟨bar, bar_, i, index, fb, at_, name, name_, key, keyed, x, found, value, value_, y, float,
      op, op_, text, read, compared⟩
    obtain ⟨operator, rfl⟩ := exists_op compared
    rw [cmp_text] at compared
    exact ⟨fb, x, y, operator, ⟨bar, i, bar_, index, at_⟩, ⟨name, key, name_, keyed, found⟩,
      ⟨value, y, value_, float, rfl⟩, ⟨op, _, op_, read, rfl⟩, (Except.ok.inj compared).symm⟩
  · rintro ⟨fb, x, _, operator, ⟨bar, i, bar_, index, at_⟩, ⟨name, key, name_, keyed, found⟩,
      ⟨value, y, value_, float, rfl⟩, ⟨op, _, op_, read, rfl⟩, rfl⟩
    exact ⟨bar, bar_, i, index, fb, at_, name, name_, key, keyed, x, found, value, value_, y, float,
      op, op_, _, read, cmp_text operator x y⟩

/-- A condition is true exactly when it holds. -/
theorem readCondition_true_iff {window : List BarFeatures} {cond : Condition} :
    readCondition ofText window cond = .ok true ↔ Holds ofText window cond := by
  rw [readCondition_iff, Holds]
  simp only [true_eq_decide_iff]

/-- **A condition can be read exactly when it is well formed.** -/
theorem readCondition_ok_iff {window : List BarFeatures} {cond : Condition} :
    (∃ b, readCondition ofText window cond = .ok b) ↔ WellFormed ofText window.length cond := by
  constructor
  · rintro ⟨b, read⟩
    obtain ⟨fb, x, y, op, ⟨bar, i, bar_, index, at_⟩, ⟨name, key, name_, keyed, found⟩, value, text,
      -⟩ := (readCondition_iff ofText).mp read
    obtain ⟨value, y, value_, float, -⟩ := value
    obtain ⟨text, t, text_, read, rfl⟩ := text
    exact ⟨⟨bar, i, bar_, index, exists_barAt_iff.mp ⟨fb, at_⟩⟩,
      ⟨name, key, name_, keyed, exists_feature_iff.mp ⟨x, found⟩⟩, ⟨value, y, value_, float, trivial⟩,
      ⟨text, _, text_, read, op, rfl⟩⟩
  · rintro ⟨⟨bar, i, bar_, index, within⟩, ⟨name, key, name_, keyed, named⟩,
      ⟨value, y, value_, float, -⟩, ⟨text, _, text_, read, op, rfl⟩⟩
    obtain ⟨fb, at_⟩ := exists_barAt_iff.mpr within
    obtain ⟨x, found⟩ := (exists_feature_iff (f := fb)).mpr named
    exact ⟨_, (readCondition_iff ofText).mpr ⟨fb, x, y, op, ⟨bar, i, bar_, index, at_⟩,
      ⟨name, key, name_, keyed, found⟩, ⟨value, y, value_, float, rfl⟩, ⟨text, _, text_, read, rfl⟩,
      rfl⟩⟩

instance (window : List BarFeatures) (cond : Condition) : Decidable (Holds ofText window cond) :=
  decidable_of_iff _ (readCondition_true_iff ofText)

/-! ## What a pattern means -/

/-- Every condition that is reached, those before it holding, is well formed. -/
def Readable (window : List BarFeatures) (conds : List Condition) : Prop :=
  ∀ before cond after, conds = before ++ cond :: after →
    (∀ c ∈ before, Holds ofText window c) → WellFormed ofText window.length cond

theorem readable_cons_iff {window : List BarFeatures} {cond : Condition} {conds : List Condition} :
    Readable ofText window (cond :: conds) ↔
      WellFormed ofText window.length cond ∧
        (Holds ofText window cond → Readable ofText window conds) := by
  constructor
  · intro readable
    refine ⟨readable [] cond conds rfl (by simp), fun holds before c after split all => ?_⟩
    exact readable (cond :: before) c after (by rw [split]; rfl)
      (List.forall_mem_cons.mpr ⟨holds, all⟩)
  · rintro ⟨formed, rest⟩ before c after split all
    cases before with
    | nil =>
        obtain ⟨rfl, rfl⟩ := List.cons.inj split
        exact formed
    | cons first before =>
        obtain ⟨rfl, rfl⟩ := List.cons.inj split
        obtain ⟨holds, others⟩ := List.forall_mem_cons.mp all
        exact rest holds before c after rfl others

/-- The conditions are read exactly when they are readable, and then are true exactly when all
of them hold. -/
theorem readConditions_iff {window : List BarFeatures} {conds : List Condition} {b : Bool} :
    readConditions ofText window conds = .ok b ↔
      Readable ofText window conds ∧ b = decide (∀ cond ∈ conds, Holds ofText window cond) := by
  induction conds generalizing b with
  | nil =>
      have readable : Readable ofText window [] := fun before cond after split => by
        cases before <;> cases split
      rw [readConditions, Except.ok.injEq, eq_comm]
      simp [readable]
  | cons cond conds ih =>
      rw [readConditions, bind_ok_iff, readable_cons_iff]
      constructor
      · rintro ⟨ok, read, rest⟩
        have formed := (readCondition_ok_iff ofText).mp ⟨ok, read⟩
        cases ok with
        | true =>
            have holds := (readCondition_true_iff ofText).mp read
            obtain ⟨readable, rfl⟩ := ih.mp rest
            refine ⟨⟨formed, fun _ => readable⟩, ?_⟩
            rw [decide_eq_decide, List.forall_mem_cons]
            exact ⟨fun all => ⟨holds, all⟩, fun all => all.2⟩
        | false =>
            have not_ : ¬ Holds ofText window cond := fun holds => by
              rw [(readCondition_true_iff ofText).mpr holds] at read
              cases read
            refine ⟨⟨formed, fun holds => absurd holds not_⟩, ?_⟩
            obtain rfl : false = b := Except.ok.inj rest
            exact (decide_eq_false fun all => not_ (all cond List.mem_cons_self)).symm
      · rintro ⟨⟨formed, readable⟩, rfl⟩
        obtain ⟨ok, read⟩ := (readCondition_ok_iff ofText).mpr formed
        refine ⟨ok, read, ?_⟩
        cases ok with
        | true =>
            have holds := (readCondition_true_iff ofText).mp read
            refine ih.mpr ⟨readable holds, ?_⟩
            rw [decide_eq_decide, List.forall_mem_cons]
            exact ⟨fun all => all.2, fun all => ⟨holds, all⟩⟩
        | false =>
            have not_ : ¬ Holds ofText window cond := fun holds => by
              rw [(readCondition_true_iff ofText).mpr holds] at read
              cases read
            rw [decide_eq_false fun all => not_ (all cond List.mem_cons_self)]
            rfl

/-- There are bars enough, and all conditions hold on the last of them. -/
def Matches (bars : List BarFeatures) (spec : PatternSpec) : Prop :=
  spec.candles ≤ bars.length ∧
    ∀ cond ∈ spec.conditions, Holds ofText (lastN spec.candles bars) cond

instance (bars : List BarFeatures) (spec : PatternSpec) : Decidable (Matches ofText bars spec) :=
  inferInstanceAs (Decidable (_ ∧ _))

/-- Where there are bars enough, every condition that is reached is well formed. -/
def Accepted (bars : List BarFeatures) (spec : PatternSpec) : Prop :=
  spec.candles ≤ bars.length → Readable ofText (lastN spec.candles bars) spec.conditions

theorem matchSpecs_iff {bars : List BarFeatures} {specs : List PatternSpec}
    {hits : List PatternHit} :
    matchSpecs ofText bars specs = .ok hits ↔
      (∀ spec ∈ specs, Accepted ofText bars spec) ∧
        hits = (specs.filter fun spec => Matches ofText bars spec).map PatternSpec.hit := by
  induction specs generalizing hits with
  | nil =>
      rw [matchSpecs, Except.ok.injEq, eq_comm]
      simp
  | cons spec specs ih =>
      rw [matchSpecs, List.forall_mem_cons, List.filter_cons]
      by_cases few : bars.length < spec.candles
      · have accepted : Accepted ofText bars spec := fun enough => absurd enough (not_le.mpr few)
        have unmatched : ¬ Matches ofText bars spec := fun matches_ => by
          have := matches_.1
          omega
        rw [if_pos few, ih, decide_eq_false unmatched]
        simp [accepted]
      have enough := not_lt.mp few
      have hits (others : List PatternSpec) :
          (if decide (∀ cond ∈ spec.conditions, Holds ofText (lastN spec.candles bars) cond) = true
            then spec.hit :: others.map PatternSpec.hit else others.map PatternSpec.hit) =
          (if decide (Matches ofText bars spec) = true then spec :: others else others).map
            PatternSpec.hit := by
        by_cases all : ∀ cond ∈ spec.conditions, Holds ofText (lastN spec.candles bars) cond
        · rw [if_pos (decide_eq_true all),
            if_pos (decide_eq_true (show Matches ofText bars spec from ⟨enough, all⟩)), List.map_cons]
        · rw [if_neg (by simpa using all), if_neg fun matches_ => all (of_decide_eq_true matches_).2]
      rw [if_neg few, bind_ok_iff]
      simp only [bind_ok_iff]
      constructor
      · rintro ⟨ok, read, others, rest, same⟩
        obtain ⟨readable, rfl⟩ := (readConditions_iff ofText).mp read
        obtain ⟨accepted, rfl⟩ := ih.mp rest
        exact ⟨⟨fun _ => readable, accepted⟩, (Except.ok.inj same).symm.trans (hits _)⟩
      · rintro ⟨⟨readable, accepted⟩, rfl⟩
        exact ⟨_, (readConditions_iff ofText).mpr ⟨readable enough, rfl⟩, _,
          ih.mpr ⟨accepted, rfl⟩, congrArg Except.ok (hits _)⟩

/-- **What the catalog means**: the patterns with bars enough, all of whose conditions hold on
the last of them, are returned, if and only if each condition that is reached -- its pattern has
bars enough, and the conditions before it hold -- is well formed: a bar of the pattern's window,
one of the features, a number and an operator. -/
theorem match_iff (matcher : PatternMatcher) (bars : List BarFeatures) :
    matcher.match_ ofText bars =
        .ok ((matcher.specs.filter fun spec => Matches ofText bars spec).map PatternSpec.hit) ↔
      ∀ spec ∈ matcher.specs, Accepted ofText bars spec := by
  rw [PatternMatcher.match_, matchSpecs_iff]
  exact and_iff_left rfl

/-- A pattern whose conditions are all well formed is accepted, whatever the bars. -/
theorem accepted_of_wellFormed {bars : List BarFeatures} {spec : PatternSpec}
    (formed : ∀ cond ∈ spec.conditions, WellFormed ofText spec.candles cond) :
    Accepted ofText bars spec := by
  intro enough before cond after split _
  have length : (lastN spec.candles bars).length = spec.candles := by
    rw [lastN, List.length_drop]
    omega
  rw [length]
  exact formed cond (by rw [split]; exact List.mem_append_right _ List.mem_cons_self)

theorem wellFormed_of {k : ℕ} {bar : ℤ} {feature : String} {op : Op} {value : Json}
    (within : -k ≤ bar ∧ bar < k) (named : feature ∈ BarFeatures.names) {y : ExtNum ℚ}
    (number : toFloat ofText value = .ok y) :
    WellFormed ofText k (.of bar feature op value) := by
  refine ⟨⟨_, bar, rfl, rfl, within⟩, ⟨_, feature, rfl, rfl, named⟩,
    ⟨_, y, rfl, ?_, trivial⟩, ⟨_, op.text, rfl, rfl, op, rfl⟩⟩
  rw [AnyValue.float, number]
  rfl

theorem wellFormed_small {feature : String} (named : feature ∈ BarFeatures.names) (value : ℚ) :
    WellFormed ofText 1 (small feature value) := wellFormed_of ofText (by decide) named rfl

theorem wellFormed_large {feature : String} (named : feature ∈ BarFeatures.names) (value : ℚ) :
    WellFormed ofText 1 (large feature value) := wellFormed_of ofText (by decide) named rfl

theorem wellFormed_turned {k : ℕ} {bar direction : ℤ} (within : -k ≤ bar ∧ bar < k)
    (one : direction = 1 ∨ direction = -1) : WellFormed ofText k (turned bar direction) := by
  have number : floatOfInt direction = .ok (fin direction) := by
    rcases one with rfl | rfl <;> decide +kernel
  exact wellFormed_of ofText within (by decide) number

/-- Every condition of the seeds can be read. -/
theorem wellFormed_seeds : ∀ spec ∈ seedPatterns, ∀ cond ∈ spec.conditions,
    WellFormed ofText spec.candles cond := by
  have bodies : "body_ratio" ∈ BarFeatures.names := by decide
  have uppers : "uw_ratio" ∈ BarFeatures.names := by decide
  have lowers : "lw_ratio" ∈ BarFeatures.names := by decide
  have last {k : ℕ} (one : 1 ≤ k) {direction : ℤ} (turn : direction = 1 ∨ direction = -1) :
      WellFormed ofText k (turned (-1) direction) := wellFormed_turned ofText (by omega) turn
  have before {direction : ℤ} (turn : direction = 1 ∨ direction = -1) :
      WellFormed ofText 2 (turned (-2) direction) := wellFormed_turned ofText (by decide) turn
  simp [seedPatterns, seed, wellFormed_small ofText bodies, wellFormed_small ofText uppers,
    wellFormed_small ofText lowers, wellFormed_large ofText bodies, wellFormed_large ofText uppers,
    wellFormed_large ofText lowers, last, before]

/-- **The seeds raise nothing.** -/
theorem match_seeds (bars : List BarFeatures) :
    (PatternMatcher.new none).match_ ofText bars =
      .ok ((seedPatterns.filter fun spec => Matches ofText bars spec).map PatternSpec.hit) :=
  (matchSpecs_iff ofText).mpr
    ⟨fun spec member => accepted_of_wellFormed ofText (wellFormed_seeds ofText spec member), rfl⟩

/-- Refuting pole: a pattern over one bar whose condition is about the bar before it. -/
theorem bar_out_of_window :
    ¬ ∀ (ofText : String → Option (ExtNum ℚ)) (matcher : PatternMatcher) (bars : List BarFeatures),
      matcher.match_ ofText bars =
        .ok ((matcher.specs.filter fun spec => Matches ofText bars spec).map PatternSpec.hit) := by
  intro always
  have raised := always (fun _ => none)
    ⟨[⟨"gap", .bull, 1, [.of (-2) "body" .gt (.int 0)], by decide, by decide⟩]⟩
    [⟨⟨100, 101, 99, 100, 0, 60, 1⟩, fin 2⟩, ⟨⟨100, 101, 99, 100, 60, 120, 1⟩, fin 2⟩]
  cases raised

end Interpreter

end CentaurApex.Cortex
