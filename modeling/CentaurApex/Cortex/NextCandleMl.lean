/-
# Cortex.NextCandleMl -- a classifier that walks forward, and labels of three values

At every closed candle the call for it is scored, the classifier is fitted again when it is
time, and the next colour is called.  The labels are colours: down, flat and up.  The reader of
the probabilities knows models of one class and of two.

* **Calls are scored once** (`scored_once`): each against the candle right after it, unless that
  is flat, whatever the classifier.
* **Robust, exactly when** (`robust_iff`): no step raises, and after a fit on labels with an up
  candle every step calls, if and only if no training set that is fitted has both a down and a
  flat candle, and none is refused once a fit has seen an up candle.

Refuting pole `flat_label_raises`: a falling candle and a flat one.
-/
import CentaurApex.Cortex.NextCandle
import CentaurApex.Theory.Machine
import Mathlib.Data.List.Dedup
import Mathlib.Data.List.Sort

namespace CentaurApex.Cortex

open CentaurApex.Theory
open CentaurApex.Theory.Python (PyError)
open CentaurApex.Theory.ExtNum (fin)

set_option autoImplicit false

/-! ## Features -/

/-- The candles from `back` before the `i`-th up to it. -/
def tailTo (candles : List Candle) (back i : ℕ) : List Candle := (candles.take (i + 1)).drop (i - back)

/-- `features_for`: what is known at the `i`-th candle. -/
def featuresFor (candles : List Candle) (i : ℕ) : List ℚ :=
  match candles[i]? with
  | none => []
  | some c =>
      let atr := drillAtr (tailTo candles 16 i) 14
      let body := c.close - c.open_
      let rng := c.high - c.low
      let first := ((tailTo candles 9 i).head?.map Candle.close).getD c.close
      [colour c, if 0 < atr then body / atr else 0, if 0 < atr then rng / atr else 0,
        min (if 0 < colour c then streak candles i else 0 : ℕ) 6,
        min (if colour c < 0 then streak candles i else 0 : ℕ) 6,
        if 0 < atr then (c.close - first) / atr else 0, if 0 < rng then body / rng else 0]

/-! ## The classifier -/

/-- A classifier as scikit-learn promises it.  A fit that raises gives no model. -/
structure Classifier where
  Model : Type
  fit : List (List ℚ) → List ℤ → Option Model
  classes : Model → List ℤ
  predictProba : Model → List ℚ → List (ExtNum ℚ)
  /-- `classes_` is sorted, every label once -/
  sorted : ∀ m, (classes m).Pairwise (· < ·)
  /-- and holds the labels of the training set -/
  labels : ∀ {X y m}, fit X y = some m → ∀ label, label ∈ classes m ↔ label ∈ y
  /-- one probability for each class -/
  length_proba : ∀ m x, (predictProba m x).length = (classes m).length

namespace Classifier

variable (C : Classifier)

/-- `_proba_green`, with what is asked of a class that is not there. -/
def probaGreen (m : C.Model) (features : List ℚ) : Except PyError (Option (ExtNum ℚ)) :=
  let proba := C.predictProba m features
  match C.classes m with
  | [only] => .ok (some (if only = 1 then fin 1 else fin 0))
  | classes =>
      if proba.length = 2 then
        if 1 ∈ classes then .ok proba[classes.idxOf 1]?
        else .error (.valueError "1 is not in list" none)
      else .ok none

/-- A model of one class is certain. -/
theorem probaGreen_single {m : C.Model} (single : (C.classes m).length = 1) (features : List ℚ) :
    ∃ p, C.probaGreen m features = .ok (some p) := by
  obtain ⟨only, classes⟩ := List.length_eq_one_iff.mp single
  exact ⟨if only = 1 then fin 1 else fin 0, by rw [probaGreen, classes]⟩

/-- Of a model of several classes, only two of them are read. -/
theorem probaGreen_several {m : C.Model} (several : (C.classes m).length ≠ 1) (features : List ℚ) :
    C.probaGreen m features =
      if (C.classes m).length = 2 then
        if 1 ∈ C.classes m then .ok (C.predictProba m features)[(C.classes m).idxOf 1]?
        else .error (.valueError "1 is not in list" none)
      else .ok none := by
  unfold probaGreen
  dsimp only
  split
  · rename_i single
    rw [single] at several
    exact absurd rfl several
  · rw [C.length_proba m features]

/-- A model of two classes with up among them has its probability. -/
theorem probaGreen_double {m : C.Model} (double : (C.classes m).length = 2)
    (up : 1 ∈ C.classes m) (features : List ℚ) :
    ∃ p, C.probaGreen m features = .ok (some p) := by
  have inside : (C.classes m).idxOf 1 < (C.predictProba m features).length := by
    rw [C.length_proba m features]
    exact List.idxOf_lt_length_of_mem up
  refine ⟨(C.predictProba m features)[(C.classes m).idxOf 1], ?_⟩
  rw [C.probaGreen_several (by omega) features, if_pos double, if_pos up,
    List.getElem?_eq_getElem inside]

end Classifier

/-- A call that was scored: the call, the colour that came, and whether they are the same. -/
structure Decision where
  call : ℤ
  actual : ℤ
  hit : Bool
  deriving DecidableEq

/-- The settings: integers that nobody checks. -/
structure MlSettings where
  minTrain : ℤ
  warmup : ℤ
  retrainEvery : ℤ
  rollingWindow : Option ℤ

structure NextCandleMl (C : Classifier) where
  history : List Candle
  /-- the call that awaits the next candle -/
  pending : Option ℤ
  clf : Option C.Model
  sinceTrain : ℤ
  decisions : List Decision

namespace NextCandleMl

variable {C : Classifier} (settings : MlSettings)

def new : NextCandleMl C := ⟨[], none, none, 0, []⟩

/-- The first candle of the training set. -/
def trainStart (history : List Candle) : ℤ :=
  max settings.warmup
    (match settings.rollingWindow with
      | none => 0
      | some window => max 0 (history.length - window))

/-- The candles of the training set: each has a successor. -/
def trainIndices (history : List Candle) : List ℕ :=
  let start := (trainStart settings history).toNat
  List.range' start (history.length - 1 - start)

/-- `_training_set` -/
def trainX (history : List Candle) : List (List ℚ) :=
  (trainIndices settings history).map (featuresFor history)

def trainY (history : List Candle) : List ℤ :=
  (trainIndices settings history).map fun i => colourAt history (i + 1)

/-- The candle joins the history, and the call for it is scored unless it is flat. -/
def score (s : NextCandleMl C) (candle : Candle) : NextCandleMl C :=
  { s with
    history := s.history ++ [candle]
    pending := none
    decisions := match s.pending with
      | none => s.decisions
      | some call =>
          if colour candle = 0 then s.decisions
          else s.decisions ++ [⟨call, colour candle, decide (call = colour candle)⟩] }

/-- The next colour, by the model that is loaded. -/
def call (s : NextCandleMl C) (m : C.Model) : Except PyError (Option ℤ) × NextCandleMl C :=
  match C.probaGreen m (featuresFor s.history (s.history.length - 1)) with
  | .error e => (.error e, s)
  | .ok none => (.ok none, s)
  | .ok (some p) =>
      let next := if fin (1 / 2) ≤ p then 1 else -1
      (.ok (some next), { s with pending := some next })

/-- The part of `step` after the warm-up. -/
def train (s : NextCandleMl C) : Except PyError (Option ℤ) × NextCandleMl C :=
  let s := { s with sinceTrain := s.sinceTrain + 1 }
  if settings.retrainEvery ≤ s.sinceTrain ∨ s.clf = none then
    if ((trainX settings s.history).length : ℤ) < settings.minTrain then (.ok none, s)
    else
      match C.fit (trainX settings s.history) (trainY settings s.history) with
      | none => (.ok none, s)
      | some m => call { s with clf := some m, sinceTrain := 0 } m
  else
    match s.clf with
    | none => (.ok none, s)
    | some m => call s m

def step (s : NextCandleMl C) (candle : Candle) : Except PyError (Option ℤ) × NextCandleMl C :=
  let s := s.score candle
  if (s.history.length : ℤ) < settings.warmup + 2 then (.ok none, s)
  else train settings s

/-- The classifier along closed candles. -/
def machine : Machine (NextCandleMl C) Candle (Except PyError (Option ℤ)) where
  step s candle := step settings s candle

/-! ## Calls are scored once -/

/-- The score of the call that awaits a candle. -/
def scoreOf (pending : Option ℤ) (candle : Candle) : List Decision :=
  match pending with
  | none => []
  | some call =>
      if colour candle = 0 then [] else [⟨call, colour candle, decide (call = colour candle)⟩]

/-- The call that a step returns. -/
def callOf : Except PyError (Option ℤ) → Option ℤ
  | .ok call => call
  | .error _ => none

/-- What is scored along a run: each call against the candle of the next step. -/
def scoredFrom (pending : Option ℤ) :
    List (Event (NextCandleMl C) Candle (Except PyError (Option ℤ))) → List Decision
  | [] => []
  | e :: es => scoreOf pending e.input ++ scoredFrom (callOf e.reply) es

theorem score_decisions (s : NextCandleMl C) (candle : Candle) :
    (s.score candle).decisions = s.decisions ++ scoreOf s.pending candle := by
  unfold score scoreOf
  cases s.pending with
  | none => exact (List.append_nil _).symm
  | some call =>
      dsimp only
      by_cases flat : colour candle = 0
      · rw [if_pos flat, if_pos flat, List.append_nil]
      · rw [if_neg flat, if_neg flat]

/-- Calling scores nothing, and the call that is returned is the one that awaits its candle. -/
theorem call_keeps {s : NextCandleMl C} (idle : s.pending = none) (m : C.Model) :
    (call s m).2.decisions = s.decisions ∧ (call s m).2.pending = callOf (call s m).1 ∧
      (call s m).2.history = s.history ∧ (call s m).2.clf = s.clf := by
  unfold call
  split
  · exact ⟨rfl, idle, rfl, rfl⟩
  · exact ⟨rfl, idle, rfl, rfl⟩
  · exact ⟨rfl, rfl, rfl, rfl⟩

theorem train_keeps {s : NextCandleMl C} (idle : s.pending = none) :
    (train settings s).2.decisions = s.decisions ∧
      (train settings s).2.pending = callOf (train settings s).1 ∧
      (train settings s).2.history = s.history := by
  unfold train
  dsimp only
  split
  · split
    · exact ⟨rfl, idle, rfl⟩
    · split
      · exact ⟨rfl, idle, rfl⟩
      · rename_i m _
        obtain ⟨decisions, pending, history, -⟩ :=
          call_keeps (s := { s with sinceTrain := 0, clf := some m }) idle m
        exact ⟨decisions, pending, history⟩
  · split
    · exact ⟨rfl, idle, rfl⟩
    · rename_i m _
      obtain ⟨decisions, pending, history, -⟩ :=
        call_keeps (s := { s with sinceTrain := s.sinceTrain + 1 }) idle m
      exact ⟨decisions, pending, history⟩

/-- A step scores the call that awaits its candle, and leaves its own to the next. -/
theorem step_keeps (s : NextCandleMl C) (candle : Candle) :
    (step settings s candle).2.decisions = s.decisions ++ scoreOf s.pending candle ∧
      (step settings s candle).2.pending = callOf (step settings s candle).1 ∧
      (step settings s candle).2.history = s.history ++ [candle] := by
  rw [← score_decisions]
  unfold step
  dsimp only
  split
  · exact ⟨rfl, rfl, rfl⟩
  · exact train_keeps settings rfl

/-- **Calls are scored once**: along a run, the decisions are those of the calls, in order, each
against the candle right after it, unless that is flat. -/
theorem scored_once (s : NextCandleMl C) (candles : List Candle) :
    ((machine settings).run s candles).decisions =
      s.decisions ++ scoredFrom s.pending ((machine settings).trace s candles) := by
  induction candles generalizing s with
  | nil => exact (List.append_nil _).symm
  | cons candle candles ih =>
      obtain ⟨decisions, pending, -⟩ := step_keeps settings s candle
      have rest := ih (step settings s candle).2
      rw [decisions, pending, List.append_assoc] at rest
      exact rest

/-! ## Steps that fit -/

/-- A closed candle, and what the classifier made of it. -/
abbrev MlEvent (C : Classifier) := Event (NextCandleMl C) Candle (Except PyError (Option ℤ))

/-- The training set is large enough. -/
def LargeEnough (e : MlEvent C) : Prop :=
  settings.minTrain ≤ (trainX settings (e.before.history ++ [e.input])).length

/-- The model is to be fitted again, on a training set that is large enough. -/
def Refits (e : MlEvent C) : Prop :=
  settings.warmup + 2 ≤ (e.before.history ++ [e.input]).length ∧
    (settings.retrainEvery ≤ e.before.sinceTrain + 1 ∨ e.before.clf = none) ∧ LargeEnough settings e

/-- The labels that the model would be fitted on. -/
def labelsAt (e : MlEvent C) : List ℤ := trainY settings (e.before.history ++ [e.input])

/-- What fitting makes of the training set. -/
def fitAt (e : MlEvent C) : Option C.Model :=
  C.fit (trainX settings (e.before.history ++ [e.input])) (labelsAt settings e)

/-- A model is fitted on labels with an up candle. -/
def UpFitted (e : MlEvent C) : Prop :=
  Refits settings e ∧ (fitAt settings e).isSome ∧ 1 ∈ labelsAt settings e

/-- The reply calls a colour. -/
def Calls (reply : Except PyError (Option ℤ)) : Prop := reply = .ok (some 1) ∨ reply = .ok (some (-1))

/-- **Robust**: no step raises; once a model has been fitted on labels with an up candle, every
step calls as long as the training set is large enough; and calls are scored once. -/
structure Robust (candles : List Candle) : Prop where
  no_raise : ∀ e ∈ (machine (C := C) settings).trace new candles, ∀ error, e.reply ≠ .error error
  calls : ∀ pre f mid post, (machine (C := C) settings).trace new candles = pre ++ f :: mid ++ post →
    UpFitted settings f → (∀ g ∈ f :: mid, LargeEnough settings g) → ∀ g ∈ f :: mid, Calls g.reply
  scored : ((machine (C := C) settings).run new candles).decisions =
    scoredFrom none ((machine (C := C) settings).trace new candles)

/-- No training set that is fitted has both a down and a flat candle, and none is refused once a
model has been fitted on labels with an up candle, as long as it is large enough. -/
structure Fitting (candles : List Candle) : Prop where
  one_sided : ∀ e ∈ (machine (C := C) settings).trace new candles, Refits settings e →
    (fitAt settings e).isSome → ¬ (-1 ∈ labelsAt settings e ∧ 0 ∈ labelsAt settings e)
  not_refused : ∀ pre f mid g post,
    (machine (C := C) settings).trace new candles = pre ++ f :: mid ++ g :: post →
      UpFitted settings f → (∀ h ∈ mid, LargeEnough settings h) → Refits settings g →
        (fitAt settings g).isSome

/-! ## Classes -/

/-- The model can be read: of one class, or of two with up among them. -/
def Readable (m : C.Model) : Prop :=
  (C.classes m).length = 1 ∨ (C.classes m).length = 2 ∧ 1 ∈ C.classes m

theorem colour_cases (candle : Candle) :
    colour candle = -1 ∨ colour candle = 0 ∨ colour candle = 1 := by
  unfold colour
  split <;> split <;> simp

theorem colourAt_cases (hist : List Candle) (i : ℕ) :
    colourAt hist i = -1 ∨ colourAt hist i = 0 ∨ colourAt hist i = 1 := by
  cases here : hist[i]? with
  | none => exact .inr (.inl (colourAt_of_none here))
  | some candle =>
      rw [colourAt_of_get here]
      exact colour_cases candle

/-- Sorted colours, not both down and flat: none, one, or two with up among them. -/
theorem sorted_colours {classes : List ℤ} (sorted : classes.Pairwise (· < ·))
    (colours : ∀ c ∈ classes, c = -1 ∨ c = 0 ∨ c = 1) (one_sided : ¬ (-1 ∈ classes ∧ 0 ∈ classes)) :
    classes = [] ∨ classes.length = 1 ∨ classes.length = 2 ∧ 1 ∈ classes := by
  match classes with
  | [] => exact .inl rfl
  | [_] => exact .inr (.inl rfl)
  | [x, y] =>
      refine .inr (.inr ⟨rfl, ?_⟩)
      have lt : x < y := by simpa using sorted
      have first := colours x (by simp)
      have second := colours y (by simp)
      simp only [List.mem_cons, List.not_mem_nil, or_false] at one_sided ⊢
      omega
  | x :: y :: z :: rest =>
      exfalso
      simp only [List.pairwise_cons, List.mem_cons, forall_eq_or_imp] at sorted
      have first := colours x (by simp)
      have second := colours y (by simp)
      simp only [List.mem_cons] at one_sided
      have third := colours z (by simp)
      omega

/-- Sorted colours, both down and flat: these two, or all three. -/
theorem sorted_both {classes : List ℤ} (sorted : classes.Pairwise (· < ·))
    (colours : ∀ c ∈ classes, c = -1 ∨ c = 0 ∨ c = 1) (down : -1 ∈ classes) (flat : 0 ∈ classes) :
    classes.length = 2 ∧ 1 ∉ classes ∨ classes.length = 3 ∧ 1 ∈ classes := by
  match classes with
  | [] => simp at down
  | [x] =>
      simp only [List.mem_cons, List.not_mem_nil, or_false] at down flat
      omega
  | [x, y] =>
      refine .inl ⟨rfl, ?_⟩
      simp only [List.mem_cons, List.not_mem_nil, or_false] at down flat ⊢
      omega
  | [x, y, z] =>
      refine .inr ⟨rfl, ?_⟩
      have first := colours x (by simp)
      have third := colours z (by simp)
      simp only [List.pairwise_cons, List.mem_cons, List.not_mem_nil, or_false, forall_eq_or_imp,
        forall_eq] at sorted down flat ⊢
      omega
  | w :: x :: y :: z :: rest =>
      exfalso
      simp only [List.pairwise_cons, List.mem_cons, forall_eq_or_imp] at sorted
      have first := colours w (by simp)
      have last := colours z (by simp)
      omega

/-! ## One step -/

section Step

variable {settings}

theorem forall_label {history : List Candle} {label : ℤ}
    (member : label ∈ trainY settings history) : label = -1 ∨ label = 0 ∨ label = 1 := by
  obtain ⟨i, -, rfl⟩ := List.mem_map.mp member
  exact colourAt_cases history (i + 1)

/-- A model that can be read calls. -/
theorem call_readable {m : C.Model} (readable : Readable m) (s : NextCandleMl C) :
    Calls (call s m).1 := by
  have read : ∃ p, C.probaGreen m (featuresFor s.history (s.history.length - 1)) = .ok (some p) := by
    rcases readable with single | ⟨double, up⟩
    · exact C.probaGreen_single single _
    · exact C.probaGreen_double double up _
  obtain ⟨p, read⟩ := read
  rw [call, read]
  dsimp only
  split
  · exact .inl rfl
  · exact .inr rfl

/-- A model raises only where it is of two classes without up. -/
theorem call_error {m : C.Model} {s : NextCandleMl C} {error : PyError}
    (raises : (call s m).1 = .error error) : (C.classes m).length = 2 ∧ 1 ∉ C.classes m := by
  by_contra fine
  have read : ∃ reply, C.probaGreen m (featuresFor s.history (s.history.length - 1)) = .ok reply := by
    by_cases single : (C.classes m).length = 1
    · obtain ⟨p, read⟩ := C.probaGreen_single single (featuresFor s.history (s.history.length - 1))
      exact ⟨some p, read⟩
    · rw [C.probaGreen_several single]
      by_cases double : (C.classes m).length = 2
      · rw [if_pos double, if_pos (by_contra fun missing => fine ⟨double, missing⟩)]
        exact ⟨_, rfl⟩
      · rw [if_neg double]
        exact ⟨none, rfl⟩
  obtain ⟨reply, read⟩ := read
  rw [call, read] at raises
  cases reply with
  | none => cases raises
  | some p => cases raises

/-- A model with both down and flat does not call. -/
theorem call_both {m : C.Model} {y : List ℤ} (labels : ∀ label, label ∈ C.classes m ↔ label ∈ y)
    (colours : ∀ label ∈ y, label = -1 ∨ label = 0 ∨ label = 1) (down : -1 ∈ y) (flat : 0 ∈ y)
    (s : NextCandleMl C) :
    1 ∉ y ∧ (∃ error, (call s m).1 = .error error) ∨ 1 ∈ y ∧ (call s m).1 = .ok none := by
  have both := sorted_both (C.sorted m) (fun c member => colours c ((labels c).mp member))
    ((labels _).mpr down) ((labels _).mpr flat)
  rw [labels] at both
  rcases both with ⟨double, missing⟩ | ⟨triple, up⟩
  · refine .inl ⟨missing, .valueError "1 is not in list" none, ?_⟩
    rw [← labels] at missing
    rw [call, C.probaGreen_several (by omega), if_pos double, if_neg missing]
  · refine .inr ⟨up, ?_⟩
    rw [call, C.probaGreen_several (by omega), if_neg (by omega)]

/-- What a step does: it waits, or the fit is refused, or it calls by a model that is fitted
again or kept. -/
theorem step_cases {e : MlEvent C} (step : e = (machine settings).event e.before e.input) :
    (¬ (settings.warmup + 2 ≤ (e.before.history ++ [e.input]).length ∧ LargeEnough settings e) ∧
      e.reply = .ok none) ∧ e.after.clf = e.before.clf ∨
    (Refits settings e ∧ fitAt settings e = none ∧ e.reply = .ok none) ∧
      e.after.clf = e.before.clf ∨
    (∃ m s, (Refits settings e ∧ fitAt settings e = some m) ∧ e.reply = (call s m).1 ∧
      e.after.clf = some m) ∨
    ∃ m s, (¬ Refits settings e ∧ e.before.clf = some m) ∧ e.reply = (call s m).1 ∧
      e.after.clf = some m := by
  obtain ⟨s, candle, reply, after⟩ := e
  obtain ⟨rfl, rfl⟩ : reply = (NextCandleMl.step settings s candle).1 ∧
      after = (NextCandleMl.step settings s candle).2 := by
    simpa [Machine.event, machine] using step
  unfold NextCandleMl.step Refits LargeEnough fitAt labelsAt
  dsimp only
  have history : (s.score candle).history = s.history ++ [candle] := rfl
  rw [history]
  by_cases early : ((s.history ++ [candle]).length : ℤ) < settings.warmup + 2
  · rw [if_pos early]
    exact .inl ⟨⟨fun both => by omega, rfl⟩, rfl⟩
  rw [if_neg early]
  unfold train
  dsimp only
  rw [history]
  by_cases retrain : settings.retrainEvery ≤ s.sinceTrain + 1 ∨ s.clf = none
  · rw [if_pos (show settings.retrainEvery ≤ (s.score candle).sinceTrain + 1 ∨
      (s.score candle).clf = none from retrain)]
    by_cases small : ((trainX settings (s.history ++ [candle])).length : ℤ) < settings.minTrain
    · rw [if_pos small]
      exact .inl ⟨⟨fun both => by omega, rfl⟩, rfl⟩
    rw [if_neg small]
    have refits := And.intro (not_lt.mp early) (And.intro retrain (not_lt.mp small))
    cases fit : C.fit (trainX settings (s.history ++ [candle]))
        (trainY settings (s.history ++ [candle])) with
    | none => exact .inr (.inl ⟨⟨refits, rfl, rfl⟩, rfl⟩)
    | some m =>
        dsimp only
        refine .inr (.inr (.inl ⟨m, _, ⟨refits, rfl⟩, rfl, ?_⟩))
        exact (call_keeps rfl m).2.2.2
  · rw [if_neg (show ¬ (settings.retrainEvery ≤ (s.score candle).sinceTrain + 1 ∨
      (s.score candle).clf = none) from retrain)]
    have loaded : (s.score candle).clf = s.clf := rfl
    rw [loaded]
    cases kept : s.clf with
    | none => exact absurd (.inr kept) retrain
    | some m =>
        dsimp only
        have noRefit := fun both : settings.warmup + 2 ≤ ((s.history ++ [candle]).length : ℤ) ∧
            (settings.retrainEvery ≤ s.sinceTrain + 1 ∨ some m = none) ∧
              settings.minTrain ≤ ((trainX settings (s.history ++ [candle])).length : ℤ) =>
          retrain (both.2.1.imp_right fun missing => by cases missing)
        refine .inr (.inr (.inr ⟨m, _, ⟨noRefit, rfl⟩, rfl, ?_⟩))
        rw [(call_keeps rfl m).2.2.2]

/-- What a step does that is to fit: the fit is refused, or it calls by the new model. -/
theorem refit_cases {e : MlEvent C} (step : e = (machine settings).event e.before e.input)
    (refits : Refits settings e) :
    fitAt settings e = none ∧ e.reply = .ok none ∨
      ∃ m s, fitAt settings e = some m ∧ e.reply = (call s m).1 ∧ e.after.clf = some m := by
  rcases step_cases step with ⟨⟨waits, -⟩, -⟩ | ⟨⟨-, refused, reply⟩, -⟩ |
    ⟨m, s, ⟨-, fit⟩, reply, clf⟩ | ⟨m, s, ⟨noRefit, -⟩, -, -⟩
  · exact absurd ⟨refits.1, refits.2.2⟩ waits
  · exact .inl ⟨refused, reply⟩
  · exact .inr ⟨m, s, fit, reply, clf⟩
  · exact absurd refits noRefit

/-! ## Runs -/

/-- A model of colours, not of both down and flat. -/
def OneSided (m : C.Model) : Prop :=
  (∀ c ∈ C.classes m, c = -1 ∨ c = 0 ∨ c = 1) ∧ ¬ (-1 ∈ C.classes m ∧ 0 ∈ C.classes m)

theorem OneSided.shape {m : C.Model} (oneSided : OneSided m) :
    C.classes m = [] ∨ Readable m := sorted_colours (C.sorted m) oneSided.1 oneSided.2

theorem OneSided.reply {m : C.Model} (oneSided : OneSided m) (s : NextCandleMl C) (error : PyError) :
    (call s m).1 ≠ .error error := by
  intro raises
  obtain ⟨double, missing⟩ := call_error raises
  rcases oneSided.shape with none | single | ⟨-, up⟩
  · simp [none] at double
  · omega
  · exact missing up

theorem fit_oneSided {e : MlEvent C} {m : C.Model} (fit : fitAt settings e = some m)
    (oneSided : ¬ (-1 ∈ labelsAt settings e ∧ 0 ∈ labelsAt settings e)) : OneSided m := by
  have labels := C.labels fit
  refine ⟨fun c member => forall_label ((labels c).mp member), fun both => oneSided ?_⟩
  exact both.imp (labels _).mp (labels _).mp

theorem length_trainY (history : List Candle) :
    (trainY settings history).length = (trainX settings history).length := by
  rw [trainY, trainX, List.length_map, List.length_map]

/-- The training set never shrinks. -/
theorem length_trainX (history : List Candle) (candle : Candle) :
    (trainX settings history).length ≤ (trainX settings (history ++ [candle])).length := by
  simp only [trainX, List.length_map, trainIndices, List.length_range', trainStart,
    List.length_append, List.length_singleton]
  cases settings.rollingWindow with
  | none => dsimp only; omega
  | some window => dsimp only; omega

theorem fit_readable {e : MlEvent C} {m : C.Model} (fit : fitAt settings e = some m)
    (oneSided : ¬ (-1 ∈ labelsAt settings e ∧ 0 ∈ labelsAt settings e))
    (nonempty : labelsAt settings e ≠ []) : Readable m := by
  refine (fit_oneSided fit oneSided).shape.resolve_left fun none => nonempty ?_
  refine List.eq_nil_iff_forall_not_mem.mpr fun label member => ?_
  have there := (C.labels fit label).mpr member
  rw [none] at there
  cases there

/-- What one step keeps of the loaded model: it does not raise. -/
theorem oneSided_step {e : MlEvent C} (step : e = (machine settings).event e.before e.input)
    (loaded : ∀ m, e.before.clf = some m → OneSided m)
    (one_sided : Refits settings e → (fitAt settings e).isSome →
      ¬ (-1 ∈ labelsAt settings e ∧ 0 ∈ labelsAt settings e)) :
    (∀ m, e.after.clf = some m → OneSided m) ∧ ∀ error, e.reply ≠ .error error := by
  rcases step_cases step with ⟨⟨-, reply⟩, clf⟩ | ⟨⟨-, -, reply⟩, clf⟩ |
    ⟨m, s, ⟨refits, fit⟩, reply, clf⟩ | ⟨m, s, ⟨-, kept⟩, reply, clf⟩
  · rw [reply, clf]
    exact ⟨loaded, fun error => by simp⟩
  · rw [reply, clf]
    exact ⟨loaded, fun error => by simp⟩
  · have oneSided := fit_oneSided fit (one_sided refits (by rw [fit]; rfl))
    rw [reply, clf]
    exact ⟨fun m' same => Option.some.inj same ▸ oneSided, oneSided.reply s⟩
  · have oneSided := loaded m kept
    rw [reply, clf]
    exact ⟨fun m' same => Option.some.inj same ▸ oneSided, oneSided.reply s⟩

theorem no_raise_run {s : NextCandleMl C} (loaded : ∀ m, s.clf = some m → OneSided m)
    {candles : List Candle}
    (one_sided : ∀ e ∈ (machine settings).trace s candles, Refits settings e →
      (fitAt settings e).isSome → ¬ (-1 ∈ labelsAt settings e ∧ 0 ∈ labelsAt settings e)) :
    ∀ e ∈ (machine settings).trace s candles, ∀ error, e.reply ≠ .error error := by
  induction candles generalizing s with
  | nil => simp [Machine.trace]
  | cons candle candles ih =>
      obtain ⟨first, rest⟩ := List.forall_mem_cons.mp one_sided
      obtain ⟨kept, fine⟩ := oneSided_step rfl loaded first
      exact List.forall_mem_cons.mpr ⟨fine, ih kept rest⟩

/-- Warm, on a training set that is not empty, by a model that can be read. -/
structure Ready (settings : MlSettings) (s : NextCandleMl C) : Prop where
  warm : settings.warmup + 2 ≤ s.history.length
  taught : 0 < (trainX settings s.history).length
  loaded : ∃ m, s.clf = some m ∧ Readable m

theorem after_history {e : MlEvent C} (step : e = (machine settings).event e.before e.input) :
    e.after.history = e.before.history ++ [e.input] := by
  rw [congrArg Event.after step]
  exact (step_keeps settings e.before e.input).2.2

/-- After a fit on labels with an up candle it is ready, and calls. -/
theorem ready_first {f : MlEvent C} (step : f = (machine settings).event f.before f.input)
    (up : UpFitted settings f)
    (one_sided : ¬ (-1 ∈ labelsAt settings f ∧ 0 ∈ labelsAt settings f)) :
    Ready settings f.after ∧ Calls f.reply := by
  obtain ⟨refits, fitted, up⟩ := up
  have nonempty : labelsAt settings f ≠ [] := List.ne_nil_of_mem up
  rcases refit_cases step refits with ⟨refused, -⟩ | ⟨m, s, fit, reply, clf⟩
  · rw [refused] at fitted
    cases fitted
  · have readable := fit_readable fit one_sided nonempty
    refine ⟨⟨?_, ?_, m, clf, readable⟩, reply ▸ call_readable readable s⟩
    · rw [after_history step]
      exact refits.1
    · rw [after_history step, ← length_trainY]
      exact List.length_pos_iff.mpr nonempty

/-- What one step keeps when it is ready: it calls. -/
theorem ready_step {e : MlEvent C} (step : e = (machine settings).event e.before e.input)
    (ready : Ready settings e.before) (large : LargeEnough settings e)
    (one_sided : Refits settings e → (fitAt settings e).isSome →
      ¬ (-1 ∈ labelsAt settings e ∧ 0 ∈ labelsAt settings e))
    (not_refused : Refits settings e → (fitAt settings e).isSome) :
    Ready settings e.after ∧ Calls e.reply := by
  have history := after_history step
  have warm : settings.warmup + 2 ≤ ((e.before.history ++ [e.input]).length : ℤ) := by
    have warm := ready.warm
    rw [List.length_append, List.length_singleton]
    omega
  have taught : 0 < (trainX settings (e.before.history ++ [e.input])).length :=
    ready.taught.trans_le (length_trainX _ _)
  rcases step_cases step with ⟨⟨waits, -⟩, -⟩ | ⟨⟨refits, refused, -⟩, -⟩ |
    ⟨m, s, ⟨refits, fit⟩, reply, clf⟩ | ⟨m, s, ⟨-, kept⟩, reply, clf⟩
  · exact absurd ⟨warm, large⟩ waits
  · have fitted := not_refused refits
    rw [refused] at fitted
    cases fitted
  · have nonempty : labelsAt settings e ≠ [] := by
      rw [← List.length_pos_iff, labelsAt, length_trainY]
      exact taught
    have readable := fit_readable fit (one_sided refits (not_refused refits)) nonempty
    exact ⟨⟨history ▸ warm, history ▸ taught, m, clf, readable⟩, reply ▸ call_readable readable s⟩
  · obtain ⟨m', kept', readable⟩ := ready.loaded
    obtain rfl : m = m' := Option.some.inj (kept.symm.trans kept')
    exact ⟨⟨history ▸ warm, history ▸ taught, m, clf, readable⟩, reply ▸ call_readable readable s⟩

theorem calls_run {s : NextCandleMl C} (ready : Ready settings s) {candles : List Candle}
    {mid post : List (MlEvent C)} (split : (machine settings).trace s candles = mid ++ post)
    (large : ∀ g ∈ mid, LargeEnough settings g)
    (one_sided : ∀ g ∈ mid, Refits settings g → (fitAt settings g).isSome →
      ¬ (-1 ∈ labelsAt settings g ∧ 0 ∈ labelsAt settings g))
    (not_refused : ∀ g ∈ mid, Refits settings g → (fitAt settings g).isSome) :
    ∀ g ∈ mid, Calls g.reply := by
  induction mid generalizing s candles with
  | nil => simp
  | cons g mid ih =>
      obtain ⟨step, rest, rfl, after⟩ := (machine settings).trace_eq_cons split
      obtain rfl : s = g.before := by
        rw [Machine.trace, List.cons_append, List.cons.injEq] at split
        rw [← split.1]
        rfl
      obtain ⟨large, larger⟩ := List.forall_mem_cons.mp large
      obtain ⟨one, others⟩ := List.forall_mem_cons.mp one_sided
      obtain ⟨first, later⟩ := List.forall_mem_cons.mp not_refused
      obtain ⟨ready, calls⟩ := ready_step step ready large one first
      exact List.forall_mem_cons.mpr ⟨calls, ih ready after larger others later⟩

/-- A fit on both down and flat labels raises, or leaves the next colour uncalled. -/
theorem both_step {e : MlEvent C} (step : e = (machine settings).event e.before e.input)
    (refits : Refits settings e) (fitted : (fitAt settings e).isSome)
    (down : -1 ∈ labelsAt settings e) (flat : 0 ∈ labelsAt settings e) :
    (∃ error, e.reply = .error error) ∨ 1 ∈ labelsAt settings e ∧ e.reply = .ok none := by
  rcases refit_cases step refits with ⟨refused, -⟩ | ⟨m, s, fit, reply, -⟩
  · rw [refused] at fitted
    cases fitted
  · rw [reply]
    exact (call_both (C.labels fit) (fun label => forall_label) down flat s).imp And.right id

/-- A fit that is refused calls nothing. -/
theorem refused_step {e : MlEvent C} (step : e = (machine settings).event e.before e.input)
    (refits : Refits settings e) (refused : fitAt settings e = none) : e.reply = .ok none := by
  rcases refit_cases step refits with ⟨-, reply⟩ | ⟨m, s, fit, -, -⟩
  · exact reply
  · rw [refused] at fit
    cases fit

theorem not_calls_none : ¬ Calls (.ok none) := by
  rintro (same | same) <;> cases same

/-- Every event of a run is the step of its own state and candle. -/
theorem trace_step {s : NextCandleMl C} {candles : List Candle} {e : MlEvent C}
    (member : e ∈ (machine settings).trace s candles) :
    e = (machine settings).event e.before e.input :=
  ((machine settings).trace_invariant (P := fun _ => True) (fun _ _ _ => trivial) trivial candles e
    member).2

end Step

/-- **Robust, exactly when**: whatever the classifier, the settings and the candles, no step
raises, every step calls once a model has been fitted on labels with an up candle and the
training set stays large enough, and calls are scored once, if and only if no training set that
is fitted has both a down and a flat candle, and none is refused after such a fit. -/
theorem robust_iff (C : Classifier) (settings : MlSettings) (candles : List Candle) :
    Robust (C := C) settings candles ↔ Fitting (C := C) settings candles := by
  constructor
  · intro robust
    refine ⟨fun e member refits fitted both => ?_, fun pre f mid g post split up large refits => ?_⟩
    · rcases both_step (trace_step member) refits fitted both.1 both.2 with ⟨error, raises⟩ | ⟨up, silent⟩
      · exact robust.no_raise e member error raises
      · obtain ⟨pre, post, split⟩ := List.append_of_mem member
        have calls := robust.calls pre e [] post (by simpa using split) ⟨refits, fitted, up⟩
          (by simpa using refits.2.2) e List.mem_cons_self
        rw [silent] at calls
        exact not_calls_none calls
    · by_contra refused
      have member : g ∈ (machine settings).trace new candles := by simp [split]
      have large : ∀ h ∈ f :: (mid ++ [g]), LargeEnough settings h := by
        refine List.forall_mem_cons.mpr ⟨up.1.2.2, fun h there => ?_⟩
        rcases List.mem_append.mp there with inside | last
        · exact large h inside
        · rw [List.mem_singleton.mp last]
          exact refits.2.2
      have calls := robust.calls pre f (mid ++ [g]) post (by simpa using split) up large g (by simp)
      rw [refused_step (trace_step member) refits (Option.not_isSome_iff_eq_none.mp refused)] at calls
      exact not_calls_none calls
  · intro fitting
    refine ⟨?_, fun pre f mid post split up large => ?_, ?_⟩
    · exact no_raise_run (fun m none => by cases none) fitting.one_sided
    · have inside {g : MlEvent C} (there : g ∈ f :: mid) :
          g ∈ (machine settings).trace new candles := by
        rw [split]
        exact List.mem_append_left _ (List.mem_append_right _ there)
      obtain ⟨ready, calls⟩ := ready_first (trace_step (inside List.mem_cons_self)) up
        (fitting.one_sided f (inside List.mem_cons_self) up.1 up.2.1)
      refine List.forall_mem_cons.mpr ⟨calls, ?_⟩
      obtain ⟨first, rest, -, -, tail⟩ := (machine settings).trace_eq_append
        (show _ = pre ++ (f :: (mid ++ post)) by simpa using split)
      obtain ⟨-, rest, -, after⟩ := (machine settings).trace_eq_cons tail
      refine calls_run ready after (List.forall_mem_cons.mp large).2
        (fun g there => fitting.one_sided g (inside (List.mem_cons_of_mem _ there))) ?_
      intro g there refits
      obtain ⟨mid₁, mid₂, rfl⟩ := List.append_of_mem there
      refine fitting.not_refused pre f mid₁ g (mid₂ ++ post) (by simpa using split) up ?_ refits
      exact fun h before => large h (List.mem_cons_of_mem _ (List.mem_append_left _ before))
    · exact scored_once settings new candles

/-- A classifier that knows the labels only: a fit on fewer than two of them is refused, and
every class is as likely as the next. -/
def evenClassifier : Classifier where
  Model := { classes : List ℤ // classes.Pairwise (· < ·) }
  fit _ y :=
    if (y.dedup.insertionSort (· ≤ ·)).length < 2 then none
    else some ⟨y.dedup.insertionSort (· ≤ ·), by
      have sorted := List.pairwise_insertionSort (· ≤ ·) y.dedup
      have distinct := (List.perm_insertionSort (· ≤ ·) y.dedup).nodup_iff.mpr y.nodup_dedup
      exact (sorted.and distinct).imp fun both => lt_of_le_of_ne both.1 both.2⟩
  classes m := m.val
  predictProba m _ := m.val.map fun _ => fin (1 / m.val.length)
  sorted m := m.property
  labels := by
    intro X y m fit label
    split at fit
    · cases fit
    · obtain rfl := Option.some.inj fit
      rw [List.mem_insertionSort, List.mem_dedup]
  length_proba m _ := List.length_map _

/-- Refuting pole: a falling candle and a flat one after it are the training set, and the classes
are down and flat: the step raises. -/
theorem flat_label_raises :
    ¬ ∀ (C : Classifier) (settings : MlSettings) (candles : List Candle),
      Robust (C := C) settings candles := by
  intro always
  have robust := always evenClassifier ⟨2, 0, 1, none⟩
    [⟨100, 101, 99, 101, 0, 60, 1⟩, ⟨101, 102, 99, 100, 60, 120, 1⟩, ⟨100, 101, 99, 100, 120, 180, 1⟩]
  exact robust.no_raise _ (List.mem_cons_of_mem _ (List.mem_cons_of_mem _ List.mem_cons_self))
    (.valueError "1 is not in list" none) (by decide +kernel)

end NextCandleMl

end CentaurApex.Cortex
