/-
# Cortex.Scores -- what the drills report, and what was seen

Both drills end in a handful of numbers: how many calls were scored, how many were right, how
often green came anyway.  They are kept as a list of decisions and a table of counts, and are to
be the frequencies of the candles that were walked.

* `drill_report`: they are, for the drill by counts.  A call is made from the candles before
  it alone, a flat candle counts among the calls but is not scored, and the base rate
  is that of the history's pairs, of which the first candle is not flat.
* `ml_report`: they are, for the classifier, and its accuracy is that of its green and of its red
  calls, each by their number.
-/
import CentaurApex.Cortex.NextCandleMl

namespace CentaurApex.Cortex

open CentaurApex.Theory

set_option autoImplicit false

/-- `part / whole if whole else 0.0` -/
def ratio (part whole : ℕ) : ℚ := if whole = 0 then 0 else part / whole

theorem ratio_mul {part whole : ℕ} (le : part ≤ whole) : ratio part whole * whole = part := by
  unfold ratio
  split
  · rename_i none_
    subst none_
    rw [Nat.le_zero.mp le, Nat.cast_zero, mul_zero]
  · rename_i some_
    exact div_mul_cancel₀ _ (Nat.cast_ne_zero.mpr some_)

/-! ## Calls and colours -/

/-- What was called of each candle, and the colour it had. -/
abbrev Walk : Type := List (Option ℤ × ℤ)

/-- How many candles were called and not flat, by call and colour. -/
def tally (walk : Walk) (which : ℤ → ℤ → Bool) : ℕ :=
  walk.countP fun p => p.1.any fun call => decide (p.2 ≠ 0) && which call p.2

/-- What is kept of a candle that was called, unless it is flat. -/
def kept {δ : Type} (keep : ℤ → ℤ → δ) (p : Option ℤ × ℤ) : Option δ :=
  p.1.bind fun call => if p.2 = 0 then none else some (keep call p.2)

/-- Green or red is called. -/
def Sided (walk : Walk) : Prop := ∀ p ∈ walk, ∀ call, p.1 = some call → call = 1 ∨ call = -1

theorem filterMap_cons_toList {α β : Type} (f : α → Option β) (a : α) (as : List α) :
    (a :: as).filterMap f = (f a).toList ++ as.filterMap f := by
  rw [List.filterMap_cons]
  cases f a <;> rfl

/-- What is kept of a kind is tallied. -/
theorem countP_kept {δ : Type} {walk : Walk} (sided : Sided walk) (keep : ℤ → ℤ → δ)
    (kind : δ → Bool) (which : ℤ → ℤ → Bool)
    (same : ∀ call actual, call = 1 ∨ call = -1 → kind (keep call actual) = which call actual) :
    (walk.filterMap (kept keep)).countP kind = tally walk which := by
  rw [List.countP_filterMap, tally]
  refine List.countP_congr fun p member => ?_
  unfold kept
  cases called : p.1 with
  | none => rfl
  | some call =>
      rw [Option.bind_some, Option.any_some]
      by_cases flat : p.2 = 0
      · simp [flat]
      · simp [flat, same call _ (sided p member call called)]

theorem tally_le {walk : Walk} {which which' : ℤ → ℤ → Bool}
    (fewer : ∀ call actual, which call actual = true → which' call actual = true) :
    tally walk which ≤ tally walk which' := by
  refine List.countP_mono_left fun p _ counted => ?_
  obtain ⟨call, called, here⟩ := Option.any_eq_true _ _ |>.mp counted
  rw [Bool.and_eq_true] at here
  exact (Option.any_eq_true _ _).mpr ⟨call, called, Bool.and_eq_true _ _ |>.mpr
    ⟨here.1, fewer _ _ here.2⟩⟩

/-- Green calls and red ones are all. -/
theorem tally_split {walk : Walk} (sided : Sided walk) (which : ℤ → ℤ → Bool) :
    tally walk which = tally walk (fun call actual => call = 1 && which call actual) +
      tally walk (fun call actual => call = -1 && which call actual) := by
  induction walk with
  | nil => rfl
  | cons p walk ih =>
      have rest := ih fun p member => sided p (List.mem_cons_of_mem _ member)
      have first := sided p List.mem_cons_self
      simp only [tally, List.countP_cons] at rest ⊢
      rw [rest]
      cases called : p.1 with
      | none => simp
      | some call =>
          rcases first call called with rfl | rfl
          · simp
            omega
          · simp
            omega

/-! ## The drill by counts -/

structure DrillScore where
  decisions : ℕ
  accuracy : ℚ
  coverage : ℚ
  greenCalls : ℕ
  redCalls : ℕ
  baseRateGreen : ℚ
  deriving DecidableEq, Repr

namespace NextCandleDrill

/-- `_base_rate` -/
def baseRate (drill : NextCandleDrill) : ℚ :=
  let ups := drill.table.sumValues CondStats.up
  let downs := drill.table.sumValues CondStats.down
  ratio ups (ups + downs)

def score (drill : NextCandleDrill) : DrillScore where
  decisions := drill.decisions.length
  accuracy := ratio (drill.decisions.countP fun d => d.1) drill.decisions.length
  coverage := ratio drill.decisions.length drill.allCalls
  greenCalls := drill.decisions.countP fun d => d.2
  redCalls := drill.decisions.countP fun d => !d.2
  baseRateGreen := drill.baseRate

end NextCandleDrill

/-- What `run_live_drill` returns but for the names: the candles that were scored, and how. -/
def liveReport (candles : List Candle) (historyCandles : ℕ) : Option (ℕ × DrillScore) :=
  (runLiveDrill candles historyCandles).map fun drill =>
    (candles.length - historyCandles, drill.score)

/-- A pair that is learnt: a candle that is not flat, and one of this colour after it. -/
def FollowedBy (candles : List Candle) (c : ℤ) (j : ℕ) : Prop :=
  colourAt candles j ≠ 0 ∧ colourAt candles (j + 1) = c

instance (candles : List Candle) (c : ℤ) (j : ℕ) : Decidable (FollowedBy candles c j) :=
  inferInstanceAs (Decidable (_ ∧ _))

/-- The pairs of the history that are learnt. -/
def pairs (candles : List Candle) (historyCandles : ℕ) (c : ℤ) : ℕ :=
  (List.range' 30 (historyCandles - 1 - 30)).countP fun j => FollowedBy candles c j

/-- The call for the `n`-th candle after the history. -/
def callFor (candles : List Candle) (historyCandles n : ℕ) : Option ℤ :=
  (atCall candles historyCandles n).predict (candles.take (historyCandles + n))

/-- The calls for the first `n` candles after the history. -/
def walked (candles : List Candle) (historyCandles n : ℕ) : Walk :=
  (List.range n).map fun k =>
    (callFor candles historyCandles k, colourAt candles (historyCandles + k))

section Drill

variable {candles : List Candle}

theorem sumValues_record (table : StatsTable) (key : ℤ × ℤ × ℤ) (c : ℤ) :
    (table.record key c).sumValues CondStats.up =
        table.sumValues CondStats.up + (if 0 < c then 1 else 0) ∧
      (table.record key c).sumValues CondStats.down =
        table.sumValues CondStats.down + (if c < 0 then 1 else 0) := by
  have ups := table.sumValues_setItem key (((table.get? key).getD .none_).add c) CondStats.up
  have downs := table.sumValues_setItem key (((table.get? key).getD .none_).add c) CondStats.down
  cases read : table.get? key with
  | none =>
      simp only [read, Option.map_none, Option.getD_none, CondStats.add, CondStats.none_]
        at ups downs
      simp only [StatsTable.record, read, Option.getD_none, CondStats.add, CondStats.none_]
      omega
  | some s =>
      simp only [read, Option.map_some, Option.getD_some, CondStats.add] at ups downs
      simp only [StatsTable.record, read, Option.getD_some, CondStats.add]
      omega

/-- One pair of the history. -/
theorem sumValues_fit (hist : List Candle) (table : StatsTable) (j : ℕ) :
    (fitAccumulate hist table j).sumValues CondStats.up =
        table.sumValues CondStats.up + (if FollowedBy hist 1 j then 1 else 0) ∧
      (fitAccumulate hist table j).sumValues CondStats.down =
        table.sumValues CondStats.down + (if FollowedBy hist (-1) j then 1 else 0) := by
  unfold fitAccumulate
  by_cases last : hist.length ≤ j + 1
  · have beyond : colourAt hist (j + 1) = 0 := by
      rw [colourAt, List.getElem?_eq_none last]
      rfl
    have never {c : ℤ} (coloured : c ≠ 0) : ¬ FollowedBy hist c j := fun followed =>
      coloured (followed.2.symm.trans beyond)
    rw [if_pos last, if_neg (never (by decide)), if_neg (never (by decide))]
    exact ⟨rfl, rfl⟩
  rw [if_neg last]
  by_cases flat : colourAt hist j = 0
  · have never {c : ℤ} : ¬ FollowedBy hist c j := fun followed => followed.1 flat
    rw [if_pos flat, if_neg never, if_neg never]
    exact ⟨rfl, rfl⟩
  · have next (c : ℤ) : FollowedBy hist c j ↔ colourAt hist (j + 1) = c := and_iff_right flat
    obtain ⟨ups, downs⟩ := sumValues_record table (drillKey hist j) (colourAt hist (j + 1))
    rw [if_neg flat, ups, downs]
    simp only [next]
    rcases NextCandleMl.colourAt_cases hist (j + 1) with here | here | here <;> simp [here]

/-- What the history has taught, added up. -/
theorem sumValues_learnt (candles : List Candle) (historyCandles : ℕ) :
    (learnt candles (historyCandles - 1)).sumValues CondStats.up = pairs candles historyCandles 1 ∧
      (learnt candles (historyCandles - 1)).sumValues CondStats.down =
        pairs candles historyCandles (-1) := by
  have fold (js : List ℕ) (table : StatsTable) :
      (js.foldl (fitAccumulate candles) table).sumValues CondStats.up =
          table.sumValues CondStats.up + js.countP (fun j => FollowedBy candles 1 j) ∧
        (js.foldl (fitAccumulate candles) table).sumValues CondStats.down =
          table.sumValues CondStats.down + js.countP (fun j => FollowedBy candles (-1) j) := by
    induction js generalizing table with
    | nil => exact ⟨rfl, rfl⟩
    | cons j js ih =>
        obtain ⟨ups, downs⟩ := sumValues_fit candles table j
        obtain ⟨ups', downs'⟩ := ih (fitAccumulate candles table j)
        rw [List.foldl_cons, ups', downs', ups, downs, List.countP_cons, List.countP_cons]
        simp only [decide_eq_true_eq]
        omega
  obtain ⟨ups, downs⟩ := fold (List.range' 30 (historyCandles - 1 - 30)) .empty
  have none_ (part : CondStats → ℕ) : (PyDict.empty : StatsTable).sumValues part = 0 := rfl
  rw [none_, Nat.zero_add] at ups downs
  exact ⟨ups, downs⟩

/-- Whether a call was right, and whether green was called. -/
def decision (call actual : ℤ) : Bool × Bool := (decide (call = actual), decide (0 < call))

theorem onRealised_decisions (drill : NextCandleDrill) (call : Option ℤ) (actual : ℤ) :
    (drill.onRealised call actual).decisions =
        drill.decisions ++ (kept decision (call, actual)).toList ∧
      (drill.onRealised call actual).allCalls = drill.allCalls + 1 := by
  unfold NextCandleDrill.onRealised kept
  cases call with
  | none => exact ⟨(List.append_nil _).symm, rfl⟩
  | some call =>
      dsimp only [Option.bind_some]
      split
      · exact ⟨(List.append_nil _).symm, rfl⟩
      · exact ⟨rfl, rfl⟩

/-- What is decided along the walk. -/
theorem afterCalls_decisions (candles : List Candle) (historyCandles n : ℕ) :
    (afterCalls candles historyCandles n).decisions =
        (walked candles historyCandles n).filterMap (kept decision) ∧
      (afterCalls candles historyCandles n).allCalls = n := by
  induction n with
  | zero =>
      have fold (js : List ℕ) (drill : NextCandleDrill) :
          (js.foldl (fun drill j => drill.fit candles j) drill).decisions = drill.decisions ∧
            (js.foldl (fun drill j => drill.fit candles j) drill).allCalls = drill.allCalls := by
        induction js generalizing drill with
        | nil => exact ⟨rfl, rfl⟩
        | cons j js ih => exact ih (drill.fit candles j)
      exact fold _ _
  | succ n ih =>
      obtain ⟨decisions, calls⟩ := onRealised_decisions (atCall candles historyCandles n)
        (callFor candles historyCandles n) (colourAt candles (historyCandles + n))
      have same : (atCall candles historyCandles n).decisions =
          (afterCalls candles historyCandles n).decisions := rfl
      have count : (atCall candles historyCandles n).allCalls =
          (afterCalls candles historyCandles n).allCalls := rfl
      refine ⟨decisions.trans ?_, calls.trans (by rw [count, ih.2])⟩
      rw [same, ih.1, walked, walked, List.range_succ, List.map_append, List.filterMap_append,
        List.map_singleton, filterMap_cons_toList, List.filterMap_nil, List.append_nil]

/-- Green, red, or no call. -/
theorem predict_cases {drill : NextCandleDrill} {hist : List Candle} {call : ℤ}
    (called : drill.predict hist = some call) : call = 1 ∨ call = -1 := by
  unfold NextCandleDrill.predict at called
  dsimp only at called
  split at called
  · cases called
  · split at called
    · cases called
    · split at called
      · cases called
      · split at called
        · exact .inl (Option.some.inj called).symm
        · split at called
          · exact .inr (Option.some.inj called).symm
          · cases called

theorem walked_sided (candles : List Candle) (historyCandles n : ℕ) :
    Sided (walked candles historyCandles n) := by
  intro p member call called
  obtain ⟨k, -, rfl⟩ := List.mem_map.mp member
  exact predict_cases called

/-! ### What a call is made from -/

theorem afterCalls_confidence (candles : List Candle) (historyCandles n : ℕ) :
    (afterCalls candles historyCandles n).confidenceMin = 27 / 50 := by
  induction n with
  | zero =>
      have fold (js : List ℕ) (drill : NextCandleDrill) :
          (js.foldl (fun drill j => drill.fit candles j) drill).confidenceMin =
            drill.confidenceMin := by
        induction js generalizing drill with
        | nil => rfl
        | cons j js ih => exact ih (drill.fit candles j)
      exact fold _ _
  | succ n ih =>
      refine Eq.trans ?_ ih
      rw [afterCalls, callNext, fitNewest_eq]
      unfold NextCandleDrill.onRealised
      dsimp only
      split
      · rfl
      · split <;> rfl

/-- **A call is made from the candles before it.** -/
theorem callFor_prefix {candles candles' : List Candle} {historyCandles : ℕ}
    (long : historyCandles ≤ candles.length) {n : ℕ}
    (same : candles'.take (historyCandles + n) = candles.take (historyCandles + n)) :
    callFor candles' historyCandles n = callFor candles historyCandles n := by
  have taught : learnt candles' (historyCandles - 1) = learnt candles (historyCandles - 1) := by
    by_cases early : historyCandles - 1 ≤ 30
    · rw [learnt_early early, learnt_early early]
    have history : candles'.take historyCandles = candles.take historyCandles := by
      have shorter := congrArg (List.take historyCandles) same
      rwa [List.take_take, List.take_take, Nat.min_eq_left (Nat.le_add_right _ _)] at shorter
    have long' : historyCandles ≤ candles'.length := by
      have length := congrArg List.length history
      rw [List.length_take, List.length_take] at length
      omega
    have last : historyCandles - 1 + 1 = historyCandles := by omega
    have upTo := learnt_take (show historyCandles - 1 < candles.length by omega)
    have upTo' := learnt_take (show historyCandles - 1 < candles'.length by omega)
    rw [last] at upTo upTo'
    rw [← upTo, ← upTo', history]
  unfold callFor NextCandleDrill.predict
  rw [same, atCall_table, atCall_table, taught, atCall, atCall, fitNewest_eq, fitNewest_eq,
    afterCalls_confidence, afterCalls_confidence]

end Drill

/-- **The drill reports what was seen.**  Its numbers are the frequencies of the walk: of the
candles after the history, those called and not flat; of these, those called right; green and red;
and of the history's pairs, those that end in green.  A call is made from the candles before it. -/
theorem drill_report {candles : List Candle} {historyCandles : ℕ}
    (long : historyCandles + 30 ≤ candles.length) :
    let n := candles.length - historyCandles
    let scored := tally (walked candles historyCandles n)
    let ups := pairs candles historyCandles 1
    let downs := pairs candles historyCandles (-1)
    liveReport candles historyCandles = some (n,
      { decisions := scored fun _ _ => true
        accuracy := ratio (scored fun call actual => call = actual) (scored fun _ _ => true)
        coverage := ratio (scored fun _ _ => true) n
        greenCalls := scored fun call _ => call = 1
        redCalls := scored fun call _ => call = -1
        baseRateGreen := ratio ups (ups + downs) }) ∧
    ∀ k candles', candles'.take (historyCandles + k) = candles.take (historyCandles + k) →
      callFor candles' historyCandles k = callFor candles historyCandles k := by
  dsimp only
  refine ⟨?_, fun k candles' same => callFor_prefix (by omega) same⟩
  obtain ⟨decisions, calls⟩ :=
    afterCalls_decisions candles historyCandles (candles.length - historyCandles)
  obtain ⟨ups, downs⟩ := sumValues_learnt candles historyCandles
  have table : (atCall candles historyCandles (candles.length - historyCandles)).table =
      learnt candles (historyCandles - 1) := atCall_table _ _
  rw [atCall, fitNewest_eq] at table
  have sided := walked_sided candles historyCandles (candles.length - historyCandles)
  have all := countP_kept sided decision (fun _ => true) (fun _ _ => true) fun _ _ _ => rfl
  have right := countP_kept sided decision (fun d => d.1) (fun call actual => call = actual)
    fun _ _ _ => rfl
  have green := countP_kept sided decision (fun d => d.2) (fun call _ => call = 1)
    (by rintro _ _ (rfl | rfl) <;> rfl)
  have red := countP_kept sided decision (fun d => !d.2) (fun call _ => call = -1)
    (by rintro _ _ (rfl | rfl) <;> rfl)
  rw [List.countP_true] at all
  rw [liveReport, runLiveDrill, if_neg (by omega), Option.map_some, NextCandleDrill.score,
    NextCandleDrill.baseRate, decisions, calls, table, ups, downs, all, right, green, red]

/-- Green and red in turn. -/
def inTurn (n : ℕ) : List Candle :=
  (List.range n).map fun j => if j % 2 = 0 then ⟨1, 2, 1, 2, 0, 1, 1⟩ else ⟨2, 2, 1, 1, 0, 1, 1⟩

/-- Satisfiable pole: after two pairs every call is right. -/
theorem in_turn_report : liveReport (inTurn 63) 33 = some (30, ⟨30, 1, 1, 15, 15, 1 / 2⟩) := by
  obtain ⟨report, -⟩ := drill_report (show 33 + 30 ≤ (inTurn 63).length by decide)
  refine report.trans ?_
  decide +kernel

/-! ## The classifier -/

structure MlReport where
  candlesSeen : ℕ
  callsScored : ℕ
  accuracy : ℚ
  greenAccuracy : ℚ
  redAccuracy : ℚ
  greenCalls : ℕ
  redCalls : ℕ
  deriving DecidableEq, Repr

namespace NextCandleMl

variable {C : Classifier} (settings : MlSettings)

def report (s : NextCandleMl C) : MlReport :=
  let greens := s.decisions.countP fun d => d.call = 1
  let reds := s.decisions.length - greens
  { candlesSeen := s.history.length
    callsScored := s.decisions.length
    accuracy := ratio (s.decisions.countP fun d => d.hit) s.decisions.length
    greenAccuracy := ratio (s.decisions.countP fun d => d.call = 1 && d.hit) greens
    redAccuracy := ratio (s.decisions.countP fun d => d.call = -1 && d.hit) reds
    greenCalls := greens
    redCalls := reds }

/-- What each step called, and the colour of the candle after it. -/
def walk (events : List (MlEvent C)) (later : List Candle) : Walk :=
  (events.zip later).map fun p => (callOf p.1.reply, colour p.2)

def scoring (call actual : ℤ) : Decision := ⟨call, actual, decide (call = actual)⟩

theorem scoreOf_eq (pending : Option ℤ) (candle : Candle) :
    scoreOf pending candle = (kept scoring (pending, colour candle)).toList := by
  unfold scoreOf kept
  cases pending with
  | none => rfl
  | some call =>
      dsimp only [Option.bind_some]
      split <;> rfl

/-- What is scored along a run is kept of its walk. -/
theorem scoredFrom_walk (s : NextCandleMl C) (candles : List Candle) (pending : Option ℤ) :
    scoredFrom pending ((machine settings).trace s candles) =
      (candles.head?.map (scoreOf pending)).getD [] ++
        (walk ((machine settings).trace s candles) candles.tail).filterMap (kept scoring) := by
  induction candles generalizing s pending with
  | nil => rfl
  | cons candle candles ih =>
      rw [Machine.trace, scoredFrom, ih]
      cases candles with
      | nil => rfl
      | cons next candles =>
          rw [List.head?_cons, List.head?_cons, Option.map_some, Option.map_some, Option.getD_some,
            Option.getD_some, scoreOf_eq _ next, List.tail_cons, List.tail_cons]
          exact congrArg _ (filterMap_cons_toList _ _ _).symm

theorem call_sided {s : NextCandleMl C} {m : C.Model} {c : ℤ}
    (called : callOf (call s m).1 = some c) : c = 1 ∨ c = -1 := by
  unfold call at called
  split at called
  · cases called
  · cases called
  · dsimp only [callOf] at called
    split at called
    · exact .inl (Option.some.inj called).symm
    · exact .inr (Option.some.inj called).symm

/-- Every step calls green or red, or does not call. -/
theorem step_sided {s : NextCandleMl C} {candle : Candle} {c : ℤ}
    (called : callOf (step settings s candle).1 = some c) : c = 1 ∨ c = -1 := by
  unfold step at called
  dsimp only at called
  split at called
  · cases called
  · unfold train at called
    dsimp only at called
    split at called
    · split at called
      · cases called
      · split at called
        · cases called
        · exact call_sided called
    · split at called
      · cases called
      · exact call_sided called

theorem walk_sided (s : NextCandleMl C) (candles later : List Candle) :
    Sided (walk ((machine settings).trace s candles) later) := by
  intro p member c called
  obtain ⟨⟨e, candle⟩, zipped, rfl⟩ := List.mem_map.mp member
  obtain ⟨-, step⟩ := (machine settings).trace_invariant (P := fun _ => True)
    (fun _ _ _ => trivial) trivial candles e (List.of_mem_zip zipped).1
  rw [step] at called
  exact step_sided settings called

theorem history_run (s : NextCandleMl C) (candles : List Candle) :
    ((machine settings).run s candles).history = s.history ++ candles := by
  induction candles generalizing s with
  | nil => exact (List.append_nil _).symm
  | cons candle candles ih =>
      rw [Machine.run, ih]
      change (step settings s candle).2.history ++ candles = _
      rw [(step_keeps settings s candle).2.2, List.append_assoc, List.singleton_append]

/-- **The classifier reports what was seen.**  Its numbers are the frequencies of the walk: of
the candles that were called by the step before, and are not flat, those called right, and the
same of the green and of the red calls; so the accuracy is theirs, each by its number. -/
theorem ml_report (C : Classifier) (settings : MlSettings) (candles : List Candle) :
    let s := (machine (C := C) settings).run new candles
    let scored := tally (walk ((machine (C := C) settings).trace new candles) candles.tail)
    report s =
        { candlesSeen := candles.length
          callsScored := scored fun _ _ => true
          accuracy := ratio (scored fun call actual => call = actual) (scored fun _ _ => true)
          greenAccuracy := ratio (scored fun call actual => call = 1 && call = actual)
            (scored fun call _ => call = 1)
          redAccuracy := ratio (scored fun call actual => call = -1 && call = actual)
            (scored fun call _ => call = -1)
          greenCalls := scored fun call _ => call = 1
          redCalls := scored fun call _ => call = -1 } ∧
      (report s).accuracy * (report s).callsScored =
        (report s).greenAccuracy * (report s).greenCalls +
          (report s).redAccuracy * (report s).redCalls := by
  dsimp only
  have sided := walk_sided (C := C) settings new candles candles.tail
  have history : ((machine (C := C) settings).run new candles).history = candles :=
    (history_run settings new candles).trans (List.nil_append _)
  have decisions : ((machine (C := C) settings).run new candles).decisions =
      (walk ((machine (C := C) settings).trace new candles) candles.tail).filterMap
        (kept scoring) := by
    rw [scored_once, scoredFrom_walk]
    cases candles <;> rfl
  generalize walk ((machine (C := C) settings).trace new candles) candles.tail = walk at *
  have all := countP_kept sided scoring (fun _ => true) (fun _ _ => true) fun _ _ _ => rfl
  have right := countP_kept sided scoring (fun d => d.hit) (fun call actual => call = actual)
    fun _ _ _ => rfl
  have green := countP_kept sided scoring (fun d => d.call = 1) (fun call _ => call = 1)
    fun _ _ _ => rfl
  have greenRight := countP_kept sided scoring (fun d => d.call = 1 && d.hit)
    (fun call actual => call = 1 && call = actual) fun _ _ _ => rfl
  have redRight := countP_kept sided scoring (fun d => d.call = -1 && d.hit)
    (fun call actual => call = -1 && call = actual) fun _ _ _ => rfl
  have calls := tally_split sided fun _ _ => true
  have hits := tally_split sided fun call actual => call = actual
  simp only [Bool.and_true] at calls
  rw [List.countP_true] at all
  have reds : tally walk (fun _ _ => true) - tally walk (fun call _ => call = 1) =
      tally walk (fun call _ => call = -1) := by omega
  refine (and_iff_left_of_imp fun same => ?_).mpr ?_
  · rw [same]
    dsimp only
    rw [ratio_mul (tally_le fun _ _ _ => rfl), ratio_mul (tally_le fun _ _ both => ?_),
      ratio_mul (tally_le fun _ _ both => ?_), hits, Nat.cast_add]
    · exact (Bool.and_eq_true _ _ |>.mp both).1
    · exact (Bool.and_eq_true _ _ |>.mp both).1
  · rw [report, history, decisions, all, right, green, greenRight, redRight, reds]

end NextCandleMl

end CentaurApex.Cortex
