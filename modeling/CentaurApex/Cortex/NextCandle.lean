/-
# Cortex.NextCandle -- the next-candle drill, and what it has learnt by each call

The drill counts what followed each candle of a history, by colour, run and size, and then
walks on: at every further candle it is to add the newest pair and call the next colour.

* **No look-ahead** (`learnt_take`): what is learnt before a candle depends on the candles up
  to it only.
* **What the table is at a call** (`atCall_table`): that of the history, at every call.  The
  pair that is added ends in a candle that the list passed on does not have.
* **All that came before, exactly when** (`drill_learns_iff`): at a call the table is what had
  been learnt by then, if and only if every pair since the history adds nothing (`Idle`).

Refuting pole `pairs_not_learnt`: thirty-one candles of history, and a walk of rising ones.
-/
import CentaurApex.Cortex.Streaks

namespace CentaurApex.Cortex

open CentaurApex.Theory

set_option autoImplicit false

/-! ## The drill -/

/-- `_atr` -/
def drillAtr (candles : List Candle) (period : ℕ) : ℚ :=
  match candles with
  | [] => 0
  | [_] => 0
  | first :: rest =>
      (lastN period (trueRanges first.close rest)).sum /
        (lastN period (trueRanges first.close rest)).length

/-- A body in average ranges: small, one of them, two of them. -/
def sizeBucket (c : Candle) (atr : ℚ) : ℤ :=
  if 2 * atr ≤ |c.close - c.open_| then 2 else if atr ≤ |c.close - c.open_| then 1 else 0

/-- The context of the `i`-th candle, in the candles up to it. -/
def drillKey (hist : List Candle) (i : ℕ) : ℤ × ℤ × ℤ :=
  (colourAt hist i, streak hist i,
    (hist[i]?.map (sizeBucket · (drillAtr (hist.take (i + 1)) 14))).getD 0)

/-- `fit_accumulate` -/
def fitAccumulate (hist : List Candle) (table : StatsTable) (i : ℕ) : StatsTable :=
  if hist.length ≤ i + 1 then table
  else if colourAt hist i = 0 then table
  else table.record (drillKey hist i) (colourAt hist (i + 1))

structure NextCandleDrill where
  confidenceMin : ℚ
  table : StatsTable
  /-- right or wrong, and whether green was called -/
  decisions : List (Bool × Bool)
  allCalls : ℕ

namespace NextCandleDrill

def new (confidenceMin : ℚ) : NextCandleDrill := ⟨confidenceMin, .empty, [], 0⟩

def fit (drill : NextCandleDrill) (hist : List Candle) (i : ℕ) : NextCandleDrill :=
  { drill with table := fitAccumulate hist drill.table i }

/-- The colour of the next candle: green, red, or no call. -/
def predict (drill : NextCandleDrill) (hist : List Candle) : Option ℤ :=
  let last := hist.length - 1
  if hist = [] ∨ colourAt hist last = 0 then none
  else
    match drill.table.get? (drillKey hist last) with
    | none => none
    | some stat =>
        if stat.count = 0 then none
        else if drill.confidenceMin ≤ stat.pUp then some 1
        else if stat.pUp ≤ 1 - drill.confidenceMin then some (-1)
        else none

def onRealised (drill : NextCandleDrill) (call : Option ℤ) (actual : ℤ) : NextCandleDrill :=
  let drill := { drill with allCalls := drill.allCalls + 1 }
  match call with
  | none => drill
  | some call =>
      if actual = 0 then drill
      else { drill with decisions := drill.decisions ++ [(decide (call = actual), decide (0 < call))] }

end NextCandleDrill

/-- What the pairs from the thirtieth candle on have taught before the `i`-th. -/
def learnt (hist : List Candle) (i : ℕ) : StatsTable :=
  (List.range' 30 (i - 30)).foldl (fitAccumulate hist) .empty

/-- The first loop of `run_live_drill`. -/
def onHistory (candles : List Candle) (historyCandles : ℕ) : NextCandleDrill :=
  (List.range' 30 (historyCandles - 1 - 30)).foldl (fun drill i => drill.fit candles i)
    (.new (27 / 50))

/-- The second loop, as far as `hist` goes. -/
def fitNewest (drill : NextCandleDrill) (hist : List Candle) : NextCandleDrill :=
  drill.fit hist (hist.length - 1)

/-- One round of the second loop: the call for the `k`-th candle, and its score. -/
def callNext (candles : List Candle) (drill : NextCandleDrill) (k : ℕ) : NextCandleDrill :=
  let hist := candles.take k
  let drill := fitNewest drill hist
  drill.onRealised (drill.predict hist) (colourAt candles k)

/-- The drill after `n` calls. -/
def afterCalls (candles : List Candle) (historyCandles : ℕ) : ℕ → NextCandleDrill
  | 0 => onHistory candles historyCandles
  | n + 1 => callNext candles (afterCalls candles historyCandles n) (historyCandles + n)

/-- The drill as it makes its call for the `n`-th candle after the history. -/
def atCall (candles : List Candle) (historyCandles n : ℕ) : NextCandleDrill :=
  fitNewest (afterCalls candles historyCandles n) (candles.take (historyCandles + n))

/-- `run_live_drill`: the drill to be scored, if there are candles enough. -/
def runLiveDrill (candles : List Candle) (historyCandles : ℕ) : Option NextCandleDrill :=
  if candles.length < historyCandles + 30 then none
  else some (afterCalls candles historyCandles (candles.length - historyCandles))

/-! ## What is learnt -/

section Learnt

variable {candles : List Candle}

theorem learnt_succ {i : ℕ} (from_ : 30 ≤ i) :
    learnt candles (i + 1) = fitAccumulate candles (learnt candles i) i := by
  rw [learnt, show i + 1 - 30 = i - 30 + 1 by omega, List.range'_concat, List.foldl_concat, one_mul,
    show 30 + (i - 30) = i by omega]
  rfl

theorem learnt_early {i : ℕ} (early : i ≤ 30) : learnt candles i = .empty := by
  rw [learnt, show i - 30 = 0 by omega]
  rfl

theorem onHistory_table (historyCandles : ℕ) :
    (onHistory candles historyCandles).table = learnt candles (historyCandles - 1) := by
  have fold (is : List ℕ) (drill : NextCandleDrill) :
      (is.foldl (fun drill i => drill.fit candles i) drill).table =
        is.foldl (fitAccumulate candles) drill.table := by
    induction is generalizing drill with
    | nil => rfl
    | cons i is ih => exact ih (drill.fit candles i)
  exact fold _ _

/-- The newest candle has no successor in the list that is passed on. -/
theorem fitNewest_eq (drill : NextCandleDrill) (hist : List Candle) :
    fitNewest drill hist = drill := by
  have short : hist.length ≤ hist.length - 1 + 1 := by omega
  rw [fitNewest, NextCandleDrill.fit, fitAccumulate, if_pos short]

theorem onRealised_table (drill : NextCandleDrill) (call : Option ℤ) (actual : ℤ) :
    (drill.onRealised call actual).table = drill.table := by
  unfold NextCandleDrill.onRealised
  cases call with
  | none => rfl
  | some call =>
      dsimp only
      split <;> rfl

/-- **What the table is at a call**: that of the history. -/
theorem atCall_table (historyCandles n : ℕ) :
    (atCall candles historyCandles n).table = learnt candles (historyCandles - 1) := by
  rw [atCall, fitNewest_eq]
  induction n with
  | zero => exact onHistory_table historyCandles
  | succ n ih => rw [afterCalls, callNext, fitNewest_eq, onRealised_table, ih]

/-! ## No look-ahead -/

theorem colourAt_take {m j : ℕ} (lt : j < m) : colourAt (candles.take m) j = colourAt candles j := by
  rw [colourAt, List.getElem?_take_of_lt lt, colourAt]

theorem runBefore_take {m : ℕ} (c : ℤ) : ∀ {j : ℕ}, j ≤ m →
    runBefore (candles.take m) c j = runBefore candles c j
  | 0, _ => rfl
  | j + 1, le => by
      rw [runBefore, runBefore, colourAt_take (by omega), runBefore_take c (by omega)]

theorem drillKey_take {m j : ℕ} (lt : j < m) : drillKey (candles.take m) j = drillKey candles j := by
  rw [drillKey, drillKey, streak, streak, colourAt_take lt, runBefore_take _ lt.le,
    List.getElem?_take_of_lt lt, List.take_take, Nat.min_eq_left (by omega)]

theorem fit_take {m j : ℕ} (lt : j + 1 < m) (le : m ≤ candles.length) (table : StatsTable) :
    fitAccumulate (candles.take m) table j = fitAccumulate candles table j := by
  have length : ¬ (candles.take m).length ≤ j + 1 := by
    rw [List.length_take]
    omega
  have length' : ¬ candles.length ≤ j + 1 := by omega
  rw [fitAccumulate, fitAccumulate, if_neg length, if_neg length', colourAt_take lt,
    colourAt_take (Nat.lt_of_succ_lt lt), drillKey_take (Nat.lt_of_succ_lt lt)]

/-- **No look-ahead**: what is learnt before a candle is learnt from the candles up to it. -/
theorem learnt_take {i : ℕ} (inside : i < candles.length) :
    learnt (candles.take (i + 1)) i = learnt candles i := by
  have upTo (j : ℕ) (le : j ≤ i) : learnt (candles.take (i + 1)) j = learnt candles j := by
    induction j with
    | zero => rfl
    | succ j ih =>
        rcases Nat.lt_or_ge j 30 with early | late
        · rw [learnt_early early, learnt_early early]
        · rw [learnt_succ late, learnt_succ late, ih (by omega), fit_take (by omega) (by omega)]
  exact upTo i le_rfl

/-! ## Tables that grow -/

/-- Two tables that read the same. -/
def SameTable (t t' : StatsTable) : Prop := ∀ key, t.get? key = t'.get? key

/-- The second table counts no less. -/
def Grows (t t' : StatsTable) : Prop :=
  ∀ key s, t.get? key = some s →
    ∃ s', t'.get? key = some s' ∧ s.up ≤ s'.up ∧ s.down ≤ s'.down

theorem grows_refl (t : StatsTable) : Grows t t := fun _ s read => ⟨s, read, le_rfl, le_rfl⟩

theorem Grows.trans {t u v : StatsTable} (first : Grows t u) (second : Grows u v) : Grows t v := by
  intro key s read
  obtain ⟨s', read', up, down⟩ := first key s read
  obtain ⟨s'', read'', up', down'⟩ := second key s' read'
  exact ⟨s'', read'', up.trans up', down.trans down'⟩

/-- What grows into a table and out of it again is that table. -/
theorem Grows.same {t u v : StatsTable} (first : Grows t u) (second : Grows u v)
    (same : SameTable t v) : SameTable t u := by
  intro key
  cases before : t.get? key with
  | some s =>
      obtain ⟨s', read', up, down⟩ := first key s before
      obtain ⟨s'', read'', up', down'⟩ := second key s' read'
      rw [← same key, before] at read''
      obtain rfl := Option.some.inj read''
      obtain ⟨a, b⟩ := s
      obtain ⟨a', b'⟩ := s'
      dsimp only at up down up' down'
      rw [read', show a = a' by omega, show b = b' by omega]
  | none =>
      cases between : u.get? key with
      | none => rfl
      | some s' =>
          obtain ⟨s'', read'', -⟩ := second key s' between
          rw [← same key, before] at read''
          cases read''

theorem grows_record (t : StatsTable) (key : ℤ × ℤ × ℤ) (colour : ℤ) :
    Grows t (t.record key colour) := by
  intro k s read
  rw [StatsTable.record, PyDict.get?_setItem]
  by_cases here : k = key
  · subst here
    rw [if_pos rfl, read]
    exact ⟨_, rfl, Nat.le_add_right _ _, Nat.le_add_right _ _⟩
  · rw [if_neg here]
    exact ⟨s, read, le_rfl, le_rfl⟩

/-- Recording changes nothing exactly where a flat candle comes under a key that is there. -/
theorem same_record_iff {t : StatsTable} {key : ℤ × ℤ × ℤ} {colour : ℤ} :
    SameTable t (t.record key colour) ↔ colour = 0 ∧ (t.get? key).isSome := by
  constructor
  · intro same
    have here := same key
    rw [StatsTable.record, PyDict.get?_setItem, if_pos rfl] at here
    cases before : t.get? key with
    | none =>
        rw [before] at here
        cases here
    | some s =>
        rw [before] at here
        refine ⟨?_, rfl⟩
        by_contra coloured
        exact s.add_ne coloured (Option.some.inj here).symm
  · rintro ⟨rfl, there⟩ k
    obtain ⟨s, read⟩ := Option.isSome_iff_exists.mp there
    rw [StatsTable.record, PyDict.get?_setItem]
    by_cases here : k = key
    · subst here
      rw [if_pos rfl, read]
      rfl
    · rw [if_neg here]

theorem grows_fit (table : StatsTable) (i : ℕ) : Grows table (fitAccumulate candles table i) := by
  unfold fitAccumulate
  split
  · exact grows_refl table
  · split
    · exact grows_refl table
    · exact grows_record table _ _

theorem grows_learnt {i j : ℕ} (le : i ≤ j) : Grows (learnt candles i) (learnt candles j) := by
  induction j, le using Nat.le_induction with
  | base => exact grows_refl _
  | succ j le ih =>
      rcases Nat.lt_or_ge j 30 with early | late
      · rwa [learnt_early early, ← learnt_early early.le]
      · rw [learnt_succ late]
        exact ih.trans (grows_fit _ _)

/-- The keys that have been learnt are those of the coloured candles. -/
theorem isSome_learnt_iff {m : ℕ} (inside : m < candles.length) {key : ℤ × ℤ × ℤ} :
    ((learnt candles m).get? key).isSome ↔
      ∃ k, 30 ≤ k ∧ k < m ∧ colourAt candles k ≠ 0 ∧ drillKey candles k = key := by
  induction m with
  | zero =>
      refine iff_of_false (fun there => by cases there) ?_
      rintro ⟨k, -, lt, -⟩
      omega
  | succ m ih =>
      rcases Nat.lt_or_ge m 30 with early | late
      · rw [learnt_early early]
        refine iff_of_false (fun there => by cases there) ?_
        rintro ⟨k, low, lt, -⟩
        omega
      have longer {P : ℕ → Prop} : (∃ k, 30 ≤ k ∧ k < m + 1 ∧ P k) ↔
          P m ∨ ∃ k, 30 ≤ k ∧ k < m ∧ P k := by
        constructor
        · rintro ⟨k, low, lt, holds⟩
          rcases Nat.eq_or_lt_of_le (Nat.le_of_lt_succ lt) with rfl | earlier
          · exact .inl holds
          · exact .inr ⟨k, low, earlier, holds⟩
        · rintro (holds | ⟨k, low, lt, holds⟩)
          · exact ⟨m, late, Nat.lt_succ_self m, holds⟩
          · exact ⟨k, low, by omega, holds⟩
      rw [learnt_succ late, longer, ← ih (by omega), fitAccumulate, if_neg (by omega)]
      by_cases flat : colourAt candles m = 0
      · rw [if_pos flat]
        exact (or_iff_right fun both => both.1 flat).symm
      rw [if_neg flat, StatsTable.record, PyDict.get?_setItem]
      by_cases here : key = drillKey candles m
      · rw [if_pos here]
        exact iff_of_true rfl (.inl ⟨flat, here.symm⟩)
      · rw [if_neg here]
        exact (or_iff_right fun both => here both.2.symm).symm

/-- A pair that adds nothing to what the history has taught: a flat candle, or one before a flat
candle whose context the history knows. -/
def Idle (candles : List Candle) (historyCandles j : ℕ) : Prop :=
  colourAt candles j = 0 ∨ colourAt candles (j + 1) = 0 ∧
    ∃ k, 30 ≤ k ∧ k + 1 < historyCandles ∧ colourAt candles k ≠ 0 ∧
      drillKey candles k = drillKey candles j

/-- A pair adds nothing to what has been learnt exactly where it is idle. -/
theorem same_fit_iff (historyCandles : ℕ) {j : ℕ} (late : 30 ≤ j) (inside : j + 1 < candles.length)
    (since : historyCandles ≤ j + 1)
    (same : SameTable (learnt candles (historyCandles - 1)) (learnt candles j)) :
    SameTable (learnt candles j) (learnt candles (j + 1)) ↔ Idle candles historyCandles j := by
  rw [learnt_succ late, fitAccumulate, if_neg (by omega), Idle]
  by_cases flat : colourAt candles j = 0
  · rw [if_pos flat]
    exact iff_of_true (fun _ => rfl) (.inl flat)
  rw [if_neg flat, same_record_iff, ← same, isSome_learnt_iff (by omega), or_iff_right flat]
  refine and_congr_right fun _ => exists_congr fun k => and_congr_right fun low => ?_
  exact and_congr_left fun _ => by omega

/-- **All that came before, exactly when**: whatever the candles and whichever the call, the
table is what all pairs from the thirtieth candle on have taught before the newest candle, if
and only if every pair since the history adds nothing: a flat candle, or one before a flat candle
in a context that the history knows. -/
theorem drill_learns_iff (historyCandles n : ℕ) (call : historyCandles + n < candles.length) :
    SameTable (atCall candles historyCandles n).table (learnt candles (historyCandles + n - 1)) ↔
      ∀ j, 30 ≤ j → historyCandles ≤ j + 1 → j + 1 < historyCandles + n →
        Idle candles historyCandles j := by
  rw [atCall_table]
  constructor
  · intro same j late since before
    have grown {i : ℕ} (low : historyCandles - 1 ≤ i) (high : i ≤ historyCandles + n - 1) :
        SameTable (learnt candles (historyCandles - 1)) (learnt candles i) :=
      (grows_learnt low).same (grows_learnt high) same
    have here := grown (i := j) (by omega) (by omega)
    have next := grown (i := j + 1) (by omega) (by omega)
    exact (same_fit_iff historyCandles late (by omega) since here).mp fun key => (here key).symm.trans (next key)
  · intro idle
    have upTo (i : ℕ) (low : historyCandles - 1 ≤ i) :
        i ≤ historyCandles + n - 1 →
          SameTable (learnt candles (historyCandles - 1)) (learnt candles i) := by
      induction i, low using Nat.le_induction with
      | base => exact fun _ _ => rfl
      | succ j low ih =>
          intro high
          have same := ih (by omega)
          rcases Nat.lt_or_ge j 30 with early | late
          · rwa [learnt_early early, ← learnt_early early.le]
          · have still := (same_fit_iff historyCandles late (by omega) (by omega) same).mpr
              (idle j late (by omega) (by omega))
            exact fun key => (same key).trans (still key)
    exact upTo _ (by omega) le_rfl

end Learnt

/-- Satisfiable pole: a walk of flat candles after thirty-one of history. -/
theorem flat_walk_learnt :
    SameTable (atCall (List.replicate 61 ⟨100, 101, 99, 100, 0, 60, 1⟩) 31 1).table
      (learnt (List.replicate 61 ⟨100, 101, 99, 100, 0, 60, 1⟩) (31 + 1 - 1)) := by
  refine (drill_learns_iff 31 1 (by decide)).mpr fun j late since before => .inl ?_
  obtain rfl : j = 30 := by omega
  decide +kernel

/-- Refuting pole: rising candles.  The pair of the thirtieth is due at the second call, and is
not in the table. -/
theorem pairs_not_learnt :
    ¬ ∀ (candles : List Candle) (historyCandles n : ℕ), historyCandles + 30 ≤ candles.length →
      historyCandles + n < candles.length →
        SameTable (atCall candles historyCandles n).table
          (learnt candles (historyCandles + n - 1)) := by
  intro always
  have same := always (List.replicate 61 ⟨100, 101, 100, 101, 0, 60, 1⟩) 31 1 (by decide) (by decide)
  rw [atCall_table] at same
  have idle := (same_fit_iff 31 le_rfl (by decide) (by decide) fun _ => rfl).mp same
  rcases idle with flat | ⟨flat, -⟩
  · exact absurd flat (by decide +kernel)
  · exact absurd flat (by decide +kernel)

end CentaurApex.Cortex
