/-
# Cortex.Streaks -- base rates by streak, and whose streak they count

What a candle is followed by is counted under its colour, its size and the streak it ends: the
run of candles of one colour up to it.  The drill measures a run backwards from the candle
(`streak`); the sequence statistics count it forwards, from the second candle on and past flat
candles (`ObserveLoop`).

* **The counter** (`streak_loop`): it is short by one on a run from the very first candle, and
  long by the run before a gap of flat candles.
* **Real runs, exactly when** (`observe_real_iff`): each step counts what it should under the
  key that it should, if and only if every counted candle is `Counted`: a difference in length
  that the three buckets do not see.

Refuting pole `first_run_short`: three rising candles.
-/
import CentaurApex.Cortex.MarketContext
import CentaurApex.Theory.PyDict

namespace CentaurApex.Cortex

open CentaurApex.Theory
open CentaurApex.Theory.ExtNum (fin)

set_option autoImplicit false

/-! ## Conditional counts -/

structure CondStats where
  up : ℕ
  down : ℕ
  deriving DecidableEq, Repr

namespace CondStats

/-- `CondStats()` -/
def none_ : CondStats := ⟨0, 0⟩

def count (s : CondStats) : ℕ := s.up + s.down

def pUp (s : CondStats) : ℚ := (s.up + 1) / (s.count + 2)

def pDown (s : CondStats) : ℚ := (s.down + 1) / (s.count + 2)

/-- One more candle of a colour; a flat one counts for neither. -/
def add (s : CondStats) (colour : ℤ) : CondStats :=
  ⟨s.up + if 0 < colour then 1 else 0, s.down + if colour < 0 then 1 else 0⟩

theorem add_ne (s : CondStats) {colour : ℤ} (coloured : colour ≠ 0) : s.add colour ≠ s := by
  intro same
  have ups := congrArg up same
  have downs := congrArg down same
  simp only [add] at ups downs
  split_ifs at ups downs <;> omega

end CondStats

/-- What is counted, by three numbers. -/
abbrev StatsTable : Type := PyDict (ℤ × ℤ × ℤ) CondStats

/-- `table.setdefault(key, CondStats())`, and one more candle there. -/
def StatsTable.record (table : StatsTable) (key : ℤ × ℤ × ℤ) (colour : ℤ) : StatsTable :=
  table.setItem key (((table.get? key).getD .none_).add colour)

/-- A coloured candle is counted under one key. -/
theorem StatsTable.record_injective {table : StatsTable} {key key' : ℤ × ℤ × ℤ} {colour : ℤ}
    (coloured : colour ≠ 0) (same : table.record key colour = table.record key' colour) :
    key = key' := by
  by_contra other
  have read := congrArg (PyDict.get? · key) same
  simp only [record, PyDict.get?_setItem, if_true, if_neg other] at read
  cases before : table.get? key with
  | none =>
      rw [before] at read
      cases read
  | some s =>
      rw [before] at read
      exact s.add_ne coloured (Option.some.inj read)

/-! ## Colours and runs -/

/-- `_sign` -/
def sign (v : ℚ) : ℤ := (if 0 < v then 1 else 0) - if v < 0 then 1 else 0

/-- `_colour` -/
def colour (c : Candle) : ℤ :=
  (if c.open_ < c.close then 1 else 0) - if c.close < c.open_ then 1 else 0

theorem sign_body (c : Candle) : sign (c.close - c.open_) = colour c := by
  simp only [sign, colour, sub_pos, sub_neg]

/-- The colour of a candle of the list; none beyond it. -/
def colourAt (hist : List Candle) (i : ℕ) : ℤ := (hist[i]?.map colour).getD 0

/-- How many candles before the `j`-th are of this colour, without a gap. -/
def runBefore (hist : List Candle) (col : ℤ) : ℕ → ℕ
  | 0 => 0
  | j + 1 => if colourAt hist j = col then runBefore hist col j + 1 else 0

/-- `_streak` -/
def streak (hist : List Candle) (i : ℕ) : ℕ :=
  if colourAt hist i = 0 then 0 else runBefore hist (colourAt hist i) i + 1

/-! ## The sequence statistics -/

def bodyBucket (bodyAbs : ℚ) (atr : ExtNum ℚ) : ℤ :=
  if atr ≤ 0 then 0
  else if fin bodyAbs / atr < fin (1 / 2) then 0
  else if fin bodyAbs / atr < fin 2 then 1
  else 2

def streakBucket (streak : ℕ) : ℤ := if streak ≤ 1 then 0 else if streak = 2 then 1 else 2

/-- The state of the loop over the candles. -/
structure ObserveLoop where
  table : StatsTable
  streak : ℕ
  lastDir : Option ℤ

namespace ObserveLoop

def start (table : StatsTable) : ObserveLoop := ⟨table, 0, none⟩

/-- The loop at the `i`-th candle. -/
def step (candles : List Candle) (atr : ExtNum ℚ) (s : ObserveLoop) (i : ℕ) : ObserveLoop :=
  match candles[i]? with
  | none => s
  | some cur =>
      let d := sign (cur.close - cur.open_)
      -- a flat candle ends no streak
      if d = 0 then s
      else
        let streak := if s.lastDir = some d then s.streak + 1 else 1
        let bucket := (bodyBucket |cur.close - cur.open_| atr, d, streakBucket streak)
        let s := { s with streak, lastDir := some d }
        match candles[i + 1]? with
        | none => s
        | some nxt =>
            let nd := sign (nxt.close - nxt.open_)
            if nd = 0 then s else { s with table := s.table.record bucket nd }

/-- The loop after the `i`-th candle: it begins with the second. -/
def loop (table : StatsTable) (candles : List Candle) (atr : ExtNum ℚ) : ℕ → ObserveLoop
  | 0 => start table
  | i + 1 => step candles atr (loop table candles atr i) (i + 1)

end ObserveLoop

/-- `CandleSequenceStats.observe` on a table. -/
def observe (table : StatsTable) (candles : List Candle) (atr : ExtNum ℚ) : StatsTable :=
  if candles.length < 3 ∨ atr ≤ 0 then table
  else (ObserveLoop.loop table candles atr (candles.length - 1)).table

/-! ## What a step does -/

section Step

variable {candles : List Candle} {atr : ExtNum ℚ}

/-- The key of a candle, by the streak it is said to end. -/
def keyOf (candles : List Candle) (atr : ExtNum ℚ) (i streak : ℕ) : ℤ × ℤ × ℤ :=
  (bodyBucket ((candles[i]?.map fun c => |c.close - c.open_|).getD 0) atr, colourAt candles i,
    streakBucket streak)

theorem colourAt_of_get {i : ℕ} {c : Candle} (here : candles[i]? = some c) :
    colourAt candles i = colour c := by
  rw [colourAt, here]
  rfl

theorem colourAt_of_none {i : ℕ} (here : candles[i]? = none) : colourAt candles i = 0 := by
  rw [colourAt, here]
  rfl

namespace ObserveLoop

theorem step_flat {i : ℕ} (flat : colourAt candles i = 0) (s : ObserveLoop) :
    step candles atr s i = s := by
  unfold step
  cases here : candles[i]? with
  | none => rfl
  | some cur =>
      rw [colourAt_of_get here] at flat
      simp only [sign_body, flat, if_true]

/-- A coloured candle goes on with the streak of the last coloured one, or begins another. -/
theorem step_coloured {i : ℕ} (coloured : colourAt candles i ≠ 0) (s : ObserveLoop) :
    (step candles atr s i).lastDir = some (colourAt candles i) ∧
      (step candles atr s i).streak =
        if s.lastDir = some (colourAt candles i) then s.streak + 1 else 1 := by
  cases here : candles[i]? with
  | none => exact absurd (colourAt_of_none here) coloured
  | some cur =>
      have same := colourAt_of_get here
      rw [same] at coloured ⊢
      unfold step
      simp only [here, sign_body, if_neg coloured]
      split
      · exact ⟨rfl, rfl⟩
      · split
        · exact ⟨rfl, rfl⟩
        · exact ⟨rfl, rfl⟩

/-- Two coloured candles in a row are counted. -/
theorem step_table {i : ℕ} (s : ObserveLoop) :
    (step candles atr s i).table =
      if colourAt candles i ≠ 0 ∧ colourAt candles (i + 1) ≠ 0 then
        s.table.record (keyOf candles atr i (step candles atr s i).streak)
          (colourAt candles (i + 1))
      else s.table := by
  by_cases coloured : colourAt candles i = 0
  · rw [step_flat coloured, if_neg fun both => both.1 coloured]
  cases here : candles[i]? with
  | none => exact absurd (colourAt_of_none here) coloured
  | some cur =>
      have same := colourAt_of_get here
      have key (streak : ℕ) : keyOf candles atr i streak =
          (bodyBucket |cur.close - cur.open_| atr, colour cur, streakBucket streak) := by
        rw [keyOf, here, same]
        rfl
      rw [(step_coloured coloured s).2, key]
      rw [same] at coloured ⊢
      unfold step
      simp only [here, sign_body, if_neg coloured]
      generalize (if s.lastDir = some (colour cur) then s.streak + 1 else 1) = counted
      cases next : candles[i + 1]? with
      | none =>
          rw [colourAt_of_none next]
          exact (if_neg fun both => both.2 rfl).symm
      | some nxt =>
          rw [colourAt_of_get next]
          by_cases flat : colour nxt = 0
          · simp only [flat, if_true]
            exact (if_neg fun both => both.2 rfl).symm
          · simp only [if_neg flat]
            exact (if_pos ⟨coloured, flat⟩).symm

/-! ## What the counter counts -/

variable {table : StatsTable}

/-- The loop has this colour last: the last coloured candle from the second on, up to the
`m`-th, is of that colour. -/
theorem lastDir_iff {m : ℕ} {c : ℤ} (coloured : c ≠ 0) :
    (loop table candles atr m).lastDir = some c ↔
      ∃ j, 1 ≤ j ∧ j ≤ m ∧ colourAt candles j = c ∧
        ∀ k, j < k → k ≤ m → colourAt candles k = 0 := by
  induction m with
  | zero =>
      refine iff_of_false (fun same => by cases same) ?_
      rintro ⟨j, low, high, -⟩
      omega
  | succ m ih =>
      by_cases flat : colourAt candles (m + 1) = 0
      · rw [loop, step_flat flat, ih]
        constructor
        · rintro ⟨j, low, high, same, gap⟩
          refine ⟨j, low, by omega, same, fun k above below => ?_⟩
          rcases Nat.lt_or_ge m k with beyond | within
          · rwa [show k = m + 1 by omega]
          · exact gap k above within
        · rintro ⟨j, low, high, same, gap⟩
          have ne : j ≠ m + 1 := by
            rintro rfl
            exact coloured (same.symm.trans flat)
          exact ⟨j, low, by omega, same, fun k above below => gap k above (by omega)⟩
      · rw [loop, (step_coloured flat _).1, Option.some.injEq]
        constructor
        · intro same
          exact ⟨m + 1, by omega, le_rfl, same, fun k above below => by omega⟩
        · rintro ⟨j, low, high, same, gap⟩
          rcases Nat.lt_or_ge j (m + 1) with earlier | last
          · exact absurd (gap (m + 1) earlier le_rfl) flat
          · rwa [show m + 1 = j by omega]

/-- A streak that there is has a candle. -/
theorem streak_pos {m : ℕ} {c : ℤ} (last : (loop table candles atr m).lastDir = some c) :
    1 ≤ (loop table candles atr m).streak := by
  induction m generalizing c with
  | zero => cases last
  | succ m ih =>
      by_cases flat : colourAt candles (m + 1) = 0
      · rw [loop, step_flat flat] at last ⊢
        exact ih last
      · rw [loop, (step_coloured flat _).2]
        split <;> omega

theorem lastDir_coloured {m : ℕ} (pos : 1 ≤ m) (coloured : colourAt candles m ≠ 0) :
    (loop table candles atr m).lastDir = some (colourAt candles m) := by
  obtain ⟨k, rfl⟩ : ∃ k, m = k + 1 := ⟨m - 1, by omega⟩
  exact (step_coloured coloured _).1

variable (atr table) in
/-- Along candles of one colour the counter counts. -/
theorem streak_along {c : ℤ} (coloured : c ≠ 0) {first : ℕ} (pos : 1 ≤ first) :
    ∀ {n : ℕ}, (∀ j, first ≤ j → j ≤ first + n → colourAt candles j = c) →
      (loop table candles atr (first + n)).streak = (loop table candles atr first).streak + n
  | 0, _ => rfl
  | n + 1, run => by
      have here := run (first + n + 1) (by omega) (by omega)
      have before := run (first + n) (by omega) (by omega)
      have last : (loop table candles atr (first + n)).lastDir = some c := by
        rw [lastDir_coloured (by omega) (by rwa [before]), before]
      have counts : (step candles atr (loop table candles atr (first + n)) (first + n + 1)).streak =
          _ := (step_coloured (by rwa [here]) (loop table candles atr (first + n))).2
      rw [here, if_pos last, streak_along coloured pos fun j low high => run j low (by omega)]
        at counts
      exact counts

/-- A run starts with one candle, or goes on after the last coloured one. -/
theorem streak_first {first : ℕ} (coloured : colourAt candles (first + 1) ≠ 0) :
    (loop table candles atr (first + 1)).streak =
      if (loop table candles atr first).lastDir = some (colourAt candles (first + 1)) then
        (loop table candles atr first).streak + 1
      else 1 := (step_coloured coloured _).2

end ObserveLoop

/-! ## Backwards -/

/-- The candles of the run before the `i`-th, and the one that ends it. -/
theorem runBefore_spec (candles : List Candle) (c : ℤ) (i : ℕ) :
    runBefore candles c i ≤ i ∧ (∀ j, i ≤ j + runBefore candles c i → j < i →
      colourAt candles j = c) ∧
      ∀ j, j + runBefore candles c i + 1 = i → colourAt candles j ≠ c := by
  induction i with
  | zero => exact ⟨le_rfl, fun j _ lt => absurd lt (Nat.not_lt_zero j), fun j eq => by omega⟩
  | succ i ih =>
      obtain ⟨le, run, ends⟩ := ih
      rw [runBefore]
      by_cases here : colourAt candles i = c
      · rw [if_pos here]
        refine ⟨by omega, fun j low lt => ?_, fun j eq => ends j (by omega)⟩
        rcases Nat.lt_or_ge j i with earlier | last
        · exact run j (by omega) earlier
        · rwa [show j = i by omega]
      · rw [if_neg here]
        exact ⟨by omega, fun j low lt => by omega, fun j eq => by rwa [show j = i by omega]⟩

/-- Before the run that ends at the `i`-th candle, past flat ones and not counting the very
first, the nearest candle is of its colour. -/
def Resumed (candles : List Candle) (i : ℕ) : Prop :=
  ∃ j, 1 ≤ j ∧ j + streak candles i ≤ i ∧ colourAt candles j = colourAt candles i ∧
    ∀ k, j < k → k + streak candles i ≤ i → colourAt candles k = 0

/-- What the buckets do not see: one candle missing of a run from the very first that has four,
or candles of another run counted on top of three. -/
structure Counted (candles : List Candle) (i : ℕ) : Prop where
  first : streak candles i = i + 1 → 4 ≤ streak candles i
  later : streak candles i ≤ i → 3 ≤ streak candles i ∨ ¬ Resumed candles i

section Counter

open ObserveLoop (loop)

variable {table : StatsTable}

variable (atr table) in
/-- **The counter**: short by one on a run from the very first candle, otherwise the length of
the run, and on top of it the count before a gap of flat candles. -/
theorem streak_loop {i : ℕ} (pos : 1 ≤ i) (coloured : colourAt candles i ≠ 0) :
    (streak candles i = i + 1 ∧ (loop table candles atr i).streak = i) ∨
    (streak candles i ≤ i ∧ ¬ Resumed candles i ∧
      (loop table candles atr i).streak = streak candles i) ∨
    (streak candles i ≤ i ∧ Resumed candles i ∧
      streak candles i < (loop table candles atr i).streak) := by
  have length : streak candles i = runBefore candles (colourAt candles i) i + 1 :=
    if_neg coloured
  obtain ⟨le, run, -⟩ := runBefore_spec candles (colourAt candles i) i
  rcases Nat.eq_or_lt_of_le le with whole | part
  · -- the run starts with the very first candle, and the loop with the second
    refine .inl ⟨by omega, ?_⟩
    obtain ⟨n, rfl⟩ : ∃ n, i = 1 + n := ⟨i - 1, by omega⟩
    have same (j : ℕ) (low : 1 ≤ j) (high : j ≤ 1 + n) :
        colourAt candles j = colourAt candles (1 + n) := by
      rcases Nat.eq_or_lt_of_le high with rfl | lt
      · rfl
      · exact run j (by omega) lt
    have one : (loop table candles atr 1).streak = 1 := by
      rw [ObserveLoop.streak_first (by rwa [same 1 le_rfl (by omega)])]
      exact if_neg fun none_ => by cases none_
    rw [ObserveLoop.streak_along atr table coloured le_rfl same, one, add_comm]
  · obtain ⟨before, same_before⟩ : ∃ before, before + streak candles i = i :=
      ⟨i - streak candles i, by omega⟩
    have same (j : ℕ) (low : before + 1 ≤ j) (high : j ≤ i) :
        colourAt candles j = colourAt candles i := by
      rcases Nat.eq_or_lt_of_le high with rfl | lt
      · rfl
      · exact run j (by omega) lt
    have first := same (before + 1) le_rfl (by omega)
    have along : (loop table candles atr i).streak =
        (loop table candles atr (before + 1)).streak + (streak candles i - 1) := by
      have counts := ObserveLoop.streak_along atr table coloured
        (show 1 ≤ before + 1 by omega) (n := streak candles i - 1)
        fun j low high => same j low (by omega)
      rwa [show before + 1 + (streak candles i - 1) = i by omega] at counts
    have resumed : (loop table candles atr before).lastDir = some (colourAt candles i) ↔
        Resumed candles i := by
      rw [ObserveLoop.lastDir_iff coloured]
      refine exists_congr fun j => and_congr_right fun _ => ?_
      constructor
      · rintro ⟨high, same, gap⟩
        exact ⟨by omega, same, fun k above below => gap k above (by omega)⟩
      · rintro ⟨high, same, gap⟩
        exact ⟨by omega, same, fun k above below => gap k above (by omega)⟩
    rw [ObserveLoop.streak_first (by rwa [first]), first] at along
    by_cases last : (loop table candles atr before).lastDir = some (colourAt candles i)
    · have := ObserveLoop.streak_pos last
      rw [if_pos last] at along
      exact .inr (.inr ⟨by omega, resumed.mp last, by omega⟩)
    · rw [if_neg last] at along
      exact .inr (.inl ⟨by omega, resumed.not.mp last, by omega⟩)

variable (atr table) in
/-- The buckets of the counter and of the run agree exactly where the candle is counted. -/
theorem streakBucket_loop_iff {i : ℕ} (pos : 1 ≤ i) (coloured : colourAt candles i ≠ 0) :
    streakBucket (loop table candles atr i).streak = streakBucket (streak candles i) ↔
      Counted candles i := by
  have least : 1 ≤ streak candles i := by
    rw [streak, if_neg coloured]
    omega
  unfold streakBucket
  rcases streak_loop atr table pos coloured with
    ⟨whole, short⟩ | ⟨part, fresh, exact_⟩ | ⟨part, resumed, long⟩
  · constructor
    · intro same
      refine ⟨fun _ => ?_, fun le => by omega⟩
      split_ifs at same <;> omega
    · intro counted
      have := counted.first whole
      split_ifs <;> omega
  · rw [exact_]
    exact iff_of_true rfl ⟨fun whole => by omega, fun _ => .inr fresh⟩
  · constructor
    · intro same
      refine ⟨fun whole => by omega, fun _ => .inl ?_⟩
      split_ifs at same <;> omega
    · intro counted
      have := (counted.later part).resolve_right (not_not_intro resumed)
      split_ifs <;> omega

/-! ## Real runs -/

/-- What a coloured candle before a coloured one should add: one candle of the successor's
colour, under its own size, colour and run. -/
def realStep (candles : List Candle) (atr : ExtNum ℚ) (i : ℕ) (table : StatsTable) : StatsTable :=
  if colourAt candles i ≠ 0 ∧ colourAt candles (i + 1) ≠ 0 then
    table.record (keyOf candles atr i (streak candles i)) (colourAt candles (i + 1))
  else table

theorem table_loop_iff (i : ℕ) :
    (loop table candles atr (i + 1)).table =
        realStep candles atr (i + 1) (loop table candles atr i).table ↔
      (colourAt candles (i + 1) ≠ 0 → colourAt candles (i + 1 + 1) ≠ 0 →
        Counted candles (i + 1)) := by
  have step : (ObserveLoop.step candles atr (loop table candles atr i) (i + 1)).table = _ :=
    ObserveLoop.step_table (loop table candles atr i)
  rw [realStep, loop, step]
  by_cases both : colourAt candles (i + 1) ≠ 0 ∧ colourAt candles (i + 1 + 1) ≠ 0
  · obtain ⟨coloured, next⟩ := both
    rw [if_pos ⟨coloured, next⟩, if_pos ⟨coloured, next⟩]
    have bucket := streakBucket_loop_iff atr table (Nat.le_add_left 1 i) coloured
    rw [forall_prop_of_true coloured, forall_prop_of_true next, ← bucket]
    constructor
    · intro same
      have key := StatsTable.record_injective next same
      exact congrArg (fun key => key.2.2) key
    · intro same
      have key : keyOf candles atr (i + 1) (loop table candles atr (i + 1)).streak =
          keyOf candles atr (i + 1) (streak candles (i + 1)) := by
        rw [keyOf, same, keyOf]
      exact congrArg (fun key => StatsTable.record _ key _) key
  · rw [if_neg both, if_neg both]
    exact iff_of_true rfl fun coloured next => absurd ⟨coloured, next⟩ both

/-- **Real runs, exactly when every counted candle is `Counted`**: whatever the candles, three
at least, and a positive average range, the statistics after the loop are those of `observe`,
and each of its steps adds to the table what it should -- one candle of the successor's colour
under the size, the colour and the run of its own, where both are coloured, and otherwise
nothing -- if and only if the run of every coloured candle before a coloured one has four
candles or more where it starts with the very first, and elsewhere has three or more or goes on
from no candle of its colour before a gap of flat ones. -/
theorem observe_real_iff (table : StatsTable) (long : 3 ≤ candles.length) (positive : 0 < atr) :
    observe table candles atr = (loop table candles atr (candles.length - 1)).table ∧
      ((∀ i, i + 1 < candles.length → (loop table candles atr (i + 1)).table =
          realStep candles atr (i + 1) (loop table candles atr i).table) ↔
        ∀ i, 1 ≤ i → i < candles.length → colourAt candles i ≠ 0 →
          colourAt candles (i + 1) ≠ 0 → Counted candles i) := by
  constructor
  · have flat := ExtNum.not_le_of_lt positive
    exact if_neg fun short => short.elim (fun few => by omega) flat
  · constructor
    · intro real i pos lt
      obtain ⟨i, rfl⟩ : ∃ k, i = k + 1 := ⟨i - 1, by omega⟩
      exact (table_loop_iff i).mp (real i lt)
    · intro counted i lt
      exact (table_loop_iff i).mpr (counted (i + 1) (by omega) lt)

/-- A rising candle between two falling ones. -/
def seesaw : List Candle :=
  [⟨101, 101, 100, 100, 0, 60, 1⟩, ⟨100, 102, 100, 102, 60, 120, 1⟩,
    ⟨102, 102, 101, 101, 120, 180, 1⟩]

/-- Satisfiable pole: runs of one candle. -/
theorem seesaw_real :
    observe .empty seesaw (fin 2) = (loop .empty seesaw (fin 2) 2).table ∧
      (loop .empty seesaw (fin 2) 1).table =
        realStep seesaw (fin 2) 1 (loop .empty seesaw (fin 2) 0).table ∧
      (loop .empty seesaw (fin 2) 2).table =
        realStep seesaw (fin 2) 2 (loop .empty seesaw (fin 2) 1).table := by
  have long : 3 ≤ seesaw.length := by decide
  have positive : (0 : ExtNum ℚ) < fin 2 := by decide +kernel
  obtain ⟨whole, exactly⟩ := observe_real_iff .empty long positive
  have real := exactly.mpr fun i pos lt _ next => by
    have lt : i < 3 := lt
    obtain rfl | rfl : i = 1 ∨ i = 2 := by omega
    · have one : streak seesaw 1 = 1 := by decide +kernel
      refine ⟨fun whole => ?_, fun _ => .inr ?_⟩
      · rw [one] at whole
        cases whole
      · rintro ⟨j, low, high, -⟩
        rw [one] at high
        omega
    · exact absurd rfl next
  exact ⟨whole, real 0 (by decide), real 1 (by decide)⟩

/-- Refuting pole: three rising candles.  The second ends a run of two, and is counted as a run
of one. -/
theorem first_run_short :
    ¬ ∀ (candles : List Candle) (atr : ExtNum ℚ), 3 ≤ candles.length → 0 < atr →
      ∀ i, i + 1 < candles.length → (loop .empty candles atr (i + 1)).table =
        realStep candles atr (i + 1) (loop .empty candles atr i).table := by
  intro always
  have real := always [⟨100, 101, 100, 101, 0, 60, 1⟩, ⟨101, 102, 101, 102, 60, 120, 1⟩,
    ⟨102, 103, 102, 103, 120, 180, 1⟩] (fin 2) (by decide) (by decide +kernel) 0 (by decide)
  exact absurd real (by decide +kernel)

end Counter

end Step

end CentaurApex.Cortex
