/-
# Cortex.StreakExtremes -- what follows a long run of closes

`observeStreakExtreme` walks over the closes with a counter of moves of one sign; a close without
a move resets it.  From `streakN` moves on, what follows is counted under the direction and the
length of the run.  What is reported is the number of followers and the smoothed share of those
that turned.

* **The counter is the run** (`loop_tallied`): after each close it is the run that ends there,
  and the table holds the tallies up to there.
* **Base rates** (`base_rates`): what is reported, by counting the places at which a run of
  exactly that length ends.
-/
import CentaurApex.Cortex.Streaks
import CentaurApex.Theory.Runs
import Mathlib.Data.Nat.Count

namespace CentaurApex.Cortex

open CentaurApex.Theory
open CentaurApex.Theory.ExtNum (fin)

set_option autoImplicit false

/-! ## The observer -/

/-- `_sign`, of any float: NaN has none. -/
def signOf (v : ExtNum ℚ) : ℤ := (if fin 0 < v then 1 else 0) - if v < fin 0 then 1 else 0

@[simp] theorem signOf_fin (v : ℚ) : signOf (fin v) = sign v := rfl

theorem signOf_cases (v : ExtNum ℚ) : signOf v = 1 ∨ signOf v = 0 ∨ signOf v = -1 := by
  unfold signOf
  split_ifs <;> simp

/-- One more move after a run, up or else down. -/
def CondStats.follow (s : CondStats) (nd : ℤ) : CondStats :=
  if 0 < nd then { s with up := s.up + 1 } else { s with down := s.down + 1 }

/-- What is counted, by direction and length of the run. -/
abbrev ExtremeTable : Type := PyDict (Bool × ℕ) CondStats

/-- `_streak_rev.setdefault(key, CondStats())`, and one more move there. -/
def ExtremeTable.record (table : ExtremeTable) (key : Bool × ℕ) (nd : ℤ) : ExtremeTable :=
  table.setItem key (((table.get? key).getD .none_).follow nd)

/-- The state of the loop over the closes. -/
structure ExtremeLoop where
  table : ExtremeTable
  run : ℕ
  last : Option ℤ

namespace ExtremeLoop

def start : ExtremeLoop := ⟨.empty, 0, none⟩

/-- The loop at the `i`-th close. -/
def step (streakN : ℕ) (hist : List (ExtNum ℚ)) (s : ExtremeLoop) (i : ℕ) : ExtremeLoop :=
  match hist[i - 1]?, hist[i]? with
  | some before, some close =>
      let d := signOf (close - before)
      if d = 0 then { s with run := 0, last := none }
      else
        let run := if s.last = some d then s.run + 1 else 1
        let s := { s with run, last := some d }
        if streakN ≤ run then
          match hist[i + 1]? with
          | none => s
          | some next =>
              let nd := signOf (next - close)
              if nd = 0 then s else { s with table := s.table.record (decide (0 < d), run) nd }
        else s
  | _, _ => s

/-- The loop after the `i`-th close: it begins with the second. -/
def loop (streakN : ℕ) (hist : List (ExtNum ℚ)) : ℕ → ExtremeLoop
  | 0 => start
  | i + 1 => step streakN hist (loop streakN hist i) (i + 1)

end ExtremeLoop

def label (key : Bool × ℕ) : String := (if key.1 then "bull" else "bear") ++ "_" ++ toString key.2

/-- What is reported of one key. -/
def reported (item : (Bool × ℕ) × CondStats) : List (String × ℚ) :=
  [("p_reverse_" ++ label item.1, if item.1.1 then item.2.pDown else item.2.pUp),
    ("n_" ++ label item.1, item.2.count)]

/-- `CandleSequenceStats.observe_streak_extreme` -/
def observeStreakExtreme (hist : List (ExtNum ℚ)) (streakN : ℕ) : PyDict String ℚ :=
  PyDict.empty.setItems
    ((ExtremeLoop.loop streakN hist (hist.length - 1)).table.items.flatMap reported)

/-! ## What is to be counted -/

/-- The move to a close of the list from the one before it; none to the first, and none beyond.
A change that is NaN is none either. -/
def moveAt (hist : List (ExtNum ℚ)) : ℕ → ℤ
  | 0 => 0
  | i + 1 =>
      match hist[i]?, hist[i + 1]? with
      | some before, some close => signOf (close - before)
      | _, _ => 0

def direction (bullish : Bool) : ℤ := if bullish then 1 else -1

/-- A run of exactly `r` moves in a direction ends at a close, and a move follows. -/
def Extreme (hist : List (ExtNum ℚ)) (bullish : Bool) (r i : ℕ) : Prop :=
  EndsRun (moveAt hist) (direction bullish) r i ∧ moveAt hist (i + 1) ≠ 0

instance (hist : List (ExtNum ℚ)) (bullish : Bool) (r i : ℕ) :
    Decidable (Extreme hist bullish r i) :=
  inferInstanceAs (Decidable (_ ∧ _))

/-- At how many closes there is such a run. -/
def occurrences (hist : List (ExtNum ℚ)) (bullish : Bool) (r : ℕ) : ℕ :=
  Nat.count (Extreme hist bullish r) hist.length

/-- After how many of them the move is an opposite one. -/
def reversals (hist : List (ExtNum ℚ)) (bullish : Bool) (r : ℕ) : ℕ :=
  Nat.count (fun i => Extreme hist bullish r i ∧ moveAt hist (i + 1) = -direction bullish)
    hist.length

section Tallies

variable {hist : List (ExtNum ℚ)} {bullish : Bool} {r : ℕ}

theorem moveAt_cases (hist : List (ExtNum ℚ)) (i : ℕ) :
    moveAt hist i = 1 ∨ moveAt hist i = 0 ∨ moveAt hist i = -1 := by
  unfold moveAt
  split
  · exact .inr (.inl rfl)
  · split
    · exact signOf_cases _
    · exact .inr (.inl rfl)

/-- Of two directions that there are, a move has one. -/
theorem moves_iff {i : ℕ} (moves : moveAt hist i ≠ 0) :
    decide (0 < moveAt hist i) = bullish ↔ moveAt hist i = direction bullish := by
  rcases moveAt_cases hist i with up | flat | down
  · rw [up]
    cases bullish <;> decide
  · exact absurd flat moves
  · rw [down]
    cases bullish <;> decide

/-- No run of moves ends at a close without a move. -/
theorem not_extreme_of_flat {i : ℕ} (pos : 1 ≤ r) (flat : moveAt hist i = 0) :
    ¬ Extreme hist bullish r i := by
  rintro ⟨ends, -⟩
  have here := ((endsRun_iff pos).mp ends).1
  rw [flat] at here
  cases bullish <;> cases here

/-- At a move there is one key, if a move follows. -/
theorem extreme_iff {i : ℕ} (pos : 1 ≤ r) (moves : moveAt hist i ≠ 0) :
    Extreme hist bullish r i ↔
      (bullish, r) = (decide (0 < moveAt hist i), runTo (moveAt hist) i) ∧
        moveAt hist (i + 1) ≠ 0 := by
  rw [Extreme, endsRun_iff pos, ← moves_iff moves, Prod.mk.injEq, eq_comm (a := bullish),
    eq_comm (a := r)]

theorem count_follow (s : CondStats) (nd : ℤ) : (s.follow nd).count = s.count + 1 := by
  unfold CondStats.follow CondStats.count
  split
  · exact Nat.add_right_comm _ _ _
  · rfl

/-- What followed such runs, of those that end before the `m`-th close. -/
def tallied (hist : List (ExtNum ℚ)) (bullish : Bool) (r m : ℕ) : CondStats :=
  ⟨Nat.count (fun i => Extreme hist bullish r i ∧ 0 < moveAt hist (i + 1)) m,
    Nat.count (fun i => Extreme hist bullish r i ∧ moveAt hist (i + 1) < 0) m⟩

theorem tallied_succ (m : ℕ) : tallied hist bullish r (m + 1) =
    if Extreme hist bullish r m then (tallied hist bullish r m).follow (moveAt hist (m + 1))
    else tallied hist bullish r m := by
  unfold tallied
  rw [Nat.count_succ, Nat.count_succ]
  by_cases extreme : Extreme hist bullish r m
  · simp only [extreme, true_and, if_true, CondStats.follow]
    rcases lt_or_gt_of_ne extreme.2 with down | up
    · rw [if_neg (not_lt_of_gt down), if_pos down, if_neg (not_lt_of_gt down)]
      rfl
    · rw [if_pos up, if_neg (not_lt_of_gt up), if_pos up]
      rfl
  · simp only [extreme, false_and, if_false, Nat.add_zero]

theorem count_tallied (m : ℕ) :
    (tallied hist bullish r m).count = Nat.count (Extreme hist bullish r) m := by
  induction m with
  | zero => rfl
  | succ m ih =>
      rw [tallied_succ, Nat.count_succ]
      split
      · rw [count_follow, ih]
      · exact ih

/-- What the table is to hold of such runs, of those that end before the `m`-th close. -/
def entryAt (streakN : ℕ) (hist : List (ExtNum ℚ)) (bullish : Bool) (r m : ℕ) :
    Option CondStats :=
  if streakN ≤ r ∧ 0 < (tallied hist bullish r m).count then some (tallied hist bullish r m)
  else none

theorem entryAt_short {streakN : ℕ} (short : ¬ streakN ≤ r) (m : ℕ) :
    entryAt streakN hist bullish r m = none := if_neg fun both => short both.1

theorem entryAt_succ {streakN : ℕ} (long : streakN ≤ r) (m : ℕ) :
    entryAt streakN hist bullish r (m + 1) =
      if Extreme hist bullish r m then
        some (((entryAt streakN hist bullish r m).getD .none_).follow (moveAt hist (m + 1)))
      else entryAt streakN hist bullish r m := by
  have before : (entryAt streakN hist bullish r m).getD .none_ = tallied hist bullish r m := by
    unfold entryAt
    split
    · rfl
    · rename_i none_
      have count : (tallied hist bullish r m).up + (tallied hist bullish r m).down = 0 :=
        Nat.eq_zero_of_not_pos fun found => none_ ⟨long, found⟩
      obtain ⟨up, down⟩ := Nat.add_eq_zero_iff.mp count
      exact congrArg₂ CondStats.mk up.symm down.symm
  rw [before]
  unfold entryAt
  rw [tallied_succ]
  split
  · exact if_pos ⟨long, by rw [count_follow]; exact Nat.succ_pos _⟩
  · rfl

theorem occurrences_eq :
    occurrences hist bullish r = (tallied hist bullish r hist.length).count :=
  (count_tallied hist.length).symm

/-- A reversal of a rising run is a fall. -/
theorem reversals_eq : reversals hist bullish r =
    if bullish then (tallied hist bullish r hist.length).down
    else (tallied hist bullish r hist.length).up := by
  have same (p q : ℕ → Prop) [DecidablePred p] [DecidablePred q] (pq : ∀ i, p i ↔ q i) (m : ℕ) :
      Nat.count p m = Nat.count q m :=
    le_antisymm (Nat.count_mono_left fun i _ => (pq i).mp)
      (Nat.count_mono_left fun i _ => (pq i).mpr)
  have turned (i : ℕ) : moveAt hist (i + 1) = -direction bullish ↔
      if bullish then moveAt hist (i + 1) < 0 else 0 < moveAt hist (i + 1) := by
    rcases moveAt_cases hist (i + 1) with up | flat | down
    · rw [up]
      cases bullish <;> decide
    · rw [flat]
      cases bullish <;> decide
    · rw [down]
      cases bullish <;> decide
  cases bullish with
  | true => exact same _ _ (fun i => and_congr_right fun _ => turned i) _
  | false => exact same _ _ (fun i => and_congr_right fun _ => turned i) _

end Tallies

/-! ## The counter is the run -/

section Loop

open ExtremeLoop (loop)

variable {streakN : ℕ} {hist : List (ExtNum ℚ)}

theorem moveAt_of_get {i : ℕ} {before close : ExtNum ℚ} (here : hist[i]? = some before)
    (next : hist[i + 1]? = some close) : moveAt hist (i + 1) = signOf (close - before) := by
  simp only [moveAt, here, next]

theorem moveAt_of_none {i : ℕ} (next : hist[i + 1]? = none) : moveAt hist (i + 1) = 0 := by
  simp only [moveAt, next]
  cases hist[i]? <;> rfl

namespace ExtremeLoop

/-- A close without a move resets the counter. -/
theorem step_flat {i : ℕ} (inside : i + 1 < hist.length) (flat : moveAt hist (i + 1) = 0)
    (s : ExtremeLoop) : step streakN hist s (i + 1) = ⟨s.table, 0, none⟩ := by
  have here := List.getElem?_eq_getElem (show i < hist.length by omega)
  have next := List.getElem?_eq_getElem inside
  rw [moveAt_of_get here next] at flat
  simp only [step, Nat.add_sub_cancel, here, next, flat, if_true]

/-- A close with a move goes on with the run of the last one, or begins another; a long run that
a move follows is counted. -/
theorem step_moves {i : ℕ} (inside : i + 1 < hist.length) (moves : moveAt hist (i + 1) ≠ 0)
    (s : ExtremeLoop) {run : ℕ}
    (counts : run = if s.last = some (moveAt hist (i + 1)) then s.run + 1 else 1) :
    step streakN hist s (i + 1) =
      ⟨if streakN ≤ run ∧ moveAt hist (i + 1 + 1) ≠ 0 then
          s.table.record (decide (0 < moveAt hist (i + 1)), run) (moveAt hist (i + 1 + 1))
        else s.table, run, some (moveAt hist (i + 1))⟩ := by
  have here := List.getElem?_eq_getElem (show i < hist.length by omega)
  have next := List.getElem?_eq_getElem inside
  have move := moveAt_of_get here next
  rw [move] at moves counts ⊢
  simp only [step, Nat.add_sub_cancel, here, next, if_neg moves, ← counts]
  by_cases long : streakN ≤ run
  · simp only [long, if_true, true_and]
    cases after : hist[i + 1 + 1]? with
    | none =>
        rw [moveAt_of_none after]
        rfl
    | some close =>
        rw [moveAt_of_get next after]
        by_cases flat : signOf (close - hist[i + 1]) = 0
        · simp only [flat, if_true, ne_eq, not_true, if_false]
        · simp only [flat, if_false, ne_eq, not_false_iff, if_true]
  · simp only [long, if_false, false_and]

end ExtremeLoop

/-- After the `m`-th close the counter is the run that ends there, and the table holds what
followed the runs up to there. -/
structure Tallied (streakN : ℕ) (hist : List (ExtNum ℚ)) (m : ℕ) (s : ExtremeLoop) : Prop where
  run : moveAt hist m ≠ 0 → s.run = runTo (moveAt hist) m
  last : s.last = if moveAt hist m = 0 then none else some (moveAt hist m)
  table : ∀ bullish r, s.table.get? (bullish, r) = entryAt streakN hist bullish r (m + 1)

theorem Tallied.start (positive : 1 ≤ streakN) : Tallied streakN hist 0 .start := by
  refine ⟨fun moves => absurd rfl moves, rfl, fun bullish r => (if_neg ?_).symm⟩
  rintro ⟨long, found⟩
  rw [count_tallied, Nat.count_one, if_neg (not_extreme_of_flat (by omega) rfl)] at found
  exact Nat.lt_irrefl 0 found

/-- The run goes on for the counter where it goes on. -/
theorem Tallied.counts {i : ℕ} {s : ExtremeLoop} (before : Tallied streakN hist i s)
    (moves : moveAt hist (i + 1) ≠ 0) : runTo (moveAt hist) (i + 1) =
      if s.last = some (moveAt hist (i + 1)) then s.run + 1 else 1 := by
  rw [runTo, before.last]
  by_cases flat : moveAt hist i = 0
  · rw [if_pos flat, flat, if_neg moves]
    exact (if_neg fun same => by cases same).symm
  · rw [if_neg flat, before.run flat]
    by_cases same : moveAt hist (i + 1) = moveAt hist i
    · rw [if_pos same, if_pos (congrArg some same.symm)]
    · rw [if_neg same, if_neg fun others => same (Option.some.inj others).symm]

/-- What is counted at a move is what was to be. -/
theorem Tallied.table_moves (positive : 1 ≤ streakN) {i : ℕ} {s : ExtremeLoop}
    (before : Tallied streakN hist i s) (moves : moveAt hist (i + 1) ≠ 0) (bullish : Bool) (r : ℕ) :
    (if streakN ≤ runTo (moveAt hist) (i + 1) ∧ moveAt hist (i + 1 + 1) ≠ 0 then
        s.table.record (decide (0 < moveAt hist (i + 1)), runTo (moveAt hist) (i + 1))
          (moveAt hist (i + 1 + 1))
      else s.table).get? (bullish, r) = entryAt streakN hist bullish r (i + 1 + 1) := by
  have held := before.table bullish r
  by_cases long : streakN ≤ r
  · have extreme : Extreme hist bullish r (i + 1) ↔ _ := extreme_iff (by omega) moves
    rw [entryAt_succ long (i + 1), ← held]
    by_cases key : (bullish, r) = (decide (0 < moveAt hist (i + 1)), runTo (moveAt hist) (i + 1))
    · rw [← key]
      have counted : streakN ≤ runTo (moveAt hist) (i + 1) := (Prod.mk.inj key).2 ▸ long
      by_cases ends : moveAt hist (i + 1 + 1) = 0
      · rw [if_neg fun both => both.2 ends, if_neg fun both => (extreme.mp both).2 ends]
      · rw [if_pos ⟨counted, ends⟩, if_pos (extreme.mpr ⟨key, ends⟩)]
        exact (PyDict.get?_setItem _ _ _ _).trans (if_pos rfl)
    · rw [if_neg fun both => key (extreme.mp both).1]
      split
      · exact (PyDict.get?_setItem _ _ _ _).trans (if_neg key)
      · rfl
  · -- the key of a counted run is a long one
    rw [entryAt_short long] at held ⊢
    split
    · rename_i counted
      refine (PyDict.get?_setItem _ _ _ _).trans ((if_neg fun key => long ?_).trans held)
      exact (Prod.mk.inj key).2 ▸ counted.1
    · exact held

theorem Tallied.step (positive : 1 ≤ streakN) {i : ℕ} (inside : i + 1 < hist.length)
    {s : ExtremeLoop} (before : Tallied streakN hist i s) :
    Tallied streakN hist (i + 1) (ExtremeLoop.step streakN hist s (i + 1)) := by
  by_cases flat : moveAt hist (i + 1) = 0
  · rw [ExtremeLoop.step_flat inside flat]
    refine ⟨fun moves => absurd flat moves, (if_pos flat).symm, fun bullish r => ?_⟩
    refine (before.table bullish r).trans ?_
    by_cases long : streakN ≤ r
    · rw [entryAt_succ long (i + 1), if_neg (not_extreme_of_flat (by omega) flat)]
    · rw [entryAt_short long, entryAt_short long]
  · rw [ExtremeLoop.step_moves inside flat s (before.counts flat)]
    exact ⟨fun _ => rfl, (if_neg flat).symm, before.table_moves positive flat⟩

/-- **The counter is the run**, after every close of the list. -/
theorem loop_tallied (positive : 1 ≤ streakN) {m : ℕ} (inside : m ≤ hist.length - 1) :
    Tallied streakN hist m (loop streakN hist m) := by
  induction m with
  | zero => exact .start positive
  | succ m ih => exact .step positive (by omega) (ih (by omega))

/-- What the table holds in the end. -/
theorem get?_table (positive : 1 ≤ streakN) (bullish : Bool) (r : ℕ) :
    (loop streakN hist (hist.length - 1)).table.get? (bullish, r) =
      entryAt streakN hist bullish r hist.length := by
  rcases Nat.eq_zero_or_pos hist.length with empty | pos
  · rw [empty]
    exact (if_neg fun both => Nat.lt_irrefl 0 both.2).symm
  · have held : Tallied streakN hist (hist.length - 1) _ := loop_tallied positive le_rfl
    have entry := held.table bullish r
    rwa [Nat.sub_add_cancel pos] at entry

end Loop

/-! ## What is reported -/

section Report

theorem toString_injective {m n : ℕ} (same : toString m = toString n) : m = n := by
  have digits : Nat.toDigits 10 m = Nat.toDigits 10 n := by
    rw [← Nat.toList_repr, ← Nat.toList_repr]
    exact congrArg String.toList same
  rw [← Nat.ofDigitChars_ten_toDigits (n := m), digits, Nat.ofDigitChars_ten_toDigits]

theorem label_injective {key key' : Bool × ℕ} (same : label key = label key') : key = key' := by
  have sides : ∀ b b' : Bool,
      (if b then "bull" else "bear").toList ++ "_".toList =
        (if b' then "bull" else "bear").toList ++ "_".toList → b = b' := by decide
  have lengths : ∀ b b' : Bool,
      ((if b then "bull" else "bear").toList ++ "_".toList).length =
        ((if b' then "bull" else "bear").toList ++ "_".toList).length := by decide
  have chars := congrArg String.toList same
  simp only [label, String.toList_append] at chars
  obtain ⟨side, run⟩ := List.append_inj chars (lengths key.1 key'.1)
  exact Prod.ext (sides _ _ side) (toString_injective (String.toList_inj.mp run))

theorem reverse_ne_n (a b : String) : "p_reverse_" ++ a ≠ "n_" ++ b := by
  intro same
  have chars := congrArg String.toList same
  rw [String.toList_append, String.toList_append] at chars
  cases (List.cons.inj chars).1

variable {streakN : ℕ} {hist : List (ExtNum ℚ)} {bullish : Bool} {r : ℕ}

theorem get?_n (hist : List (ExtNum ℚ)) (streakN : ℕ) (key : Bool × ℕ) :
    (observeStreakExtreme hist streakN).get? ("n_" ++ label key) =
      ((ExtremeLoop.loop streakN hist (hist.length - 1)).table.get? key).map
        fun s => (s.count : ℚ) := by
  refine PyDict.get?_setItems_flatMap (fun v => ?_) fun item line member same => ?_
  · exact List.mem_cons_of_mem _ List.mem_cons_self
  · rcases List.mem_pair.mp member with rfl | rfl
    · exact absurd same (reverse_ne_n _ _)
    · exact ⟨label_injective ((String.append_right_inj _).mp same), rfl⟩

theorem get?_reverse (hist : List (ExtNum ℚ)) (streakN : ℕ) (key : Bool × ℕ) :
    (observeStreakExtreme hist streakN).get? ("p_reverse_" ++ label key) =
      ((ExtremeLoop.loop streakN hist (hist.length - 1)).table.get? key).map
        fun s => if key.1 then s.pDown else s.pUp := by
  refine PyDict.get?_setItems_flatMap (fun v => ?_) fun item line member same => ?_
  · exact List.mem_cons_self
  · rcases List.mem_pair.mp member with rfl | rfl
    · have key := label_injective ((String.append_right_inj _).mp same)
      exact ⟨key, by rw [key]⟩
    · exact absurd same.symm (reverse_ne_n _ _)

/-- What a long run reports is of its tally, if there is one. -/
theorem map_entryAt {α : Type} (f : CondStats → α) (long : streakN ≤ r) :
    (entryAt streakN hist bullish r hist.length).map f =
      if 0 < occurrences hist bullish r then some (f (tallied hist bullish r hist.length))
      else none := by
  rw [entryAt, ← occurrences_eq]
  by_cases found : 0 < occurrences hist bullish r
  · rw [if_pos ⟨long, found⟩, if_pos found]
    rfl
  · rw [if_neg fun both => found both.2, if_neg found]
    rfl

/-- **Base rates**: whatever the closes and the least length of a run, one at least, for both
directions and every length from there on there is an entry if and only if somewhere a run of
exactly so many moves in that direction ends and a move follows; it is the number of such
closes, and after how many of them the move is an opposite one, one more of two more.  There are
no other entries. -/
theorem base_rates (hist : List (ExtNum ℚ)) {streakN : ℕ} (positive : 1 ≤ streakN) :
    (∀ bullish r, streakN ≤ r →
      (observeStreakExtreme hist streakN).get? ("n_" ++ label (bullish, r)) =
          (if 0 < occurrences hist bullish r then some (occurrences hist bullish r : ℚ)
          else none) ∧
        (observeStreakExtreme hist streakN).get? ("p_reverse_" ++ label (bullish, r)) =
          if 0 < occurrences hist bullish r then
            some ((reversals hist bullish r + 1) / (occurrences hist bullish r + 2) : ℚ)
          else none) ∧
      ∀ name, (observeStreakExtreme hist streakN).Contains name →
        ∃ bullish r, streakN ≤ r ∧ 0 < occurrences hist bullish r ∧
          (name = "n_" ++ label (bullish, r) ∨ name = "p_reverse_" ++ label (bullish, r)) := by
  constructor
  · intro bullish r long
    constructor
    · rw [get?_n, get?_table positive, map_entryAt _ long, occurrences_eq]
    · have rate : (if bullish then (tallied hist bullish r hist.length).pDown
          else (tallied hist bullish r hist.length).pUp) =
            ((reversals hist bullish r + 1) / (occurrences hist bullish r + 2) : ℚ) := by
        rw [reversals_eq, CondStats.pDown, CondStats.pUp, occurrences_eq]
        cases bullish <;> rfl
      rw [get?_reverse, get?_table positive, map_entryAt _ long, rate]
  · intro name there
    obtain ⟨value, read⟩ := PyDict.contains_iff.mp there
    obtain ⟨line, member, rfl⟩ := PyDict.mem_of_get?_setItems read
    obtain ⟨⟨⟨bullish, r⟩, s⟩, item, member⟩ := List.mem_flatMap.mp member
    have held := (PyDict.get?_of_mem item).symm.trans (get?_table positive bullish r)
    rw [entryAt, ← occurrences_eq] at held
    split at held
    · rename_i found
      refine ⟨bullish, r, found.1, found.2, ?_⟩
      rcases List.mem_pair.mp member with rfl | rfl
      · exact .inr rfl
      · exact .inl rfl
    · cases held

/-- Satisfiable pole: three rises and a fall. -/
theorem three_rises :
    (observeStreakExtreme [fin 100, fin 101, fin 102, fin 103, fin 102] 3).get? "n_bull_3" =
        some 1 ∧
      (observeStreakExtreme [fin 100, fin 101, fin 102, fin 103, fin 102] 3).get?
        "p_reverse_bull_3" = some (2 / 3) := by
  obtain ⟨n, reverse⟩ := (base_rates [fin 100, fin 101, fin 102, fin 103, fin 102]
    (show 1 ≤ 3 by decide)).1 true 3 le_rfl
  have once : occurrences [fin 100, fin 101, fin 102, fin 103, fin 102] true 3 = 1 := by
    decide +kernel
  have turned : reversals [fin 100, fin 101, fin 102, fin 103, fin 102] true 3 = 1 := by
    decide +kernel
  rw [once] at n
  rw [once, turned] at reverse
  refine ⟨n, reverse.trans ?_⟩
  norm_num

end Report

end CentaurApex.Cortex
