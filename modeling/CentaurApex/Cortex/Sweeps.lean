/-
# Cortex.Sweeps -- stops hunted below a level and above it

A bar that goes beyond a level by a fraction of the average range and closes back inside has
swept the stops there.  Below the level (`SSL`) the last bars are searched, above it (`BSL`)
only the last one is looked at.

* **Both sides alike, exactly when** (`detect_reflect_iff`): with sweeps of one side only in
  the window, the reflected market gives the reflected event if and only if no bar of the
  window is a sweep or the last one is.

Refuting pole `older_sweep_missed`: a sweep above the level one bar back.
-/
import CentaurApex.Cortex.Reflection

namespace CentaurApex.Cortex

open CentaurApex.Theory
open CentaurApex.Theory.ExtNum (fin)

set_option autoImplicit false

/-! ## The detector -/

inductive SweepSide where
  | bsl | ssl
  deriving DecidableEq, Repr

structure SweepEvent where
  side : SweepSide
  level : ExtNum ℚ
  wickExtreme : ℚ
  piercedAtr : ExtNum ℚ
  reclaimed : Bool
  close : ℚ
  deriving DecidableEq

/-- `xs[-w:]`: no end to count from for a zero, a number of bars to leave out for a negative
window. -/
def sliceBack {α : Type} (w : ℤ) (xs : List α) : List α :=
  if 0 < w then lastN w.toNat xs else xs.drop (-w).toNat

structure SweepDetector where
  levelFraction : ExtNum ℚ
  reclaimWindow : ℤ
  deriving DecidableEq

namespace SweepDetector

/-- `SweepDetector()` -/
def default_ : SweepDetector := ⟨fin (3 / 10), 3⟩

/-- The bar swept the stops below the level. -/
def SweepsBelow (req level : ExtNum ℚ) (b : Candle) : Prop :=
  fin b.low < level ∧ req ≤ level - fin b.low ∧ level < fin b.close

/-- The bar swept the stops above the level. -/
def SweepsAbove (req level : ExtNum ℚ) (b : Candle) : Prop :=
  level < fin b.high ∧ req ≤ fin b.high - level ∧ fin b.close < level

instance (req level : ExtNum ℚ) (b : Candle) : Decidable (SweepsBelow req level b) :=
  inferInstanceAs (Decidable (_ ∧ _))

instance (req level : ExtNum ℚ) (b : Candle) : Decidable (SweepsAbove req level b) :=
  inferInstanceAs (Decidable (_ ∧ _))

def below (level atr : ExtNum ℚ) (b : Candle) : SweepEvent :=
  ⟨.ssl, level, b.low, (level - fin b.low) / atr, true, b.close⟩

def above (level atr : ExtNum ℚ) (b : Candle) : SweepEvent :=
  ⟨.bsl, level, b.high, (fin b.high - level) / atr, true, b.close⟩

/-- How far beyond the level a bar has to go. -/
def req (d : SweepDetector) (atr : ExtNum ℚ) : ExtNum ℚ := d.levelFraction * atr

def detect (d : SweepDetector) (bars : List Candle) (level atr : ExtNum ℚ) : Option SweepEvent :=
  if bars.length < 2 ∨ atr ≤ 0 then none
  else
    match (sliceBack d.reclaimWindow bars).reverse.find?
        fun b => SweepsBelow (d.req atr) level b with
    | some b => some (below level atr b)
    | none =>
        (bars.getLast?.filter fun last => SweepsAbove (d.req atr) level last).map (above level atr)

end SweepDetector

/-! ## Reflection -/

def SweepSide.opposite : SweepSide → SweepSide
  | .bsl => .ssl
  | .ssl => .bsl

/-- The event of the other side. -/
def SweepEvent.reflect (e : SweepEvent) : SweepEvent :=
  { e with side := e.side.opposite, level := -e.level, wickExtreme := -e.wickExtreme
           close := -e.close }

namespace SweepDetector

section Reflection

variable {req level atr : ExtNum ℚ} {b : Candle}

/-- A distance, from the other side. -/
theorem neg_sub_neg (a : ℚ) (x : ExtNum ℚ) : -x - fin (-a) = fin a - x := by
  show -x + - -fin a = fin a + -x
  rw [ExtNum.neg_neg, add_comm]

theorem sweepsBelow_reflect : SweepsBelow req (-level) b.reflect ↔ SweepsAbove req level b := by
  show -fin b.high < -level ∧ req ≤ -level - fin (-b.high) ∧ -level < -fin b.close ↔ _
  rw [ExtNum.neg_lt_neg_iff, ExtNum.neg_lt_neg_iff, neg_sub_neg]
  rfl

theorem sweepsAbove_reflect : SweepsAbove req (-level) b.reflect ↔ SweepsBelow req level b := by
  rw [← sweepsBelow_reflect, ExtNum.neg_neg, Candle.reflect_reflect]

theorem below_reflect : below (-level) atr b.reflect = (above level atr b).reflect := by
  show (⟨.ssl, -level, -b.high, (-level - fin (-b.high)) / atr, true, -b.close⟩ : SweepEvent) = _
  rw [neg_sub_neg]
  rfl

theorem reflect_reflect (e : SweepEvent) : e.reflect.reflect = e := by
  obtain ⟨side, level, wickExtreme, piercedAtr, reclaimed, close⟩ := e
  have sides : side.opposite.opposite = side := by cases side <;> rfl
  simp only [SweepEvent.reflect, sides, ExtNum.neg_neg, neg_neg]

theorem above_reflect : above (-level) atr b.reflect = (below level atr b).reflect := by
  rw [← reflect_reflect (above _ _ _), ← below_reflect, ExtNum.neg_neg,
    Candle.reflect_reflect]

theorem sliceBack_map {α β : Type} (f : α → β) (w : ℤ) (xs : List α) :
    sliceBack w (xs.map f) = (sliceBack w xs).map f := by
  unfold sliceBack lastN
  split
  · rw [List.map_drop, List.length_map]
  · rw [List.map_drop]

/-- What the reflected market gives, told in the market itself: the window is searched above
the level, and the last bar looked at below it. -/
theorem detect_reflect (d : SweepDetector) (bars : List Candle) (pos : ¬ atr ≤ 0)
    (two : ¬ bars.length < 2) :
    d.detect (bars.map Candle.reflect) (-level) atr =
      (match (sliceBack d.reclaimWindow bars).reverse.find?
          fun b => SweepsAbove (d.req atr) level b with
        | some b => some (above level atr b)
        | none => (bars.getLast?.filter fun last => SweepsBelow (d.req atr) level last).map
            (below level atr)).map SweepEvent.reflect := by
  have back : (fun b : Candle => decide (SweepsBelow (d.req atr) (-level) b)) ∘ Candle.reflect =
      fun b => decide (SweepsAbove (d.req atr) level b) := by
    funext b
    exact decide_eq_decide.mpr sweepsBelow_reflect
  have last : (fun b : Candle => decide (SweepsAbove (d.req atr) (-level) b)) ∘ Candle.reflect =
      fun b => decide (SweepsBelow (d.req atr) level b) := by
    funext b
    exact decide_eq_decide.mpr sweepsAbove_reflect
  rw [detect, List.length_map, if_neg (by rintro (few | flat); exacts [two few, pos flat]),
    sliceBack_map, ← List.map_reverse, List.find?_map, back, List.getLast?_map, Option.filter_map,
    last]
  cases (sliceBack d.reclaimWindow bars).reverse.find? fun b => SweepsAbove (d.req atr) level b with
  | some b => exact congrArg some below_reflect
  | none =>
      cases bars.getLast?.filter fun b => SweepsBelow (d.req atr) level b with
      | none => rfl
      | some b => exact congrArg some above_reflect

end Reflection

/-! ## Alike, and not -/

section Alike

variable {level atr : ExtNum ℚ} {d : SweepDetector} {bars : List Candle}

/-- The bar swept the stops on one side or the other. -/
def Sweeps (req level : ExtNum ℚ) (b : Candle) : Prop :=
  SweepsBelow req level b ∨ SweepsAbove req level b

/-- The bars do not sweep both sides of the level. -/
def OneSided (req level : ExtNum ℚ) (window : List Candle) : Prop :=
  ¬ ((∃ b ∈ window, SweepsBelow req level b) ∧ ∃ b ∈ window, SweepsAbove req level b)

instance (req level : ExtNum ℚ) (window : List Candle) : Decidable (OneSided req level window) :=
  inferInstanceAs (Decidable (¬ (_ ∧ _)))

/-- The last bar is a sweep where any bar of the window is one, and is none of an empty
window. -/
structure LastSweeps (req level : ExtNum ℚ) (window : List Candle) (last : Candle) : Prop where
  within : (∃ b ∈ window, Sweeps req level b) → Sweeps req level last
  without : window = [] → ¬ Sweeps req level last

/-- A bar closes on one side of the level. -/
theorem not_both {req : ExtNum ℚ} {b : Candle} (below : SweepsBelow req level b) :
    ¬ SweepsAbove req level b := by
  obtain ⟨-, -, upper⟩ := below
  rintro ⟨-, -, lower⟩
  cases level with
  | fin l => exact lt_asymm (α := ℚ) upper lower
  | nan => exact ExtNum.not_nan_lt _ upper
  | posInf => exact ExtNum.not_posInf_lt _ upper
  | negInf => exact lower

theorem above_ne_below (a b : Candle) : above level atr a ≠ below level atr b := by
  intro same
  cases congrArg SweepEvent.side same

/-- A window that is not empty ends in the last bar. -/
theorem getLast?_sliceBack {w : ℤ} (some_ : sliceBack w bars ≠ []) :
    (sliceBack w bars).getLast? = bars.getLast? := by
  unfold sliceBack lastN at *
  split
  · rename_i pos
    rw [if_pos pos] at some_
    rw [List.getLast?_drop, if_neg fun short => some_ (List.drop_eq_nil_of_le short)]
  · rename_i neg
    rw [if_neg neg] at some_
    rw [List.getLast?_drop, if_neg fun short => some_ (List.drop_eq_nil_of_le short)]

/-- The window searched above, then the last bar below: the same as the window searched below,
then the last bar above. -/
theorem search_iff {req : ExtNum ℚ} {window : List Candle} {last : Candle}
    (ends : window ≠ [] → window.getLast? = some last) (one : OneSided req level window) :
    (match window.reverse.find? fun b => SweepsAbove req level b with
      | some b => some (above level atr b)
      | none => ((some last).filter fun last => SweepsBelow req level last).map (below level atr)) =
    (match window.reverse.find? fun b => SweepsBelow req level b with
      | some b => some (below level atr b)
      | none => ((some last).filter fun last => SweepsAbove req level last).map (above level atr)) ↔
      LastSweeps req level window last := by
  have none_ {P : Candle → Prop} [DecidablePred P] (no : ∀ b ∈ window, ¬ P b) :
      (window.reverse.find? fun b => P b) = none := by
    rw [List.find?_eq_none]
    intro b member
    rw [decide_eq_true_eq]
    exact no b (List.mem_reverse.mp member)
  have kept {P : Candle → Prop} [DecidablePred P] (here : P last) :
      ((some last).filter fun b => P b) = some last := Option.filter_some_pos (decide_eq_true here)
  have dropped {P : Candle → Prop} [DecidablePred P] (no : ¬ P last) :
      ((some last).filter fun b => P b) = none := Option.filter_some_neg (decide_eq_false no)
  by_cases empty : window = []
  · subst empty
    have within : (∃ b ∈ ([] : List Candle), Sweeps req level b) → Sweeps req level last := by
      rintro ⟨b, member, -⟩
      cases member
    show ((some last).filter _).map _ = ((some last).filter _).map _ ↔ _
    by_cases lower : SweepsBelow req level last
    · rw [kept lower,
        dropped (not_both lower)]
      exact iff_of_false (by simp) fun sweeps => sweeps.without rfl (.inl lower)
    by_cases upper : SweepsAbove req level last
    · rw [kept upper,
        dropped lower]
      exact iff_of_false (by simp) fun sweeps => sweeps.without rfl (.inr upper)
    · rw [dropped lower,
        dropped upper]
      exact iff_of_true rfl ⟨within, fun _ => by rintro (h | h); exacts [lower h, upper h]⟩
  obtain ⟨rest, rfl⟩ : ∃ rest, window = rest ++ [last] :=
    List.getLast?_eq_some_iff.mp (ends empty)
  have member : last ∈ rest ++ [last] := List.mem_append_right _ (List.mem_singleton_self last)
  have head {P : Candle → Prop} [DecidablePred P] (here : P last) :
      ((rest ++ [last]).reverse.find? fun b => P b) = some last := by
    rw [List.reverse_append, List.reverse_singleton, List.singleton_append, List.find?_cons,
      decide_eq_true here]
  by_cases lower : SweepsBelow req level last
  · have no (b : Candle) (inside : b ∈ rest ++ [last]) : ¬ SweepsAbove req level b := fun upper =>
      one ⟨⟨last, member, lower⟩, b, inside, upper⟩
    rw [none_ no, head lower, kept lower]
    exact iff_of_true rfl ⟨fun _ => .inl lower, fun nil => absurd nil empty⟩
  by_cases upper : SweepsAbove req level last
  · have no (b : Candle) (inside : b ∈ rest ++ [last]) : ¬ SweepsBelow req level b := fun lower =>
      one ⟨⟨b, inside, lower⟩, last, member, upper⟩
    rw [none_ no, head upper, kept upper]
    exact iff_of_true rfl ⟨fun _ => .inr upper, fun nil => absurd nil empty⟩
  -- the last bar is no sweep: one side finds nothing, and the other must not either
  have quiet : ¬ Sweeps req level last := by
    rintro (h | h)
    · exact lower h
    · exact upper h
  rw [dropped lower, dropped upper]
  have sweeps_iff : LastSweeps req level (rest ++ [last]) last ↔
      ¬ ∃ b ∈ rest ++ [last], Sweeps req level b :=
    ⟨fun sweeps some_ => quiet (sweeps.within some_),
      fun no => ⟨fun some_ => absurd some_ no, fun nil => absurd nil empty⟩⟩
  rw [sweeps_iff]
  cases foundAbove : (rest ++ [last]).reverse.find? fun b => SweepsAbove req level b with
  | some b =>
      have upper : SweepsAbove req level b := by simpa using List.find?_some foundAbove
      have inside := List.mem_reverse.mp (List.mem_of_find?_eq_some foundAbove)
      refine iff_of_false ?_ fun no => no ⟨b, inside, .inr upper⟩
      cases (rest ++ [last]).reverse.find? fun b => SweepsBelow req level b with
      | some b' => exact fun same => above_ne_below _ _ (Option.some.inj same)
      | none => exact fun same => by cases same
  | none =>
      cases foundBelow : (rest ++ [last]).reverse.find? fun b => SweepsBelow req level b with
      | some b =>
          have lower : SweepsBelow req level b := by simpa using List.find?_some foundBelow
          have inside := List.mem_reverse.mp (List.mem_of_find?_eq_some foundBelow)
          exact iff_of_false (fun same => by cases same) fun no => no ⟨b, inside, .inl lower⟩
      | none =>
          refine iff_of_true rfl ?_
          rintro ⟨b, inside, lower | upper⟩
          · have no := List.find?_eq_none.mp foundBelow b (List.mem_reverse.mpr inside)
            exact no (decide_eq_true lower)
          · have no := List.find?_eq_none.mp foundAbove b (List.mem_reverse.mpr inside)
            exact no (decide_eq_true upper)

/-- **Both sides alike, exactly when the last bar speaks for the window**: whatever the
detector, the bars, the level and a positive average range, with sweeps of one side only in the
window, the reflected market gives the reflected event if and only if there are fewer than two
bars, or the last of them is a sweep where any bar of the window is one, and none where the
window is empty. -/
theorem detect_reflect_iff (d : SweepDetector) (bars : List Candle) (positive : 0 < atr)
    (one : OneSided (d.req atr) level (sliceBack d.reclaimWindow bars)) :
    d.detect (bars.map Candle.reflect) (-level) atr =
        (d.detect bars level atr).map SweepEvent.reflect ↔
      ∀ last, 2 ≤ bars.length → bars.getLast? = some last →
        LastSweeps (d.req atr) level (sliceBack d.reclaimWindow bars) last := by
  have pos := ExtNum.not_le_of_lt positive
  by_cases two : bars.length < 2
  · have silent {bars : List Candle} {level : ExtNum ℚ} (two : bars.length < 2) :
        d.detect bars level atr = none := if_pos (.inl two)
    rw [silent two, silent (by rwa [List.length_map])]
    exact iff_of_true rfl fun last enough => absurd enough (not_le.mpr two)
  have enough := not_lt.mp two
  obtain ⟨last, ends⟩ : ∃ last, bars.getLast? = some last := by
    cases bars with
    | nil => exact absurd enough (by decide)
    | cons b bars => exact ⟨_, List.getLast?_eq_some_getLast (List.cons_ne_nil b bars)⟩
  have window (some_ : sliceBack d.reclaimWindow bars ≠ []) :
      (sliceBack d.reclaimWindow bars).getLast? = some last :=
    (getLast?_sliceBack some_).trans ends
  have injective : Function.Injective (Option.map SweepEvent.reflect) :=
    Option.map_injective (Function.LeftInverse.injective reflect_reflect)
  rw [detect_reflect d bars pos two, injective.eq_iff, detect,
    if_neg (by rintro (few | flat); exacts [two few, pos flat]), ends, search_iff window one]
  constructor
  · rintro sweeps last' - same
    obtain rfl := Option.some.inj same
    exact sweeps
  · exact fun sweeps => sweeps last enough rfl

/-- Satisfiable pole: the default detector, and a sweep above the level by the last bar. -/
theorem last_sweep_alike :
    default_.detect ([(⟨100, 101, 99, 100, 0, 60, 1⟩ : Candle),
        ⟨100, 104, 99, 101, 60, 120, 1⟩].map Candle.reflect) (-fin 102) (fin 2) =
      (default_.detect [⟨100, 101, 99, 100, 0, 60, 1⟩, ⟨100, 104, 99, 101, 60, 120, 1⟩] (fin 102)
        (fin 2)).map SweepEvent.reflect := by
  refine (detect_reflect_iff _ _ (by decide +kernel) (by decide +kernel)).mpr ?_
  rintro last - ends
  obtain rfl := Option.some.inj ends
  exact ⟨fun _ => .inr (by decide +kernel), fun nil => absurd nil (by decide +kernel)⟩

/-- Refuting pole: the same sweep, and a quiet bar after it. -/
theorem older_sweep_missed :
    ¬ ∀ (d : SweepDetector) (bars : List Candle) (level atr : ExtNum ℚ), 0 < atr →
      OneSided (d.req atr) level (sliceBack d.reclaimWindow bars) →
        d.detect (bars.map Candle.reflect) (-level) atr =
          (d.detect bars level atr).map SweepEvent.reflect := by
  intro always
  have alike := always default_ [⟨100, 101, 99, 100, 0, 60, 1⟩, ⟨100, 104, 99, 101, 60, 120, 1⟩,
    ⟨101, 101, 100, 100, 120, 180, 1⟩] (fin 102) (fin 2) (by decide +kernel) (by decide +kernel)
  exact absurd alike (by decide +kernel)

end Alike

end SweepDetector

end CentaurApex.Cortex
