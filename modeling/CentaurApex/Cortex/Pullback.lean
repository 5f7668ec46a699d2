/-
# Cortex.Pullback -- an armed pullback, and how deep it gets

A tracker follows an impulse leg candle by candle.  A pullback into the zone between
`min_depth` and `max_depth` arms it; from there the structure breaks, the impulse resumes,
or the retrace goes on.  The bull's step and the bear's are one step (`advance`) on two views
of the candle (`bullView`, `bearView`).

* **A step** (`Advanced`): everything a candle can do to a tracker.
* **The depth grows** while a pullback is armed (`depth_deeper`): the leg is fixed until it
  breaks or resumes, and the retrace is the deepest price so far.
* **Armed means in the zone, exactly while every candle checks** (`armed_healthy_iff`): the
  depth is compared with `max_depth` on the way in and not again.

Refuting pole `armed_beyond_zone`: the default tracker, armed at two fifths of the leg, is
still armed at nine tenths.
-/
import CentaurApex.Cortex.MarketContext
import CentaurApex.Theory.Machine
import Mathlib.Algebra.Order.Field.Basic

namespace CentaurApex.Cortex

open CentaurApex.Theory
open CentaurApex.Theory.ExtNum (fin)

set_option autoImplicit false

/-! ## The tracker -/

inductive PullbackState where
  | aligned | armed | resumed | broken
  deriving DecidableEq, Repr

inductive Transition where
  | armed | resumed | broken
  deriving DecidableEq, Repr

structure PullbackTracker where
  minImpulseAtr : ExtNum ℚ
  minDepth : ExtNum ℚ
  maxDepth : ExtNum ℚ
  bufferAtr : ExtNum ℚ
  direction : Direction
  origin : ℚ
  extreme : ℚ
  retrace : Option ℚ
  state : PullbackState
  aliveDepths : List ℚ
  atr : ExtNum ℚ
  deriving DecidableEq

namespace PullbackTracker

def new (minImpulseAtr minDepth maxDepth bufferAtr : ExtNum ℚ) : PullbackTracker :=
  { minImpulseAtr, minDepth, maxDepth, bufferAtr, direction := .none_, origin := 0, extreme := 0
    retrace := none, state := .aligned, aliveDepths := [], atr := 0 }

/-- `PullbackTracker()` -/
def default_ : PullbackTracker := new 1 (fin (1 / 4)) (fin (13 / 20)) (fin (3 / 10))

/-- How far a price is back from the extreme, in legs. -/
def depth (t : PullbackTracker) (price : ℚ) : ℚ :=
  let leg := |t.extreme - t.origin|
  if leg ≤ 0 then 0
  else if t.direction = .up then (t.extreme - price) / leg else (price - t.extreme) / leg

/-- The depths of the last two hundred pullbacks that survived. -/
def recordAlive (t : PullbackTracker) (depthRatio : ℚ) : PullbackTracker :=
  if 0 < depthRatio ∧ depthRatio < 1 then
    { t with aliveDepths := lastN 200 (t.aliveDepths ++ [depthRatio]) }
  else t

/-- A candle as a leg of one direction sees it. -/
structure View where
  /-- the length of the leg so far -/
  leg : ℚ
  /-- the close is beyond the origin -/
  breaks : Bool
  /-- the candle passed the extreme by the buffer -/
  passes : Bool
  /-- the extreme, moved up to the candle -/
  further : ℚ
  /-- the candle came back from the extreme -/
  retreats : Bool
  /-- its price farthest back -/
  back : ℚ
  /-- the farther back of two prices -/
  deeper : ℚ → ℚ → ℚ

def bullView (t : PullbackTracker) (c : Candle) (atr : ExtNum ℚ) : View where
  leg := t.extreme - t.origin
  breaks := c.close < t.origin
  passes := fin t.extreme + t.bufferAtr * atr < fin c.high
  further := max t.extreme c.high
  retreats := c.low < t.extreme
  back := c.low
  deeper := min

def bearView (t : PullbackTracker) (c : Candle) (atr : ExtNum ℚ) : View where
  leg := t.origin - t.extreme
  breaks := t.origin < c.close
  passes := fin c.low < fin t.extreme - t.bufferAtr * atr
  further := min t.extreme c.low
  retreats := t.extreme < c.high
  back := c.high
  deeper := max

/-- One step along a leg. -/
def advance (t : PullbackTracker) (v : View) (atr : ExtNum ℚ) :
    Option Transition × PullbackTracker :=
  if v.breaks then (some .broken, { t with state := .broken })
  else if v.passes then
    match t.state, t.retrace with
    | .armed, some retrace =>
        (some .resumed, { t.recordAlive (t.depth retrace) with
          state := .aligned, origin := retrace, extreme := v.further, retrace := none })
    | _, _ => (none, { t with state := .aligned, extreme := v.further, retrace := none })
  else if t.state = .aligned ∧ v.retreats ∧ t.minImpulseAtr * atr ≤ fin v.leg then
    if t.minDepth ≤ fin (t.depth v.back) ∧ fin (t.depth v.back) < t.maxDepth then
      (some .armed, { t with state := .armed, retrace := some v.back })
    else (none, t)
  else if t.state = .armed then
    -- the retrace deepens, and the zone is not looked at again
    (none, { t with retrace := some ((t.retrace.map (v.deeper · v.back)).getD v.back) })
  else (none, t)

def stepBull (t : PullbackTracker) (c : Candle) (atr : ExtNum ℚ) :
    Option Transition × PullbackTracker := t.advance (t.bullView c atr) atr

def stepBear (t : PullbackTracker) (c : Candle) (atr : ExtNum ℚ) :
    Option Transition × PullbackTracker := t.advance (t.bearView c atr) atr

/-- A body of half an average range begins a leg. -/
def begin_ (t : PullbackTracker) (c : Candle) (atr : ExtNum ℚ) : PullbackTracker :=
  let body := c.close - c.open_
  if fin (1 / 2) * atr ≤ fin |body| then
    { t with
      direction := if 0 < body then .up else .down
      origin := c.open_
      extreme := if 0 < body then c.high else c.low }
  else t

def update (t : PullbackTracker) (c : Candle) (atr : ExtNum ℚ) :
    Option Transition × PullbackTracker :=
  let t := { t with atr }
  if atr ≤ 0 then (none, t)
  else
    match t.direction with
    | .none_ => (none, t.begin_ c atr)
    | .up => t.stepBull c atr
    | .down => t.stepBear c atr

def currentDepth (t : PullbackTracker) : Option ℚ :=
  if t.state = .armed then t.retrace.map t.depth else none

/-! ## One step -/

section Step

variable {t : PullbackTracker} {v : View} {atr : ExtNum ℚ}

/-- Everything a candle can do to a leg. -/
inductive Advanced (t : PullbackTracker) (v : View) :
    Option Transition × PullbackTracker → Prop
  | broken (breaks : v.breaks = true) : Advanced t v (some .broken, { t with state := .broken })
  | resumed (holds : v.breaks = false) (passes : v.passes = true) (armed : t.state = .armed)
      {retrace : ℚ} (from_ : t.retrace = some retrace) :
      Advanced t v (some .resumed, { t.recordAlive (t.depth retrace) with
        state := .aligned, origin := retrace, extreme := v.further, retrace := none })
  | extended (holds : v.breaks = false) (passes : v.passes = true) :
      Advanced t v (none, { t with state := .aligned, extreme := v.further, retrace := none })
  | armed (holds : v.breaks = false) (within : v.passes = false) (aligned : t.state = .aligned)
      (enough : t.minDepth ≤ fin (t.depth v.back)) (shallow : fin (t.depth v.back) < t.maxDepth) :
      Advanced t v (some .armed, { t with state := .armed, retrace := some v.back })
  | deepened (holds : v.breaks = false) (within : v.passes = false) (armed : t.state = .armed) :
      Advanced t v
        (none, { t with retrace := some ((t.retrace.map (v.deeper · v.back)).getD v.back) })
  | idle (holds : v.breaks = false) (within : v.passes = false) (unarmed : t.state ≠ .armed) :
      Advanced t v (none, t)

theorem advance_advanced (t : PullbackTracker) (v : View) (atr : ExtNum ℚ) :
    Advanced t v (t.advance v atr) := by
  unfold advance
  by_cases breaks : v.breaks = true
  · rw [if_pos breaks]
    exact .broken breaks
  rw [if_neg breaks]
  have holds := Bool.eq_false_of_not_eq_true breaks
  by_cases passes : v.passes = true
  · rw [if_pos passes]
    split
    · rename_i armed from_
      exact .resumed holds passes armed from_
    · exact .extended holds passes
  rw [if_neg passes]
  have within := Bool.eq_false_of_not_eq_true passes
  by_cases retreat : t.state = .aligned ∧ v.retreats = true ∧ t.minImpulseAtr * atr ≤ fin v.leg
  · rw [if_pos retreat]
    split
    · rename_i zone
      exact .armed holds within retreat.1 zone.1 zone.2
    · exact .idle holds within fun armed => by rw [retreat.1] at armed; cases armed
  rw [if_neg retreat]
  split
  · rename_i armed
    exact .deepened holds within armed
  · rename_i unarmed
    exact .idle holds within unarmed

/-- A step does not turn the leg around, nor touch the zone. -/
theorem Advanced.direction {out : Option Transition × PullbackTracker}
    (advanced : Advanced t v out) : out.2.direction = t.direction := by
  cases advanced with
  | resumed => simp only [recordAlive]; split <;> rfl
  | _ => rfl

end Step

/-! ## The depth -/

section Depth

variable {t : PullbackTracker}

theorem depth_up (up : t.direction = .up) {a b : ℚ} (le : a ≤ b) : t.depth b ≤ t.depth a := by
  unfold depth
  dsimp only
  rw [if_pos up, if_pos up]
  split
  · exact le_rfl
  · rename_i leg
    exact div_le_div_of_nonneg_right (sub_le_sub_left le _) (not_le.mp leg).le

theorem depth_down (down : t.direction ≠ .up) {a b : ℚ} (le : a ≤ b) : t.depth a ≤ t.depth b := by
  unfold depth
  dsimp only
  rw [if_neg down, if_neg down]
  split
  · exact le_rfl
  · rename_i leg
    exact div_le_div_of_nonneg_right (sub_le_sub_right le _) (not_le.mp leg).le

/-- The candle as the leg's direction sees it. -/
def view (t : PullbackTracker) (c : Candle) (atr : ExtNum ℚ) : View :=
  if t.direction = .up then t.bullView c atr else t.bearView c atr

/-- **The depth grows** with the farther of two prices. -/
theorem depth_deeper (t : PullbackTracker) (c : Candle) (atr : ExtNum ℚ) (a b : ℚ) :
    t.depth ((t.view c atr).deeper a b) = max (t.depth a) (t.depth b) := by
  unfold view
  by_cases up : t.direction = .up
  · rw [if_pos up]
    show t.depth (min a b) = _
    rcases le_total a b with le | le
    · rw [min_eq_left le, max_eq_left (depth_up up le)]
    · rw [min_eq_right le, max_eq_right (depth_up up le)]
  · rw [if_neg up]
    show t.depth (max a b) = _
    rcases le_total a b with le | le
    · rw [max_eq_right le, max_eq_right (depth_down up le)]
    · rw [max_eq_left le, max_eq_left (depth_down up le)]

end Depth

/-! ## Armed means healthy -/

/-- An armed pullback is in the zone. -/
def Healthy (t : PullbackTracker) : Prop :=
  t.state = .armed →
    ∃ depth, t.currentDepth = some depth ∧ t.minDepth ≤ fin depth ∧ fin depth < t.maxDepth

/-- A candle that an armed pullback takes in is short of the far end of the zone. -/
def Checked (t : PullbackTracker) (c : Candle) (atr : ExtNum ℚ) : Prop :=
  t.state = .armed → ¬ atr ≤ 0 → (t.view c atr).breaks = false → (t.view c atr).passes = false →
    fin (t.depth (t.view c atr).back) < t.maxDepth

/-- There is a leg where there is a pullback. -/
def Begun (t : PullbackTracker) : Prop := t.state = .armed → t.direction ≠ .none_

/-- A step along a leg that there is. -/
theorem update_eq {t : PullbackTracker} (begun : t.direction ≠ .none_) (c : Candle)
    {atr : ExtNum ℚ} (pos : ¬ atr ≤ 0) :
    t.update c atr = ({ t with atr } : PullbackTracker).advance (t.view c atr) atr := by
  unfold update
  dsimp only
  rw [if_neg pos]
  cases direction : t.direction with
  | none_ => exact absurd direction begun
  | up =>
      rw [view, if_pos direction]
      rfl
  | down =>
      rw [view, if_neg (by rw [direction]; decide)]
      rfl

/-- Without a leg no pullback is armed, and none by the next candle. -/
theorem Begun.unarmed_update {t : PullbackTracker} (begun : Begun t) (leg : t.direction = .none_)
    (c : Candle) {atr : ExtNum ℚ} (pos : ¬ atr ≤ 0) : (t.update c atr).2.state ≠ .armed := by
  have unarmed : t.state ≠ .armed := fun armed => begun armed leg
  rw [PullbackTracker.update, if_neg pos]
  simp only [leg, begin_]
  split
  · exact unarmed
  · exact unarmed

theorem Begun.update {t : PullbackTracker} (begun : Begun t) (c : Candle) (atr : ExtNum ℚ) :
    Begun (t.update c atr).2 := by
  by_cases pos : atr ≤ 0
  · rw [PullbackTracker.update, if_pos pos]
    exact begun
  by_cases leg : t.direction = .none_
  · exact fun armed => absurd armed (begun.unarmed_update leg c pos)
  · rw [update_eq leg c pos]
    intro _
    rw [(advance_advanced _ _ atr).direction]
    exact leg

section Healthy

variable {t : PullbackTracker}

/-- Where no candle is past the zone unnoticed, the pullback stays in it. -/
theorem Healthy.update (healthy : Healthy t) {c : Candle} {atr : ExtNum ℚ}
    (begun : Begun t) (checked : Checked t c atr) : Healthy (t.update c atr).2 := by
  by_cases pos : atr ≤ 0
  · rw [PullbackTracker.update, if_pos pos]
    exact healthy
  by_cases leg : t.direction = .none_
  · exact fun armed => absurd armed (begun.unarmed_update leg c pos)
  rw [update_eq leg c pos]
  generalize step : ({ t with atr } : PullbackTracker).advance (t.view c atr) atr = out
  have advanced := step ▸ advance_advanced { t with atr } (t.view c atr) atr
  cases advanced with
  | broken => exact fun armed => (by cases armed)
  | resumed => exact fun armed => (by cases armed)
  | extended => exact fun armed => (by cases armed)
  | armed holds within aligned enough shallow =>
      exact fun _ => ⟨_, rfl, enough, shallow⟩
  | idle holds within unarmed => exact fun armed => absurd armed unarmed
  | deepened holds within armed =>
      obtain ⟨deep, at_, enough, shallow⟩ := healthy armed
      have near := checked armed pos holds within
      intro _
      rw [currentDepth, if_pos armed] at at_
      obtain ⟨retrace, was, rfl⟩ := Option.map_eq_some_iff.mp at_
      refine ⟨t.depth ((t.view c atr).deeper retrace (t.view c atr).back), ?_, ?_, ?_⟩
      · rw [currentDepth, if_pos armed, was]
        rfl
      · rw [depth_deeper]
        exact ExtNum.le_trans enough (ExtNum.fin_le_fin.mpr (le_max_left _ _))
      · rw [depth_deeper]
        rcases max_choice (t.depth retrace) (t.depth (t.view c atr).back) with same | same <;>
          rw [same] <;> assumption

/-- A candle past the zone leaves the pullback armed, past the zone. -/
theorem not_healthy_update {c : Candle} {atr : ExtNum ℚ} (begun : Begun t)
    (unchecked : ¬ Checked t c atr) : ¬ Healthy (t.update c atr).2 := by
  unfold Checked at unchecked
  push Not at unchecked
  obtain ⟨armed, pos, holds, within, deep⟩ := unchecked
  intro healthy
  rw [update_eq (begun armed) c pos] at healthy
  generalize step : ({ t with atr } : PullbackTracker).advance (t.view c atr) atr = out at healthy
  have advanced := step ▸ advance_advanced { t with atr } (t.view c atr) atr
  cases advanced with
  | broken breaks => rw [holds] at breaks; cases breaks
  | resumed _ passes => rw [within] at passes; cases passes
  | extended _ passes => rw [within] at passes; cases passes
  | armed _ _ aligned => rw [show t.state = .aligned from aligned] at armed; cases armed
  | idle _ _ unarmed => exact unarmed armed
  | deepened _ _ _ =>
      obtain ⟨depth, at_, -, shallow⟩ := healthy armed
      rw [currentDepth, if_pos armed] at at_
      obtain ⟨retrace, was, rfl⟩ := Option.map_eq_some_iff.mp at_
      refine deep (ExtNum.lt_of_le_of_lt (ExtNum.fin_le_fin.mpr ?_) shallow)
      obtain rfl := Option.some.inj was
      cases t.retrace with
      | none => exact le_rfl
      | some retrace =>
          show t.depth (t.view c atr).back ≤
            t.depth ((t.view c atr).deeper retrace (t.view c atr).back)
          rw [depth_deeper]
          exact le_max_right _ _

end Healthy

/-! ## Runs -/

/-- The tracker along candles, each with its average range. -/
def machine : Machine PullbackTracker (Candle × ExtNum ℚ) (Option Transition) where
  step t input := t.update input.1 input.2

theorem begun_new (minImpulseAtr minDepth maxDepth bufferAtr : ExtNum ℚ) :
    Begun (new minImpulseAtr minDepth maxDepth bufferAtr) := fun armed => by cases armed

/-- An event of a run ends in the state of a shorter one. -/
theorem exists_run_after {t : PullbackTracker} {feed : List (Candle × ExtNum ℚ)}
    {e : Event PullbackTracker (Candle × ExtNum ℚ) (Option Transition)}
    (member : e ∈ machine.trace t feed) :
    ∃ earlier, earlier <+: feed ∧ machine.run t earlier = e.after := by
  obtain ⟨pre, post, split⟩ := List.append_of_mem member
  obtain ⟨before, after, rfl, -, rest⟩ := machine.trace_eq_append split
  obtain ⟨same, after, rfl, -⟩ := machine.trace_eq_cons rest
  refine ⟨before ++ [e.input], ⟨after, by rw [List.append_assoc]; rfl⟩, ?_⟩
  rw [machine.run_append]
  exact (congrArg Event.after same).symm

/-- **Armed means in the zone, exactly while every candle checks**: in every state of a run an
armed pullback has its depth in the zone, if and only if no candle that an armed pullback
takes in -- one that neither breaks the leg nor passes its extreme -- is as deep as the zone's
far end. -/
theorem armed_healthy_iff (minImpulseAtr minDepth maxDepth bufferAtr : ExtNum ℚ)
    (feed : List (Candle × ExtNum ℚ)) :
    (∀ earlier, earlier <+: feed →
      Healthy (machine.run (new minImpulseAtr minDepth maxDepth bufferAtr) earlier)) ↔
    ∀ e ∈ machine.trace (new minImpulseAtr minDepth maxDepth bufferAtr) feed,
      Checked e.before e.input.1 e.input.2 := by
  have start : Healthy (new minImpulseAtr minDepth maxDepth bufferAtr) := fun armed => by
    cases armed
  have begun := begun_new minImpulseAtr minDepth maxDepth bufferAtr
  constructor
  · intro healthy e member
    by_contra unchecked
    obtain ⟨begun, same⟩ := machine.trace_invariant (P := Begun)
      (fun _ input begun => Begun.update begun input.1 input.2) begun feed e member
    obtain ⟨earlier, initial, after⟩ := exists_run_after member
    have armed := healthy earlier initial
    rw [after, same] at armed
    exact not_healthy_update begun unchecked armed
  · rintro checked earlier ⟨later, rfl⟩
    have early : ∀ e ∈ machine.trace (new minImpulseAtr minDepth maxDepth bufferAtr) earlier,
        Checked e.before e.input.1 e.input.2 := fun e member =>
      checked e (by
        rw [machine.trace_append]
        exact List.mem_append_left _ member)
    exact (machine.run_invariant_of_events (P := fun t => Healthy t ∧ Begun t)
      (Q := fun e => Checked e.before e.input.1 e.input.2)
      (fun t input checked both =>
        ⟨both.1.update both.2 checked, both.2.update input.1 input.2⟩)
      ⟨start, begun⟩ early).1

/-- Refuting pole: a leg of ten, armed four back and still armed nine back. -/
theorem armed_beyond_zone :
    ¬ ∀ minImpulseAtr minDepth maxDepth bufferAtr : ExtNum ℚ, 0 ≤ minDepth → minDepth < maxDepth →
      ∀ feed : List (Candle × ExtNum ℚ), (∀ input ∈ feed, 0 < input.2) →
        Healthy (machine.run (new minImpulseAtr minDepth maxDepth bufferAtr) feed) := by
  intro always
  obtain ⟨depth, deep, -, shallow⟩ := always 1 (fin (1 / 4)) (fin (13 / 20)) (fin (3 / 10))
    (by decide +kernel) (by decide +kernel)
    [(⟨100, 110, 99, 105, 0, 60, 1⟩, fin 2), (⟨105, 110, 106, 107, 60, 120, 1⟩, fin 2),
      (⟨107, 107, 101, 102, 120, 180, 1⟩, fin 2)] (by decide +kernel) (by decide +kernel)
  have nine : currentDepth (machine.run default_
      [(⟨100, 110, 99, 105, 0, 60, 1⟩, fin 2), (⟨105, 110, 106, 107, 60, 120, 1⟩, fin 2),
        (⟨107, 107, 101, 102, 120, 180, 1⟩, fin 2)]) = some (9 / 10) := by decide +kernel
  obtain rfl := Option.some.inj (nine.symm.trans deep)
  exact absurd shallow (by decide +kernel)

end PullbackTracker

end CentaurApex.Cortex
