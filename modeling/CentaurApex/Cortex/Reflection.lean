/-
# Cortex.Reflection -- a market seen from the other side of zero

Reflected candles have every price negated, and so their highs and lows exchanged.  A tracker
fed them is the mirror image of the tracker fed the candles.

* **One step** (`update_mirror`): the two hand-written directions of a step are one.
* **Bull and bear alike** (`trace_reflect`): along any candles and average ranges the replies,
  the states, the depths and the pullbacks that survived are the same, the direction is the
  opposite, and origin, extreme and retrace are negated.
-/
import CentaurApex.Cortex.Transitions
import Mathlib.Algebra.Order.Group.MinMax

namespace CentaurApex.Cortex

open CentaurApex.Theory
open CentaurApex.Theory.ExtNum (fin)

set_option autoImplicit false

/-! ## Candles and directions -/

/-- The candle of the negated prices. -/
def Candle.reflect (c : Candle) : Candle :=
  { c with open_ := -c.open_, high := -c.low, low := -c.high, close := -c.close }

@[simp] theorem Candle.reflect_reflect (c : Candle) : c.reflect.reflect = c := by
  simp [Candle.reflect]

def Direction.opposite : Direction → Direction
  | .none_ => .none_
  | .up => .down
  | .down => .up

theorem Direction.opposite_eq_none {d : Direction} : d.opposite = .none_ ↔ d = .none_ := by
  cases d <;> decide

namespace PullbackTracker

/-- `alive_pullbacks` -/
def alivePullbacks (t : PullbackTracker) : ℕ := t.aliveDepths.length

/-! ## The mirror image of a tracker -/

def mirror (t : PullbackTracker) : PullbackTracker :=
  { t with
    direction := t.direction.opposite, origin := -t.origin, extreme := -t.extreme
    retrace := t.retrace.map (- ·) }

/-- What the mirror image of a leg sees of the reflected candle. -/
def View.mirror (v : View) : View :=
  { v with further := -v.further, back := -v.back, deeper := fun a b => -v.deeper (-a) (-b) }

section Mirror

variable {t : PullbackTracker}

theorem mirror_new (minImpulseAtr minDepth maxDepth bufferAtr : ExtNum ℚ) :
    (new minImpulseAtr minDepth maxDepth bufferAtr).mirror =
      new minImpulseAtr minDepth maxDepth bufferAtr := by
  simp [mirror, new, Direction.opposite]

/-- A price is as deep as its reflection. -/
theorem depth_mirror (begun : t.direction ≠ .none_) (price : ℚ) :
    t.mirror.depth (-price) = t.depth price := by
  have leg : |-t.extreme - -t.origin| = |t.extreme - t.origin| := by
    rw [neg_sub_neg, abs_sub_comm]
  unfold depth mirror
  dsimp only
  rw [leg]
  cases direction : t.direction with
  | none_ => exact absurd direction begun
  | up =>
      simp only [Direction.opposite, reduceCtorEq, if_false, if_true]
      rw [neg_sub_neg]
  | down =>
      simp only [Direction.opposite, reduceCtorEq, if_false, if_true]
      rw [neg_sub_neg]

theorem bearView_mirror (t : PullbackTracker) (c : Candle) (atr : ExtNum ℚ) :
    t.mirror.bearView c.reflect atr = (t.bullView c atr).mirror := by
  have leg : -t.origin - -t.extreme = t.extreme - t.origin := by ring
  have passes : fin (-c.high) < fin (-t.extreme) - t.bufferAtr * atr ↔
      fin t.extreme + t.bufferAtr * atr < fin c.high := ExtNum.neg_lt_neg_sub_iff _ _ _
  simp only [bearView, bullView, mirror, View.mirror, Candle.reflect, leg, passes, neg_lt_neg_iff,
    min_neg_neg, neg_neg]

theorem mirror_mirror (t : PullbackTracker) : t.mirror.mirror = t := by
  have retrace : (t.retrace.map (- ·)).map (- ·) = t.retrace := by
    cases t.retrace <;> simp
  have direction : t.direction.opposite.opposite = t.direction := by
    cases t.direction <;> rfl
  simp only [mirror, retrace, direction, neg_neg]

theorem View.mirror_mirror (v : View) : v.mirror.mirror = v := by
  simp [View.mirror]

theorem bullView_mirror (t : PullbackTracker) (c : Candle) (atr : ExtNum ℚ) :
    t.mirror.bullView c.reflect atr = (t.bearView c atr).mirror := by
  have back : t.bearView c atr = (t.mirror.bullView c.reflect atr).mirror := by
    have again := bearView_mirror t.mirror c.reflect atr
    rwa [t.mirror_mirror, c.reflect_reflect] at again
  rw [back, View.mirror_mirror]

theorem recordAlive_mirror (t : PullbackTracker) (d : ℚ) :
    t.mirror.recordAlive d = (t.recordAlive d).mirror := by
  unfold recordAlive
  by_cases alive : 0 < d ∧ d < 1
  · have same : t.mirror.aliveDepths = t.aliveDepths := rfl
    rw [if_pos alive, if_pos alive, same]
    generalize lastN 200 (t.aliveDepths ++ [d]) = depths
    rfl
  · rw [if_neg alive, if_neg alive]

/-- One step along a leg and one along its mirror image. -/
theorem advance_mirror (sound : Sound t) (begun : t.direction ≠ .none_) (v : View)
    (atr : ExtNum ℚ) :
    t.mirror.advance v.mirror atr = ((t.advance v atr).1, (t.advance v atr).2.mirror) := by
  have back : t.mirror.depth v.mirror.back = t.depth v.back := depth_mirror begun v.back
  by_cases breaks : v.breaks = true
  · rw [advance_of_breaks breaks, advance_of_breaks (v := v.mirror) breaks]
    rfl
  have holds := Bool.eq_false_of_not_eq_true breaks
  by_cases passes : v.passes = true
  · by_cases armed : t.state = .armed
    · obtain ⟨retrace, from_⟩ := sound.held armed
      have from_' : t.mirror.retrace = some (-retrace) := by
        rw [mirror, from_]
        rfl
      rw [advance_of_resumes holds passes armed from_,
        advance_of_resumes (t := t.mirror) (v := v.mirror) holds passes armed from_',
        depth_mirror begun, recordAlive_mirror]
      rfl
    · rw [advance_of_extends holds passes armed,
        advance_of_extends (t := t.mirror) (v := v.mirror) holds passes armed]
      rfl
  have within := Bool.eq_false_of_not_eq_true passes
  by_cases armed : t.state = .armed
  · rw [advance_of_deepens holds within armed,
      advance_of_deepens (t := t.mirror) (v := v.mirror) holds within armed]
    have deeper : (t.mirror.retrace.map (v.mirror.deeper · v.mirror.back)).getD v.mirror.back =
        -(t.retrace.map (v.deeper · v.back)).getD v.back := by
      cases retrace : t.retrace with
      | none => simp [mirror, View.mirror, retrace]
      | some price => simp [mirror, View.mirror, retrace]
    rw [deeper]
    rfl
  have arms : Arms t.mirror v.mirror atr ↔ Arms t v atr := by
    constructor
    · intro arms
      exact ⟨arms.aligned, arms.retreats, arms.impulse, back ▸ arms.enough, back ▸ arms.shallow⟩
    · intro arms
      exact ⟨arms.aligned, arms.retreats, arms.impulse, back ▸ arms.enough, back ▸ arms.shallow⟩
  by_cases arm : Arms t v atr
  · rw [advance_of_arms holds within arm,
      advance_of_arms (t := t.mirror) (v := v.mirror) holds within (arms.mpr arm)]
    rfl
  · rw [advance_of_idles holds within armed arm,
      advance_of_idles (t := t.mirror) (v := v.mirror) holds within armed (arms.not.mpr arm)]

theorem begin_mirror (c : Candle) {atr : ExtNum ℚ}
    (pos : ¬ atr ≤ 0) : t.mirror.begin_ c.reflect atr = (t.begin_ c atr).mirror := by
  have body : -c.close - -c.open_ = -(c.close - c.open_) := by ring
  unfold begin_
  dsimp only [Candle.reflect]
  rw [body, abs_neg]
  by_cases begins : fin (1 / 2) * atr ≤ fin |c.close - c.open_|
  · have ne := body_ne pos begins
    rw [if_pos begins, if_pos begins]
    by_cases up : 0 < c.close - c.open_
    · have down : ¬ 0 < -(c.close - c.open_) := by linarith
      simp only [if_pos up, if_neg down]
      rfl
    · have down : 0 < -(c.close - c.open_) := by
        have := lt_of_le_of_ne (not_lt.mp up) (sub_ne_zero.mpr ne)
        linarith
      simp only [if_neg up, if_pos down]
      rfl
  · rw [if_neg begins, if_neg begins]

/-- **One step and its mirror image.** -/
theorem update_mirror (sound : Sound t) (c : Candle) (atr : ExtNum ℚ) :
    t.mirror.update c.reflect atr = ((t.update c atr).1, (t.update c atr).2.mirror) := by
  by_cases flat : atr ≤ 0
  · rw [update_idle t c flat, update_idle t.mirror c.reflect flat]
    rfl
  by_cases unbegun : t.direction = .none_
  · have unbegun' : t.mirror.direction = .none_ := Direction.opposite_eq_none.mpr unbegun
    rw [update_unbegun unbegun c flat, update_unbegun unbegun' c.reflect flat]
    exact congrArg (Prod.mk none) (begin_mirror (t := { t with atr }) c flat)
  · have begun' : t.mirror.direction ≠ .none_ := Direction.opposite_eq_none.not.mpr unbegun
    have view : t.mirror.view c.reflect atr = (t.view c atr).mirror := by
      have opposite : t.mirror.direction = t.direction.opposite := rfl
      unfold view
      rw [opposite]
      cases direction : t.direction with
      | none_ => exact absurd direction unbegun
      | up => exact bearView_mirror t c atr
      | down => exact bullView_mirror t c atr
    rw [update_eq unbegun c flat, update_eq begun' c.reflect flat, view]
    exact advance_mirror (t := { t with atr }) ⟨sound.fresh, sound.held, sound.passed⟩ unbegun _ _

/-- A price that is back from an armed leg is as far back in its mirror image. -/
theorem currentDepth_mirror (begun : Begun t) : t.mirror.currentDepth = t.currentDepth := by
  by_cases armed : t.state = .armed
  · have same : (t.retrace.map (- ·)).map t.mirror.depth = t.retrace.map t.depth := by
      cases t.retrace with
      | none => rfl
      | some retrace => exact congrArg some (depth_mirror (begun armed) retrace)
    rw [currentDepth, currentDepth, if_pos armed, if_pos (show t.mirror.state = .armed from armed)]
    exact same
  · rw [currentDepth, currentDepth, if_neg armed,
      if_neg (show ¬ t.mirror.state = .armed from armed)]

end Mirror

/-! ## Runs -/

/-- What two trackers have in common whose markets are reflections of each other. -/
structure Mirrored (t u : PullbackTracker) : Prop where
  state : u.state = t.state
  depth : u.currentDepth = t.currentDepth
  alive : u.alivePullbacks = t.alivePullbacks
  direction : u.direction = t.direction.opposite
  origin : u.origin = -t.origin
  extreme : u.extreme = -t.extreme
  retrace : u.retrace = t.retrace.map (- ·)

theorem mirrored_mirror {t : PullbackTracker} (begun : Begun t) : Mirrored t t.mirror :=
  ⟨rfl, currentDepth_mirror begun, rfl, rfl, rfl, rfl, rfl⟩

theorem Sound.begun {t : PullbackTracker} (sound : Sound t) : Begun t := by
  intro armed none_
  rw [(sound.fresh none_).1] at armed
  cases armed

/-- The feed of the reflected candles. -/
def reflectFeed (feed : List (Candle × ExtNum ℚ)) : List (Candle × ExtNum ℚ) :=
  feed.map fun input => (input.1.reflect, input.2)

/-- Along reflected candles a tracker is the mirror image of itself, step by step. -/
theorem trace_mirror (feed : List (Candle × ExtNum ℚ)) : ∀ {t : PullbackTracker}, Sound t →
    List.Forall₂ (fun e f => f.reply = e.reply ∧ Mirrored e.after f.after)
      (machine.trace t feed) (machine.trace t.mirror (reflectFeed feed)) := by
  induction feed with
  | nil => exact fun _ => .nil
  | cons input feed ih =>
      intro t sound
      have step : machine.step t.mirror (input.1.reflect, input.2) =
          ((t.update input.1 input.2).1, (t.update input.1 input.2).2.mirror) :=
        update_mirror sound input.1 input.2
      have after := sound.update input.1 input.2
      refine .cons ⟨?_, ?_⟩ ?_
      · show (machine.step t.mirror (input.1.reflect, input.2)).1 = _
        rw [step]
        rfl
      · show Mirrored _ (machine.step t.mirror (input.1.reflect, input.2)).2
        rw [step]
        exact mirrored_mirror after.begun
      · show List.Forall₂ _ _ (machine.trace (machine.step t.mirror (input.1.reflect, input.2)).2 _)
        rw [step]
        exact ih after

/-- **Bull and bear alike**: whatever the zone, the candles and the average ranges, a tracker
along the reflected candles gives at every step the same reply, and is in the same state, at the
same depth and with as many survived pullbacks, in the opposite direction, its origin, extreme
and retrace negated. -/
theorem trace_reflect (minImpulseAtr minDepth maxDepth bufferAtr : ExtNum ℚ)
    (feed : List (Candle × ExtNum ℚ)) :
    List.Forall₂ (fun e f => f.reply = e.reply ∧ Mirrored e.after f.after)
      (machine.trace (new minImpulseAtr minDepth maxDepth bufferAtr) feed)
      (machine.trace (new minImpulseAtr minDepth maxDepth bufferAtr) (reflectFeed feed)) := by
  have along := trace_mirror feed (sound_new minImpulseAtr minDepth maxDepth bufferAtr)
  rwa [mirror_new] at along

end PullbackTracker

end CentaurApex.Cortex
