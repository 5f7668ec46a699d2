/-
# Cortex.Transitions -- when a candle is reported, and when it is reported twice

A pullback tracker replies to a candle with a transition or with nothing.

* **A transition is a change** (`reports_iff`): the reply names the change of the state, in
  every event of a run but one kind -- a tracker that is already broken, and a candle that
  breaks the leg again (reported, no change) or passes its extreme (a change, not reported).
* **A candle changes nothing** (`update_unmoved_iff`) exactly when it leaves the tracker
  `Unmoved`: the average range it knows, and a leg that is neither begun nor moved.
* **Delivered again** (`redelivered_iff`): a candle is measured against the leg it has just
  begun, extended or left.  It changes nothing exactly when it is `Steady` there.

Refuting poles: `broken_reported_again` and `broken_left_unreported`, both on the default
tracker and a leg of ten.
-/
import CentaurApex.Cortex.Pullback

namespace CentaurApex.Cortex

open CentaurApex.Theory
open CentaurApex.Theory.ExtNum (fin)

set_option autoImplicit false

namespace PullbackTracker

/-! ## Reachable trackers -/

/-- `reset`: the zone and the last average range stay. -/
def reset (t : PullbackTracker) : PullbackTracker :=
  { t with
    direction := .none_, origin := 0, extreme := 0, retrace := none, state := .aligned
    aliveDepths := [] }

/-- What the methods of a tracker make of a new one. -/
inductive Reached : PullbackTracker → Prop
  | new (minImpulseAtr minDepth maxDepth bufferAtr : ExtNum ℚ) :
      Reached (new minImpulseAtr minDepth maxDepth bufferAtr)
  | update {t : PullbackTracker} (reached : Reached t) (c : Candle) (atr : ExtNum ℚ) :
      Reached (t.update c atr).2
  | reset {t : PullbackTracker} (reached : Reached t) : Reached t.reset

/-- A tracker without a leg is as new, and an armed one has its retrace.  A resumption leaves
the tracker aligned: it is never in the state of that name. -/
structure Sound (t : PullbackTracker) : Prop where
  fresh : t.direction = .none_ → t.state = .aligned ∧ t.retrace = none
  held : t.state = .armed → ∃ retrace, t.retrace = some retrace
  passed : t.state ≠ .resumed

/-! ## The step, branch by branch -/

section Branches

variable {t : PullbackTracker} {v : View} {atr : ExtNum ℚ}

theorem advance_of_breaks (breaks : v.breaks = true) :
    t.advance v atr = (some .broken, { t with state := .broken }) := by
  rw [advance, if_pos breaks]

theorem advance_of_resumes (holds : v.breaks = false) (passes : v.passes = true)
    (armed : t.state = .armed) {retrace : ℚ} (from_ : t.retrace = some retrace) :
    t.advance v atr = (some .resumed, { t.recordAlive (t.depth retrace) with
      state := .aligned, origin := retrace, extreme := v.further, retrace := none }) := by
  rw [advance, if_neg (by rw [holds]; decide), if_pos passes, armed, from_]

theorem advance_of_extends (holds : v.breaks = false) (passes : v.passes = true)
    (unarmed : t.state ≠ .armed) :
    t.advance v atr =
      (none, { t with state := .aligned, extreme := v.further, retrace := none }) := by
  rw [advance, if_neg (by rw [holds]; decide), if_pos passes]
  split
  · rename_i armed _
    exact absurd armed unarmed
  · rfl

theorem advance_of_deepens (holds : v.breaks = false) (within : v.passes = false)
    (armed : t.state = .armed) :
    t.advance v atr =
      (none, { t with retrace := some ((t.retrace.map (v.deeper · v.back)).getD v.back) }) := by
  rw [advance, if_neg (by rw [holds]; decide), if_neg (by rw [within]; decide), if_neg ?_,
    if_pos armed]
  rintro ⟨aligned, -⟩
  rw [armed] at aligned
  cases aligned

/-- A candle arms an aligned leg: it comes back from the extreme of an impulse into the zone. -/
structure Arms (t : PullbackTracker) (v : View) (atr : ExtNum ℚ) : Prop where
  aligned : t.state = .aligned
  retreats : v.retreats = true
  impulse : t.minImpulseAtr * atr ≤ fin v.leg
  enough : t.minDepth ≤ fin (t.depth v.back)
  shallow : fin (t.depth v.back) < t.maxDepth

theorem advance_of_arms (holds : v.breaks = false) (within : v.passes = false)
    (arms : Arms t v atr) :
    t.advance v atr = (some .armed, { t with state := .armed, retrace := some v.back }) := by
  rw [advance, if_neg (by rw [holds]; decide), if_neg (by rw [within]; decide),
    if_pos ⟨arms.aligned, arms.retreats, arms.impulse⟩, if_pos ⟨arms.enough, arms.shallow⟩]

theorem advance_of_idles (holds : v.breaks = false) (within : v.passes = false)
    (unarmed : t.state ≠ .armed) (not_arms : ¬ Arms t v atr) : t.advance v atr = (none, t) := by
  rw [advance, if_neg (by rw [holds]; decide), if_neg (by rw [within]; decide)]
  split
  · rename_i impulse
    rw [if_neg fun zone => not_arms ⟨impulse.1, impulse.2.1, impulse.2.2, zone.1, zone.2⟩]
  · rfl

end Branches

theorem update_idle (t : PullbackTracker) (c : Candle) {atr : ExtNum ℚ} (flat : atr ≤ 0) :
    t.update c atr = (none, { t with atr }) := if_pos flat

theorem update_unbegun {t : PullbackTracker} (unbegun : t.direction = .none_) (c : Candle)
    {atr : ExtNum ℚ} (pos : ¬ atr ≤ 0) :
    t.update c atr = (none, ({ t with atr } : PullbackTracker).begin_ c atr) := by
  rw [update]
  simp only [if_neg pos, unbegun]

theorem recordAlive_fields (t : PullbackTracker) (d : ℚ) :
    ∃ depths, t.recordAlive d = { t with aliveDepths := depths } := by
  unfold recordAlive
  split
  · exact ⟨_, rfl⟩
  · exact ⟨_, rfl⟩

/-! ## Soundness -/

theorem Sound.advance {t : PullbackTracker} (sound : Sound t) (begun : t.direction ≠ .none_)
    (v : View) (atr : ExtNum ℚ) : Sound (t.advance v atr).2 := by
  have advanced := advance_advanced t v atr
  refine ⟨fun none_ => absurd (advanced.direction.symm.trans none_) begun, ?_, ?_⟩
  · generalize t.advance v atr = out at advanced
    cases advanced with
    | broken => exact fun armed => (by cases armed)
    | resumed => exact fun armed => (by cases armed)
    | extended => exact fun armed => (by cases armed)
    | armed => exact fun _ => ⟨_, rfl⟩
    | deepened => exact fun _ => ⟨_, rfl⟩
    | idle => exact sound.held
  · generalize t.advance v atr = out at advanced
    cases advanced with
    | deepened => exact sound.passed
    | idle => exact sound.passed
    | _ => exact fun passed => (by cases passed)

theorem Sound.update {t : PullbackTracker} (sound : Sound t) (c : Candle) (atr : ExtNum ℚ) :
    Sound (t.update c atr).2 := by
  by_cases flat : atr ≤ 0
  · rw [update_idle t c flat]
    exact ⟨sound.fresh, sound.held, sound.passed⟩
  by_cases unbegun : t.direction = .none_
  · have fresh := sound.fresh unbegun
    have unarmed : t.state ≠ .armed := by
      rw [fresh.1]
      decide
    rw [update_unbegun unbegun c flat, begin_]
    split
    · refine ⟨fun direction => ?_, fun armed => absurd armed unarmed, sound.passed⟩
      revert direction
      dsimp only
      split
      · exact fun up => by cases up
      · exact fun down => by cases down
    · exact ⟨sound.fresh, sound.held, sound.passed⟩
  have sound : Sound ({ t with atr } : PullbackTracker) := ⟨sound.fresh, sound.held, sound.passed⟩
  rw [update_eq unbegun c flat]
  exact sound.advance unbegun _ _

theorem sound_new (minImpulseAtr minDepth maxDepth bufferAtr : ExtNum ℚ) :
    Sound (new minImpulseAtr minDepth maxDepth bufferAtr) :=
  ⟨fun _ => ⟨rfl, rfl⟩, (by rintro ⟨⟩), (by rintro ⟨⟩)⟩

theorem Reached.sound {t : PullbackTracker} (reached : Reached t) : Sound t := by
  induction reached with
  | new => exact sound_new _ _ _ _
  | update _ c atr sound => exact sound.update c atr
  | reset _ _ => exact ⟨fun _ => ⟨rfl, rfl⟩, (by rintro ⟨⟩), (by rintro ⟨⟩)⟩

/-! ## What is reported -/

/-- A reply is the change of the state, by its name; a resumption is the way out of a pullback
past the extreme. -/
structure Names (before after : PullbackState) (passed : Bool) (reply : Option Transition) :
    Prop where
  changed : reply ≠ none ↔ after ≠ before
  armed : reply = some .armed ↔ before ≠ .armed ∧ after = .armed
  broken : reply = some .broken ↔ before ≠ .broken ∧ after = .broken
  resumed : reply = some .resumed ↔ before = .armed ∧ after = .aligned ∧ passed = true

theorem names_silent (state : PullbackState) (passed : Bool) : Names state state passed none := by
  refine ⟨by simp, by simp, by simp, fun reply => (by cases reply), ?_⟩
  rintro ⟨armed, aligned, -⟩
  rw [armed] at aligned
  cases aligned

/-- A step along a leg names its change, but on a broken leg that it breaks or passes. -/
theorem names_advance_iff {t : PullbackTracker} (sound : Sound t) (v : View) (atr : ExtNum ℚ) :
    Names t.state (t.advance v atr).2.state v.passes (t.advance v atr).1 ↔
      (t.state = .broken → v.breaks = false ∧ v.passes = false) := by
  cases breaks : v.breaks with
  | true =>
      rw [advance_of_breaks breaks]
      constructor
      · intro names broken
        exact absurd broken.symm (names.changed.mp (by simp))
      · intro unbroken
        have unbroken : t.state ≠ .broken := fun broken => by cases (unbroken broken).1
        exact ⟨by simpa using unbroken.symm, by simp, by simpa using unbroken, by simp⟩
  | false =>
  cases passes : v.passes with
  | true =>
      by_cases armed : t.state = .armed
      · obtain ⟨retrace, from_⟩ := sound.held armed
        rw [advance_of_resumes breaks passes armed from_, armed]
        exact iff_of_true ⟨by simp, by simp, by simp, by simp⟩ fun broken => by cases broken
      rw [advance_of_extends breaks passes armed]
      constructor
      · intro names broken
        have changed := names.changed
        rw [broken] at changed
        simp at changed
      · intro unbroken
        have aligned : t.state = .aligned := by
          cases state : t.state with
          | aligned => rfl
          | armed => exact absurd state armed
          | resumed => exact absurd state sound.passed
          | broken => cases (unbroken state).2
        rw [aligned]
        exact names_silent _ _
  | false =>
  refine iff_of_true ?_ fun _ => ⟨rfl, rfl⟩
  by_cases armed : t.state = .armed
  · rw [advance_of_deepens breaks passes armed]
    exact names_silent _ _
  by_cases arms : Arms t v atr
  · rw [advance_of_arms breaks passes arms, arms.aligned]
    exact ⟨by simp, by simp, by simp, by simp⟩
  · rw [advance_of_idles breaks passes armed arms]
    exact names_silent _ _

/-- The reply names what the event did to the state. -/
def Reports (e : Event PullbackTracker (Candle × ExtNum ℚ) (Option Transition)) : Prop :=
  Names e.before.state e.after.state (e.before.view e.input.1 e.input.2).passes e.reply

/-- No broken leg is broken again, or passed. -/
def Unbroken (t : PullbackTracker) (c : Candle) (atr : ExtNum ℚ) : Prop :=
  t.state = .broken → ¬ atr ≤ 0 → (t.view c atr).breaks = false ∧ (t.view c atr).passes = false

theorem names_update_iff {t : PullbackTracker} (sound : Sound t) (c : Candle)
    (atr : ExtNum ℚ) :
    Names t.state (t.update c atr).2.state (t.view c atr).passes (t.update c atr).1 ↔
      Unbroken t c atr := by
  by_cases flat : atr ≤ 0
  · rw [update_idle t c flat]
    exact iff_of_true (names_silent _ _) fun _ pos => absurd flat pos
  by_cases unbegun : t.direction = .none_
  · have same : (({ t with atr } : PullbackTracker).begin_ c atr).state = t.state := by
      rw [begin_]
      split <;> rfl
    rw [update_unbegun unbegun c flat]
    dsimp only
    rw [same]
    refine iff_of_true (names_silent _ _) fun broken => ?_
    rw [(sound.fresh unbegun).1] at broken
    cases broken
  · have sound : Sound ({ t with atr } : PullbackTracker) :=
      ⟨sound.fresh, sound.held, sound.passed⟩
    rw [update_eq unbegun c flat]
    refine (names_advance_iff sound (t.view c atr) atr).trans (forall_congr' fun _ => ?_)
    exact ⟨fun unbroken _ => unbroken, fun unbroken => unbroken flat⟩

/-- **A transition is a change**: in every event of a run, whatever the candles and the average
ranges, the tracker replies if and only if the state changed, and by the name of the change,
exactly when the candle does not break a broken leg again, nor pass its extreme. -/
theorem reports_iff (minImpulseAtr minDepth maxDepth bufferAtr : ExtNum ℚ)
    (feed : List (Candle × ExtNum ℚ)) :
    ∀ e ∈ machine.trace (new minImpulseAtr minDepth maxDepth bufferAtr) feed,
      Reports e ↔ Unbroken e.before e.input.1 e.input.2 := by
  intro e member
  obtain ⟨sound, same⟩ := machine.trace_invariant (P := Sound)
    (fun _ input sound => sound.update input.1 input.2)
    (sound_new minImpulseAtr minDepth maxDepth bufferAtr) feed e member
  have names := names_update_iff sound e.input.1 e.input.2
  rw [Reports, same]
  exact names

/-- Satisfiable pole: a leg of ten, and the candle that breaks it. -/
theorem break_reported :
    Reports (machine.event (machine.run default_ [(⟨100, 110, 99, 105, 0, 60, 1⟩, fin 2)])
      (⟨104, 104, 98, 99, 60, 120, 1⟩, fin 2)) :=
  (reports_iff 1 (fin (1 / 4)) (fin (13 / 20)) (fin (3 / 10))
    [(⟨100, 110, 99, 105, 0, 60, 1⟩, fin 2), (⟨104, 104, 98, 99, 60, 120, 1⟩, fin 2)] _
    (List.mem_cons_of_mem _ List.mem_cons_self)).mpr
      fun broken => absurd broken (by decide +kernel)

/-- Refuting pole: a leg of ten that broke, and a candle above its extreme.  The tracker is
aligned again and says nothing. -/
theorem broken_left_unreported :
    ¬ ∀ (minImpulseAtr minDepth maxDepth bufferAtr : ExtNum ℚ) (feed : List (Candle × ExtNum ℚ)),
      ∀ e ∈ machine.trace (new minImpulseAtr minDepth maxDepth bufferAtr) feed, Reports e := by
  intro always
  have trace : ∃ e ∈ machine.trace (new 1 (fin (1 / 4)) (fin (13 / 20)) (fin (3 / 10)))
      [(⟨100, 110, 99, 105, 0, 60, 1⟩, fin 2), (⟨104, 104, 98, 99, 60, 120, 1⟩, fin 2),
        (⟨99, 112, 99, 111, 120, 180, 1⟩, fin 2)],
      e.reply = none ∧ e.after.state ≠ e.before.state := by decide +kernel
  obtain ⟨e, member, silent, changed⟩ := trace
  exact (always _ _ _ _ _ e member).changed.mpr changed silent

/-! ## Left as it is -/

section Unmoved

variable {t : PullbackTracker} {v : View} {c : Candle} {atr : ExtNum ℚ}

/-- A step leaves the leg as it is: it breaks a broken leg, passes an extreme that is already
there, or neither arms the leg nor deepens its retrace. -/
structure Still (t : PullbackTracker) (v : View) (atr : ExtNum ℚ) : Prop where
  broken : v.breaks = true → t.state = .broken
  extended : v.breaks = false → v.passes = true →
    t.state = .aligned ∧ t.retrace = none ∧ v.further = t.extreme
  unarmed : v.breaks = false → v.passes = false → ¬ Arms t v atr
  deepest : v.breaks = false → v.passes = false → t.state = .armed →
    ∃ retrace, t.retrace = some retrace ∧ v.deeper retrace v.back = retrace

/-- Whatever passes an extreme leaves the leg aligned. -/
theorem advance_passes_state (holds : v.breaks = false) (passes : v.passes = true) :
    (t.advance v atr).2.state = .aligned := by
  rw [advance, if_neg (by rw [holds]; decide), if_pos passes]
  split <;> rfl

theorem advance_still_iff (v : View) (atr : ExtNum ℚ) : (t.advance v atr).2 = t ↔ Still t v atr := by
  cases breaks : v.breaks with
  | true =>
      rw [advance_of_breaks breaks]
      have unheld : v.breaks ≠ false := by
        rw [breaks]
        decide
      constructor
      · intro same
        exact ⟨fun _ => (congrArg state same).symm, fun holds => absurd holds unheld,
          fun holds => absurd holds unheld, fun holds => absurd holds unheld⟩
      · intro still
        rw [← still.broken breaks]
  | false =>
  have unbroken : v.breaks = true → t.state = .broken := fun broken => by
    cases breaks.symm.trans broken
  cases passes : v.passes with
  | true =>
      have beyond : v.passes ≠ false := by
        rw [passes]
        decide
      constructor
      · intro same
        have aligned : t.state = .aligned := same ▸ advance_passes_state breaks passes
        rw [advance_of_extends breaks passes (by rw [aligned]; decide)] at same
        exact ⟨unbroken, fun _ _ => ⟨aligned, (congrArg retrace same).symm, congrArg extreme same⟩,
          fun _ within => absurd within beyond, fun _ within => absurd within beyond⟩
      · intro still
        obtain ⟨aligned, cleared, there⟩ := still.extended breaks passes
        rw [advance_of_extends breaks passes (by rw [aligned]; decide), there, ← aligned, ← cleared]
  | false =>
  have unpassed : v.breaks = false → v.passes = true →
      t.state = .aligned ∧ t.retrace = none ∧ v.further = t.extreme := fun _ passed => by
    cases passes.symm.trans passed
  by_cases armed : t.state = .armed
  · have unarmed : ¬ Arms t v atr := fun arms => by cases armed.symm.trans arms.aligned
    rw [advance_of_deepens breaks passes armed]
    constructor
    · intro same
      have kept : some ((t.retrace.map (v.deeper · v.back)).getD v.back) = t.retrace :=
        congrArg retrace same
      refine ⟨unbroken, unpassed, fun _ _ => unarmed, fun _ _ _ => ?_⟩
      cases from_ : t.retrace with
      | none =>
          rw [from_] at kept
          cases kept
      | some retrace =>
          rw [from_] at kept
          exact ⟨retrace, rfl, Option.some.inj kept⟩
    · intro still
      obtain ⟨retrace, from_, deepest⟩ := still.deepest breaks passes armed
      rw [from_, Option.map_some, Option.getD_some, deepest, ← from_]
  by_cases arms : Arms t v atr
  · rw [advance_of_arms breaks passes arms]
    exact iff_of_false (fun same => armed (congrArg state same).symm)
      fun still => still.unarmed breaks passes arms
  · rw [advance_of_idles breaks passes armed arms]
    exact iff_of_true rfl ⟨unbroken, unpassed, fun _ _ => arms, fun _ _ armed' => absurd armed' armed⟩

/-- A candle leaves the tracker as it is: the average range is the one it knows, and is not
positive, or the candle begins no leg and leaves the one there is still. -/
structure Unmoved (t : PullbackTracker) (c : Candle) (atr : ExtNum ℚ) : Prop where
  same : t.atr = atr
  unbegun : ¬ atr ≤ 0 → t.direction = .none_ → ¬ fin (1 / 2) * atr ≤ fin |c.close - c.open_|
  still : ¬ atr ≤ 0 → t.direction ≠ .none_ → Still t (t.view c atr) atr

/-- An update remembers its average range. -/
theorem update_atr (t : PullbackTracker) (c : Candle) (atr : ExtNum ℚ) :
    (t.update c atr).2.atr = atr := by
  have kept (t : PullbackTracker) (v : View) : (t.advance v atr).2.atr = t.atr := by
    have advanced := advance_advanced t v atr
    generalize t.advance v atr = out at advanced
    cases advanced with
    | resumed =>
        rename_i retrace _
        obtain ⟨depths, recorded⟩ := recordAlive_fields t (t.depth retrace)
        show (t.recordAlive (t.depth retrace)).atr = t.atr
        rw [recorded]
    | _ => rfl
  by_cases flat : atr ≤ 0
  · rw [update_idle t c flat]
  by_cases unbegun : t.direction = .none_
  · rw [update_unbegun unbegun c flat, begin_]
    split <;> rfl
  · rw [update_eq unbegun c flat, kept]

/-- **A candle changes nothing** exactly when it leaves the tracker unmoved. -/
theorem update_unmoved_iff (t : PullbackTracker) (c : Candle) (atr : ExtNum ℚ) :
    (t.update c atr).2 = t ↔ Unmoved t c atr := by
  by_cases same : t.atr = atr
  swap
  · exact iff_of_false (fun kept => same (kept ▸ t.update_atr c atr)) fun unmoved => same unmoved.same
  subst same
  by_cases flat : t.atr ≤ 0
  · rw [update_idle t c flat]
    exact iff_of_true rfl ⟨rfl, fun pos => absurd flat pos, fun pos => absurd flat pos⟩
  by_cases unbegun : t.direction = .none_
  · have unmoved : Unmoved t c t.atr ↔ ¬ fin (1 / 2) * t.atr ≤ fin |c.close - c.open_| :=
      ⟨fun unmoved => unmoved.unbegun flat unbegun,
        fun small => ⟨rfl, fun _ _ => small, fun _ begun => absurd unbegun begun⟩⟩
    rw [unmoved, update_unbegun unbegun c flat]
    by_cases begins : fin (1 / 2) * t.atr ≤ fin |c.close - c.open_|
    · refine iff_of_false (fun kept => ?_) (not_not.mpr begins)
      have direction := (congrArg direction kept).trans unbegun
      rw [begin_, if_pos begins] at direction
      revert direction
      dsimp only
      split <;> exact fun way => by cases way
    · rw [begin_, if_neg begins]
      exact iff_of_true rfl begins
  · rw [update_eq unbegun c flat]
    exact (advance_still_iff (t.view c t.atr) t.atr).trans
      ⟨fun still => ⟨rfl, fun _ none_ => absurd none_ unbegun, fun _ _ => still⟩,
        fun unmoved => unmoved.still flat unbegun⟩

end Unmoved

/-! ## Delivered again -/

section Redelivery

variable {t : PullbackTracker} {c : Candle} {atr : ExtNum ℚ}

/-- The candle leaves an aligned leg as it is: its close is not beyond the origin, and it does
not arm the leg unless it passes the extreme. -/
structure Steady (t : PullbackTracker) (c : Candle) (atr : ExtNum ℚ) : Prop where
  holds : (t.view c atr).breaks = false
  unarmed : (t.view c atr).passes = false → ¬ Arms t (t.view c atr) atr

/-- The tracker on another leg, aligned. -/
def along (t : PullbackTracker) (direction : Direction) (origin extreme : ℚ) :
    PullbackTracker :=
  { t with direction, origin, extreme, state := .aligned }

/-- Where a leg goes on from once its extreme is passed: the retrace of an armed pullback. -/
def pivot (t : PullbackTracker) : ℚ :=
  if t.state = .armed then t.retrace.getD t.origin else t.origin

/-- A candle that begins a leg is steady on it; another does not break its leg, and if it passes
the extreme it is steady on the leg that it leaves. -/
structure Settles (t : PullbackTracker) (c : Candle) (atr : ExtNum ℚ) : Prop where
  begins : t.direction = .none_ → fin (1 / 2) * atr ≤ fin |c.close - c.open_| →
    if c.open_ < c.close then Steady (t.along .up c.open_ c.high) c atr
    else Steady (t.along .down c.open_ c.low) c atr
  holds : t.direction ≠ .none_ → (t.view c atr).breaks = false
  passes : t.direction ≠ .none_ → (t.view c atr).passes = true →
    Steady (t.along t.direction t.pivot (t.view c atr).further) c atr

/-- What else a tracker holds does not matter to a steady candle. -/
theorem Steady.rest (steady : Steady t c atr) (retrace : Option ℚ) (depths : List ℚ)
    (atr' : ExtNum ℚ) :
    Steady { t with retrace, aliveDepths := depths, atr := atr' } c atr :=
  ⟨steady.holds, fun within arms => steady.unarmed within
    ⟨arms.aligned, arms.retreats, arms.impulse, arms.enough, arms.shallow⟩⟩

theorem steady_rest_iff {retrace : Option ℚ} {depths : List ℚ} {atr' : ExtNum ℚ} :
    Steady { t with retrace, aliveDepths := depths, atr := atr' } c atr ↔ Steady t c atr :=
  ⟨fun steady => steady.rest t.retrace t.aliveDepths t.atr,
    fun steady => steady.rest retrace depths atr'⟩

/-- The candle again, on a leg that it has just moved. -/
theorem update_self_iff (begun : t.direction ≠ .none_) (pos : ¬ atr ≤ 0)
    (aligned : t.state = .aligned) (cleared : t.retrace = none) (same : t.atr = atr)
    (moved : (t.view c atr).further = t.extreme) :
    t.update c atr = (none, t) ↔ Steady t c atr := by
  subst same
  rw [update_eq begun c pos]
  show t.advance (t.view c t.atr) t.atr = (none, t) ↔ _
  cases breaks : (t.view c t.atr).breaks with
  | true =>
      rw [advance_of_breaks breaks]
      refine iff_of_false (by simp) fun steady => ?_
      rw [steady.holds] at breaks
      cases breaks
  | false =>
  cases passes : (t.view c t.atr).passes with
  | true =>
      have unarmed : t.state ≠ .armed := by
        rw [aligned]
        decide
      rw [advance_of_extends breaks passes unarmed, moved, ← aligned, ← cleared]
      refine iff_of_true rfl ⟨breaks, fun within => ?_⟩
      rw [passes] at within
      cases within
  | false =>
      by_cases arms : Arms t (t.view c t.atr) t.atr
      · rw [advance_of_arms breaks passes arms]
        exact iff_of_false (by simp) fun steady => steady.unarmed passes arms
      · have unarmed : t.state ≠ .armed := by
          rw [aligned]
          decide
        rw [advance_of_idles breaks passes unarmed arms]
        exact iff_of_true rfl ⟨breaks, fun _ => arms⟩

/-- A retrace that took in the price of a candle is as deep as it. -/
theorem deeper_back (t : PullbackTracker) (c : Candle) (atr : ExtNum ℚ) (retrace : Option ℚ) :
    (t.view c atr).deeper
        ((retrace.map ((t.view c atr).deeper · (t.view c atr).back)).getD (t.view c atr).back)
        (t.view c atr).back =
      (retrace.map ((t.view c atr).deeper · (t.view c atr).back)).getD (t.view c atr).back := by
  unfold view
  split <;> cases retrace <;> simp [bullView, bearView]

/-- An armed pullback takes a candle in once. -/
theorem update_deepened {u : PullbackTracker} (begun : u.direction ≠ .none_) (pos : ¬ atr ≤ 0)
    (same : u.atr = atr) (holds : (u.view c atr).breaks = false)
    (within : (u.view c atr).passes = false) (armed : u.state = .armed) (retrace : Option ℚ)
    (from_ : u.retrace =
      some ((retrace.map ((u.view c atr).deeper · (u.view c atr).back)).getD (u.view c atr).back)) :
    u.update c atr = (none, u) := by
  subst same
  rw [update_eq begun c pos]
  show u.advance (u.view c u.atr) u.atr = (none, u)
  rw [advance_of_deepens holds within armed, from_]
  simp only [Option.map_some, Option.getD_some]
  rw [deeper_back, ← from_]

/-- A candle that neither breaks nor passes a leg does nothing the second time. -/
theorem update_within (begun : t.direction ≠ .none_) (pos : ¬ atr ≤ 0)
    (holds : (t.view c atr).breaks = false) (within : (t.view c atr).passes = false) :
    (t.update c atr).2.update c atr = (none, (t.update c atr).2) := by
  by_cases armed : t.state = .armed
  · have step : t.update c atr = (none, { t with
        atr
        retrace := some ((t.retrace.map ((t.view c atr).deeper · (t.view c atr).back)).getD
          (t.view c atr).back) }) :=
      (update_eq begun c pos).trans (advance_of_deepens holds within armed)
    rw [step]
    exact update_deepened begun pos rfl holds within armed t.retrace rfl
  by_cases arms : Arms { t with atr } (t.view c atr) atr
  · have step : t.update c atr = (some .armed, { t with
        atr, state := .armed, retrace := some (t.view c atr).back }) :=
      (update_eq begun c pos).trans (advance_of_arms holds within arms)
    rw [step]
    exact update_deepened begun pos rfl holds within rfl none rfl
  · have step : t.update c atr = (none, { t with atr }) :=
      (update_eq begun c pos).trans (advance_of_idles holds within armed arms)
    rw [step]
    exact (update_eq (t := { t with atr }) begun c pos).trans
      (advance_of_idles holds within armed arms)

/-- A candle that passes an extreme moves it as far as it will. -/
theorem further_moved (c : Candle) (atr : ExtNum ℚ) (up : t.direction = .up ∨ t.direction = .down)
    (origin : ℚ) :
    (((t.along t.direction origin (t.view c atr).further).view c atr).further) =
      (t.view c atr).further := by
  rcases up with up | down
  · simp [view, along, up, bullView]
  · simp [view, along, down, bearView]

theorem pivot_of_unarmed (unarmed : t.state ≠ .armed) : t.pivot = t.origin := if_neg unarmed

theorem pivot_of_armed (armed : t.state = .armed) {retrace : ℚ}
    (from_ : t.retrace = some retrace) : t.pivot = retrace := by
  rw [pivot, if_pos armed, from_]
  rfl

/-- The candle again, on the leg that it left. -/
theorem update_left_iff (direction : Direction) (origin extreme : ℚ) (depths : List ℚ)
    (begun : direction ≠ .none_) (pos : ¬ atr ≤ 0)
    (moved : ((t.along direction origin extreme).view c atr).further = extreme) :
    ({ t with direction, origin, extreme, state := .aligned, retrace := none
              aliveDepths := depths, atr } : PullbackTracker).update c atr =
        (none, { t with direction, origin, extreme, state := .aligned, retrace := none
                        aliveDepths := depths, atr }) ↔
      Steady (t.along direction origin extreme) c atr := by
  have again := update_self_iff (c := c)
    (t := { t with direction, origin, extreme, state := .aligned, retrace := none
                   aliveDepths := depths, atr }) begun pos rfl rfl rfl moved
  exact again.trans (steady_rest_iff (t := t.along direction origin extreme))

/-- A body that begins a leg is not flat. -/
theorem body_ne (pos : ¬ atr ≤ 0) (begins : fin (1 / 2) * atr ≤ fin |c.close - c.open_|) :
    c.close ≠ c.open_ := by
  intro flat
  rw [flat, sub_self, abs_zero] at begins
  cases atr with
  | nan => exact ExtNum.not_nan_le _ begins
  | posInf =>
      have scaled : (fin (1 / 2) * .posInf : ExtNum ℚ) = .posInf := if_pos (by norm_num)
      rw [scaled] at begins
      exact ExtNum.not_posInf_le_fin _ begins
  | negInf => exact pos trivial
  | fin a =>
      refine pos ?_
      have half : 1 / 2 * a ≤ 0 := begins
      show a ≤ 0
      linarith

/-- **Delivered again**: the same candle right after itself does nothing exactly when it
settles at once. -/
theorem update_again_iff (sound : Sound t) (pos : ¬ atr ≤ 0) :
    (t.update c atr).2.update c atr = (none, (t.update c atr).2) ↔ Settles t c atr := by
  by_cases unbegun : t.direction = .none_
  · obtain ⟨aligned, cleared⟩ := sound.fresh unbegun
    by_cases begins : fin (1 / 2) * atr ≤ fin |c.close - c.open_|
    · have settles : Settles t c atr ↔
          if c.open_ < c.close then Steady (t.along .up c.open_ c.high) c atr
          else Steady (t.along .down c.open_ c.low) c atr :=
        ⟨fun settles => settles.begins unbegun begins, fun steady =>
          ⟨fun _ _ => steady, absurd unbegun, absurd unbegun⟩⟩
      rw [settles, update_unbegun unbegun c pos, begin_]
      simp only [if_pos begins, sub_pos]
      by_cases up : c.open_ < c.close
      · simp only [if_pos up]
        have left := update_left_iff (t := t) (c := c) .up c.open_ c.high t.aliveDepths
          (by decide) pos (max_self _)
        rwa [← aligned, ← cleared] at left
      · simp only [if_neg up]
        have left := update_left_iff (t := t) (c := c) .down c.open_ c.low t.aliveDepths
          (by decide) pos (min_self _)
        rwa [← aligned, ← cleared] at left
    · have step : t.update c atr = (none, { t with atr }) := by
        rw [update_unbegun unbegun c pos, begin_]
        exact congrArg _ (if_neg begins)
      have again : ({ t with atr } : PullbackTracker).update c atr = (none, { t with atr }) := by
        rw [update_unbegun (t := { t with atr }) unbegun c pos, begin_]
        exact congrArg _ (if_neg begins)
      rw [step, again]
      exact iff_of_true rfl ⟨fun _ body => absurd body begins, absurd unbegun, absurd unbegun⟩
  by_cases breaks : (t.view c atr).breaks = true
  · have step : t.update c atr = (some .broken, { t with atr, state := .broken }) :=
      (update_eq unbegun c pos).trans (advance_of_breaks breaks)
    have again : ({ t with atr, state := .broken } : PullbackTracker).update c atr =
        (some .broken, { t with atr, state := .broken }) :=
      (update_eq (t := { t with atr, state := .broken }) unbegun c pos).trans
        (advance_of_breaks breaks)
    rw [step, again]
    refine iff_of_false (by simp) fun settles => ?_
    rw [settles.holds unbegun] at breaks
    cases breaks
  have holds := Bool.eq_false_of_not_eq_true breaks
  by_cases passes : (t.view c atr).passes = true
  · have settles : Settles t c atr ↔
        Steady (t.along t.direction t.pivot (t.view c atr).further) c atr :=
      ⟨fun settles => settles.passes unbegun passes,
        fun steady => ⟨fun none_ => absurd none_ unbegun, fun _ => holds, fun _ _ => steady⟩⟩
    have way : t.direction = .up ∨ t.direction = .down := by
      cases direction : t.direction with
      | none_ => exact absurd direction unbegun
      | up => exact .inl rfl
      | down => exact .inr rfl
    have left (depths : List ℚ) := update_left_iff _ _ _ depths unbegun pos
      (further_moved c atr way t.pivot)
    rw [settles]
    by_cases armed : t.state = .armed
    · obtain ⟨retrace, from_⟩ := sound.held armed
      obtain ⟨depths, recorded⟩ := recordAlive_fields { t with atr }
        (({ t with atr } : PullbackTracker).depth retrace)
      have step : t.update c atr = (some .resumed, { t with
          atr, state := .aligned, origin := t.pivot, extreme := (t.view c atr).further
          retrace := none, aliveDepths := depths }) := by
        have resumed : ({ t with atr } : PullbackTracker).advance (t.view c atr) atr = _ :=
          advance_of_resumes (t := { t with atr }) holds passes armed from_
        rw [recorded] at resumed
        rw [update_eq unbegun c pos, pivot_of_armed armed from_]
        exact resumed
      rw [step]
      exact left depths
    · have step : t.update c atr = (none, { t with
          atr, state := .aligned, extreme := (t.view c atr).further, retrace := none }) :=
        (update_eq unbegun c pos).trans (advance_of_extends holds passes armed)
      rw [step]
      have left := left t.aliveDepths
      rwa [pivot_of_unarmed armed] at left ⊢
  · have within := Bool.eq_false_of_not_eq_true passes
    exact iff_of_true (update_within unbegun pos holds within)
      ⟨fun none_ => absurd none_ unbegun, fun _ => holds, fun _ passed => absurd passed passes⟩

/-- A candle that settles is reported at most once, however often it is delivered. -/
theorem settles_replicate (sound : Sound t) (pos : ¬ atr ≤ 0) (settles : Settles t c atr)
    (n : ℕ) :
    machine.trace t (List.replicate (n + 1) (c, atr)) =
      machine.event t (c, atr) ::
        List.replicate n ⟨(t.update c atr).2, (c, atr), none, (t.update c atr).2⟩ := by
  have again := (update_again_iff sound pos).mpr settles
  have rest (n : ℕ) : machine.trace (t.update c atr).2 (List.replicate n (c, atr)) =
      List.replicate n ⟨(t.update c atr).2, (c, atr), none, (t.update c atr).2⟩ := by
    induction n with
    | zero => rfl
    | succ n ih =>
        have event : machine.event (t.update c atr).2 (c, atr) =
            ⟨(t.update c atr).2, (c, atr), none, (t.update c atr).2⟩ := by
          show Event.mk _ _ ((t.update c atr).2.update c atr).1
            ((t.update c atr).2.update c atr).2 = _
          rw [again]
        have next : (machine.step (t.update c atr).2 (c, atr)).2 = (t.update c atr).2 := by
          show ((t.update c atr).2.update c atr).2 = _
          rw [again]
        rw [List.replicate_succ, List.replicate_succ, Machine.trace, event, next, ih]
  rw [List.replicate_succ, Machine.trace]
  exact congrArg _ (rest n)

/-- **A candle delivered again is harmless exactly when it settles**: whatever the methods made
of the tracker, the same candle with the same positive average range changes nothing and is not
reported the second time, if and only if it does not break its leg, and is steady on the leg
that it begins or, passing an extreme, leaves. -/
theorem redelivered_iff (reached : Reached t) (c : Candle) (positive : 0 < atr) :
    (t.update c atr).2.update c atr = (none, (t.update c atr).2) ↔ Settles t c atr :=
  update_again_iff reached.sound (ExtNum.not_le_of_lt positive)

end Redelivery

/-- Satisfiable pole: a candle that begins a leg of the default tracker, its low under its
open. -/
theorem begun_once :
    (default_.update ⟨100, 110, 99, 105, 0, 60, 1⟩ (fin 2)).2.update
        ⟨100, 110, 99, 105, 0, 60, 1⟩ (fin 2) =
      (none, (default_.update ⟨100, 110, 99, 105, 0, 60, 1⟩ (fin 2)).2) := by
  refine (redelivered_iff (.new _ _ _ _) _ (by decide +kernel)).mpr
    ⟨fun _ _ => ?_, absurd rfl, absurd rfl⟩
  rw [if_pos (by decide +kernel)]
  exact ⟨by decide +kernel, fun _ arms => absurd arms.shallow (by decide +kernel)⟩

/-- Refuting pole: a leg of ten, and a candle that closes under its origin, reported as often as
it is delivered. -/
theorem broken_reported_again :
    ¬ ∀ (t : PullbackTracker), Reached t → ∀ (c : Candle) (atr : ExtNum ℚ), 0 < atr →
      (t.update c atr).2.update c atr = (none, (t.update c atr).2) := by
  intro always
  have again := congrArg Prod.fst (always (default_.update ⟨100, 110, 99, 105, 0, 60, 1⟩ (fin 2)).2
    (.update (.new _ _ _ _) _ _) ⟨104, 104, 98, 99, 60, 120, 1⟩ (fin 2) (by decide +kernel))
  exact absurd again (by decide +kernel)

end PullbackTracker

end CentaurApex.Cortex
