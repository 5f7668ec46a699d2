/-
# Cortex.Swings -- what the swings of a history can be

The swing detector has one candle after the other move a pivot or confirm it
(`Zigzag.Stepped`).  Two things bound what it can report:

* **Separation** (`separated`): the last high and the last low are apart by the
  least reversal, so no band that holds both is narrower;
* **Thrift** (`lows_le`): a low costs a reversal of true range, but for one a candle
  before the window the average range is taken over.
-/
import CentaurApex.Cortex.MarketContext
import Mathlib.Algebra.Order.Floor.Ring
import Mathlib.Tactic.Linarith

namespace CentaurApex.Cortex

open CentaurApex.Theory
open CentaurApex.Theory.ExtNum (fin)
open CentaurApex.Theory.Python

set_option autoImplicit false

/-- A candle as it is built from prices: see `CandleAggregator.Sound.feedAll`. -/
structure Candle.Sound (c : Candle) : Prop where
  positive : 0 < c.low
  low_open : c.low ≤ c.open_
  open_high : c.open_ ≤ c.high
  low_close : c.low ≤ c.close
  close_high : c.close ≤ c.high

theorem Candle.Sound.low_high {c : Candle} (sound : c.Sound) : c.low ≤ c.high :=
  sound.low_close.trans sound.close_high

namespace CandleAggregator

/-- The candle being formed, if there is one, is sound. -/
def Sound (agg : CandleAggregator) : Prop :=
  agg.bucketOpen ≠ none → ∀ opened closed, (agg.candle opened closed).Sound

theorem sound_restart (agg : CandleAggregator) {bucket price : ℚ} (pos : 0 < price) :
    ((agg.restart bucket price).count price).Sound := fun _ _ _ =>
  ⟨lt_min pos pos, min_le_left _ _, le_max_left _ _, min_le_right _ _, le_max_right _ _⟩

theorem Sound.count {agg : CandleAggregator} (sound : agg.Sound) {price : ℚ} (pos : 0 < price) :
    (agg.count price).Sound := fun formed opened closed =>
  have before := sound formed opened closed
  ⟨lt_min before.positive pos, min_le_of_left_le before.low_open,
    le_max_of_le_left before.open_high, min_le_right _ _, le_max_right _ _⟩

theorem Sound.feed {agg fed : CandleAggregator} (sound : agg.Sound) {price ts : ExtNum ℚ}
    {closed : Option Candle} (ok : agg.feed price ts = .ok (closed, fed)) :
    (∀ c ∈ closed, c.Sound) ∧ fed.Sound := by
  unfold CandleAggregator.feed at ok
  split at ok
  · rename_i price
    split at ok
    · cases ok
      exact ⟨fun _ none_ => (by cases none_), sound⟩
    · rename_i pos
      have pos := not_le.mp pos
      split at ok
      · cases ok
      · split at ok
        · cases ok
          exact ⟨fun _ none_ => (by cases none_), sound_restart agg pos⟩
        · rename_i opened formed
          split at ok
          · cases ok
            refine ⟨fun c member => ?_, sound_restart agg pos⟩
            obtain rfl := Option.some.inj member
            exact sound (by rw [formed]; exact Option.some_ne_none _) opened _
          · cases ok
            exact ⟨fun _ none_ => (by cases none_), sound.count pos⟩
  · cases ok
    exact ⟨fun _ none_ => (by cases none_), sound⟩

/-- Every candle that a stream of ticks closes is sound. -/
theorem Sound.feedAll {agg last : CandleAggregator} (sound : agg.Sound) {ticks : List PriceTick}
    {candles : List Candle} (ok : agg.feedAll ticks = .ok (candles, last)) :
    ∀ c ∈ candles, c.Sound := by
  induction ticks generalizing agg candles with
  | nil =>
      cases ok
      exact fun _ none_ => (by cases none_)
  | cons tick ticks ih =>
      unfold CandleAggregator.feedAll at ok
      split at ok
      · cases ok
      · rename_i closed fed here
        obtain ⟨first, sound⟩ := sound.feed here
        split at ok
        · cases ok
        · rename_i others last later
          cases ok
          intro c member
          rcases List.mem_append.mp member with member | member
          · exact first c (Option.mem_toList.mp member)
          · exact ih sound later c member

end CandleAggregator

namespace Zigzag

/-! ## One step -/

section Step

/-- The upper pivot, moved up by the candle. -/
def peak (z : Zigzag) (c : Candle) : ℚ := (z.pivotHigh.map (max · c.high)).getD c.high

/-- The lower pivot, moved down by the candle. -/
def trough (z : Zigzag) (c : Candle) : ℚ := (z.pivotLow.map (min · c.low)).getD c.low

theorem high_le_peak (z : Zigzag) (c : Candle) : c.high ≤ z.peak c := by
  unfold peak
  cases z.pivotHigh with
  | none => exact le_rfl
  | some h => exact le_max_right _ _

theorem trough_le_low (z : Zigzag) (c : Candle) : z.trough c ≤ c.low := by
  unfold trough
  cases z.pivotLow with
  | none => exact le_rfl
  | some l => exact min_le_right _ _

/-- Everything a candle can do to the swings. -/
inductive Stepped (m : ℚ) (i : ℕ) (c : Candle) (z : Zigzag) : Zigzag → Prop
  | bounce (open_ : z.direction ≠ .down) (far : m ≤ z.peak c - c.low)
      (wide : m ≤ c.high - c.low) :
      Stepped m i c z
        ⟨.up, some c.high, none, z.swings ++ [⟨.high, z.peak c, i⟩, ⟨.low, c.low, i⟩]⟩
  | drop (open_ : z.direction ≠ .down) (far : m ≤ z.peak c - c.low)
      (narrow : c.high - c.low < m) :
      Stepped m i c z ⟨.down, none, some c.low, z.swings ++ [⟨.high, z.peak c, i⟩]⟩
  | climb (up : z.direction = .up) (near : z.peak c - c.low < m) :
      Stepped m i c z { z with pivotHigh := some (z.peak c) }
  | rise (open_ : z.direction ≠ .up) (far : m ≤ c.high - z.trough c)
      (near : z.direction = .none_ → z.peak c - c.low < m) :
      Stepped m i c z ⟨.up, some c.high, none, z.swings ++ [⟨.low, z.trough c, i⟩]⟩
  | sink (down : z.direction = .down) (near : c.high - z.trough c < m) :
      Stepped m i c z { z with pivotLow := some (z.trough c) }
  | wait (open_ : z.direction = .none_) (near : z.peak c - c.low < m)
      (near' : c.high - z.trough c < m) :
      Stepped m i c z { z with pivotHigh := some (z.peak c), pivotLow := some (z.trough c) }

section Seek

variable {m : ℚ} {i : ℕ} {c : Candle} {z : Zigzag}

theorem seekHigh_far (open_ : z.direction ≠ .down) (far : m ≤ z.peak c - c.low) :
    z.seekHigh (fin m) i c = ⟨.down, none, some c.low, z.swings ++ [⟨.high, z.peak c, i⟩]⟩ := by
  have reached : (fin m : ExtNum ℚ) ≤ fin (z.peak c - c.low) := far
  rw [seekHigh, if_pos open_]
  exact if_pos reached

theorem seekHigh_near (open_ : z.direction ≠ .down) (near : z.peak c - c.low < m) :
    z.seekHigh (fin m) i c = { z with pivotHigh := some (z.peak c) } := by
  have short : ¬ (fin m : ExtNum ℚ) ≤ fin (z.peak c - c.low) := not_le.mpr near
  rw [seekHigh, if_pos open_]
  exact if_neg short

theorem seekHigh_down (down : z.direction = .down) : z.seekHigh (fin m) i c = z :=
  if_neg (not_not.mpr down)

theorem seekLow_far (open_ : z.direction ≠ .up) (far : m ≤ c.high - z.trough c) :
    z.seekLow (fin m) i c =
      ⟨.up, some c.high, none, z.swings ++ [⟨.low, z.trough c, i⟩]⟩ := by
  have reached : (fin m : ExtNum ℚ) ≤ fin (c.high - z.trough c) := far
  rw [seekLow, if_pos open_]
  exact if_pos reached

theorem seekLow_near (open_ : z.direction ≠ .up) (near : c.high - z.trough c < m) :
    z.seekLow (fin m) i c = { z with pivotLow := some (z.trough c) } := by
  have short : ¬ (fin m : ExtNum ℚ) ≤ fin (c.high - z.trough c) := not_le.mpr near
  rw [seekLow, if_pos open_]
  exact if_neg short

theorem seekLow_up (up : z.direction = .up) : z.seekLow (fin m) i c = z :=
  if_neg (not_not.mpr up)

end Seek

theorem step_stepped (m : ℚ) (i : ℕ) (c : Candle) (z : Zigzag) :
    Stepped m i c z (z.step (fin m) i c) := by
  unfold step
  by_cases down : z.direction = .down
  · have notUp : z.direction ≠ .up := by rw [down]; decide
    rw [seekHigh_down down]
    rcases le_or_gt m (c.high - z.trough c) with far | near
    · rw [seekLow_far notUp far]
      exact .rise notUp far fun none_ => by rw [down] at none_; cases none_
    · rw [seekLow_near notUp near]
      exact .sink down near
  · rcases le_or_gt m (z.peak c - c.low) with far | near
    · rw [seekHigh_far down far]
      -- the candle that confirms the high begins the lower pivot
      have trough_ : (Zigzag.mk .down none (some c.low)
          (z.swings ++ [⟨.high, z.peak c, i⟩])).trough c = c.low := min_self _
      have notUp : Direction.down ≠ .up := by decide
      rcases le_or_gt m (c.high - c.low) with wide | narrow
      · rw [seekLow_far notUp (by rw [trough_]; exact wide), trough_, List.append_assoc]
        exact .bounce down far wide
      · rw [seekLow_near notUp (by rw [trough_]; exact narrow), trough_]
        exact .drop down far narrow
    · rw [seekHigh_near down near]
      by_cases up : z.direction = .up
      · have kept : seekLow (fin m) i c { z with pivotHigh := some (z.peak c) } =
            { z with pivotHigh := some (z.peak c) } := seekLow_up up
        rw [kept]
        exact .climb up near
      · have none_ : z.direction = .none_ := by
          cases direction : z.direction with
          | none_ => rfl
          | up => exact absurd direction up
          | down => exact absurd direction down
        rcases le_or_gt m (c.high - z.trough c) with far' | near'
        · have risen : seekLow (fin m) i c { z with pivotHigh := some (z.peak c) } =
              ⟨.up, some c.high, none, z.swings ++ [⟨.low, z.trough c, i⟩]⟩ := seekLow_far up far'
          rw [risen]
          exact .rise up far' fun _ => near
        · have waited : seekLow (fin m) i c { z with pivotHigh := some (z.peak c) } =
              { z with pivotHigh := some (z.peak c), pivotLow := some (z.trough c) } :=
            seekLow_near up near'
          rw [waited]
          exact .wait none_ near near'

end Step

/-! ## Runs -/

theorem run_append (minMove : ExtNum ℚ) (i : ℕ) (z : Zigzag) (candles later : List Candle) :
    run minMove i z (candles ++ later) =
      run minMove (i + candles.length) (run minMove i z candles) later := by
  induction candles generalizing i z with
  | nil => rfl
  | cons c candles ih =>
      rw [List.cons_append, run, run, ih, List.length_cons, Nat.add_right_comm, Nat.add_assoc]

/-- A reversal that no price move reaches confirms no swing. -/
theorem run_unreached {minMove : ExtNum ℚ} (unreached : ∀ x : ℚ, ¬ minMove ≤ fin x) (i : ℕ)
    (z : Zigzag) (candles : List Candle) : (run minMove i z candles).swings = z.swings := by
  induction candles generalizing i z with
  | nil => rfl
  | cons c candles ih =>
      rw [Zigzag.run, ih, Zigzag.step, Zigzag.seekLow, Zigzag.seekHigh]
      simp only [unreached, if_false]
      split <;> split <;> rfl

def highs (z : Zigzag) : List ℚ := prices .high z.swings

def lows (z : Zigzag) : List ℚ := prices .low z.swings

theorem prices_append (kind : SwingKind) (swings others : List Swing) :
    prices kind (swings ++ others) = prices kind swings ++ prices kind others := by
  simp [prices]

section Prices

variable (d : Direction) (a b : Option ℚ) (swings : List Swing) (h l : ℚ) (i : ℕ)

@[simp] theorem highs_high :
    highs ⟨d, a, b, swings ++ [⟨.high, h, i⟩]⟩ = prices .high swings ++ [h] :=
  prices_append _ _ _

@[simp] theorem highs_low : highs ⟨d, a, b, swings ++ [⟨.low, l, i⟩]⟩ = prices .high swings :=
  (prices_append _ _ _).trans (List.append_nil _)

@[simp] theorem highs_both :
    highs ⟨d, a, b, swings ++ [⟨.high, h, i⟩, ⟨.low, l, i⟩]⟩ = prices .high swings ++ [h] :=
  prices_append _ _ _

@[simp] theorem lows_high : lows ⟨d, a, b, swings ++ [⟨.high, h, i⟩]⟩ = prices .low swings :=
  (prices_append _ _ _).trans (List.append_nil _)

@[simp] theorem lows_low :
    lows ⟨d, a, b, swings ++ [⟨.low, l, i⟩]⟩ = prices .low swings ++ [l] :=
  prices_append _ _ _

@[simp] theorem lows_both :
    lows ⟨d, a, b, swings ++ [⟨.high, h, i⟩, ⟨.low, l, i⟩]⟩ = prices .low swings ++ [l] :=
  prices_append _ _ _

end Prices

theorem length_swings (swings : List Swing) :
    swings.length = (prices .high swings).length + (prices .low swings).length := by
  induction swings with
  | nil => rfl
  | cons swing swings ih =>
      obtain ⟨kind, price, index⟩ := swing
      cases kind <;> simp [prices] at ih ⊢ <;> omega

/-! ## The number of swings -/

section Counted

variable {m : ℚ} {i k : ℕ} {c : Candle} {z z' : Zigzag}

/-- The low that a leg not upward will end in. -/
def pending (z : Zigzag) : ℕ := if z.direction = .up then 0 else 1

/-- The high that a downward leg began at. -/
def falling (z : Zigzag) : ℕ := if z.direction = .down then 1 else 0

/-- Highs and lows alternate, and a low takes a candle; where a low came first, the
candle before it had none. -/
structure Counted (k : ℕ) (z : Zigzag) : Prop where
  begun : z.direction = .none_ → z.swings = []
  paired : z.highs.length = z.lows.length + z.falling ∧ z.lows.length + z.pending ≤ k ∨
    z.highs.length + 1 = z.lows.length + z.falling ∧ z.lows.length + z.pending + 1 ≤ k

theorem Counted.step (stepped : Stepped m i c z z') (before : Counted k z) :
    Counted (k + 1) z' := by
  have empty := before.begun
  have paired := before.paired
  unfold highs lows at paired
  cases stepped with
  | bounce notDown =>
      refine ⟨fun none_ => (by cases none_), ?_⟩
      simp [falling, pending, notDown] at paired ⊢
      omega
  | drop notDown =>
      refine ⟨fun none_ => (by cases none_), ?_⟩
      simp [falling, pending, notDown] at paired ⊢
      split at paired <;> omega
  | rise notUp =>
      refine ⟨fun none_ => (by cases none_), ?_⟩
      cases direction : z.direction with
      | up => exact absurd direction notUp
      | none_ =>
          rw [empty direction] at paired ⊢
          simp [falling, pending, direction, prices, highs, lows] at paired ⊢
          omega
      | down =>
          simp [falling, pending, direction] at paired ⊢
          omega
  | climb => exact ⟨empty, paired.imp (.imp_right .step) (.imp_right .step)⟩
  | sink => exact ⟨empty, paired.imp (.imp_right .step) (.imp_right .step)⟩
  | wait => exact ⟨empty, paired.imp (.imp_right .step) (.imp_right .step)⟩

/-- The first candle has no low alone: it would have to be wide, and then its high is
confirmed before it. -/
theorem Counted.first (stepped : Stepped m i c start z') : Counted 1 z' := by
  have none_ (kind : SwingKind) : prices kind start.swings = [] := rfl
  cases stepped with
  | bounce => exact ⟨fun none_ => (by cases none_), by simp [falling, pending, none_]⟩
  | drop => exact ⟨fun none_ => (by cases none_), by simp [falling, pending, none_]⟩
  | rise _ far near => exact absurd (near rfl) (not_lt.mpr far)
  | climb up => cases up
  | sink down => cases down
  | wait => exact ⟨fun _ => rfl, .inl ⟨rfl, le_rfl⟩⟩

theorem Counted.run (counted : Counted k z) (i : ℕ) (candles : List Candle) :
    Counted (k + candles.length) (run (fin m) i z candles) := by
  induction candles generalizing i k z with
  | nil => exact counted
  | cons c candles ih =>
      have after := ih (counted.step (step_stepped m i c z)) (i + 1)
      rwa [Nat.add_assoc, Nat.add_comm 1] at after

/-- Of a history of candles: the number of lows, the one to come included, is at most
that of the candles. -/
theorem counted {candles : List Candle} (some_ : candles ≠ []) :
    Counted candles.length (Zigzag.run (fin m) 0 start candles) := by
  cases candles with
  | nil => exact absurd rfl some_
  | cons c candles =>
      have after := (Counted.first (step_stepped m 0 c start)).run (m := m) 1 candles
      rwa [Nat.add_comm 1] at after

end Counted

/-! ## What a low costs -/

section Cost

variable {m : ℚ} {i : ℕ} {c : Candle} {close : ℚ} {z z' : Zigzag}

/-- The last close of a history that followed one at `close`. -/
def lastClose : ℚ → List Candle → ℚ
  | close, [] => close
  | _, c :: candles => lastClose c.close candles

/-- How far the last close is above the lower pivot. -/
def owed (close : ℚ) (z : Zigzag) : ℚ := (z.pivotLow.map (close - ·)).getD 0

/-- There is a lower pivot in a leg that is not upward, less than a reversal below the
last close. -/
structure Tracked (m close : ℚ) (z : Zigzag) : Prop where
  up : z.direction = .up → z.pivotLow = none
  le : ∀ l ∈ z.pivotLow, l ≤ close
  near : ∀ l ∈ z.pivotLow, close - l < m

theorem tracked_start : Tracked m close start :=
  ⟨fun _ => rfl, fun _ none_ => (by cases none_), fun _ none_ => (by cases none_)⟩

theorem Tracked.step (sound : c.Sound) (stepped : Stepped m i c z z')
    (before : Tracked m close z) : Tracked m c.close z' := by
  have low := sound.low_close
  have high := sound.close_high
  have trough := z.trough_le_low c
  cases stepped with
  | bounce =>
      exact ⟨fun _ => rfl, fun _ none_ => (by cases none_), fun _ none_ => (by cases none_)⟩
  | rise => exact ⟨fun _ => rfl, fun _ none_ => (by cases none_), fun _ none_ => (by cases none_)⟩
  | drop open_ far narrow =>
      refine ⟨fun up => (by cases up), fun l member => ?_, fun l member => ?_⟩
      all_goals
        obtain rfl := Option.some.inj member
        linarith
  | climb up near =>
      have none_ := before.up up
      refine ⟨fun _ => none_, fun l member => ?_, fun l member => ?_⟩
      all_goals
        rw [none_] at member
        cases member
  | sink down near =>
      have notUp : z.direction ≠ .up := by rw [down]; decide
      refine ⟨fun up => absurd up notUp, fun l member => ?_, fun l member => ?_⟩
      all_goals
        obtain rfl := Option.some.inj member
        linarith
  | wait none_ near near' =>
      have notUp : z.direction ≠ .up := by rw [none_]; decide
      refine ⟨fun up => absurd up notUp, fun l member => ?_, fun l member => ?_⟩
      all_goals
        obtain rfl := Option.some.inj member
        linarith

theorem Tracked.owed_nonneg (tracked : Tracked m close z) : 0 ≤ z.owed close := by
  unfold owed
  cases pivot : z.pivotLow with
  | none => exact le_rfl
  | some l => exact sub_nonneg.mpr (tracked.le l pivot)

/-- What is owed for a low to come is less than its price. -/
theorem Tracked.owed_le (tracked : Tracked m close z) (pos : 0 ≤ m) :
    z.owed close ≤ z.pending * m := by
  by_cases up : z.direction = .up
  · rw [owed, tracked.up up, pending, if_pos up]
    simp
  · rw [owed, pending, if_neg up]
    cases pivot : z.pivotLow with
    | none => simpa using pos
    | some l => simpa using (tracked.near l pivot).le

theorem width_le_trueRange (close : ℚ) (c : Candle) : c.high - c.low ≤ trueRange close c :=
  le_max_left _ _

theorem climb_le_trueRange (close : ℚ) (c : Candle) : c.high - close ≤ trueRange close c :=
  (le_abs_self _).trans ((le_max_left _ _).trans (le_max_right _ _))

/-- A low, and what is owed for the next, is paid in true range. -/
theorem paid_step (sound : c.Sound) (tracked : Tracked m close z) (stepped : Stepped m i c z z') :
    z'.lows.length * m + z'.owed c.close ≤
      z.lows.length * m + z.owed close + trueRange close c := by
  have width := width_le_trueRange close c
  have climb := climb_le_trueRange close c
  have owed_ := tracked.owed_nonneg
  have low := sound.low_close
  have high := sound.close_high
  -- the price has come up from the trough: within the candle, or since the leg's low
  have reach : c.high - z.trough c ≤ z.owed close + trueRange close c := by
    unfold trough owed
    unfold owed at owed_
    cases pivot : z.pivotLow with
    | none => simpa using width
    | some l =>
        rw [pivot] at owed_
        simp only [Option.map_some, Option.getD_some] at owed_ ⊢
        rcases min_cases l c.low with ⟨pivot, -⟩ | ⟨pivot, -⟩ <;> rw [pivot] <;> linarith
  cases stepped with
  | bounce open_ far wide =>
      simp only [lows_both, List.length_append, List.length_singleton, Nat.cast_add, Nat.cast_one,
        owed, Option.map_none, Option.getD_none]
      unfold lows
      unfold owed at owed_
      linarith
  | drop open_ far narrow =>
      simp only [lows_high, owed, Option.map_some, Option.getD_some]
      unfold lows
      unfold owed at owed_
      linarith
  | climb up near =>
      have range : 0 ≤ trueRange close c := (sub_nonneg.mpr sound.low_high).trans width
      have none_ : z.pivotLow = none := tracked.up up
      simp only [lows, owed, none_, Option.map_none, Option.getD_none]
      linarith
  | rise open_ far near =>
      simp only [lows_low, List.length_append, List.length_singleton, Nat.cast_add, Nat.cast_one,
        owed, Option.map_none, Option.getD_none]
      unfold lows
      unfold owed at reach
      linarith
  | sink down near =>
      show (z.lows.length : ℚ) * m + (c.close - z.trough c) ≤ _
      linarith
  | wait none_ near near' =>
      show (z.lows.length : ℚ) * m + (c.close - z.trough c) ≤ _
      linarith

theorem paid_run {candles : List Candle} (sound : ∀ c ∈ candles, c.Sound)
    (tracked : Tracked m close z) (i : ℕ) :
    (run (fin m) i z candles).lows.length * m ≤
      z.lows.length * m + z.owed close + (trueRanges close candles).sum := by
  induction candles generalizing i close z with
  | nil =>
      have owed_ := tracked.owed_nonneg
      simp only [run, trueRanges, List.sum_nil]
      linarith
  | cons c candles ih =>
      obtain ⟨here, others⟩ := List.forall_mem_cons.mp sound
      have stepped := step_stepped m i c z
      have paid := paid_step here tracked stepped
      have later := ih others (tracked.step here stepped) (i + 1)
      simp only [run, trueRanges, List.sum_cons]
      linarith

theorem Tracked.run {candles : List Candle} (sound : ∀ c ∈ candles, c.Sound)
    (tracked : Tracked m close z) (i : ℕ) :
    Tracked m (lastClose close candles) (run (fin m) i z candles) := by
  induction candles generalizing i close z with
  | nil => exact tracked
  | cons c candles ih =>
      obtain ⟨here, others⟩ := List.forall_mem_cons.mp sound
      exact ih others (tracked.step here (step_stepped m i c z)) (i + 1)

/-- **Thrift.**  A low costs a reversal of true range, but for one a candle. -/
theorem lows_le {older window : List Candle} (some_ : older ≠ [])
    (sound : ∀ c ∈ older ++ window, c.Sound) (pos : 0 ≤ m) :
    (Zigzag.run (fin m) 0 start (older ++ window)).lows.length * m ≤
      older.length * m + (trueRanges (lastClose 0 older) window).sum := by
  obtain ⟨soundOlder, soundWindow⟩ := List.forall_mem_append.mp sound
  have tracked : Tracked m (lastClose 0 older) (Zigzag.run (fin m) 0 start older) :=
    tracked_start.run soundOlder 0
  have paid := paid_run soundWindow tracked (0 + older.length)
  have owed_ := tracked.owed_le pos
  have many : (Zigzag.run (fin m) 0 start older).lows.length +
      (Zigzag.run (fin m) 0 start older).pending ≤ older.length := by
    rcases (counted (m := m) some_).paired with ⟨-, many⟩ | ⟨-, many⟩ <;> omega
  have cost : ((Zigzag.run (fin m) 0 start older).lows.length : ℚ) * m +
      (Zigzag.run (fin m) 0 start older).pending * m ≤ older.length * m := by
    rw [← add_mul]
    exact mul_le_mul_of_nonneg_right (by exact_mod_cast many) pos
  rw [run_append]
  linarith

end Cost

/-! ## How far apart they are -/

section Apart

variable {m : ℚ} {i : ℕ} {c : Candle} {z z' : Zigzag}

/-- The last high and the last low are a reversal apart, and so is a leg's pivot from
the swing it began at. -/
structure Apart (m : ℚ) (z : Zigzag) : Prop where
  begun : z.direction = .none_ → z.swings = []
  swings : ∀ h ∈ z.highs.getLast?, ∀ l ∈ z.lows.getLast?, l + m ≤ h
  up : z.direction = .up → ∃ h, z.pivotHigh = some h ∧ ∀ l ∈ z.lows.getLast?, l + m ≤ h
  down : z.direction = .down → ∃ l, z.pivotLow = some l ∧ ∀ h ∈ z.highs.getLast?, l + m ≤ h

theorem pivot_le_peak {h : ℚ} (pivot : z.pivotHigh = some h) : h ≤ z.peak c := by
  rw [peak, pivot]
  exact le_max_left _ _

theorem trough_le_pivot {l : ℚ} (pivot : z.pivotLow = some l) : z.trough c ≤ l := by
  rw [trough, pivot]
  exact min_le_left _ _

theorem apart_start : Apart m start :=
  ⟨fun _ => rfl, fun _ none_ => (by cases none_), fun up => (by cases up),
    fun down => (by cases down)⟩

theorem Apart.step (before : Apart m z) (stepped : Stepped m i c z z') : Apart m z' := by
  cases stepped with
  | bounce open_ far wide =>
      refine ⟨fun none_ => (by cases none_), ?_, fun _ => ⟨c.high, rfl, ?_⟩,
        fun down => (by cases down)⟩
      · simp only [highs_both, lows_both, List.getLast?_append_cons, List.getLast?_singleton,
          Option.mem_some_iff, forall_eq']
        linarith
      · simp only [lows_both, List.getLast?_append_cons, List.getLast?_singleton,
          Option.mem_some_iff, forall_eq']
        linarith
  | drop open_ far narrow =>
      refine ⟨fun none_ => (by cases none_), ?_, fun up => (by cases up),
        fun _ => ⟨c.low, rfl, ?_⟩⟩
      · simp only [highs_high, lows_high, List.getLast?_append_cons, List.getLast?_singleton,
          Option.mem_some_iff, forall_eq']
        intro l last
        cases direction : z.direction with
        | none_ =>
            rw [before.begun direction] at last
            cases last
        | up =>
            obtain ⟨h, pivot, above⟩ := before.up direction
            exact (above l last).trans (pivot_le_peak pivot)
        | down => exact absurd direction open_
      · simp only [highs_high, List.getLast?_append_cons, List.getLast?_singleton,
          Option.mem_some_iff, forall_eq']
        linarith
  | climb up near =>
      obtain ⟨h, pivot, above⟩ := before.up up
      refine ⟨before.begun, before.swings,
        fun _ => ⟨z.peak c, rfl, fun l last => (above l last).trans (pivot_le_peak pivot)⟩,
        fun down => (by rw [show z.direction = .down from down] at up; cases up)⟩
  | rise open_ far near =>
      refine ⟨fun none_ => (by cases none_), ?_, fun _ => ⟨c.high, rfl, ?_⟩,
        fun down => (by cases down)⟩
      · simp only [highs_low, lows_low, List.getLast?_append_cons, List.getLast?_singleton,
          Option.mem_some_iff, forall_eq']
        intro h last
        cases direction : z.direction with
        | none_ =>
            rw [before.begun direction] at last
            cases last
        | up => exact absurd direction open_
        | down =>
            obtain ⟨l, pivot, below⟩ := before.down direction
            have deeper := trough_le_pivot (c := c) pivot
            have apart := below h last
            linarith
      · simp only [lows_low, List.getLast?_append_cons, List.getLast?_singleton,
          Option.mem_some_iff, forall_eq']
        linarith
  | sink down near =>
      obtain ⟨l, pivot, below⟩ := before.down down
      refine ⟨before.begun, before.swings,
        fun up => (by rw [show z.direction = .up from up] at down; cases down),
        fun _ => ⟨z.trough c, rfl, fun h last => ?_⟩⟩
      have deeper := trough_le_pivot (c := c) pivot
      have apart := below h last
      linarith
  | wait none_ near near' =>
      exact ⟨before.begun, before.swings,
        fun up => (by rw [show z.direction = .up from up] at none_; cases none_),
        fun down => (by rw [show z.direction = .down from down] at none_; cases none_)⟩

theorem Apart.run (apart : Apart m z) (i : ℕ) (candles : List Candle) :
    Apart m (run (fin m) i z candles) := by
  induction candles generalizing i z with
  | nil => exact apart
  | cons c candles ih => exact ih (apart.step (step_stepped m i c z)) (i + 1)

/-- **Separation.**  Between the last high and the last low of a history there is a
reversal. -/
theorem separated {candles : List Candle} {h l : ℚ}
    (high : (Zigzag.run (fin m) 0 start candles).highs.getLast? = some h)
    (low : (Zigzag.run (fin m) 0 start candles).lows.getLast? = some l) : l + m ≤ h :=
  (apart_start.run 0 candles).swings h high l low

end Apart

/-! ## Histories with two swings a candle -/

section Crowded

variable {m : ℚ} {i : ℕ} {c f g : Candle} {close : ℚ} {z z' : Zigzag}

theorem length_step_le (stepped : Stepped m i c z z') :
    z'.swings.length ≤ z.swings.length + 2 := by
  cases stepped with
  | bounce => simp
  | drop => simp
  | rise => simp
  | climb => exact Nat.le_add_right _ _
  | sink => exact Nat.le_add_right _ _
  | wait => exact Nat.le_add_right _ _

theorem length_run_le (i : ℕ) (z : Zigzag) (candles : List Candle) :
    (run (fin m) i z candles).swings.length ≤ z.swings.length + 2 * candles.length := by
  induction candles generalizing i z with
  | nil => exact le_rfl
  | cons c candles ih =>
      have here := length_step_le (step_stepped m i c z)
      have later := ih (i + 1) (z.step (fin m) i c)
      rw [run, List.length_cons]
      omega

/-- A candle with two swings is wide, and leaves its own high for a pivot. -/
structure Bounced (m : ℚ) (c : Candle) (z z' : Zigzag) : Prop where
  wide : m ≤ c.high - c.low
  highs : z'.highs = z.highs ++ [z.peak c]
  lows : z'.lows = z.lows ++ [c.low]
  pivot : z'.pivotHigh = some c.high

theorem bounced (stepped : Stepped m i c z z')
    (two : z'.swings.length = z.swings.length + 2) : Bounced m c z z' := by
  cases stepped with
  | bounce open_ far wide => exact ⟨wide, highs_both .., lows_both .., rfl⟩
  | drop => simp at two
  | rise => simp at two
  | climb => exact absurd two (Nat.ne_of_lt (Nat.lt_add_of_pos_right Nat.two_pos))
  | sink => exact absurd two (Nat.ne_of_lt (Nat.lt_add_of_pos_right Nat.two_pos))
  | wait => exact absurd two (Nat.ne_of_lt (Nat.lt_add_of_pos_right Nat.two_pos))

/-- The pivot is above the last close. -/
def Topped (close : ℚ) (z : Zigzag) : Prop := ∃ top, z.pivotHigh = some top ∧ close ≤ top

theorem trueRange_le {bottom top : ℚ} (sound : c.Sound) (above : bottom ≤ close)
    (below : close ≤ top) (low : bottom ≤ c.low) (high : c.high ≤ top) :
    trueRange close c ≤ top - bottom := by
  have order := sound.low_high
  refine max_le (by linarith) (max_le (abs_le.mpr ?_) (abs_le.mpr ?_))
  · constructor <;> linarith
  · constructor <;> linarith

/-- What candles with two swings each report: a high that is over their own and over the
last close, and their low. -/
structure Crowd (close : ℚ) (candles : List Candle) (hs ls : List ℚ) : Prop where
  highs : hs.length = candles.length
  lows : ls.length = candles.length
  ranges : ∀ bottom top : ℚ, (∀ h ∈ hs, h ≤ top) → (∀ l ∈ ls, bottom ≤ l) → bottom ≤ close →
    (trueRanges close candles).sum ≤ candles.length * (top - bottom) ∧
      bottom ≤ lastClose close candles

theorem crowd_run {candles : List Candle} (sound : ∀ c ∈ candles, c.Sound) (topped : Topped close z)
    (all : (run (fin m) i z candles).swings.length = z.swings.length + 2 * candles.length) :
    Topped (lastClose close candles) (run (fin m) i z candles) ∧
      ∃ hs ls, (run (fin m) i z candles).highs = z.highs ++ hs ∧
        (run (fin m) i z candles).lows = z.lows ++ ls ∧ Crowd close candles hs ls := by
  induction candles generalizing i close z with
  | nil =>
      exact ⟨topped, [], [], (List.append_nil _).symm, (List.append_nil _).symm, rfl, rfl,
        fun _ _ _ _ above => ⟨by simp [trueRanges], above⟩⟩
  | cons c candles ih =>
      obtain ⟨here, others⟩ := List.forall_mem_cons.mp sound
      have stepped := step_stepped m i c z
      have most := length_step_le stepped
      have later := length_run_le (m := m) (i + 1) (z.step (fin m) i c) candles
      rw [run, List.length_cons] at all
      obtain ⟨-, highs, lows, pivot⟩ := bounced stepped (by omega)
      obtain ⟨last, hs, ls, ranHighs, ranLows, crowd⟩ :=
        ih (i := i + 1) others ⟨c.high, pivot, here.close_high⟩ (by omega)
      refine ⟨last, z.peak c :: hs, c.low :: ls, ?_, ?_, ?_⟩
      · rw [run, ranHighs, highs, List.append_assoc, List.singleton_append]
      · rw [run, ranLows, lows, List.append_assoc, List.singleton_append]
      · refine ⟨congrArg Nat.succ crowd.highs, congrArg Nat.succ crowd.lows,
          fun bottom top below above base => ?_⟩
        obtain ⟨peak, below⟩ := List.forall_mem_cons.mp below
        obtain ⟨low, above⟩ := List.forall_mem_cons.mp above
        obtain ⟨h, was, under⟩ := topped
        have range := trueRange_le here base (under.trans ((pivot_le_peak was).trans peak)) low
          ((z.high_le_peak c).trans peak)
        obtain ⟨sum, base'⟩ := crowd.ranges bottom top below above (low.trans here.low_close)
        refine ⟨?_, base'⟩
        simp only [trueRanges, List.sum_cons, List.length_cons, Nat.cast_add, Nat.cast_one]
        linarith

/-- A history with two swings a candle, from its candle `f` on. -/
theorem crowd_of_length {older candles : List Candle} (sound : ∀ c ∈ f :: candles, c.Sound)
    (all : (Zigzag.run (fin m) 0 start (older ++ f :: candles)).swings.length =
      2 * (older ++ f :: candles).length) :
    Topped (lastClose f.close candles) (Zigzag.run (fin m) 0 start (older ++ f :: candles)) ∧
      ∃ hs₀ hs ls₀ ls,
        (Zigzag.run (fin m) 0 start (older ++ f :: candles)).highs = hs₀ ++ hs ∧
        (Zigzag.run (fin m) 0 start (older ++ f :: candles)).lows = ls₀ ++ f.low :: ls ∧
        Crowd f.close candles hs ls := by
  obtain ⟨here, others⟩ := List.forall_mem_cons.mp sound
  rw [run_append, run] at all ⊢
  set z := Zigzag.run (fin m) 0 start older with was
  have early : z.swings.length ≤ 2 * older.length := by
    have few := length_run_le (m := m) 0 start older
    rwa [← was, show start.swings.length = 0 from rfl, Nat.zero_add] at few
  have stepped := step_stepped m (0 + older.length) f z
  have most := length_step_le stepped
  have later := length_run_le (m := m) (0 + older.length + 1)
    (z.step (fin m) (0 + older.length) f) candles
  simp only [List.length_append, List.length_cons] at all
  obtain ⟨-, -, lows, pivot⟩ := bounced stepped (by omega)
  obtain ⟨last, hs, ls, ranHighs, ranLows, crowd⟩ :=
    crowd_run (m := m) (i := 0 + older.length + 1) others ⟨f.high, pivot, here.close_high⟩ (by omega)
  refine ⟨last, _, hs, z.lows, ls, ranHighs, ?_, crowd⟩
  rw [ranLows, lows, List.append_assoc, List.singleton_append]

/-- Where the last candle is one swing short, it confirms a high and is narrow. -/
theorem drop_of_length {candles : List Candle} (some_ : candles ≠ [])
    (all : (Zigzag.run (fin m) 0 start (candles ++ [g])).swings.length + 1 =
      2 * (candles ++ [g]).length) :
    (Zigzag.run (fin m) 0 start candles).swings.length = 2 * candles.length ∧
      g.high - g.low < m ∧
      (Zigzag.run (fin m) 0 start (candles ++ [g])).highs =
        (Zigzag.run (fin m) 0 start candles).highs ++
          [(Zigzag.run (fin m) 0 start candles).peak g] ∧
      (Zigzag.run (fin m) 0 start (candles ++ [g])).lows =
        (Zigzag.run (fin m) 0 start candles).lows := by
  rw [run_append, run, run] at all ⊢
  set z := Zigzag.run (fin m) 0 start candles with was
  obtain ⟨begun, paired⟩ := was ▸ counted (m := m) some_
  have total := length_swings z.swings
  have pos := List.length_pos_iff.mpr some_
  unfold highs lows at paired
  simp only [List.length_append, List.length_singleton] at all
  have stepped := step_stepped m (0 + candles.length) g z
  revert all
  generalize z.step (fin m) (0 + candles.length) g = z' at stepped
  intro all
  cases stepped with
  | bounce notDown =>
      simp [falling, pending, notDown] at all paired
      split at paired <;> omega
  | drop notDown far narrow =>
      refine ⟨?_, narrow, highs_high .., lows_high ..⟩
      simp [falling, pending, notDown] at all paired
      split at paired <;> omega
  | rise notUp =>
      simp [falling, pending, notUp] at all paired
      split at paired <;> omega
  | climb up => simp [falling, pending, up] at all paired; omega
  | sink down => simp [falling, pending, down] at all paired; omega
  | wait none_ => simp [falling, pending, none_] at all paired; omega

end Crowded

end Zigzag

end CentaurApex.Cortex
