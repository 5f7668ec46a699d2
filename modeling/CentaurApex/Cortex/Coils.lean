/-
# Cortex.Coils -- histories that range and histories that rise

A candle as wide as the reversal reports its high and its low (`Zigzag.bounce_step`), so
a row of like candles is a level: equal highs and equal lows (`Zigzag.level_run`).  The
histories here are levels with another candle or two, chosen for the average true range
they give the reversal.
-/
import CentaurApex.Cortex.Bands
import Mathlib.Data.List.Chain

namespace CentaurApex.Cortex

open CentaurApex.Theory
open CentaurApex.Theory.ExtNum (fin)
open CentaurApex.Theory.Python

set_option autoImplicit false

/-! ## The polarity of alternating swings -/

def Alternating (swings : List Swing) : Prop := swings.IsChain fun a b => a.kind ≠ b.kind

theorem slope_concat (values : List ℚ) (a b : ℚ) :
    slope (values ++ [a, b]) = if a < b then 1 else if b < a then -1 else 0 := by
  simp [slope]

theorem slope_level {values : List ℚ} {count : ℕ} (price : ℚ) (two : 2 ≤ count) :
    slope (values ++ List.replicate count price) = 0 := by
  obtain ⟨count, rfl⟩ := Nat.exists_eq_add_of_le' two
  rw [← List.replicate_append_replicate, ← List.append_assoc]
  exact (slope_concat _ price price).trans (by rw [if_neg (lt_irrefl _), if_neg (lt_irrefl _)])

/-- Of the last four of alternating swings, two are of a kind. -/
theorem slope_lastN {swings : List Swing} (alternating : Alternating swings) (kind : SwingKind) :
    slope (prices kind (lastN 8 swings)) = slope (prices kind swings) := by
  obtain ⟨back, rfl⟩ : ∃ back : List Swing, swings = back.reverse :=
    ⟨swings.reverse, swings.reverse_reverse.symm⟩
  have last : lastN 8 back.reverse = (back.take 8).reverse := by
    rw [lastN, List.length_reverse, List.drop_reverse]
    congr 1
    rcases le_total back.length 8 with few | many
    · rw [Nat.sub_eq_zero_of_le few, Nat.sub_zero, List.take_length, List.take_of_length_le few]
    · rw [Nat.sub_sub_self many]
  have reversed (swings : List Swing) :
      (prices kind swings.reverse).reverse = (swings.filter fun s => s.kind = kind).map Swing.price := by
    rw [prices, List.filter_reverse, List.map_reverse, List.reverse_reverse]
  rw [last, slope, slope, reversed, reversed]
  obtain - | ⟨a, - | ⟨b, - | ⟨c, - | ⟨d, others⟩⟩⟩⟩ := back
  · rfl
  · rfl
  · rfl
  · rfl
  · rw [Alternating, List.isChain_reverse, List.isChain_cons_cons, List.isChain_cons_cons,
      List.isChain_cons_cons] at alternating
    obtain ⟨ab, bc, cd, -⟩ := alternating
    have two (x y : SwingKind) (ne : x ≠ y) : x = .high ∧ y = .low ∨ x = .low ∧ y = .high := by
      cases x <;> cases y <;> simp at ne ⊢
    rcases two _ _ ab with ⟨ka, kb⟩ | ⟨ka, kb⟩ <;> rcases two _ _ bc with ⟨kb', kc⟩ | ⟨kb', kc⟩ <;>
      rcases two _ _ cd with ⟨kc', kd⟩ | ⟨kc', kd⟩ <;> cases kind <;>
      simp_all

theorem isChain_concat {α : Type} {R : α → α → Prop} {xs : List α} {x : α} (chain : xs.IsChain R)
    (due : ∀ last ∈ xs.getLast?, R last x) : (xs ++ [x]).IsChain R :=
  chain.append (List.isChain_singleton x) fun last member _ first => by
    obtain rfl := Option.some.inj first
    exact due last member

theorem Alternating.concat {swings : List Swing} {s : Swing} (alternating : Alternating swings)
    (due : ∀ last ∈ swings.getLast?, last.kind ≠ s.kind) : Alternating (swings ++ [s]) :=
  isChain_concat alternating due

namespace Zigzag

section InTurn

variable {m : ℚ} {i : ℕ} {c : Candle} {z z' : Zigzag}

/-- The swings alternate, and the next is of the other kind. -/
structure InTurn (z : Zigzag) : Prop where
  begun : z.direction = .none_ → z.swings = []
  up : z.direction = .up → ∀ s ∈ z.swings.getLast?, s.kind = .low
  down : z.direction = .down → ∀ s ∈ z.swings.getLast?, s.kind = .high
  alternating : Alternating z.swings

theorem inTurn_start : InTurn start :=
  ⟨fun _ => rfl, fun up => (by cases up), fun down => (by cases down), List.isChain_nil⟩

/-- Where a high is due, no high came last. -/
theorem InTurn.last_ne (before : InTurn z) (kind : SwingKind)
    (due : z.direction ≠ if kind = .high then .down else .up) :
    ∀ s ∈ z.swings.getLast?, s.kind ≠ kind := by
  intro s last
  cases direction : z.direction with
  | none_ =>
      rw [before.begun direction] at last
      cases last
  | up =>
      rw [before.up direction s last]
      rintro rfl
      exact due direction
  | down =>
      rw [before.down direction s last]
      rintro rfl
      exact due direction

theorem InTurn.step (before : InTurn z) (stepped : Stepped m i c z z') : InTurn z' := by
  cases stepped with
  | bounce open_ =>
      have first := Alternating.concat (s := ⟨.high, z.peak c, i⟩) before.alternating
        (before.last_ne .high open_)
      have both := Alternating.concat (s := ⟨.low, c.low, i⟩) first (by simp)
      rw [List.append_assoc, List.singleton_append] at both
      exact ⟨fun none_ => (by cases none_), fun _ => (by simp), fun down => (by cases down), both⟩
  | drop open_ =>
      exact ⟨fun none_ => (by cases none_), fun up => (by cases up), fun _ => (by simp),
        Alternating.concat before.alternating (before.last_ne .high open_)⟩
  | rise open_ =>
      exact ⟨fun none_ => (by cases none_), fun _ => (by simp), fun down => (by cases down),
        Alternating.concat before.alternating (before.last_ne .low open_)⟩
  | climb => exact ⟨before.begun, before.up, before.down, before.alternating⟩
  | sink => exact ⟨before.begun, before.up, before.down, before.alternating⟩
  | wait => exact ⟨before.begun, before.up, before.down, before.alternating⟩

theorem InTurn.run (inTurn : InTurn z) (i : ℕ) (candles : List Candle) :
    InTurn (run (fin m) i z candles) := by
  induction candles generalizing i z with
  | nil => exact inTurn
  | cons c candles ih => exact ih (inTurn.step (step_stepped m i c z)) (i + 1)

/-- The polarity is that of the last two highs, and of the last two lows. -/
theorem polarity_run (candles : List Candle) :
    polarity (Zigzag.run (fin m) 0 start candles).swings =
      slope (Zigzag.run (fin m) 0 start candles).highs +
        slope (Zigzag.run (fin m) 0 start candles).lows := by
  have alternating := (inTurn_start.run (m := m) 0 candles).alternating
  rw [polarity, slope_lastN alternating, slope_lastN alternating]
  rfl

end InTurn

/-! ## Levels -/

section Level

variable {m : ℚ} {i : ℕ} {c : Candle} {z : Zigzag}

/-- A high is due, and the pivot is not above `top`. -/
structure Below (top : ℚ) (z : Zigzag) : Prop where
  due : z.direction ≠ .down
  pivot : ∀ h ∈ z.pivotHigh, h ≤ top

theorem below_start (top : ℚ) : Below top start := ⟨by decide, fun _ none_ => (by cases none_)⟩

theorem Below.peak_eq (below : Below c.high z) : z.peak c = c.high := by
  unfold peak
  cases pivot : z.pivotHigh with
  | none => rfl
  | some h => exact max_eq_right (below.pivot h pivot)

/-- What candles as wide as `c` report: their highs and their lows. -/
structure Reported (c : Candle) (count : ℕ) (z z' : Zigzag) : Prop where
  highs : z'.highs = z.highs ++ List.replicate count c.high
  lows : z'.lows = z.lows ++ List.replicate count c.low
  up : z'.direction = .up
  pivot : z'.pivotHigh = some c.high

theorem bounce_step (below : Below c.high z) (wide : m ≤ c.high - c.low) (i : ℕ) :
    Reported c 1 z (z.step (fin m) i c) := by
  have peak := below.peak_eq
  have stepped := step_stepped m i c z
  revert stepped
  generalize z.step (fin m) i c = z'
  intro stepped
  cases stepped with
  | bounce => exact ⟨(highs_both ..).trans (by rw [peak]; rfl), lows_both .., rfl, rfl⟩
  | drop _ _ narrow => exact absurd wide (not_le.mpr narrow)
  | climb _ near => exact absurd wide (not_le.mpr (peak ▸ near))
  | rise notUp _ near =>
      have none_ : z.direction = .none_ := by
        cases direction : z.direction with
        | none_ => rfl
        | up => exact absurd direction notUp
        | down => exact absurd direction below.due
      exact absurd wide (not_le.mpr (peak ▸ near none_))
  | sink down => exact absurd down below.due
  | wait _ near => exact absurd wide (not_le.mpr (peak ▸ near))

theorem Reported.below {count : ℕ} {z' : Zigzag} (reported : Reported c count z z') {top : ℚ}
    (le : c.high ≤ top) : Below top z' :=
  ⟨by rw [reported.up]; decide, fun h pivot => by
    rw [reported.pivot] at pivot
    obtain rfl := Option.some.inj pivot
    exact le⟩

/-- A row of like candles is a level. -/
theorem level_run (below : Below c.high z) (wide : m ≤ c.high - c.low) (i count : ℕ) :
    Reported c (count + 1) z (run (fin m) i z (List.replicate (count + 1) c)) := by
  induction count generalizing i z with
  | zero => exact bounce_step below wide i
  | succ count ih =>
      have first := bounce_step below wide i
      have later := ih (first.below le_rfl) (i + 1)
      refine ⟨?_, ?_, later.up, later.pivot⟩
      · rw [List.replicate_succ, run, later.highs, first.highs, List.append_assoc,
          List.replicate_append_replicate, Nat.add_comm 1]
      · rw [List.replicate_succ, run, later.lows, first.lows, List.append_assoc,
          List.replicate_append_replicate, Nat.add_comm 1]

/-- A leg is downward, from a pivot at `bottom`. -/
structure Down (bottom : ℚ) (z : Zigzag) : Prop where
  down : z.direction = .down
  pivot : z.pivotLow = some bottom

/-- A narrow candle far enough below the pivot confirms it, and no low. -/
theorem drop_step {top : ℚ} (up : z.direction = .up) (pivot : z.pivotHigh = some top)
    (under : c.high ≤ top) (far : m ≤ top - c.low) (narrow : c.high - c.low < m) (i : ℕ) :
    (z.step (fin m) i c).highs = z.highs ++ [top] ∧ (z.step (fin m) i c).lows = z.lows ∧
      Down c.low (z.step (fin m) i c) := by
  have peak : z.peak c = top := by
    rw [peak, pivot]
    exact max_eq_left under
  have stepped := step_stepped m i c z
  revert stepped
  generalize z.step (fin m) i c = z'
  intro stepped
  cases stepped with
  | bounce _ _ wide => exact absurd wide (not_le.mpr narrow)
  | drop => exact ⟨(highs_high ..).trans (by rw [peak]; rfl), lows_high .., rfl, rfl⟩
  | climb _ near => exact absurd far (not_le.mpr (peak ▸ near))
  | rise notUp => exact absurd up notUp
  | sink down => rw [down] at up; cases up
  | wait none_ => rw [none_] at up; cases up

/-- A candle at the lower pivot that is far enough above it confirms a low. -/
theorem rise_step {bottom : ℚ} (down : Down bottom z) (at_ : c.low = bottom)
    (far : m ≤ c.high - bottom) (i : ℕ) :
    (z.step (fin m) i c).highs = z.highs ∧ (z.step (fin m) i c).lows = z.lows ++ [bottom] := by
  have trough : z.trough c = bottom := by
    rw [trough, down.pivot, at_]
    exact min_self _
  have stepped := step_stepped m i c z
  revert stepped
  generalize z.step (fin m) i c = z'
  intro stepped
  cases stepped with
  | bounce notDown => exact absurd down.down notDown
  | drop notDown => exact absurd down.down notDown
  | climb up => rw [down.down] at up; cases up
  | rise => exact ⟨highs_low .., (lows_low ..).trans (by rw [trough]; rfl)⟩
  | sink _ near => exact absurd far (not_le.mpr (trough ▸ near))
  | wait none_ => rw [down.down] at none_; cases none_

/-- Candles that stay at the lower pivot confirm nothing. -/
theorem rest_run (down : Down c.low z) (flat : c.high = c.low) (pos : 0 < m) (i count : ℕ) :
    run (fin m) i z (List.replicate count c) = z := by
  induction count generalizing i with
  | zero => rfl
  | succ count ih =>
      have trough : z.trough c = c.low := by
        rw [trough, down.pivot]
        exact min_self _
      have near : c.high - z.trough c < m := by
        rw [trough, flat, sub_self]
        exact pos
      have kept : z.step (fin m) i c = z := by
        rw [step, seekHigh_down down.down, seekLow_near (by rw [down.down]; decide) near, trough,
          ← down.pivot]
      rw [List.replicate_succ, run, kept, ih]

end Level

end Zigzag

/-! ## When a history ranges or rises -/

section Criteria

variable {params : MarketContextParams} {candles : List Candle}

theorem max?_of_forall {values : List ℚ} {top : ℚ} (some_ : values ≠ [])
    (all : ∀ value ∈ values, value = top) : values.max? = some top := by
  obtain ⟨value, member⟩ := List.exists_mem_of_ne_nil values some_
  exact List.max?_eq_some_iff.mpr ⟨all value member ▸ member, fun other member => (all other member).le⟩

theorem min?_of_forall {values : List ℚ} {bottom : ℚ} (some_ : values ≠ [])
    (all : ∀ value ∈ values, value = bottom) : values.min? = some bottom := by
  obtain ⟨value, member⟩ := List.exists_mem_of_ne_nil values some_
  exact List.min?_eq_some_iff.mpr ⟨all value member ▸ member, fun other member => (all other member).ge⟩

theorem getLast?_level (older : List ℚ) {count : ℕ} (price : ℚ) (two : 2 ≤ count) :
    (older ++ List.replicate count price).getLast? = some price := by
  obtain ⟨count, rfl⟩ := Nat.exists_eq_add_of_le' two
  rw [List.replicate_succ', ← List.append_assoc]
  exact List.getLast?_concat

/-- The recent prices of a level. -/
theorem lastN_level {older : List ℚ} {count k : ℕ} {price : ℚ} (two : 2 ≤ count) (pos : 0 < k)
    (recent : older = [] ∨ k ≤ count) :
    lastN k (older ++ List.replicate count price) ≠ [] ∧
      ∀ value ∈ lastN k (older ++ List.replicate count price), value = price := by
  have ne : lastN k (older ++ List.replicate count price) ≠ [] := by
    apply List.ne_nil_of_length_pos
    rw [lastN, List.length_drop, List.length_append, List.length_replicate]
    omega
  refine ⟨ne, fun value member => ?_⟩
  rcases recent with rfl | few
  · rw [List.nil_append] at member
    exact List.eq_of_mem_replicate (List.mem_of_mem_drop member)
  · rw [lastN_append (by rwa [List.length_replicate])] at member
    exact List.eq_of_mem_replicate (List.mem_of_mem_drop member)

/-- The last close is inside when it is between the last low and the last high. -/
theorem inside_of_last {atr h l : ℚ} {swings : List Swing}
    (high : (prices .high swings).getLast? = some h) (low : (prices .low swings).getLast? = some l)
    (above : l ≤ closeBack candles 1) (below : closeBack candles 1 ≤ h) :
    Inside params candles atr swings := by
  rintro band bounds
  rw [Option.mem_def, MarketContextParams.coilBounds] at bounds
  split at bounds
  · rename_i top bottom swingHigh swingLow
    split at bounds
    · obtain rfl := Option.some.inj bounds
      have least := (List.min?_eq_some_iff.mp swingLow).2 l
        (mem_lastN_of_getLast? low (recent_pos params))
      have most := (List.max?_eq_some_iff.mp swingHigh).2 h
        (mem_lastN_of_getLast? high (recent_pos params))
      exact ⟨least.trans above, below.trans most⟩
    · cases bounds
  · cases bounds

/-- A history with its average range, and the swings that gives. -/
structure Ranged (params : MarketContextParams) (candles : List Candle) (atr : ℚ)
    (upper lower : List ℚ) : Prop where
  long : params.atrPeriod + 2 ≤ candles.length
  average : atrOf candles params.atrPeriod = atr
  moves : 0 < atr
  calm : fin |closeBack candles 1 - closeBack candles 2| < params.impulseAtrMultiple * fin atr
  finite : params.swingAtrMultiple.IsFinite
  highs : (Zigzag.run (fin (params.reversal atr)) 0 .start candles).highs = upper
  lows : (Zigzag.run (fin (params.reversal atr)) 0 .start candles).lows = lower
  many : params.minSwings ≤ upper.length + lower.length

variable {atr : ℚ} {upper lower : List ℚ}

theorem Ranged.swings (ranged : Ranged params candles atr upper lower) :
    params.swingsOf candles =
      (Zigzag.run (fin (params.reversal atr)) 0 .start candles).swings := by
  rw [MarketContextParams.swingsOf, zigzagSwings, ranged.average, MarketContextParams.reversal,
    ← ExtNum.fin_val ranged.finite, ExtNum.fin_mul_fin, max2_fin]
  rfl

theorem Ranged.classified (ranged : Ranged params candles atr upper lower) :
    Classified params candles := by
  refine ⟨ranged.long, ?_, ?_, ?_⟩
  · rw [ranged.average]
    exact ranged.moves
  · rw [ranged.average]
    exact ExtNum.not_le_of_lt ranged.calm
  · have total := Zigzag.length_swings (params.swingsOf candles)
    have many := ranged.many
    rw [← ranged.highs, ← ranged.lows] at many
    rw [ranged.swings] at total ⊢
    exact total ▸ many

/-- **A level ranges** when it is narrow and recent. -/
theorem Ranged.ranging {older before : List ℚ} {count count' : ℕ} {top bottom : ℚ}
    (ranged : Ranged params candles atr (older ++ List.replicate count top)
      (before ++ List.replicate count' bottom))
    (two : 2 ≤ count) (recent : older = [] ∨ params.recent ≤ count)
    (two' : 2 ≤ count') (recent' : before = [] ∨ params.recent ≤ count')
    (above : bottom ≤ closeBack candles 1) (below : closeBack candles 1 ≤ top)
    (narrow : fin (top - bottom) < params.rangeHeightAtr * fin atr) :
    Ranging params candles := by
  have highs : prices .high (params.swingsOf candles) = older ++ List.replicate count top := by
    rw [ranged.swings]
    exact ranged.highs
  have lows : prices .low (params.swingsOf candles) = before ++ List.replicate count' bottom := by
    rw [ranged.swings]
    exact ranged.lows
  obtain ⟨some_, all⟩ := lastN_level two (recent_pos params) recent
  obtain ⟨some_', all'⟩ := lastN_level two' (recent_pos params) recent'
  refine ⟨ranged.classified, ?_, ?_, ?_⟩
  · refine inside_of_last (h := top) (l := bottom) ?_ ?_ above below
    · rw [highs, getLast?_level older top two]
    · rw [lows, getLast?_level before bottom two']
  · rw [ranged.swings, Zigzag.polarity_run, ranged.highs, ranged.lows, slope_level top two,
      slope_level bottom two']
    rfl
  · rw [ranged.average, MarketContextParams.coilBounds, MarketContextParams.swingHigh, highs,
      max?_of_forall some_ all, MarketContextParams.swingLow, lows, min?_of_forall some_' all']
    simp only [if_pos narrow]
    rfl

/-- **A history rises** when its last low is above the one before, and its last high is not
below. -/
theorem Ranged.rising {older before : List ℚ} {h h' l l' : ℚ}
    (ranged : Ranged params candles atr (older ++ [h, h']) (before ++ [l, l']))
    (up : h ≤ h') (up' : l < l') (above : l' ≤ closeBack candles 1)
    (below : closeBack candles 1 ≤ h') : Rising params candles := by
  have highs : prices .high (params.swingsOf candles) = older ++ [h, h'] := by
    rw [ranged.swings]
    exact ranged.highs
  have lows : prices .low (params.swingsOf candles) = before ++ [l, l'] := by
    rw [ranged.swings]
    exact ranged.lows
  refine ⟨ranged.classified, ?_, ?_⟩
  · refine inside_of_last (h := h') (l := l') ?_ ?_ above below
    · rw [highs]
      simp
    · rw [lows]
      simp
  · rw [ranged.swings, Zigzag.polarity_run, ranged.highs, ranged.lows, slope_concat, slope_concat,
      if_pos up', if_neg (not_lt.mpr up)]
    split <;> decide

end Criteria

/-! ## Histories that close at one price -/

section Settled

variable {candles : List Candle} {close : ℚ}

def width (c : Candle) : ℚ := c.high - c.low

theorem trueRange_inside {c : Candle} (above : c.low ≤ close) (below : close ≤ c.high) :
    trueRange close c = width c := by
  refine max_eq_left (max_le (abs_le.mpr ?_) (abs_le.mpr ?_))
  · constructor <;> linarith
  · constructor <;> linarith

theorem trueRanges_settled (sound : ∀ c ∈ candles, c.Sound) (closes : ∀ c ∈ candles, c.close = close) :
    trueRanges close candles = candles.map width := by
  induction candles with
  | nil => rfl
  | cons c candles ih =>
      obtain ⟨here, others⟩ := List.forall_mem_cons.mp sound
      obtain ⟨at_, closes⟩ := List.forall_mem_cons.mp closes
      have low := here.low_close
      have high := here.close_high
      rw [at_] at low high
      rw [trueRanges, at_, trueRange_inside low high, ih others closes, List.map_cons]

/-- The average true range is that of the last candles' widths. -/
theorem atrOf_settled {period : ℕ} (sound : ∀ c ∈ candles, c.Sound)
    (closes : ∀ c ∈ candles, c.close = close) (long : period < candles.length) :
    atrOf candles period = (lastN period (candles.map width)).sum / period := by
  obtain ⟨older, first, window, rfl, rfl⟩ := exists_window long
  have inWindow {c : Candle} (member : c ∈ window) : c ∈ older ++ first :: window := by
    simp [member]
  rw [atrOf_append, closes first (by simp),
    trueRanges_settled (fun c member => sound c (inWindow member))
      fun c member => closes c (inWindow member),
    List.map_append, List.map_cons, List.append_cons, lastN_append (by rw [List.length_map]),
    lastN_of_length (by rw [List.length_map])]

theorem closeBack_settled {k : ℕ} (closes : ∀ c ∈ candles, c.close = close) (pos : 0 < k)
    (le : k ≤ candles.length) : closeBack candles k = close := by
  have here : candles.length - k < candles.length := by omega
  rw [closeBack, List.getElem?_eq_getElem here, Option.map_some, Option.getD_some]
  exact closes _ (List.getElem_mem here)

end Settled

/-! ## Stairs -/

section Stairs

/-- A candle that opens where it closes. -/
def bar (low high close : ℚ) : Candle := ⟨close, high, low, close, 0, 0, 0⟩

theorem bar_sound {low high close : ℚ} (pos : 0 < low) (above : low ≤ close)
    (below : close ≤ high) : (bar low high close).Sound :=
  ⟨pos, above, below, above, below⟩

/-- Candles a unit wide, the last of them higher by `rise`. -/
def stairs (count : ℕ) (rise : ℚ) : List Candle :=
  List.replicate count (bar 1 2 (1 + rise)) ++ [bar (1 + rise) (2 + rise) (1 + rise)]

/-- Candles that stay at the low of the last stair, the first of them with what is left
over of the range. -/
def rest (count : ℕ) (rise spare : ℚ) : List Candle :=
  bar (1 + rise) (1 + rise + spare) (1 + rise) ::
    List.replicate count (bar (1 + rise) (1 + rise) (1 + rise))

variable {rise spare m : ℚ} {count : ℕ}

theorem stairs_all (count : ℕ) (nonneg : 0 ≤ rise) (small : rise ≤ 1) :
    ∀ c ∈ stairs count rise, c.Sound ∧ c.close = 1 + rise := by
  intro c member
  rcases List.mem_append.mp member with member | member
  · obtain rfl := List.eq_of_mem_replicate member
    exact ⟨bar_sound one_pos (by linarith) (by linarith), rfl⟩
  · obtain rfl := List.mem_singleton.mp member
    exact ⟨bar_sound (by linarith) le_rfl (by linarith), rfl⟩

theorem rest_all (count : ℕ) (nonneg : 0 ≤ rise) (spared : 0 ≤ spare) :
    ∀ c ∈ rest count rise spare, c.Sound ∧ c.close = 1 + rise := by
  intro c member
  rcases List.mem_cons.mp member with rfl | member
  · exact ⟨bar_sound (by linarith) le_rfl (by linarith), rfl⟩
  · obtain rfl := List.eq_of_mem_replicate member
    exact ⟨bar_sound (by linarith) le_rfl le_rfl, rfl⟩

theorem stairs_width : (stairs count rise).map width = List.replicate (count + 1) 1 := by
  have level : width (bar 1 2 (1 + rise)) = 1 := by norm_num [width, bar]
  have raised : width (bar (1 + rise) (2 + rise) (1 + rise)) = 1 := by
    show 2 + rise - (1 + rise) = 1
    ring
  rw [stairs, List.map_append, List.map_replicate, level, List.map_singleton, raised,
    List.replicate_succ']

theorem rest_width : (rest count rise spare).map width = spare :: List.replicate count 0 := by
  have left_ : width (bar (1 + rise) (1 + rise + spare) (1 + rise)) = spare :=
    add_sub_cancel_left _ _
  have flat : width (bar (1 + rise) (1 + rise) (1 + rise)) = 0 := sub_self _
  rw [rest, List.map_cons, List.map_replicate, left_, flat]

namespace Zigzag

theorem stairs_run (wide : m ≤ 1) (nonneg : 0 ≤ rise) (i count : ℕ) :
    Reported (bar (1 + rise) (2 + rise) (1 + rise)) 1
      (run (fin m) i start (List.replicate (count + 1) (bar 1 2 (1 + rise))))
      (run (fin m) i start (stairs (count + 1) rise)) ∧
    (run (fin m) i start (stairs (count + 1) rise)).highs =
      List.replicate (count + 1) 2 ++ [2 + rise] ∧
    (run (fin m) i start (stairs (count + 1) rise)).lows =
      List.replicate (count + 1) 1 ++ [1 + rise] := by
  have level : Reported (bar 1 2 (1 + rise)) (count + 1) start
      (run (fin m) i start (List.replicate (count + 1) (bar 1 2 (1 + rise)))) :=
    level_run (below_start _) (by show m ≤ 2 - 1; linarith) i count
  have below : Below (2 + rise)
      (run (fin m) i start (List.replicate (count + 1) (bar 1 2 (1 + rise)))) :=
    level.below (by show 2 ≤ 2 + rise; linarith)
  have raised := bounce_step (c := bar (1 + rise) (2 + rise) (1 + rise)) below
    (by show m ≤ 2 + rise - (1 + rise); linarith)
    (i + (List.replicate (count + 1) (bar 1 2 (1 + rise))).length)
  rw [stairs, run_append]
  exact ⟨raised, by rw [run, run, raised.highs, level.highs]; rfl,
    by rw [run, run, raised.lows, level.lows]; rfl⟩

theorem stairs_rest_run (wide : m ≤ 1) (nonneg : 0 ≤ rise) (spared : 0 ≤ spare)
    (short : spare < m) (i count count' : ℕ) :
    (run (fin m) i start (stairs (count + 1) rise ++ rest count' rise spare)).highs =
      List.replicate (count + 1) 2 ++ [2 + rise, 2 + rise] ∧
    (run (fin m) i start (stairs (count + 1) rise ++ rest count' rise spare)).lows =
      List.replicate (count + 1) 1 ++ [1 + rise] := by
  obtain ⟨raised, highs, lows⟩ := stairs_run wide nonneg i count
  rw [run_append, rest, run]
  set z := run (fin m) i start (stairs (count + 1) rise)
  obtain ⟨dropped, kept, down⟩ := drop_step (c := bar (1 + rise) (1 + rise + spare) (1 + rise))
    raised.up raised.pivot (by show 1 + rise + spare ≤ 2 + rise; linarith)
    (by show m ≤ 2 + rise - (1 + rise); linarith)
    (by show 1 + rise + spare - (1 + rise) < m; linarith) (i + (stairs (count + 1) rise).length)
  have still := rest_run (c := bar (1 + rise) (1 + rise) (1 + rise)) down rfl
    (spared.trans_lt short) (i + (stairs (count + 1) rise).length + 1) count'
  rw [still, dropped, kept, highs, lows, List.append_assoc]
  exact ⟨rfl, rfl⟩

end Zigzag

variable {params : MarketContextParams} {s : ℚ}

theorem minReversal_le : minReversal ≤ 1 := by norm_num [minReversal]

theorem reversal_eq (multiple : params.swingAtrMultiple = fin s) (atr : ℚ) :
    params.reversal atr = max (atr * s) minReversal := by
  rw [MarketContextParams.reversal, multiple, ExtNum.val_fin]

/-- A last move of less than every multiple is no impulse. -/
theorem calm_of_eq (params : MarketContextParams) {a b atr : ℚ} (moves : 0 < atr) (same : a = b) :
    fin |a - b| < params.impulseAtrMultiple * fin atr := by
  rw [same, sub_self, abs_zero]
  rcases multiple_cases params.impulse_pos with infinite | ⟨ι, pos, impulse⟩
  · rw [infinite, show (.posInf * fin atr : ExtNum ℚ) = .posInf from if_pos moves]
    trivial
  · rw [impulse]
    exact mul_pos pos moves

theorem atrPeriod_pos (params : MarketContextParams) : (0 : ℚ) < params.atrPeriod := by
  have least := params.atrPeriod_ge
  exact_mod_cast (by omega : 0 < params.atrPeriod)

/-- A history that is found: its range, its swings, and where it closes. -/
structure Found (params : MarketContextParams) (candles : List Candle) (atr close : ℚ)
    (upper lower : List ℚ) : Prop where
  history : History params candles
  ranged : Ranged params candles atr upper lower
  closes : closeBack candles 1 = close

/-- All the candles are stairs: a small reversal is within their own range. -/
theorem stairs_found (multiple : params.swingAtrMultiple = fin s) (small : s ≤ 1)
    (room : params.atrPeriod + 2 ≤ params.maxCandles) (many : params.minSwings ≤ 2 * params.maxCandles)
    (nonneg : 0 ≤ rise) (low : rise ≤ 1) :
    ∃ count, Found params (stairs (count + 1) rise) 1 (1 + rise)
      (List.replicate (count + 1) 2 ++ [2 + rise]) (List.replicate (count + 1) 1 ++ [1 + rise]) := by
  obtain ⟨count, all⟩ := Nat.exists_eq_add_of_le' (show 2 ≤ params.maxCandles by omega)
  have length : (stairs (count + 1) rise).length = params.maxCandles := by
    rw [stairs, List.length_append, List.length_replicate, List.length_singleton, all]
  have each := stairs_all (count + 1) nonneg low
  have closes := fun c member => (each c member).2
  have last := closeBack_settled closes one_pos (by omega)
  have reversal : params.reversal 1 ≤ 1 := by
    rw [reversal_eq multiple, one_mul]
    exact max_le small minReversal_le
  obtain ⟨-, highs, lows⟩ := Zigzag.stairs_run reversal nonneg 0 count
  refine ⟨count, ⟨fun c member => (each c member).1, length.le⟩, ⟨?_, ?_, one_pos, ?_, ?_, highs, lows,
    ?_⟩, last⟩
  · omega
  · rw [atrOf_settled (fun c member => (each c member).1) closes (by omega), stairs_width, lastN,
      List.drop_replicate, List.sum_replicate, List.length_replicate,
      Nat.sub_sub_self (by omega), nsmul_one, div_self (atrPeriod_pos params).ne']
  · rw [last, closeBack_settled closes two_pos (by omega)]
    exact calm_of_eq params one_pos rfl
  · rw [multiple]
    trivial
  · simp only [List.length_append, List.length_replicate, List.length_singleton]
    omega

/-- The stairs take as many of the last candles as the range they use up allows. -/
theorem stairs_rest_found (multiple : params.swingAtrMultiple = fin s) (large : 1 < s)
    (room : params.atrPeriod + 2 ≤ params.maxCandles)
    (many : params.minSwings ≤
      2 * (params.maxCandles - params.atrPeriod) + 2 * ⌊params.atrPeriod / s⌋₊ + 1)
    (nonneg : 0 ≤ rise) (low : rise ≤ 1) :
    ∃ count candles, Found params candles (1 / s) (1 + rise)
      (List.replicate (count + 1) 2 ++ [2 + rise, 2 + rise])
      (List.replicate (count + 1) 1 ++ [1 + rise]) := by
  have pos : 0 < s := one_pos.trans large
  have period := atrPeriod_pos params
  have quotient : (0 : ℚ) ≤ params.atrPeriod / s := (div_pos period pos).le
  have floor := Nat.floor_le quotient
  have ceil := Nat.lt_floor_add_one ((params.atrPeriod : ℚ) / s)
  have less : ⌊(params.atrPeriod : ℚ) / s⌋₊ < params.atrPeriod := by
    have small : (params.atrPeriod : ℚ) / s < params.atrPeriod := div_lt_self period large
    exact_mod_cast floor.trans_lt small
  set steps := ⌊(params.atrPeriod : ℚ) / s⌋₊
  obtain ⟨count, all⟩ := Nat.exists_eq_add_of_le'
    (show 2 ≤ params.maxCandles - params.atrPeriod + steps by omega)
  obtain ⟨flats, left_⟩ := Nat.exists_eq_add_of_lt less
  set spare := (params.atrPeriod : ℚ) / s - steps
  have spared : 0 ≤ spare := sub_nonneg.mpr floor
  have short : spare < 1 := by linarith
  set candles := stairs (count + 1) rise ++ rest flats rise spare with candles_eq
  have length : candles.length = params.maxCandles := by
    simp only [candles_eq, stairs, rest, List.length_append, List.length_replicate,
      List.length_cons, List.length_nil]
    omega
  have each : ∀ c ∈ candles, c.Sound ∧ c.close = 1 + rise := fun c member =>
    (List.mem_append.mp member).elim (stairs_all _ nonneg low c) (rest_all _ nonneg spared c)
  have closes := fun c member => (each c member).2
  have last := closeBack_settled closes one_pos (by omega)
  have moves : 0 < 1 / s := one_div_pos.mpr pos
  have reversal : params.reversal (1 / s) = 1 := by
    rw [reversal_eq multiple, one_div_mul_cancel pos.ne']
    exact max_eq_left minReversal_le
  have widths : candles.map width = List.replicate (count + 2 - steps) 1 ++
      (List.replicate steps 1 ++ spare :: List.replicate flats 0) := by
    rw [candles_eq, List.map_append, stairs_width, rest_width, ← List.append_assoc,
      List.replicate_append_replicate, Nat.sub_add_cancel (by omega)]
  have window : lastN params.atrPeriod (candles.map width) =
      List.replicate steps 1 ++ spare :: List.replicate flats 0 := by
    have period : (List.replicate steps 1 ++ spare :: List.replicate flats 0).length =
        params.atrPeriod := by
      rw [List.length_append, List.length_cons, List.length_replicate, List.length_replicate]
      omega
    rw [widths, lastN_append period.ge, lastN_of_length period.le]
  obtain ⟨highs, lows⟩ :=
    Zigzag.stairs_rest_run le_rfl nonneg spared short 0 count flats
  refine ⟨count, candles, ⟨fun c member => (each c member).1, length.le⟩, ⟨?_, ?_, moves, ?_, ?_, ?_,
    ?_, ?_⟩, last⟩
  · omega
  · rw [atrOf_settled (fun c member => (each c member).1) closes (by omega), window,
      List.sum_append, List.sum_cons, List.sum_replicate, List.sum_replicate, nsmul_one, nsmul_zero,
      add_zero, add_sub_cancel, div_div, mul_comm s, ← div_div, div_self period.ne']
  · rw [last, closeBack_settled closes two_pos (by omega)]
    exact calm_of_eq params moves rfl
  · rw [multiple]
    trivial
  · rw [reversal]
    exact highs
  · rw [reversal]
    exact lows
  · simp only [List.length_append, List.length_replicate, List.length_cons, List.length_nil]
    omega

end Stairs

/-! ## Levels with a narrow band -/

section Narrow

variable {params : MarketContextParams} {s r : ℚ}

/-- A level, a candle at its low, and a spike from there. -/
def spike (count : ℕ) (far : ℚ) : List Candle :=
  List.replicate count (bar 1 2 1) ++ [bar 1 1 1, bar 1 (1 + far) 1]

/-- A row of like bars, from the start. -/
theorem bars_run {m low high : ℚ} (wide : m ≤ high - low) (close : ℚ) (count : ℕ) :
    Zigzag.Reported (bar low high close) (count + 1) .start
      (Zigzag.run (fin m) 0 .start (List.replicate (count + 1) (bar low high close))) :=
  have span : m ≤ (bar low high close).high - (bar low high close).low := wide
  Zigzag.level_run (Zigzag.below_start _) span 0 count

theorem spike_run {far : ℚ} (long : 1 ≤ far) (count : ℕ) :
    (Zigzag.run (fin 1) 0 .start (spike (count + 1) far)).highs = List.replicate (count + 2) 2 ∧
      (Zigzag.run (fin 1) 0 .start (spike (count + 1) far)).lows = List.replicate (count + 2) 1 := by
  have wide : (1 : ℚ) ≤ 2 - 1 := by norm_num
  have level := bars_run wide 1 count
  rw [spike, Zigzag.run_append]
  set z := Zigzag.run (fin 1) 0 .start (List.replicate (count + 1) (bar 1 2 1))
  obtain ⟨highs, lows, down⟩ := Zigzag.drop_step (c := bar 1 1 1) (m := 1) level.up level.pivot
    (by norm_num [bar]) (by norm_num [bar]) (by norm_num [bar])
    (0 + (List.replicate (count + 1) (bar 1 2 1)).length)
  obtain ⟨highs', lows'⟩ := Zigzag.rise_step (c := bar 1 (1 + far) 1) (m := 1) down rfl
    (by show 1 ≤ 1 + far - 1; linarith)
    (0 + (List.replicate (count + 1) (bar 1 2 1)).length + 1)
  simp only [Zigzag.run]
  rw [highs', lows', highs, lows, level.highs, level.lows, List.replicate_succ' (n := count + 1),
    List.replicate_succ' (n := count + 1)]
  exact ⟨rfl, rfl⟩

/-- A multiple keeps its order over a range. -/
theorem lt_mul_of_lt {x : ExtNum ℚ} {atr : ℚ} (lt : fin s < x) (moves : 0 < atr) :
    fin (s * atr) < x * fin atr := by
  cases x with
  | fin q => exact mul_lt_mul_of_pos_right lt moves
  | posInf =>
      rw [show (.posInf * fin atr : ExtNum ℚ) = .posInf from if_pos moves]
      trivial
  | nan => exact absurd lt (ExtNum.not_lt_nan _)
  | negInf => exact absurd lt id

/-- The range that makes the reversal a unit. -/
theorem unit_reversal (multiple : params.swingAtrMultiple = fin s)
    (wider : params.swingAtrMultiple < params.rangeHeightAtr) :
    0 < 1 / s ∧ params.reversal (1 / s) = 1 ∧ fin 1 < params.rangeHeightAtr * fin (1 / s) := by
  have pos : 0 < s := by simpa [multiple] using params.swing_pos
  have moves : 0 < 1 / s := one_div_pos.mpr pos
  have narrow := lt_mul_of_lt (multiple ▸ wider) moves
  rw [mul_one_div_cancel pos.ne'] at narrow
  refine ⟨moves, ?_, narrow⟩
  rw [reversal_eq multiple, one_div_mul_cancel pos.ne']
  exact max_eq_left minReversal_le

/-- Two swings less than there could be: the range comes from the last candle. -/
theorem spike_ranging (multiple : params.swingAtrMultiple = fin s) (small : s ≤ 1)
    (wider : params.swingAtrMultiple < params.rangeHeightAtr)
    (room : params.atrPeriod + 2 ≤ params.maxCandles)
    (many : params.minSwings ≤ 2 * params.maxCandles - 2) :
    ∃ candles, History params candles ∧ Ranging params candles := by
  obtain ⟨moves, reversal, narrow⟩ := unit_reversal multiple wider
  have pos : 0 < s := one_div_pos.mp moves
  have period := atrPeriod_pos params
  have enough := params.maxCandles_ge
  obtain ⟨count, all⟩ := Nat.exists_eq_add_of_le' (show 3 ≤ params.maxCandles by omega)
  obtain ⟨others, window⟩ := Nat.exists_eq_add_of_le' params.atrPeriod_ge
  have quotient : (params.atrPeriod : ℚ) ≤ params.atrPeriod / s := le_div_self period.le pos small
  set far := (params.atrPeriod : ℚ) / s - others
  have long : 1 ≤ far := by
    have cast : (params.atrPeriod : ℚ) = others + 2 := by exact_mod_cast window
    linarith
  have each : ∀ c ∈ spike (count + 1) far, c.Sound ∧ c.close = 1 := by
    intro c member
    simp only [spike, List.mem_append, List.mem_cons, List.not_mem_nil, or_false] at member
    rcases member with member | rfl | rfl
    · obtain rfl := List.eq_of_mem_replicate member
      exact ⟨bar_sound one_pos le_rfl (by norm_num), rfl⟩
    · exact ⟨bar_sound one_pos le_rfl le_rfl, rfl⟩
    · exact ⟨bar_sound one_pos le_rfl (by linarith), rfl⟩
  have sound := fun c member => (each c member).1
  have closes := fun c member => (each c member).2
  have length : (spike (count + 1) far).length = params.maxCandles := by
    simp only [spike, List.length_append, List.length_replicate, List.length_cons, List.length_nil]
    omega
  have widths : (spike (count + 1) far).map width =
      List.replicate (count + 1 - others) 1 ++ (List.replicate others 1 ++ [0, far]) := by
    have level : width (bar 1 2 1) = 1 := by norm_num [width, bar]
    have flat : width (bar 1 1 1) = 0 := by norm_num [width, bar]
    have top : width (bar 1 (1 + far) 1) = far := add_sub_cancel_left _ _
    rw [spike, List.map_append, List.map_replicate, level, List.map_cons, flat, List.map_singleton,
      top, ← List.append_assoc, List.replicate_append_replicate, Nat.sub_add_cancel (by omega)]
  have last := closeBack_settled closes one_pos (by omega)
  obtain ⟨highs, lows⟩ := spike_run long count
  have ranged : Ranged params (spike (count + 1) far) (1 / s)
      ([] ++ List.replicate (count + 2) 2) ([] ++ List.replicate (count + 2) 1) := by
    refine ⟨by omega, ?_, moves, ?_, ?_, ?_, ?_, ?_⟩
    · have short : (List.replicate others (1 : ℚ) ++ [0, far]).length = params.atrPeriod := by
        rw [List.length_append, List.length_replicate, window]
        rfl
      rw [atrOf_settled sound closes (by omega), widths, lastN_append short.ge,
        lastN_of_length short.le, List.sum_append, List.sum_replicate, nsmul_one, List.sum_cons,
        List.sum_singleton, zero_add, add_sub_cancel, div_div, mul_comm s, ← div_div,
        div_self period.ne']
    · rw [last, closeBack_settled closes two_pos (by omega)]
      exact calm_of_eq params moves rfl
    · rw [multiple]
      trivial
    · rw [reversal]
      exact highs
    · rw [reversal]
      exact lows
    · simp only [List.nil_append, List.length_replicate]
      omega
  refine ⟨_, ⟨sound, length.le⟩, ranged.ranging (by omega) (.inl rfl) (by omega) (.inl rfl) last.ge
    (by rw [last]; norm_num) ?_⟩
  norm_num at narrow ⊢
  exact narrow

theorem closeBack_append {k : ℕ} (older : List Candle) {window : List Candle}
    (le : k ≤ window.length) : closeBack (older ++ window) k = closeBack window k := by
  have here : older.length ≤ (older ++ window).length - k := by
    rw [List.length_append]
    omega
  rw [closeBack, closeBack, List.getElem?_append_right here, List.length_append]
  congr 3
  omega

/-- A level with one candle that is deeper, and closes at its low, before its end. -/
def deep (count period : ℕ) (floor : ℚ) : List Candle :=
  List.replicate count (bar floor (floor + 1) floor) ++ bar 1 (floor + 1) 1 ::
    List.replicate period (bar floor (floor + 1) floor)

theorem deep_run {floor : ℚ} (high : 1 ≤ floor) (count period : ℕ) :
    (Zigzag.run (fin 1) 0 .start (deep (count + 1) (period + 1) floor)).highs =
        List.replicate (count + period + 3) (floor + 1) ∧
      (Zigzag.run (fin 1) 0 .start (deep (count + 1) (period + 1) floor)).lows =
        (List.replicate (count + 1) floor ++ [1]) ++ List.replicate (period + 1) floor := by
  have wide : (1 : ℚ) ≤ floor + 1 - floor := (add_sub_cancel_left floor 1).ge
  have level := bars_run wide floor count
  rw [deep, Zigzag.run_append, Zigzag.run]
  set z := Zigzag.run (fin 1) 0 .start (List.replicate (count + 1) (bar floor (floor + 1) floor))
  have dip := Zigzag.bounce_step (c := bar 1 (floor + 1) 1) (m := 1)
    (level.below (show floor + 1 ≤ floor + 1 from le_rfl)) (by show 1 ≤ floor + 1 - 1; linarith)
    (0 + (List.replicate (count + 1) (bar floor (floor + 1) floor)).length)
  have again : Zigzag.Reported (bar floor (floor + 1) floor) (period + 1) _ _ :=
    Zigzag.level_run (c := bar floor (floor + 1) floor) (m := 1)
      (dip.below (show floor + 1 ≤ floor + 1 from le_rfl))
      (show 1 ≤ (bar floor (floor + 1) floor).high - (bar floor (floor + 1) floor).low from wide)
      (0 + (List.replicate (count + 1) (bar floor (floor + 1) floor)).length + 1) period
  rw [again.highs, dip.highs, level.highs, again.lows, dip.lows, level.lows]
  constructor
  · show [] ++ List.replicate (count + 1) (floor + 1) ++ List.replicate 1 (floor + 1) ++
      List.replicate (period + 1) (floor + 1) = _
    rw [List.nil_append, List.replicate_append_replicate, List.replicate_append_replicate]
    congr 1
    omega
  · show [] ++ List.replicate (count + 1) floor ++ List.replicate 1 1 ++
      List.replicate (period + 1) floor = _
    rw [List.nil_append, List.replicate_one]

/-- As many swings as there can be: the range comes from a close before the window, and
the deeper low is out of the recent swings. -/
theorem deep_ranging (multiple : params.swingAtrMultiple = fin s) (small : s ≤ 1)
    (wider : params.swingAtrMultiple < params.rangeHeightAtr)
    (room : params.atrPeriod + 2 ≤ params.maxCandles)
    (recent : params.recent ≤ params.atrPeriod)
    (many : params.minSwings ≤ 2 * params.maxCandles) :
    ∃ candles, History params candles ∧ Ranging params candles := by
  obtain ⟨moves, reversal, narrow⟩ := unit_reversal multiple wider
  have pos : 0 < s := one_div_pos.mp moves
  have period := atrPeriod_pos params
  have least := params.atrPeriod_ge
  obtain ⟨count, all⟩ := Nat.exists_eq_add_of_le' room
  obtain ⟨others, window⟩ := Nat.exists_eq_add_of_le' (one_le_two.trans least)
  have cast : (params.atrPeriod : ℚ) = others + 1 := by exact_mod_cast window
  have quotient : (params.atrPeriod : ℚ) ≤ params.atrPeriod / s := le_div_self period.le pos small
  obtain ⟨floor, floor_eq⟩ : ∃ floor : ℚ, floor = params.atrPeriod / s - others := ⟨_, rfl⟩
  have high : 1 ≤ floor := by linarith
  have level_sound : (bar floor (floor + 1) floor).Sound :=
    bar_sound (by linarith) le_rfl (by linarith)
  have sound : ∀ c ∈ deep (count + 1) (others + 1) floor, c.Sound := by
    intro c member
    simp only [deep, List.mem_append, List.mem_cons] at member
    rcases member with member | rfl | member
    · exact List.eq_of_mem_replicate member ▸ level_sound
    · exact bar_sound one_pos le_rfl (by linarith)
    · exact List.eq_of_mem_replicate member ▸ level_sound
  have length : (deep (count + 1) (others + 1) floor).length = params.maxCandles := by
    simp only [deep, List.length_append, List.length_replicate, List.length_cons]
    omega
  have closes (k : ℕ) (positive : 0 < k) (le : k ≤ params.atrPeriod) :
      closeBack (deep (count + 1) (others + 1) floor) k = floor := by
    rw [deep, List.append_cons, closeBack_append _ (by rw [List.length_replicate]; omega)]
    exact closeBack_settled (fun c member => (by rw [List.eq_of_mem_replicate member]; rfl)) positive
      (by rw [List.length_replicate]; omega)
  have first : trueRange 1 (bar floor (floor + 1) floor) = floor := by
    have up : |floor + 1 - 1| = floor := by
      rw [add_sub_cancel_right]
      exact abs_of_nonneg (by linarith)
    have down : |floor - 1| = floor - 1 := abs_of_nonneg (by linarith)
    show max (floor + 1 - floor) (max |floor + 1 - 1| |floor - 1|) = floor
    rw [up, down, add_sub_cancel_left, max_eq_left (by linarith : floor - 1 ≤ floor),
      max_eq_right high]
  have ranges : (trueRanges 1 (List.replicate (others + 1) (bar floor (floor + 1) floor))).sum =
      floor + others := by
    have width_eq : width (bar floor (floor + 1) floor) = 1 := add_sub_cancel_left _ _
    have settled : trueRanges floor (List.replicate others (bar floor (floor + 1) floor)) =
        (List.replicate others (bar floor (floor + 1) floor)).map width :=
      trueRanges_settled (fun c member => List.eq_of_mem_replicate member ▸ level_sound)
        fun c member => (by rw [List.eq_of_mem_replicate member]; rfl)
    rw [List.replicate_succ, trueRanges, List.sum_cons, first,
      show (bar floor (floor + 1) floor).close = floor from rfl, settled, List.map_replicate,
      width_eq, List.sum_replicate, nsmul_one]
  have average : atrOf (deep (count + 1) (others + 1) floor) params.atrPeriod = 1 / s := by
    have recent := atrOf_append (List.replicate (count + 1) (bar floor (floor + 1) floor))
      (bar 1 (floor + 1) 1) (List.replicate (others + 1) (bar floor (floor + 1) floor))
    rw [List.length_replicate, ← window] at recent
    rw [deep, ← window, recent, window, show (bar 1 (floor + 1) 1).close = 1 from rfl, ranges,
      ← window, floor_eq, sub_add_cancel, div_div, mul_comm s, ← div_div, div_self period.ne']
  obtain ⟨highs, lows⟩ := deep_run high count others
  have ranged : Ranged params (deep (count + 1) (others + 1) floor) (1 / s)
      ([] ++ List.replicate (count + others + 3) (floor + 1))
      ((List.replicate (count + 1) floor ++ [1]) ++ List.replicate (others + 1) floor) := by
    refine ⟨by omega, average, moves, ?_, ?_, ?_, ?_, ?_⟩
    · exact calm_of_eq params moves
        ((closes 1 one_pos (by omega)).trans (closes 2 two_pos least).symm)
    · rw [multiple]
      trivial
    · rw [reversal]
      exact highs
    · rw [reversal]
      exact lows
    · simp only [List.nil_append, List.length_append, List.length_replicate, List.length_singleton]
      omega
  have last := closes 1 one_pos (by omega)
  refine ⟨_, ⟨sound, length.le⟩, ranged.ranging (by omega) (.inl rfl) (by omega)
    (.inr (by omega)) last.ge (by rw [last]; linarith) ?_⟩
  rw [add_sub_cancel_left]
  exact narrow

/-- A level as high as the least reversal, a close in it, and a fall from there that
confirms no low. -/
def fall (count : ℕ) (close extra : ℚ) : List Candle :=
  List.replicate count (bar 1 (1 + minReversal) 1) ++
    [bar 1 (1 + minReversal) (1 + close), bar (1 - minReversal + extra) 1 1]

theorem fall_run {extra : ℚ} (pos : 0 < extra) (small : extra ≤ minReversal) (count : ℕ)
    (close : ℚ) :
    (Zigzag.run (fin minReversal) 0 .start (fall (count + 1) close extra)).highs =
        List.replicate (count + 3) (1 + minReversal) ∧
      (Zigzag.run (fin minReversal) 0 .start (fall (count + 1) close extra)).lows =
        List.replicate (count + 2) 1 := by
  have wide : minReversal ≤ 1 + minReversal - 1 := (add_sub_cancel_left 1 minReversal).ge
  have level := bars_run wide 1 count
  rw [fall, Zigzag.run_append, Zigzag.run]
  set z := Zigzag.run (fin minReversal) 0 .start
    (List.replicate (count + 1) (bar 1 (1 + minReversal) 1))
  have again := Zigzag.bounce_step (c := bar 1 (1 + minReversal) (1 + close)) (m := minReversal)
    (level.below (show 1 + minReversal ≤ 1 + minReversal from le_rfl)) wide
    (0 + (List.replicate (count + 1) (bar 1 (1 + minReversal) 1)).length)
  obtain ⟨highs, lows, -⟩ := Zigzag.drop_step (c := bar (1 - minReversal + extra) 1 1)
    (m := minReversal) again.up again.pivot
    (by show 1 ≤ 1 + minReversal; linarith [minReversal_pos])
    (by show minReversal ≤ 1 + minReversal - (1 - minReversal + extra); linarith)
    (by show 1 - (1 - minReversal + extra) < minReversal; linarith)
    (0 + (List.replicate (count + 1) (bar 1 (1 + minReversal) 1)).length + 1)
  rw [Zigzag.run, Zigzag.run, highs, again.highs, level.highs, lows, again.lows, level.lows]
  rw [List.replicate_succ' (n := count + 2), List.replicate_succ' (n := count + 1),
    List.replicate_succ' (n := count + 1)]
  exact ⟨rfl, rfl⟩

theorem lastClose_replicate {c : Candle} (count : ℕ) :
    Zigzag.lastClose c.close (List.replicate count c) = c.close := by
  induction count with
  | zero => rfl
  | succ count ih => exact ih

/-- What the last two candles add to the window. -/
theorem fall_ranges {close extra : ℚ} (nonneg : 0 ≤ close) (low : close ≤ minReversal)
    (inside : extra ≤ close) (count : ℕ) :
    (trueRanges 1 (List.replicate count (bar 1 (1 + minReversal) 1) ++
        [bar 1 (1 + minReversal) (1 + close), bar (1 - minReversal + extra) 1 1])).sum =
      (count + 1) * minReversal + (close + minReversal - extra) := by
  have pos := minReversal_pos
  have level : trueRanges 1 (List.replicate count (bar 1 (1 + minReversal) 1)) =
      List.replicate count minReversal := by
    have width_eq : width (bar 1 (1 + minReversal) 1) = minReversal := add_sub_cancel_left _ _
    have settled : trueRanges 1 (List.replicate count (bar 1 (1 + minReversal) 1)) =
        (List.replicate count (bar 1 (1 + minReversal) 1)).map width :=
      trueRanges_settled
        (fun c member => List.eq_of_mem_replicate member ▸ bar_sound one_pos le_rfl (by linarith))
        fun c member => (by rw [List.eq_of_mem_replicate member]; rfl)
    rw [settled, List.map_replicate, width_eq]
  have before : trueRange 1 (bar 1 (1 + minReversal) (1 + close)) = minReversal :=
    (trueRange_inside (c := bar 1 (1 + minReversal) (1 + close)) (le_refl (1 : ℚ))
      (show (1 : ℚ) ≤ 1 + minReversal by linarith)).trans (add_sub_cancel_left _ _)
  have last : trueRange (1 + close) (bar (1 - minReversal + extra) 1 1) =
      close + minReversal - extra := by
    have up : |1 - (1 + close)| = close := by
      rw [show 1 - (1 + close) = -close by ring, abs_neg]
      exact abs_of_nonneg nonneg
    have down : |1 - minReversal + extra - (1 + close)| = close + minReversal - extra := by
      rw [show 1 - minReversal + extra - (1 + close) = -(close + minReversal - extra) by ring,
        abs_neg]
      exact abs_of_nonneg (by linarith)
    show max (1 - (1 - minReversal + extra))
      (max |1 - (1 + close)| |1 - minReversal + extra - (1 + close)|) = _
    rw [up, down]
    rw [max_eq_right (by linarith : close ≤ close + minReversal - extra)]
    exact max_eq_right (by linarith)
  have at_ : Zigzag.lastClose 1 (List.replicate count (bar 1 (1 + minReversal) 1)) = 1 :=
    lastClose_replicate (c := bar 1 (1 + minReversal) 1) count
  rw [List.append_cons, trueRanges_append, trueRanges_append, lastClose_append, at_, level, before,
    show (bar 1 (1 + minReversal) (1 + close)).close = 1 + close from rfl, last]
  simp only [List.sum_append, List.sum_replicate, List.sum_singleton, nsmul_eq_mul]
  ring

/-- A band between the reversal and the range, near enough to it for the room there is. -/
theorem exists_band (range : params.rangeHeightAtr = fin r) (wider : s < r)
    (spare : params.Spare) :
    ∃ band : ℚ, s < band ∧ band < r ∧ params.atrPeriod * (1 - band) < band ∧
      fin (params.atrPeriod * (1 - band)) < params.impulseAtrMultiple := by
  have period := atrPeriod_pos params
  obtain ⟨height, impulse⟩ := spare
  rw [range, ExtNum.fin_mul_fin, ExtNum.fin_add_fin, ExtNum.fin_lt_fin] at height
  rw [range, ExtNum.fin_mul_fin] at impulse
  have tall : (params.atrPeriod : ℚ) / (params.atrPeriod + 1) < r := by
    rw [div_lt_iff₀ (by linarith)]
    linarith
  have room (band : ℚ) (above : (params.atrPeriod : ℚ) / (params.atrPeriod + 1) < band) :
      params.atrPeriod * (1 - band) < band := by
    rw [div_lt_iff₀ (by linarith)] at above
    linarith
  rcases multiple_cases params.impulse_pos with infinite | ⟨ι, -, finite⟩
  · obtain ⟨band, above, below⟩ := exists_between (max_lt wider tall)
    obtain ⟨above, tall⟩ := max_lt_iff.mp above
    exact ⟨band, above, below, room band tall, infinite ▸ ExtNum.fin_lt_posInf _⟩
  · rw [finite, ExtNum.fin_add_fin, ExtNum.fin_lt_fin] at impulse
    have sudden : 1 - ι / params.atrPeriod < r := by
      rw [sub_lt_comm, lt_div_iff₀ period]
      linarith
    obtain ⟨band, above, below⟩ := exists_between (max_lt (max_lt wider tall) sudden)
    obtain ⟨above, sudden⟩ := max_lt_iff.mp above
    obtain ⟨above, tall⟩ := max_lt_iff.mp above
    refine ⟨band, above, below, room band tall, ?_⟩
    rw [sub_lt_comm, lt_div_iff₀ period] at sudden
    rw [finite, ExtNum.fin_lt_fin]
    linarith

/-- A close far enough up for what is needed, and not so far that the fall is an impulse. -/
theorem exists_close {need high atr : ℚ} (moves : 0 < atr) (less : need * atr < high)
    (sudden : fin need < params.impulseAtrMultiple) :
    ∃ close : ℚ, need * atr < close ∧ close ≤ high ∧
      fin close < params.impulseAtrMultiple * fin atr := by
  rcases multiple_cases params.impulse_pos with infinite | ⟨ι, -, finite⟩
  · refine ⟨high, less, le_rfl, ?_⟩
    rw [infinite, show (.posInf * fin atr : ExtNum ℚ) = .posInf from if_pos moves]
    trivial
  · rw [finite, ExtNum.fin_lt_fin] at sudden
    obtain ⟨close, needed, inside⟩ :=
      exists_between (lt_min less (mul_lt_mul_of_pos_right sudden moves))
    obtain ⟨low, calm⟩ := lt_min_iff.mp inside
    exact ⟨close, needed, low.le, finite ▸ calm⟩

/-- One swing less than there could be: the range comes from the fall. -/
theorem fall_ranging (multiple : params.swingAtrMultiple = fin s) (range : params.rangeHeightAtr = fin r)
    (wider : s < r) (narrow : r ≤ 1) (spare : params.Spare)
    (room : params.atrPeriod + 2 ≤ params.maxCandles)
    (many : params.minSwings ≤ 2 * params.maxCandles - 1) :
    ∃ candles, History params candles ∧ Ranging params candles := by
  have period := atrPeriod_pos params
  have least := params.atrPeriod_ge
  have pos := minReversal_pos
  have positive : 0 < s := by simpa [multiple] using params.swing_pos
  obtain ⟨count, all⟩ := Nat.exists_eq_add_of_le' (show 3 ≤ params.maxCandles by omega)
  obtain ⟨others, window⟩ := Nat.exists_eq_add_of_le' least
  have cast : (params.atrPeriod : ℚ) = others + 2 := by exact_mod_cast window
  obtain ⟨band, above, below, wide, sudden⟩ := exists_band range wider spare
  have bandPos : 0 < band := positive.trans above
  obtain ⟨atr, atr_eq⟩ : ∃ atr : ℚ, atr = minReversal / band := ⟨_, rfl⟩
  have moves : 0 < atr := atr_eq ▸ div_pos pos bandPos
  have height : band * atr = minReversal := by rw [atr_eq, mul_div_cancel₀ _ bandPos.ne']
  have less : params.atrPeriod * (1 - band) * atr < minReversal :=
    height ▸ mul_lt_mul_of_pos_right wide moves
  obtain ⟨close, needed, low, calm⟩ := exists_close moves less sudden
  have spent : 0 ≤ params.atrPeriod * (1 - band) * atr :=
    mul_nonneg (mul_nonneg period.le (by linarith)) moves.le
  obtain ⟨extra, extra_eq⟩ : ∃ extra : ℚ, extra = close - params.atrPeriod * (1 - band) * atr :=
    ⟨_, rfl⟩
  have extraPos : 0 < extra := by linarith
  have sound : ∀ c ∈ fall (count + 1) close extra, c.Sound := by
    intro c member
    have unit := minReversal_le
    simp only [fall, List.mem_append, List.mem_cons, List.not_mem_nil, or_false] at member
    rcases member with member | rfl | rfl
    · obtain rfl := List.eq_of_mem_replicate member
      exact bar_sound one_pos le_rfl (by linarith)
    · exact bar_sound one_pos (by linarith) (by linarith)
    · exact bar_sound (by linarith) (by linarith) le_rfl
  have length : (fall (count + 1) close extra).length = params.maxCandles := by
    simp only [fall, List.length_append, List.length_replicate, List.length_cons, List.length_nil]
    omega
  have last : closeBack (fall (count + 1) close extra) 1 = 1 :=
    closeBack_append (List.replicate (count + 1) (bar 1 (1 + minReversal) 1)) one_le_two
  have before : closeBack (fall (count + 1) close extra) 2 = 1 + close :=
    closeBack_append (List.replicate (count + 1) (bar 1 (1 + minReversal) 1)) le_rfl
  have split : fall (count + 1) close extra =
      List.replicate (count - others) (bar 1 (1 + minReversal) 1) ++
        bar 1 (1 + minReversal) 1 :: (List.replicate others (bar 1 (1 + minReversal) 1) ++
          [bar 1 (1 + minReversal) (1 + close), bar (1 - minReversal + extra) 1 1]) := by
    rw [fall, ← List.cons_append, ← List.append_assoc, ← List.replicate_succ,
      List.replicate_append_replicate]
    congr 2
    omega
  have average : atrOf (fall (count + 1) close extra) params.atrPeriod = atr := by
    have whole : (others + 1) * minReversal + (close + minReversal - extra) =
        params.atrPeriod * atr := by
      rw [extra_eq, ← height, cast]
      ring
    have recent := atrOf_append (List.replicate (count - others) (bar 1 (1 + minReversal) 1))
      (bar 1 (1 + minReversal) 1) (List.replicate others (bar 1 (1 + minReversal) 1) ++
          [bar 1 (1 + minReversal) (1 + close), bar (1 - minReversal + extra) 1 1])
    rw [← split, List.length_append, List.length_replicate,
      show others + [bar 1 (1 + minReversal) (1 + close),
        bar (1 - minReversal + extra) 1 1].length = params.atrPeriod from window.symm,
      show (bar 1 (1 + minReversal) 1).close = 1 from rfl,
      fall_ranges (spent.trans needed.le) low (by linarith), whole] at recent
    rw [recent, mul_div_cancel_left₀ _ period.ne']
  have reversal : params.reversal atr = minReversal := by
    rw [reversal_eq multiple, ← height]
    exact max_eq_right (by rw [mul_comm]; exact mul_le_mul_of_nonneg_right above.le moves.le)
  obtain ⟨highs, lows⟩ := fall_run extraPos (by linarith) count close
  have ranged : Ranged params (fall (count + 1) close extra) atr
      ([] ++ List.replicate (count + 3) (1 + minReversal)) ([] ++ List.replicate (count + 2) 1) := by
    refine ⟨by omega, average, moves, ?_, ?_, ?_, ?_, ?_⟩
    · rw [last, before, show (1 : ℚ) - (1 + close) = -close by ring, abs_neg,
        abs_of_nonneg (spent.trans needed.le)]
      exact calm
    · rw [multiple]
      trivial
    · rw [reversal]
      exact highs
    · rw [reversal]
      exact lows
    · simp only [List.nil_append, List.length_replicate]
      omega
  refine ⟨_, ⟨sound, length.le⟩, ranged.ranging (by omega) (.inl rfl) (by omega) (.inl rfl) last.ge
    (by rw [last]; linarith) ?_⟩
  rw [add_sub_cancel_left, ← height, range]
  exact mul_lt_mul_of_pos_right below moves

end Narrow

end CentaurApex.Cortex
