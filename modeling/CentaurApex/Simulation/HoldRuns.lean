/-
# Simulation.HoldRuns -- a policy that does nothing, over years of prices

Two harnesses replay synthetic years against a policy: the shadow sandbox (`runSimulation`) and
the stress harness (`chronosRun`).  At every tick the equity is multiplied by the tick over the
first tick of the year.  The factors compound: with a policy that holds, the equity after a tick
is not that of the year's start, moved by the price from the first tick to this one, but that
times every such move before.

* **The worst drawdown is that of the equity** that is computed, in both (`marked_worst`).
* **The equity is that of the market, exactly when** (`tracks_iff`) no year leaves its first
  price before its last tick, or there is nothing to lose at the start.

Refuting pole `compounded`: one percent up, and then nothing.
-/
import CentaurApex.Simulation.SyntheticGen
import Mathlib.Order.Bounds.Basic
import Mathlib.Tactic.FieldSimp

namespace CentaurApex.Simulation

set_option autoImplicit false

/-! ## The harnesses -/

/-- The running figures of a harness. -/
structure Account where
  equity : ℚ
  peak : ℚ
  worstDrawdown : ℚ
  deriving DecidableEq

def Account.opened (startEquity : ℚ) : Account := ⟨startEquity, startEquity, 0⟩

/-- The peak and the worst drawdown, after a new equity. -/
def Account.moved (account : Account) (equity : ℚ) : Account :=
  let peak := max account.peak equity
  ⟨equity, peak, max account.worstDrawdown ((peak - equity) / peak)⟩

/-- What ends a run early. -/
inductive Halt (ε : Type) where
  | exhausted (account : Account)
  | raised (e : ε)

/-- A policy sees the equity after a tick, and may raise. -/
abbrev Policy (ε : Type) : Type := ℚ → Except ε Unit

/-- `lambda equity: None` -/
def hold : Policy Empty := fun _ => .ok ()

section Harness

variable {ε : Type} (policy : Policy ε)

/-- The policy is called, and the run goes on. -/
def consult (account : Account) : Except (Halt ε) Account :=
  match policy account.equity with
  | .ok () => .ok account
  | .error e => .error (.raised e)

/-- The body of the inner loop of `_run_simulation`; `first` is the first tick of the year. -/
def shadowTick (first : ℚ) (account : Account) (tick : ℚ) : Except (Halt ε) Account :=
  let equity := account.equity * (tick / if first ≤ 0 then 1 else first)
  if equity ≤ 0 then .error (.exhausted { account with equity := 0 })
  else consult policy (account.moved equity)

/-- The body of the inner loop of `ChronosStressHarness.run`. -/
def chronosTick (first : ℚ) (account : Account) (tick : ℚ) : Except (Halt ε) Account :=
  let equity := account.equity * (tick / if first ≠ 0 then first else 1)
  if equity ≤ 0 then .error (.exhausted (account.moved equity))
  else consult policy (account.moved equity)

/-- The inner loop, over the curve of one year. -/
def replayYear (tickOf : ℚ → Account → ℚ → Except (Halt ε) Account) (account : Account) :
    List ℚ → Except (Halt ε) Account
  | [] => .ok account
  | first :: ticks => (first :: ticks).foldlM (tickOf first) account

/-- `_run_simulation`, from a year on: the equity, the worst drawdown, and the years. -/
def runSimulation : ℕ → List (List ℚ) → Account → Except ε (ℚ × ℚ × ℕ)
  | year, [], account => .ok (account.equity, account.worstDrawdown, year)
  | year, curve :: curves, account =>
      match replayYear (shadowTick policy) account curve with
      | .ok account => runSimulation (year + 1) curves account
      | .error (.exhausted account) => .ok (account.equity, account.worstDrawdown, year)
      | .error (.raised e) => .error e

/-- `ChronosStressHarness.run`: whether it survives, and the figures that are printed. -/
def chronosRun : List (List ℚ) → Account → Except ε (Bool × Account)
  | [], account => .ok (true, account)
  | curve :: curves, account =>
      match replayYear (chronosTick policy) account curve with
      | .ok account => chronosRun curves account
      | .error (.exhausted account) => .ok (false, account)
      | .error (.raised e) => .error e

/-! ## What a run goes through -/

variable (tickOf : ℚ → Account → ℚ → Except (Halt ε) Account)

/-- The figures after each tick, to the last. -/
def afterTicks (first : ℚ) : Account → List ℚ → List Account
  | _, [] => []
  | account, tick :: ticks =>
      match tickOf first account tick with
      | .ok account => account :: afterTicks first account ticks
      | .error (.exhausted account) => [account]
      | .error (.raised _) => []

/-- A year of a run: the figures at its start, its curve, and the figures after each tick. -/
structure Year where
  start : Account
  curve : List ℚ
  after : List Account

def yearsOf : Account → List (List ℚ) → List Year
  | _, [] => []
  | account, curve :: curves =>
      ⟨account, curve, afterTicks tickOf (curve.headD 1) account curve⟩ ::
        match replayYear tickOf account curve with
        | .ok account => yearsOf account curves
        | .error _ => []

end Harness

/-- The equities of a run. -/
def equities (years : List Year) : List ℚ :=
  years.flatMap fun year => year.after.map Account.equity

/-- How far each equity is below the highest so far. -/
def drawdowns : ℚ → List ℚ → List ℚ
  | _, [] => []
  | peak, equity :: rest =>
      (max peak equity - equity) / max peak equity :: drawdowns (max peak equity) rest

/-- In every year the equity moves as the price does, and the worst drawdown is the largest. -/
def Tracks (startEquity : ℚ) (years : List Year) (worst : ℚ) : Prop :=
  (∀ year ∈ years, ∀ (t : ℕ) (account : Account) (tick : ℚ),
    year.after[t]? = some account → year.curve[t]? = some tick →
      account.equity = year.start.equity * tick / year.curve.headD 1) ∧
  IsGreatest {d | d ∈ 0 :: drawdowns startEquity (equities years)} worst

/-- The ticks of some curves. -/
def ticksOf (curves : List PriceCurve) : List (List ℚ) := curves.map PriceCurve.ticks

/-- A hold in the shadow sandbox follows the market. -/
def ShadowTracks (startEquity : ℚ) (curves : List PriceCurve) : Prop :=
  ∃ equity worst years,
    runSimulation hold 0 (ticksOf curves) (.opened startEquity) = .ok (equity, worst, years) ∧
    Tracks startEquity (yearsOf (shadowTick hold) (.opened startEquity) (ticksOf curves)) worst

/-- `equity = 1_000_000.0` -/
def chronosEquity : ℚ := 1000000

/-- A hold in the stress harness follows the market. -/
def ChronosTracks (curves : List PriceCurve) : Prop :=
  ∃ survives account, chronosRun hold (ticksOf curves) (.opened chronosEquity) =
      .ok (survives, account) ∧
    Tracks chronosEquity (yearsOf (chronosTick hold) (.opened chronosEquity) (ticksOf curves))
      account.worstDrawdown

/-! ## A hold marks to market -/

namespace Account

/-- The figures after a move of the price. -/
def marked (account : Account) (ratio : ℚ) : Account := account.moved (account.equity * ratio)

/-- The figures after each of some moves. -/
def markAll : Account → List ℚ → List Account
  | _, [] => []
  | account, ratio :: ratios => account.marked ratio :: markAll (account.marked ratio) ratios

theorem marked_equity (account : Account) (ratio : ℚ) :
    (account.marked ratio).equity = account.equity * ratio := rfl

theorem markAll_append (account : Account) (front back : List ℚ) :
    account.markAll (front ++ back) =
      account.markAll front ++ (front.foldl marked account).markAll back := by
  induction front generalizing account with
  | nil => rfl
  | cons ratio front ih => exact congrArg (account.marked ratio :: ·) (ih _)

theorem equity_pos {account : Account} (positive : 0 < account.equity) {ratios : List ℚ}
    (up : ∀ ratio ∈ ratios, 0 < ratio) : 0 < (ratios.foldl marked account).equity := by
  induction ratios generalizing account with
  | nil => exact positive
  | cons ratio ratios ih =>
      obtain ⟨first, up⟩ := List.forall_mem_cons.mp up
      exact ih (mul_pos positive first) up

/-- The worst drawdown is the largest of those on the way. -/
theorem marked_worst (account : Account) (ratios : List ℚ) :
    (ratios.foldl marked account).worstDrawdown =
      (drawdowns account.peak ((account.markAll ratios).map Account.equity)).foldl max
        account.worstDrawdown := by
  induction ratios generalizing account with
  | nil => rfl
  | cons ratio ratios ih => exact ih (account.marked ratio)

end Account

/-- The largest of some numbers. -/
theorem isGreatest_foldl_max (start : ℚ) (xs : List ℚ) :
    IsGreatest {x | x ∈ start :: xs} (xs.foldl max start) := by
  induction xs generalizing start with
  | nil => simp
  | cons x xs ih =>
      obtain ⟨member, above⟩ := ih (max start x)
      constructor
      · rcases List.mem_cons.mp member with same | rest
        · rw [List.foldl_cons, same]
          rcases max_choice start x with left | right
          · rw [left]
            exact List.mem_cons_self
          · rw [right]
            exact List.mem_cons_of_mem _ List.mem_cons_self
        · exact List.mem_cons_of_mem _ (List.mem_cons_of_mem _ rest)
      · intro y member
        have first := above List.mem_cons_self
        rcases List.mem_cons.mp member with rfl | member
        · exact (le_max_left _ _).trans first
        · rcases List.mem_cons.mp member with rfl | rest
          · exact (le_max_right _ _).trans first
          · exact above (List.mem_cons_of_mem _ rest)

/-- The moves of a year, from its first tick. -/
def ratios (curve : List ℚ) : List ℚ := curve.map (· / curve.headD 1)

/-- A tick that marks to market, where everything is positive. -/
def Marks (tickOf : ℚ → Account → ℚ → Except (Halt Empty) Account) : Prop :=
  ∀ first account tick, 0 < first → 0 < tick → 0 < account.equity →
    tickOf first account tick = .ok (account.marked (tick / first))

theorem shadowTick_marks : Marks (shadowTick hold) := by
  intro first account tick positive up equity
  have factor : 0 < account.equity * (tick / first) := mul_pos equity (div_pos up positive)
  rw [shadowTick, if_neg (not_le.mpr positive)]
  rw [if_neg (not_le.mpr factor)]
  rfl

theorem chronosTick_marks : Marks (chronosTick hold) := by
  intro first account tick positive up equity
  have factor : 0 < account.equity * (tick / first) := mul_pos equity (div_pos up positive)
  rw [chronosTick, if_pos positive.ne']
  rw [if_neg (not_le.mpr factor)]
  rfl

/-- The price stays at its first until the last tick. -/
def Flat (curve : List ℚ) : Prop := ∀ tick ∈ curve.dropLast, tick = curve.headD 1

/-- The equity follows the price of a year, exactly when it does not compound. -/
theorem marked_follows_iff {first : ℚ} (positive : 0 < first) {account : Account}
    (equity : 0 < account.equity) {ticks : List ℚ} (up : ∀ tick ∈ ticks, 0 < tick) :
    (∀ (t : ℕ) (after : Account) (tick : ℚ),
      (account.markAll (ticks.map (· / first)))[t]? = some after → ticks[t]? = some tick →
        after.equity = account.equity * tick / first) ↔ ∀ tick ∈ ticks.dropLast, tick = first := by
  induction ticks generalizing account with
  | nil => simp
  | cons tick ticks ih =>
      obtain ⟨here, up⟩ := List.forall_mem_cons.mp up
      have grown : 0 < (account.marked (tick / first)).equity :=
        mul_pos equity (div_pos here positive)
      cases ticks with
      | nil =>
          refine iff_of_true (fun t after tick' found found' => ?_) (by simp)
          cases t with
          | zero =>
              obtain rfl := Option.some.inj found
              obtain rfl := Option.some.inj found'
              exact (mul_div_assoc _ _ _).symm
          | succ t => cases found
      | cons next ticks =>
          rw [List.dropLast_cons_of_ne_nil (List.cons_ne_nil next ticks), List.forall_mem_cons,
            ← ih grown up]
          constructor
          · intro follows
            have same : tick = first := by
              have second : account.equity * (tick / first) * (next / first) =
                  account.equity * next / first := follows 1 _ next rfl rfl
              have factor : account.equity * (next / first) ≠ 0 :=
                (mul_pos equity (div_pos (up next List.mem_cons_self) positive)).ne'
              have one : account.equity * (next / first) * (tick / first) =
                  account.equity * (next / first) * 1 := by
                rw [mul_right_comm, second, mul_one, mul_div_assoc]
              exact (div_eq_one_iff_eq positive.ne').mp (mul_left_cancel₀ factor one)
            refine ⟨same, fun t after tick' found found' => ?_⟩
            have later := follows (t + 1) after tick' found found'
            rw [later, Account.marked_equity, same, div_self positive.ne', mul_one]
          · rintro ⟨rfl, follows⟩ t after tick' found found'
            cases t with
            | zero =>
                obtain rfl := Option.some.inj found
                obtain rfl := Option.some.inj found'
                exact (mul_div_assoc _ _ _).symm
            | succ t =>
                have later := follows t after tick' found found'
                rw [later, Account.marked_equity, div_self positive.ne', mul_one]

theorem ratios_pos (curve : PriceCurve) : ∀ ratio ∈ ratios curve.ticks, 0 < ratio := by
  obtain ⟨ticks, up⟩ := curve
  cases ticks with
  | nil => simp [ratios]
  | cons first ticks =>
      intro ratio member
      obtain ⟨tick, here, rfl⟩ := List.mem_map.mp member
      exact div_pos (up tick here) (up first List.mem_cons_self)

section Run

variable {tickOf : ℚ → Account → ℚ → Except (Halt Empty) Account} (marks : Marks tickOf)

include marks

theorem ticks_marked {first : ℚ} (positive : 0 < first) {account : Account}
    (equity : 0 < account.equity) {ticks : List ℚ} (up : ∀ tick ∈ ticks, 0 < tick) :
    afterTicks tickOf first account ticks = account.markAll (ticks.map (· / first)) ∧
      ticks.foldlM (tickOf first) account =
        .ok ((ticks.map (· / first)).foldl Account.marked account) := by
  induction ticks generalizing account with
  | nil => exact ⟨rfl, rfl⟩
  | cons tick ticks ih =>
      obtain ⟨here, up⟩ := List.forall_mem_cons.mp up
      have step := marks first account tick positive here equity
      have grown : 0 < (account.marked (tick / first)).equity :=
        mul_pos equity (div_pos here positive)
      obtain ⟨after, final⟩ := ih grown up
      constructor
      · rw [afterTicks, step]
        exact congrArg (_ :: ·) after
      · rw [List.foldlM_cons, step]
        exact final

theorem year_marked {account : Account} (equity : 0 < account.equity) (curve : PriceCurve) :
    afterTicks tickOf (curve.ticks.headD 1) account curve.ticks =
        account.markAll (ratios curve.ticks) ∧
      replayYear tickOf account curve.ticks =
        .ok ((ratios curve.ticks).foldl Account.marked account) := by
  obtain ⟨ticks, up⟩ := curve
  cases ticks with
  | nil => exact ⟨rfl, rfl⟩
  | cons first ticks =>
      exact ticks_marked marks (up first List.mem_cons_self) equity up

/-- The moves of all years. -/
def allRatios (curves : List PriceCurve) : List ℚ := curves.flatMap fun curve => ratios curve.ticks

theorem equities_marked {account : Account} (equity : 0 < account.equity)
    (curves : List PriceCurve) :
    equities (yearsOf tickOf account (ticksOf curves)) =
      (account.markAll (allRatios curves)).map Account.equity := by
  induction curves generalizing account with
  | nil => rfl
  | cons curve curves ih =>
      obtain ⟨after, final⟩ := year_marked marks equity curve
      have grown := Account.equity_pos equity (ratios_pos curve)
      rw [ticksOf, List.map_cons, yearsOf, final, equities, List.flatMap_cons, after, allRatios,
        List.flatMap_cons, Account.markAll_append, List.map_append]
      exact congrArg (_ ++ ·) (ih grown)

/-- The first clause, year by year. -/
theorem follows_iff {account : Account} (equity : 0 < account.equity)
    (curves : List PriceCurve) :
    (∀ year ∈ yearsOf tickOf account (ticksOf curves), ∀ (t : ℕ) (after : Account) (tick : ℚ),
      year.after[t]? = some after → year.curve[t]? = some tick →
        after.equity = year.start.equity * tick / year.curve.headD 1) ↔
      ∀ curve ∈ curves, Flat curve.ticks := by
  induction curves generalizing account with
  | nil => simp [ticksOf, yearsOf]
  | cons curve curves ih =>
      obtain ⟨after, final⟩ := year_marked marks equity curve
      have grown := Account.equity_pos equity (ratios_pos curve)
      rw [ticksOf, List.map_cons, yearsOf, final, List.forall_mem_cons, List.forall_mem_cons]
      refine and_congr ?_ (ih grown)
      rw [after]
      obtain ⟨ticks, up⟩ := curve
      cases ticks with
      | nil => simp [ratios, Account.markAll, Flat]
      | cons first ticks => exact marked_follows_iff (up first List.mem_cons_self) equity up

end Run

/-! ## With equity at the start -/

/-- What a run comes to, with the equity it starts with. -/
def finalAccount (startEquity : ℚ) (curves : List PriceCurve) : Account :=
  (allRatios curves).foldl Account.marked (.opened startEquity)

theorem runSimulation_marked {account : Account} (equity : 0 < account.equity)
    (curves : List PriceCurve) (year : ℕ) :
    ∃ years, runSimulation hold year (ticksOf curves) account =
      .ok (((allRatios curves).foldl Account.marked account).equity,
        ((allRatios curves).foldl Account.marked account).worstDrawdown, years) := by
  induction curves generalizing account year with
  | nil => exact ⟨year, rfl⟩
  | cons curve curves ih =>
      have final := (year_marked shadowTick_marks equity curve).2
      have grown := Account.equity_pos equity (ratios_pos curve)
      rw [ticksOf, List.map_cons, runSimulation, final, allRatios, List.flatMap_cons,
        List.foldl_append]
      exact ih grown (year + 1)

theorem chronosRun_marked {account : Account} (equity : 0 < account.equity)
    (curves : List PriceCurve) :
    chronosRun hold (ticksOf curves) account =
      .ok (true, (allRatios curves).foldl Account.marked account) := by
  induction curves generalizing account with
  | nil => rfl
  | cons curve curves ih =>
      have final := (year_marked chronosTick_marks equity curve).2
      have grown := Account.equity_pos equity (ratios_pos curve)
      rw [ticksOf, List.map_cons, chronosRun, final, allRatios, List.flatMap_cons,
        List.foldl_append]
      exact ih grown

/-- With equity at the start, a run tracks exactly when no year compounds. -/
theorem tracks_marked_iff {tickOf : ℚ → Account → ℚ → Except (Halt Empty) Account}
    (marks : Marks tickOf) {startEquity : ℚ} (positive : 0 < startEquity)
    (curves : List PriceCurve) :
    Tracks startEquity (yearsOf tickOf (.opened startEquity) (ticksOf curves))
        (finalAccount startEquity curves).worstDrawdown ↔ ∀ curve ∈ curves, Flat curve.ticks := by
  have opened : 0 < (Account.opened startEquity).equity := positive
  rw [← follows_iff marks opened curves]
  refine and_iff_left ?_
  rw [equities_marked marks opened, finalAccount, Account.marked_worst]
  exact isGreatest_foldl_max 0 _

/-! ## With nothing at the start -/

section Broke

variable {account : Account} (broke : account.equity ≤ 0)

include broke

theorem shadowTick_broke {first tick : ℚ} (positive : 0 < first) (up : 0 < tick) :
    shadowTick hold first account tick = .error (.exhausted { account with equity := 0 }) := by
  rw [shadowTick, if_neg (not_le.mpr positive)]
  exact if_pos (mul_nonpos_of_nonpos_of_nonneg broke (div_pos up positive).le)

/-- The first tick ends the run. -/
theorem year_broke {first : ℚ} {ticks : List ℚ} (positive : 0 < first) :
    afterTicks (shadowTick hold) first account (first :: ticks) =
        [{ account with equity := 0 }] ∧
      replayYear (shadowTick hold) account (first :: ticks) =
        .error (.exhausted { account with equity := 0 }) := by
  have step := shadowTick_broke broke positive positive
  constructor
  · rw [afterTicks, step]
  · rw [replayYear, List.foldlM_cons, step]
    rfl

theorem runSimulation_broke (curves : List PriceCurve) (year : ℕ) :
    ∃ equity years, runSimulation hold year (ticksOf curves) account =
      .ok (equity, account.worstDrawdown, years) := by
  induction curves generalizing year with
  | nil => exact ⟨_, _, rfl⟩
  | cons curve curves ih =>
      obtain ⟨ticks, up⟩ := curve
      cases ticks with
      | nil => exact ih (year + 1)
      | cons first ticks =>
          have stops : replayYear (shadowTick hold) account (first :: ticks) =
              .error (.exhausted { account with equity := 0 }) :=
            (year_broke broke (up first List.mem_cons_self)).2
          rw [ticksOf, List.map_cons, runSimulation, stops]
          exact ⟨_, _, rfl⟩

/-- The years of a run that has nothing: empty ones, and one that ends at once, if there is one
with a tick. -/
theorem yearsOf_broke (curves : List PriceCurve) :
    ∃ before last, yearsOf (shadowTick hold) account (ticksOf curves) = before ++ last ∧
      (∀ year ∈ before, year.after = []) ∧
      ((∀ curve ∈ curves, curve.ticks = []) ∧ last = [] ∨
        (∃ curve ∈ curves, curve.ticks ≠ []) ∧ ∃ first ticks, 0 < first ∧
          last = [⟨account, first :: ticks, [{ account with equity := 0 }]⟩]) := by
  induction curves with
  | nil => exact ⟨[], [], rfl, by simp, .inl ⟨by simp, rfl⟩⟩
  | cons curve curves ih =>
      obtain ⟨ticks, up⟩ := curve
      cases ticks with
      | nil =>
          obtain ⟨before, last, split, empty, ends⟩ := ih
          refine ⟨⟨account, [], []⟩ :: before, last, congrArg (_ :: ·) split,
            List.forall_mem_cons.mpr ⟨rfl, empty⟩, ?_⟩
          rcases ends with ⟨none_, rfl⟩ | ⟨⟨curve, member, some_⟩, one⟩
          · exact .inl ⟨List.forall_mem_cons.mpr ⟨rfl, none_⟩, rfl⟩
          · exact .inr ⟨⟨curve, List.mem_cons_of_mem _ member, some_⟩, one⟩
      | cons first ticks =>
          have positive := up first List.mem_cons_self
          obtain ⟨after, stops⟩ : afterTicks (shadowTick hold) first account (first :: ticks) =
              [{ account with equity := 0 }] ∧ replayYear (shadowTick hold) account
                (first :: ticks) = .error (.exhausted { account with equity := 0 }) :=
            year_broke broke positive
          refine ⟨[], [⟨account, first :: ticks, [{ account with equity := 0 }]⟩], ?_, by simp,
            .inr ⟨⟨_, List.mem_cons_self, List.cons_ne_nil _ _⟩, first, ticks, positive, rfl⟩⟩
          rw [ticksOf, List.map_cons, yearsOf, stops, List.headD_cons, after]
          rfl

end Broke

/-- With nothing at the start, a run in the shadow sandbox tracks if it starts with nothing at
all, or has no tick. -/
theorem tracks_broke_iff {startEquity : ℚ} (broke : startEquity ≤ 0) (curves : List PriceCurve) :
    Tracks startEquity (yearsOf (shadowTick hold) (.opened startEquity) (ticksOf curves)) 0 ↔
      (startEquity < 0 → ∀ curve ∈ curves, curve.ticks = []) := by
  have opened : (Account.opened startEquity).equity ≤ 0 := broke
  obtain ⟨before, last, split, empty, ends⟩ := yearsOf_broke opened curves
  have quiet : equities before = [] :=
    List.flatMap_eq_nil_iff.mpr fun year member => by rw [empty year member, List.map_nil]
  unfold Tracks
  rw [split, equities, List.flatMap_append, ← equities, ← equities, quiet, List.nil_append]
  rcases ends with ⟨none_, rfl⟩ | ⟨some_, first, ticks, positive, rfl⟩
  · refine iff_of_true ⟨?_, ?_⟩ fun _ => none_
    · intro year member t after tick found
      rw [List.append_nil] at member
      rw [empty year member] at found
      cases found
    · exact isGreatest_foldl_max 0 []
  · rcases broke.eq_or_lt with rfl | debt
    · refine iff_of_true ⟨?_, ?_⟩ fun debt => absurd debt (lt_irrefl 0)
      · intro year member t after tick found _
        rcases List.mem_append.mp member with early | late
        · rw [empty year early] at found
          cases found
        · obtain rfl := List.mem_singleton.mp late
          obtain rfl : ({ Account.opened 0 with equity := 0 } : Account) = after :=
            List.mem_singleton.mp (List.mem_of_getElem? found) ▸ rfl
          simp [Account.opened]
      · simp [equities, drawdowns]
    · refine iff_of_false (fun tracks => ?_) fun none_ => ?_
      · have gone := tracks.1 _ (List.mem_append_right _ List.mem_cons_self) 0 _ first rfl rfl
        have same : (0 : ℚ) = startEquity * first / first := gone
        rw [mul_div_assoc, div_self positive.ne', mul_one] at same
        exact debt.ne same.symm
      · obtain ⟨curve, member, ticks_⟩ := some_
        exact ticks_ (none_ debt curve member)

/-- A run has one result. -/
theorem shadowTracks_iff {startEquity equity worst : ℚ} {years : ℕ} {curves : List PriceCurve}
    (ends : runSimulation hold 0 (ticksOf curves) (.opened startEquity) =
      .ok (equity, worst, years)) :
    ShadowTracks startEquity curves ↔
      Tracks startEquity (yearsOf (shadowTick hold) (.opened startEquity) (ticksOf curves))
        worst := by
  constructor
  · rintro ⟨equity', worst', years', ends', tracks⟩
    obtain ⟨-, rfl, -⟩ : equity = equity' ∧ worst = worst' ∧ years = years' := by
      simpa using Except.ok.inj (ends.symm.trans ends')
    exact tracks
  · exact fun tracks => ⟨equity, worst, years, ends, tracks⟩

/-- **A hold tracks the market exactly when** nothing compounds: in the shadow sandbox, if there
is equity at the start, no year leaves its first price before its last tick, and if there is a
debt, there is no tick at all; in the stress harness, no year leaves its first price before its
last tick. -/
theorem tracks_iff (startEquity : ℚ) (curves : List PriceCurve) :
    (ShadowTracks startEquity curves ↔
      (startEquity < 0 → ∀ curve ∈ curves, curve.ticks = []) ∧
        (0 < startEquity → ∀ curve ∈ curves, Flat curve.ticks)) ∧
    (ChronosTracks curves ↔ ∀ curve ∈ curves, Flat curve.ticks) := by
  constructor
  · rcases le_or_gt startEquity 0 with broke | positive
    · have opened : (Account.opened startEquity).equity ≤ 0 := broke
      obtain ⟨equity, years, ends⟩ := runSimulation_broke opened curves 0
      refine ((shadowTracks_iff ends).trans (tracks_broke_iff broke curves)).trans ?_
      exact (and_iff_left fun positive => absurd positive (not_lt.mpr broke)).symm
    · obtain ⟨years, ends⟩ : ∃ years, runSimulation hold 0 (ticksOf curves)
        (.opened startEquity) = .ok ((finalAccount startEquity curves).equity,
          (finalAccount startEquity curves).worstDrawdown, years) :=
        runSimulation_marked positive curves 0
      rw [shadowTracks_iff ends, tracks_marked_iff shadowTick_marks positive]
      constructor
      · exact fun flat => ⟨fun debt => absurd debt (not_lt.mpr positive.le), fun _ => flat⟩
      · exact fun both => both.2 positive
  · have positive : 0 < chronosEquity := by norm_num [chronosEquity]
    have ends : chronosRun hold (ticksOf curves) (.opened chronosEquity) =
        .ok (true, finalAccount chronosEquity curves) := chronosRun_marked positive curves
    rw [← tracks_marked_iff chronosTick_marks positive]
    constructor
    · rintro ⟨survives, account, ends', tracks⟩
      obtain ⟨-, rfl⟩ : true = survives ∧ finalAccount chronosEquity curves = account := by
        simpa using Except.ok.inj (ends.symm.trans ends')
      exact tracks
    · exact fun tracks => ⟨_, _, ends, tracks⟩

/-- Draws of no regime but the normal one. -/
def normalDraws (gausses : List ℚ) : List Draw := gausses.map fun gauss => ⟨.normal, gauss⟩

/-- Refuting pole: 100, and then 101 twice; a million becomes 1020100. -/
theorem compounded :
    ¬ ∀ startEquity curves, ShadowTracks startEquity curves ∧ ChronosTracks curves := by
  intro always
  obtain ⟨_, _, -, follows, -⟩ := (always 1000000 [pricePath 100 (normalDraws [0, 1 / 100, 0])]).2
  have positive : 0 < (Account.opened chronosEquity).equity := by
    norm_num [Account.opened, chronosEquity]
  have flat := (follows_iff chronosTick_marks positive _).mp follows _ List.mem_cons_self
  exact absurd (flat 101 (by decide +kernel)) (by decide +kernel)

end CentaurApex.Simulation
