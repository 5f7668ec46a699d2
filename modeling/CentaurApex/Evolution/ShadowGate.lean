/-
# Evolution.ShadowGate -- what a candidate policy has to do to pass

A staged policy is tried on synthetic years before it is promoted.  The policy is called
with the equity after every tick, and what it answers is not used: the equity moves with
the price alone.  So a candidate can fail only by raising, and else it passes or fails with
the market, with the figures of a policy that holds (`shadow_gate_iff`).

A candidate may keep a state of its own between two calls (`Candidate`).  The arithmetic is that
of doubles: a positive equity can be rounded to zero, or to an infinity, and a difference of
infinities is NaN, which neither `max` nor a comparison sees.
-/
import CentaurApex.Simulation.SyntheticGen
import CentaurApex.Theory.Doubles
import CentaurApex.Theory.Json

namespace CentaurApex.Evolution

open CentaurApex.Theory
open CentaurApex.Theory.ExtNum (fin)
open CentaurApex.Theory.Python (max2)
open CentaurApex.Simulation (Regime round6)

set_option autoImplicit false

/-! ## The prices -/

/-- `round(x, 6)`, of a double. -/
def roundTick : Double → Double
  | .fin q => toBinary64 (round6 q)
  | x => x

/-- What is drawn for a point: the regime, and `gauss(0.0, volatility)`. -/
abbrev Draw : Type := Regime × Double

/-- The price after a draw. -/
def nextPrice (price : Double) (draw : Draw) : Double :=
  let drift := toDouble (draw.2 * toDouble (fin draw.1.shock))
  max2 (toDouble (price * toDouble (fin 1 + drift))) (toDouble (fin (1 / 10000)))

/-- The equity curve of `generate_price_path`. -/
def equityCurve : Double → List Draw → List Double
  | _, [] => []
  | price, draw :: draws =>
      let price := nextPrice price draw
      roundTick (max2 price (fin 0)) :: equityCurve price draws

/-! ## The runner -/

/-- A policy with a state of its own: called with an equity, it goes on or raises an `Exception`,
of which the text is kept. -/
structure Candidate (π : Type) where
  start : π
  call : π → Double → Except String π

/-- `lambda equity: None` -/
def Candidate.hold : Candidate Unit := ⟨(), fun _ _ => .ok ()⟩

structure ShadowSimulationConfig where
  simulatedYears : ℕ
  startEquity : Double
  maxAcceptableDrawdown : Double
  volatility : Double
  pricePointsPerYear : ℕ
  deriving DecidableEq

def ShadowSimulationConfig.default : ShadowSimulationConfig where
  simulatedYears := 1
  startEquity := fin 1000000
  maxAcceptableDrawdown := toDouble (fin (99 / 100))
  volatility := toDouble (fin (1 / 100))
  pricePointsPerYear := 365

structure ShadowSimulationResult where
  passed : Bool
  finalEquity : Double
  worstDrawdown : Double
  yearsSimulated : ℕ
  error : Option String
  deriving DecidableEq

/-- The running figures. -/
structure Figures where
  equity : Double
  peak : Double
  worstDrawdown : Double

def Figures.opened (startEquity : Double) : Figures := ⟨startEquity, startEquity, fin 0⟩

/-- What ends a run early: the equity is gone, or something raised. -/
inductive Halt where
  | exhausted (worstDrawdown : Double)
  | raised (text : String)

/-- How far an equity is below its peak. -/
def drawdownOf (peak equity : Double) : Double := toDouble (toDouble (peak - equity) / peak)

/-- The factor by which a tick moves the equity; `first` is the first tick of the year. -/
def moveOf (first tick : Double) : Double :=
  toDouble (tick / if first ≤ fin 0 then fin 1 else first)

/-- The inner loop of `_run_simulation`, up to the call of the policy. -/
def Figures.marked (figures : Figures) (move : Double) : Except Halt Figures :=
  let equity := toDouble (figures.equity * move)
  if equity ≤ fin 0 then .error (.exhausted figures.worstDrawdown)
  else
    let peak := max2 figures.peak equity
    if peak = fin 0 then .error (.raised "float division by zero")
    else .ok ⟨equity, peak, max2 figures.worstDrawdown (drawdownOf peak equity)⟩

section Runner

variable {π : Type} (candidate : Candidate π)

/-- The policy is called, and the run goes on. -/
def consult (state : π) (figures : Figures) : Except Halt (Figures × π) :=
  match candidate.call state figures.equity with
  | .ok state => .ok (figures, state)
  | .error text => .error (.raised text)

def candidateMove (run : Figures × π) (move : Double) : Except Halt (Figures × π) :=
  match run.1.marked move with
  | .ok figures => consult candidate run.2 figures
  | .error halt => .error halt

/-- The body of the inner loop. -/
def candidateTick (first : Double) (run : Figures × π) (tick : Double) :
    Except Halt (Figures × π) :=
  candidateMove candidate run (moveOf first tick)

/-- The inner loop, over the curve of one year. -/
def candidateYear (run : Figures × π) : List Double → Except Halt (Figures × π)
  | [] => .ok run
  | first :: ticks => (first :: ticks).foldlM (candidateTick candidate first) run

/-- `_run_simulation`, from a year on: the equity, the worst drawdown, and the years. -/
def candidateRun : ℕ → List (List Double) → Figures × π → Except String (Double × Double × ℕ)
  | year, [], run => .ok (run.1.equity, run.1.worstDrawdown, year)
  | year, curve :: curves, run =>
      match candidateYear candidate run curve with
      | .ok run => candidateRun (year + 1) curves run
      | .error (.exhausted worstDrawdown) => .ok (fin 0, worstDrawdown, year)
      | .error (.raised text) => .error text

/-- The curves of the simulated years, from what is drawn in each. -/
def yearCurves (cfg : ShadowSimulationConfig) (draws : ℕ → ℕ → Draw) : List (List Double) :=
  (List.range cfg.simulatedYears).map fun year =>
    equityCurve (fin 100) ((List.range cfg.pricePointsPerYear).map (draws year))

/-- `execute_shadow_simulation`. -/
def executeShadowSimulation (cfg : ShadowSimulationConfig) (draws : ℕ → ℕ → Draw) :
    ShadowSimulationResult :=
  match candidateRun candidate 0 (yearCurves cfg draws)
      (.opened cfg.startEquity, candidate.start) with
  | .error text => ⟨false, cfg.startEquity, fin 0, 0, some text⟩
  | .ok (finalEquity, worstDrawdown, yearsDone) =>
      ⟨fin 0 < finalEquity ∧ worstDrawdown ≤ cfg.maxAcceptableDrawdown, finalEquity,
        worstDrawdown, yearsDone, none⟩

end Runner

/-! ## What the gate depends on -/

/-- The moves of a year. -/
def movesOf : List Double → List Double
  | [] => []
  | first :: ticks => (first :: ticks).map (moveOf first)

/-- The equity after each of some moves. -/
def equityPath : Double → List Double → List Double
  | _, [] => []
  | equity, move :: moves =>
      toDouble (equity * move) :: equityPath (toDouble (equity * move)) moves

/-- The equity after each tick, if the run goes on to the end. -/
def marketPath (cfg : ShadowSimulationConfig) (draws : ℕ → ℕ → Draw) : List Double :=
  equityPath cfg.startEquity ((yearCurves cfg draws).flatMap movesOf)

/-- The equities that a policy is called with: until one is gone, or the peak divides by zero. -/
def heard : Double → List Double → List Double
  | _, [] => []
  | peak, equity :: rest =>
      if equity ≤ fin 0 ∨ max2 peak equity = fin 0 then []
      else equity :: heard (max2 peak equity) rest

/-- How far each equity is below the highest so far. -/
def drawdowns : Double → List Double → List Double
  | _, [] => []
  | peak, equity :: rest =>
      drawdownOf (max2 peak equity) equity :: drawdowns (max2 peak equity) rest

/-- Called with one equity after the other, a candidate raises at none. -/
def Candidate.Bears {π : Type} (candidate : Candidate π) (equities : List Double) : Prop :=
  ∃ state, equities.foldlM candidate.call candidate.start = .ok state

/-! ## A candidate beside the market -/

section Moves

variable {π : Type} (candidate : Candidate π)

/-- What one move does. -/
theorem marked_cases (figures : Figures) (move : Double) :
    (toDouble (figures.equity * move) ≤ fin 0 ∧
      figures.marked move = .error (.exhausted figures.worstDrawdown)) ∨
    ¬ toDouble (figures.equity * move) ≤ fin 0 ∧
      (max2 figures.peak (toDouble (figures.equity * move)) = fin 0 ∧
        figures.marked move = .error (.raised "float division by zero") ∨
      max2 figures.peak (toDouble (figures.equity * move)) ≠ fin 0 ∧
        figures.marked move = .ok
          ⟨toDouble (figures.equity * move),
            max2 figures.peak (toDouble (figures.equity * move)),
            max2 figures.worstDrawdown (drawdownOf
              (max2 figures.peak (toDouble (figures.equity * move)))
              (toDouble (figures.equity * move)))⟩) := by
  by_cases gone : toDouble (figures.equity * move) ≤ fin 0
  · exact .inl ⟨gone, if_pos gone⟩
  · refine .inr ⟨gone, ?_⟩
    by_cases zero : max2 figures.peak (toDouble (figures.equity * move)) = fin 0
    · exact .inl ⟨zero, (if_neg gone).trans (if_pos zero)⟩
    · exact .inr ⟨zero, (if_neg gone).trans (if_neg zero)⟩

theorem heard_cons {peak equity : Double} (more : ¬ equity ≤ fin 0)
    (nonzero : max2 peak equity ≠ fin 0) (path : List Double) :
    heard peak (equity :: path) = equity :: heard (max2 peak equity) path :=
  if_neg (not_or.mpr ⟨more, nonzero⟩)

/-- A candidate that raises at nothing goes where the market goes. -/
theorem moves_borne (moves : List Double) : ∀ (figures : Figures) (state after : π),
    (heard figures.peak (equityPath figures.equity moves)).foldlM candidate.call state =
        .ok after →
      moves.foldlM (candidateMove candidate) (figures, state) =
        (moves.foldlM Figures.marked figures).map fun figures => (figures, after) := by
  induction moves with
  | nil =>
      intro figures state after borne
      obtain rfl := Except.ok.inj borne
      rfl
  | cons move moves ih =>
      intro figures state after borne
      rw [List.foldlM_cons, List.foldlM_cons, candidateMove]
      rcases marked_cases figures move with ⟨-, stops⟩ | ⟨more, ⟨-, stops⟩ | ⟨nonzero, goes⟩⟩
      · rw [stops]
        rfl
      · rw [stops]
        rfl
      · rw [equityPath, heard_cons more nonzero, List.foldlM_cons] at borne
        obtain ⟨next, answered, borne⟩ := Python.bind_ok_iff.mp borne
        rw [goes]
        dsimp only [consult]
        rw [answered]
        exact ih _ next after borne

/-- A candidate that raises ends the run. -/
theorem moves_raised (moves : List Double) : ∀ (figures : Figures) (state : π) (text : String),
    (heard figures.peak (equityPath figures.equity moves)).foldlM candidate.call state =
        .error text →
      moves.foldlM (candidateMove candidate) (figures, state) = .error (.raised text) := by
  induction moves with
  | nil =>
      intro figures state text raised
      cases raised
  | cons move moves ih =>
      intro figures state text raised
      rw [List.foldlM_cons, candidateMove]
      rcases marked_cases figures move with ⟨gone, -⟩ | ⟨more, ⟨zero, -⟩ | ⟨nonzero, goes⟩⟩
      · rw [equityPath, heard, if_pos (.inl gone)] at raised
        cases raised
      · rw [equityPath, heard, if_pos (.inr zero)] at raised
        cases raised
      · rw [equityPath, heard_cons more nonzero, List.foldlM_cons] at raised
        rw [goes]
        dsimp only [consult]
        cases answered : candidate.call state (toDouble (figures.equity * move)) with
        | error here =>
            rw [answered] at raised
            obtain rfl := Except.error.inj raised
            rfl
        | ok next =>
            rw [answered] at raised
            exact ih _ next text raised

/-- Where a run goes on, or where the money is gone, it is as the market has it. -/
theorem moves_market (moves : List Double) : ∀ (figures : Figures) (state : π),
    (∀ run, moves.foldlM (candidateMove candidate) (figures, state) = .ok run →
      moves.foldlM Figures.marked figures = .ok run.1) ∧
    ∀ worst, moves.foldlM (candidateMove candidate) (figures, state) = .error (.exhausted worst) →
      moves.foldlM Figures.marked figures = .error (.exhausted worst) := by
  induction moves with
  | nil =>
      intro figures state
      constructor
      · intro run ends
        obtain rfl := Except.ok.inj ends
        rfl
      · intro worst ends
        cases ends
  | cons move moves ih =>
      intro figures state
      rw [List.foldlM_cons, List.foldlM_cons, candidateMove]
      cases figures.marked move with
      | error halt =>
          constructor
          · intro run ends
            cases ends
          · intro worst ends
            obtain rfl := Except.error.inj ends
            rfl
      | ok after =>
          dsimp only [consult]
          cases candidate.call state after.equity with
          | error text =>
              constructor
              · intro run ends
                cases ends
              · intro worst ends
                cases ends
          | ok next => exact ih after next

end Moves

/-! ## Years -/

section Years

variable {π : Type}

/-- The year in which the market ends a run, or the one after the last. -/
def yearsDone : ℕ → List (List Double) → Figures → ℕ
  | year, [], _ => year
  | year, curve :: curves, figures =>
      match (movesOf curve).foldlM Figures.marked figures with
      | .ok figures => yearsDone (year + 1) curves figures
      | .error _ => year

/-- What a run returns. -/
def settled (years : ℕ) : Except Halt (Figures × π) → Except String (Double × Double × ℕ)
  | .ok run => .ok (run.1.equity, run.1.worstDrawdown, years)
  | .error (.exhausted worstDrawdown) => .ok (fin 0, worstDrawdown, years)
  | .error (.raised text) => .error text

theorem candidateYear_eq (candidate : Candidate π) (run : Figures × π) (curve : List Double) :
    candidateYear candidate run curve = (movesOf curve).foldlM (candidateMove candidate) run := by
  cases curve with
  | nil => rfl
  | cons first ticks => exact (List.foldlM_map (f := moveOf first)).symm

/-- **The years of a run are its moves**, one after the other. -/
theorem candidateRun_eq (candidate : Candidate π) (curves : List (List Double)) :
    ∀ (year : ℕ) (run : Figures × π), candidateRun candidate year curves run =
      settled (yearsDone year curves run.1)
        ((curves.flatMap movesOf).foldlM (candidateMove candidate) run) := by
  induction curves with
  | nil => exact fun _ _ => rfl
  | cons curve curves ih =>
      intro year run
      obtain ⟨goes, gone⟩ := moves_market candidate (movesOf curve) run.1 run.2
      rw [candidateRun, candidateYear_eq, List.flatMap_cons, List.foldlM_append, yearsDone]
      cases ends : (movesOf curve).foldlM (candidateMove candidate) run with
      | ok after =>
          rw [goes after ends]
          exact ih (year + 1) after
      | error halt =>
          cases halt with
          | exhausted worst =>
              rw [gone worst ends]
              rfl
          | raised text => rfl

end Years

/-! ## What the market has to do -/

section Market

/-- `max` is below a limit where its first argument is and its second is not above it. -/
theorem max2_le_iff {x y limit : Double} : max2 x y ≤ limit ↔ x ≤ limit ∧ ¬ limit < y := by
  unfold max2
  split
  · rename_i less
    constructor
    · intro le
      exact ⟨ExtNum.le_trans (ExtNum.le_of_lt less) le, fun above => ExtNum.not_le_of_lt above le⟩
    · rintro ⟨le, below⟩
      refine ExtNum.le_of_not_lt ?_ ?_ below
      · rintro rfl
        exact ExtNum.not_le_nan x le
      · rintro rfl
        exact ExtNum.not_lt_nan x less
  · rename_i first
    constructor
    · exact fun le => ⟨le, fun above => first (ExtNum.lt_of_le_of_lt le above)⟩
    · exact fun both => both.1

/-- The highest so far is not zero once an equity is positive. -/
theorem max2_ne_zero {peak equity : Double} (positive : fin 0 < equity) :
    max2 peak equity ≠ fin 0 := by
  intro zero
  unfold max2 at zero
  split at zero
  · rw [zero] at positive
    exact lt_irrefl (0 : ℚ) positive
  · rename_i first
    exact first (zero ▸ positive)

/-- **A run ends with money**, and no drawdown above a limit, exactly where every equity is
positive and no drawdown is above it. -/
theorem moves_pass_iff (limit : Double) (moves : List Double)
    (forward : ∀ move ∈ moves, ¬ move < fin 0) : ∀ figures : Figures,
    (∃ after, moves.foldlM Figures.marked figures = .ok after ∧ fin 0 < after.equity ∧
        after.worstDrawdown ≤ limit) ↔
      (∀ equity ∈ figures.equity :: equityPath figures.equity moves, fin 0 < equity) ∧
        figures.worstDrawdown ≤ limit ∧
        ∀ d ∈ drawdowns figures.peak (equityPath figures.equity moves), ¬ limit < d := by
  induction moves with
  | nil =>
      intro figures
      constructor
      · rintro ⟨after, ends, positive, below⟩
        obtain rfl := Except.ok.inj ends
        exact ⟨List.forall_mem_singleton.mpr positive, below, List.forall_mem_nil _⟩
      · rintro ⟨positive, below, -⟩
        exact ⟨figures, rfl, positive _ List.mem_cons_self, below⟩
  | cons move moves ih =>
      obtain ⟨here, forward⟩ := List.forall_mem_cons.mp forward
      intro figures
      rw [List.foldlM_cons, equityPath, drawdowns, List.forall_mem_cons]
      have follows := ih forward
        ⟨toDouble (figures.equity * move),
          max2 figures.peak (toDouble (figures.equity * move)),
          max2 figures.worstDrawdown (drawdownOf
            (max2 figures.peak (toDouble (figures.equity * move)))
            (toDouble (figures.equity * move)))⟩
      have before (positive : fin 0 < toDouble (figures.equity * move)) :
          fin 0 < figures.equity :=
        ExtNum.pos_of_mul_pos here (pos_of_toDouble_pos positive)
      rcases marked_cases figures move with ⟨gone, stops⟩ | ⟨more, ⟨zero, stops⟩ | ⟨-, goes⟩⟩
      · rw [stops]
        refine iff_of_false ?_ fun all => ?_
        · rintro ⟨after, ends, -⟩
          cases ends
        · exact ExtNum.not_le_of_lt (all.1.2 _ List.mem_cons_self) gone
      · rw [stops]
        refine iff_of_false ?_ fun all => ?_
        · rintro ⟨after, ends, -⟩
          cases ends
        · exact max2_ne_zero (all.1.2 _ List.mem_cons_self) zero
      · rw [goes]
        refine follows.trans ?_
        constructor
        · rintro ⟨positive, below, drawn⟩
          obtain ⟨below, here⟩ := max2_le_iff.mp below
          exact ⟨⟨before (positive _ List.mem_cons_self), positive⟩, below,
            List.forall_mem_cons.mpr ⟨here, drawn⟩⟩
        · rintro ⟨⟨-, positive⟩, below, drawn⟩
          obtain ⟨here, drawn⟩ := List.forall_mem_cons.mp drawn
          exact ⟨positive, max2_le_iff.mpr ⟨below, here⟩, drawn⟩

end Market

/-! ## The gate -/

section Gate

theorem tick_not_neg (price : Double) (draws : List Draw) :
    ∀ tick ∈ equityCurve price draws, ¬ tick < fin 0 := by
  induction draws generalizing price with
  | nil => exact List.forall_mem_nil _
  | cons draw draws ih =>
      refine List.forall_mem_cons.mpr ⟨?_, ih _⟩
      have above : ¬ max2 (nextPrice price draw) (fin 0) < fin 0 := by
        unfold max2
        split
        · exact lt_irrefl (0 : ℚ)
        · assumption
      cases capped : max2 (nextPrice price draw) (fin 0) with
      | fin q =>
          rw [capped] at above
          have scaled : ((0 : ℤ) : ℚ) ≤ q * 1000000 := by
            rw [Int.cast_zero]
            exact mul_nonneg (not_lt.mp above) (by norm_num)
          have rounded := roundHalfEven_mono scaled
          rw [roundHalfEven_intCast] at rounded
          exact toBinary64_nonneg (div_nonneg (by exact_mod_cast rounded) (by norm_num))
      | nan => exact id
      | posInf => exact id
      | negInf =>
          rw [capped] at above
          exact absurd trivial above

theorem move_not_neg {curve : List Double} (ticks : ∀ tick ∈ curve, ¬ tick < fin 0) :
    ∀ move ∈ movesOf curve, ¬ move < fin 0 := by
  cases curve with
  | nil => exact List.forall_mem_nil _
  | cons first rest =>
      intro move member
      obtain ⟨tick, inside, rfl⟩ := List.mem_map.mp member
      refine toDouble_not_neg (ExtNum.div_not_neg (ticks tick inside) ?_)
      split
      · exact not_le.mpr (zero_lt_one (α := ℚ))
      · assumption

theorem forward (cfg : ShadowSimulationConfig) (draws : ℕ → ℕ → Draw) :
    ∀ move ∈ (yearCurves cfg draws).flatMap movesOf, ¬ move < fin 0 := by
  intro move member
  obtain ⟨curve, inside, member⟩ := List.mem_flatMap.mp member
  obtain ⟨year, -, rfl⟩ := List.mem_map.mp inside
  exact move_not_neg (tick_not_neg _ _) move member

/-- A policy that holds hears everything. -/
theorem hold_bears (equities : List Double) :
    equities.foldlM Candidate.hold.call () = .ok () := by
  induction equities with
  | nil => rfl
  | cons equity equities ih => exact ih

variable {π : Type} (candidate : Candidate π) (cfg : ShadowSimulationConfig)
  (draws : ℕ → ℕ → Draw)

/-- The report, from what the candidate answers to what it hears. -/
theorem report_eq : executeShadowSimulation candidate cfg draws =
    match (heard cfg.startEquity (marketPath cfg draws)).foldlM candidate.call candidate.start with
    | .ok _ => executeShadowSimulation .hold cfg draws
    | .error text => ⟨false, cfg.startEquity, fin 0, 0, some text⟩ := by
  have path : equityPath (Figures.opened cfg.startEquity).equity
      ((yearCurves cfg draws).flatMap movesOf) = marketPath cfg draws := rfl
  have peak : (Figures.opened cfg.startEquity).peak = cfg.startEquity := rfl
  cases answered :
      (heard cfg.startEquity (marketPath cfg draws)).foldlM candidate.call candidate.start with
  | ok after =>
      have moves := moves_borne candidate ((yearCurves cfg draws).flatMap movesOf)
        (.opened cfg.startEquity) candidate.start after answered
      have held := moves_borne .hold ((yearCurves cfg draws).flatMap movesOf)
        (.opened cfg.startEquity) () () (hold_bears _)
      have same : candidateRun candidate 0 (yearCurves cfg draws)
            (.opened cfg.startEquity, candidate.start) =
          candidateRun .hold 0 (yearCurves cfg draws) (.opened cfg.startEquity, ()) := by
        rw [candidateRun_eq, candidateRun_eq, moves, held]
        cases ((yearCurves cfg draws).flatMap movesOf).foldlM Figures.marked
          (.opened cfg.startEquity) with
        | ok figures => rfl
        | error halt => cases halt <;> rfl
      unfold executeShadowSimulation
      rw [same]
  | error text =>
      have moves := moves_raised candidate ((yearCurves cfg draws).flatMap movesOf)
        (.opened cfg.startEquity) candidate.start text answered
      unfold executeShadowSimulation
      rw [candidateRun_eq, moves]
      rfl

/-- A policy that holds passes where there is money throughout. -/
theorem hold_passes_iff :
    (executeShadowSimulation .hold cfg draws).passed = true ↔
      (∀ equity ∈ cfg.startEquity :: marketPath cfg draws, fin 0 < equity) ∧
        fin 0 ≤ cfg.maxAcceptableDrawdown ∧
        ∀ d ∈ drawdowns cfg.startEquity (marketPath cfg draws),
          ¬ cfg.maxAcceptableDrawdown < d := by
  have held := moves_borne .hold ((yearCurves cfg draws).flatMap movesOf)
    (.opened cfg.startEquity) () () (hold_bears _)
  refine Iff.trans ?_ (moves_pass_iff cfg.maxAcceptableDrawdown _ (forward cfg draws)
    (.opened cfg.startEquity))
  unfold executeShadowSimulation
  rw [candidateRun_eq]
  have start : Candidate.hold.start = () := rfl
  rw [start, held]
  cases ((yearCurves cfg draws).flatMap movesOf).foldlM Figures.marked
      (.opened cfg.startEquity) with
  | ok figures =>
      refine (decide_eq_true_iff (p := fin 0 < figures.equity ∧ _)).trans ?_
      constructor
      · exact fun both => ⟨figures, rfl, both⟩
      · rintro ⟨after, ends, both⟩
        obtain rfl := Except.ok.inj ends
        exact both
  | error halt =>
      refine iff_of_false ?_ ?_
      · cases halt with
        | exhausted worst =>
            intro passed
            have passed : decide (fin 0 < (fin 0 : Double) ∧
                worst ≤ cfg.maxAcceptableDrawdown) = true := passed
            exact lt_irrefl (0 : ℚ) (of_decide_eq_true passed).1
        | raised text => exact Bool.false_ne_true
      · rintro ⟨after, ends, -⟩
        cases ends

/-- **A candidate passes or fails with the market**, if it does not raise.  The gate passes
exactly the candidates that raise at none of the equities they hear, where every equity is
positive and no drawdown above the acceptable one.  The report of a candidate that does not raise
is that of a hold; that of one that does has the text of its exception. -/
theorem shadow_gate_iff :
    ((executeShadowSimulation candidate cfg draws).passed = true ↔
      candidate.Bears (heard cfg.startEquity (marketPath cfg draws)) ∧
        (∀ equity ∈ cfg.startEquity :: marketPath cfg draws, fin 0 < equity) ∧
        fin 0 ≤ cfg.maxAcceptableDrawdown ∧
        ∀ d ∈ drawdowns cfg.startEquity (marketPath cfg draws),
          ¬ cfg.maxAcceptableDrawdown < d) ∧
      (candidate.Bears (heard cfg.startEquity (marketPath cfg draws)) →
        executeShadowSimulation candidate cfg draws =
          executeShadowSimulation .hold cfg draws) ∧
      ∀ text, (heard cfg.startEquity (marketPath cfg draws)).foldlM candidate.call
          candidate.start = .error text →
        executeShadowSimulation candidate cfg draws =
          ⟨false, cfg.startEquity, fin 0, 0, some text⟩ := by
  have report := report_eq candidate cfg draws
  have passes := hold_passes_iff cfg draws
  unfold Candidate.Bears
  cases answered :
      (heard cfg.startEquity (marketPath cfg draws)).foldlM candidate.call candidate.start with
  | ok after =>
      rw [answered] at report
      dsimp only at report
      refine ⟨?_, fun _ => report, ?_⟩
      · rw [report, passes]
        exact (and_iff_right ⟨after, rfl⟩).symm
      · intro text raised
        cases raised
  | error text =>
      rw [answered] at report
      refine ⟨iff_of_false ?_ ?_, ?_, ?_⟩
      · rw [report]
        exact Bool.false_ne_true
      · rintro ⟨⟨after, other⟩, -⟩
        cases other
      · rintro ⟨after, other⟩
        cases other
      · intro other raised
        obtain rfl := Except.error.inj raised
        exact report

end Gate

end CentaurApex.Evolution
