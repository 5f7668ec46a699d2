/-
# Simulation.SyntheticGen -- synthetic price paths

`generatePricePath` draws a regime and a shock for every point, and moves the price by them; a
price has a floor.  The draws are given from outside, the arithmetic is exact, and rounding is to
six decimals.

* `generatePricePath_positive`: every point of a curve is positive, so a curve is a `PriceCurve`.
-/
import CentaurApex.Theory.DecimalFloat

namespace CentaurApex.Simulation

open CentaurApex.Theory

set_option autoImplicit false

/-- `REGIMES` -/
inductive Regime where
  | normal
  | flashCrash
  | hyperinflationLoop
  | liquidityEvaporation
  | sovereignReset
  | ledgerFork
  deriving DecidableEq, Repr

def Regime.shock : Regime → ℚ
  | normal => 1
  | flashCrash => -35 / 10
  | hyperinflationLoop => 8 / 10
  | liquidityEvaporation => -12 / 10
  | sovereignReset => 4 / 10
  | ledgerFork => 6 / 10

/-- What is drawn for a point: the regime, and `gauss(0.0, volatility)`. -/
structure Draw where
  regime : Regime
  gauss : ℚ

/-- `round(x, 6)` -/
def round6 (x : ℚ) : ℚ := roundHalfEven (x * 1000000) / 1000000

/-- The price after a draw. -/
def nextPrice (price : ℚ) (draw : Draw) : ℚ :=
  max (price * (1 + draw.gauss * draw.regime.shock)) (1 / 10000)

/-- `generate_price_path`: the prices, and the equity curve. -/
def generatePricePath : ℚ → List Draw → List ℚ × List ℚ
  | _, [] => ([], [])
  | price, draw :: draws =>
      let price := nextPrice price draw
      let (prices, curve) := generatePricePath price draws
      (round6 price :: prices, round6 (max price 0) :: curve)

/-- Rounding keeps what is above the floor there. -/
theorem floor_le_round6 {x : ℚ} (above : 1 / 10000 ≤ x) : 1 / 10000 ≤ round6 x := by
  have scaled : ((100 : ℤ) : ℚ) ≤ x * 1000000 := by
    push_cast
    linarith
  have rounded : (100 : ℤ) ≤ roundHalfEven (x * 1000000) := by
    simpa only [roundHalfEven_intCast] using roundHalfEven_mono scaled
  have cast : (100 : ℚ) ≤ roundHalfEven (x * 1000000) := by exact_mod_cast rounded
  unfold round6
  linarith

theorem generatePricePath_positive (price : ℚ) (draws : List Draw) :
    ∀ tick ∈ (generatePricePath price draws).2, 0 < tick := by
  induction draws generalizing price with
  | nil =>
      intro tick member
      cases member
  | cons draw draws ih =>
      refine List.forall_mem_cons.mpr ⟨?_, ih _⟩
      have above : 1 / 10000 ≤ max (nextPrice price draw) 0 :=
        le_max_of_le_left (le_max_right _ _)
      have := floor_le_round6 above
      linarith

/-- A curve of positive prices. -/
structure PriceCurve where
  ticks : List ℚ
  positive : ∀ tick ∈ ticks, 0 < tick

/-- The curve that is generated from some draws. -/
def pricePath (startPrice : ℚ) (draws : List Draw) : PriceCurve :=
  ⟨(generatePricePath startPrice draws).2, generatePricePath_positive startPrice draws⟩

end CentaurApex.Simulation
