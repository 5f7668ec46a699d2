/-
# Cortex.Engine -- from a market tick to a proposal

A tick is a dict of whatever the feed delivers.  `evaluate_market_tick` reads a
price, an equity, a signal and a trend from it, and either takes no action or
emits one validated `TradeProposal`, sized as a fraction of the equity.

Validation and the reading of floats from text belong to the runtime
(`Runtime`).
-/
import CentaurApex.Theory.Json

namespace CentaurApex.Cortex

open CentaurApex.Theory
open CentaurApex.Theory.Python
open CentaurApex.Theory.ExtNum (fin)

set_option autoImplicit false

/-- A Python `float`: an exact number, an infinity, or NaN. -/
abbrev PyFloat := ExtNum ℚ

/-! ## Proposals -/

inductive OrderDirection where
  | buy
  | sell
  deriving DecidableEq, Repr

def OrderDirection.value : OrderDirection → String
  | .buy => "Buy"
  | .sell => "Sell"

/-- The proposal model.  `model_copy` may put any value in the place of the
notional, so that field is a dynamic one. -/
structure TradeProposal where
  proposalId : String
  assetId : String
  direction : OrderDirection
  targetNotional : Json
  maxAcceptableSlippage : PyFloat

namespace TradeProposal

/-- `model_dump()`. -/
def modelDump (proposal : TradeProposal) : Dict :=
  [("proposal_id", .str proposal.proposalId), ("asset_id", .str proposal.assetId),
    ("direction", .str proposal.direction.value), ("target_notional", proposal.targetNotional),
    ("max_acceptable_slippage", .float proposal.maxAcceptableSlippage)]

def modelFields : List String :=
  ["proposal_id", "asset_id", "direction", "target_notional", "max_acceptable_slippage"]

end TradeProposal

/-- What the code takes from its runtime: `float(text)`, and the validation of a
proposal's fields. -/
structure Runtime where
  floatOfText : String → Option PyFloat
  validate : Dict → Except PyError TradeProposal

/-! ## The engine -/

def sizingMultiplier : PyFloat := fin (5 / 100)

/-- `float(market_data.get(key, default) or default)`. -/
def readFloat (rt : Runtime) (marketData : Dict) (key : String) (default : PyFloat) :
    Except PyError PyFloat :=
  toFloat rt.floatOfText (orElse (get marketData key (.float default)) (.float default))

/-- The direction of `str(market_data.get("trend", "neutral")).lower()`, if it is
one of the two words; the text of a value that is no string is neither. -/
def readTrend (marketData : Dict) : Option OrderDirection :=
  match get marketData "trend" (.str "neutral") with
  | .str s =>
      if s.toLower = "bullish" then some .buy
      else if s.toLower = "bearish" then some .sell
      else none
  | _ => none

/-- The volatility, `0.0` where it is not a number. -/
def readVolatility (rt : Runtime) (marketData : Dict) : Except PyError PyFloat :=
  match toFloat rt.floatOfText (get marketData "volatility" (.float (fin 0))) with
  | .error .typeError => .ok (fin 0)
  | .error (.valueError _ _) => .ok (fin 0)
  | other => other

def sizing (volatility : PyFloat) : PyFloat :=
  if volatility > fin (2 / 100) then sizingMultiplier * fin (5 / 10) else sizingMultiplier

inductive EngineResult where
  | noAction
  | proposalGenerated (timestamp : ℤ) (proposal : Dict)

/-- One tick; `proposalId` and `now` are the fresh identifier and the clock. -/
def evaluateMarketTick (rt : Runtime) (assetId : String) (proposalId : String) (now : ℤ)
    (marketData : Dict) : Except PyError EngineResult := do
  let currentPrice ← readFloat rt marketData "price" (fin 0)
  let equity ← readFloat rt marketData "account_equity" (fin 10000)
  let momentum := truthy (get marketData "momentum_signal" (.bool false))
  if momentum = false ∨ currentPrice ≤ fin 0 then return .noAction
  match readTrend marketData with
  | none => return .noAction
  | some direction =>
      let volatility ← readVolatility rt marketData
      let targetNotional := round2 (max2 (equity * sizing volatility) (fin 1))
      let proposal ← rt.validate
        [("proposal_id", .str proposalId), ("asset_id", .str assetId),
          ("direction", .str direction.value), ("target_notional", .float targetNotional),
          ("max_acceptable_slippage", .float (fin (15 / 10000)))]
      return .proposalGenerated now proposal.modelDump

end CentaurApex.Cortex
