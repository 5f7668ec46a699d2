/-
# Adapters.ProposalBridge -- from a verdict to an order intent

The one place where a verdict becomes an order: `verdict_to_order_action` reads
the `Approved` variant of a verdict, puts its adjusted notional into the proposal
and converts the notional to a quantity at a reference price, which must be
positive.  The quotient is a double: a tiny price makes it infinite, a tiny notional zero.

An adapter may answer any intent in any way, depending on what it was sent
before.
-/
import CentaurApex.Cortex.Engine
import CentaurApex.Theory.Doubles

namespace CentaurApex.Adapters

open CentaurApex.Theory
open CentaurApex.Theory.Python
open CentaurApex.Theory.ExtNum (fin)
open CentaurApex.Cortex

set_option autoImplicit false

/-! ## The vocabulary of adapters -/

structure UniversalOrderIntent where
  intentId : String
  assetId : String
  side : String
  quantity : PyFloat
  maxSlippage : PyFloat
  orderType : String
  timeInForce : String
  deriving DecidableEq, Repr

inductive ExecutionStatus where
  | filled
  | partialFill
  | rejected
  | pending
  | dryRun
  deriving DecidableEq, Repr

structure ExecutionReceipt where
  intentId : String
  executionId : String
  filledPrice : PyFloat
  filledQuantity : PyFloat
  status : ExecutionStatus
  deriving DecidableEq, Repr

/-- An adapter answers according to the orders it was sent before. -/
structure ExchangeAdapter where
  healthCheck : List UniversalOrderIntent → Bool
  executeOrder : List UniversalOrderIntent → UniversalOrderIntent → Except PyError ExecutionReceipt

/-! ## The bridge -/

def proposalToIntent (proposal : TradeProposal) (price : Json) (intentId : String) :
    Except PyError UniversalOrderIntent := do
  let price ← number price
  if price ≤ fin 0 then throw (.valueError "price must be positive" (some price))
  let notional ← number proposal.targetNotional
  return { intentId := if intentId = "" then proposal.proposalId else intentId
           assetId := proposal.assetId
           side := proposal.direction.value
           quantity := toDouble (notional / price)
           maxSlippage := proposal.maxAcceptableSlippage
           orderType := "MARKET"
           timeInForce := "IOC" }

/-- `none` where no order may be placed. -/
def verdictToOrderAction (verdict : Json) (proposal : TradeProposal) (price : Json) :
    Except PyError (Option UniversalOrderIntent) :=
  match verdict with
  | .obj fields =>
      match fields.lookup "Approved" with
      | some approved => do
          let adjustedNotional ← getMethod approved "adjusted_notional" proposal.targetNotional
          let intent ← proposalToIntent { proposal with targetNotional := adjustedNotional } price
            proposal.proposalId
          return some intent
      | none => .ok none
  | _ => .ok none

end CentaurApex.Adapters
