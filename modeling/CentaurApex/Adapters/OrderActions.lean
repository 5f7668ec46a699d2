/-
# Adapters.OrderActions -- which verdicts become sound orders

A verdict comes from untyped JSON, its notional is copied into a proposal without
validation, and the price is guarded by one comparison.  What should come of it
(`Acceptable`): a `ValueError`, no order, or an order for the notional that the verdict
approved, up to the rounding of one division.

* **Exactly when** (`acceptable_iff`): an `Approved` member, where there is one, is an object,
  and either the price is refused or price and notional are positive numbers whose quotient is
  in the range of the doubles (`Orderly`).

A notional that is missing is replaced by the proposal's own; one that is negative, infinite
or NaN goes into the order; one that is no number raises a `TypeError`.  A quotient out of range
is an order for an infinite quantity, or for none.

Refuting pole `negative_notional_ordered`: a negative notional, at a price that is not refused.
-/
import CentaurApex.Adapters.ProposalBridge
import Mathlib.Tactic.FieldSimp

namespace CentaurApex.Adapters

open CentaurApex.Theory
open CentaurApex.Theory.Python
open CentaurApex.Theory.ExtNum (fin)
open CentaurApex.Cortex

set_option autoImplicit false

/-! ## Sound orders -/

/-- The number that a JSON value is, before any conversion. -/
def numericValue : Json → Option ℚ
  | .bool b => some (if b then 1 else 0)
  | .int n => some n
  | .float (.fin x) => some x
  | _ => none

/-- An order worth the notional that the verdict's `Approved` member carries, one that a float
holds exactly: the quantity is off by at most half a unit in its last place. -/
structure SoundOrder (verdict : Json) (proposal : TradeProposal) (price : PyFloat)
    (intent : UniversalOrderIntent) : Prop where
  intentId : intent.intentId = proposal.proposalId
  assetId : intent.assetId = proposal.assetId
  side : intent.side = proposal.direction.value
  notional : ∃ approved adjusted n q p, verdict.get? "Approved" = some approved ∧
    approved.get? "adjusted_notional" = some adjusted ∧ numericValue adjusted = some n ∧
    number adjusted = .ok (fin n) ∧ 0 < n ∧ intent.quantity = fin q ∧ 0 < q ∧ price = fin p ∧
    |q * p - n| ≤ p * (2 ^ lastBitExponent (n / p) / 2)

/-- What may come of a verdict. -/
def Acceptable (verdict : Json) (proposal : TradeProposal) (price : PyFloat) :
    Except PyError (Option UniversalOrderIntent) → Prop
  | .error (.valueError _ _) => True
  | .error _ => False
  | .ok none => True
  | .ok (some intent) => SoundOrder verdict proposal price intent

/-- The object carries a positive notional, one that a float holds exactly, and that has a
quantity at the price. -/
def Carries (approved : Dict) (p : ℚ) : Prop :=
  ∃ adjusted n, approved.lookup "adjusted_notional" = some adjusted ∧
    numericValue adjusted = some n ∧ number adjusted = .ok (fin n) ∧ 0 < n ∧ InRange (n / p)

/-- The price is a number at which the object's notional has a quantity. -/
def Quoted (approved : Dict) (price : PyFloat) : Prop :=
  ∃ p, price = fin p ∧ Carries approved p

/-- An `Approved` member is an object, and the price is refused or the notional has a quantity
at it. -/
def Orderly (verdict : Json) (price : PyFloat) : Prop :=
  ∀ approved, verdict.get? "Approved" = some approved →
    ∃ fields, approved = .obj fields ∧ (price ≤ fin 0 ∨ Quoted fields price)

/-! ## Quantities -/

/-- At a positive price, a notional has a quantity worth it exactly where their quotient is in the
range of the doubles. -/
theorem quantity_iff {p n : ℚ} (open_ : 0 < p) :
    (∃ q, toDouble (fin n / fin p) = fin q ∧ 0 < q ∧
        |q * p - n| ≤ p * (2 ^ lastBitExponent (n / p) / 2)) ↔ InRange (n / p) := by
  rw [ExtNum.fin_div_fin n open_.ne', ← toBinary64_positive_iff]
  constructor
  · rintro ⟨q, quotient, pos, -⟩
    exact ⟨q, quotient, pos⟩
  · rintro ⟨q, quotient, pos⟩
    refine ⟨q, quotient, pos, ?_⟩
    have worth : q * p - n = p * (q - n / p) := by
      have := open_.ne'
      field_simp
    rw [worth, abs_mul, abs_of_pos open_]
    exact mul_le_mul_of_nonneg_left (toBinary64_error quotient) open_.le

/-! ## What the bridge does -/

section Bridge

variable {verdict : Json} {proposal : TradeProposal} {price : PyFloat}

theorem action_unapproved (none_ : verdict.get? "Approved" = none) (price : Json) :
    verdictToOrderAction verdict proposal price = .ok none := by
  cases verdict with
  | obj fields =>
      have none_ : fields.lookup "Approved" = none := none_
      dsimp only [verdictToOrderAction]
      rw [none_]
  | _ => rfl

theorem action_eq {approved : Json} (some_ : verdict.get? "Approved" = some approved)
    (price : Json) :
    verdictToOrderAction verdict proposal price = (do
      let adjustedNotional ← getMethod approved "adjusted_notional" proposal.targetNotional
      let intent ← proposalToIntent { proposal with targetNotional := adjustedNotional } price
        proposal.proposalId
      return some intent) := by
  cases verdict with
  | obj fields =>
      have some_ : fields.lookup "Approved" = some approved := some_
      dsimp only [verdictToOrderAction]
      rw [some_]
  | _ => cases some_

/-- The order that an approval asks for. -/
def orderFor (proposal : TradeProposal) (quantity : PyFloat) : UniversalOrderIntent where
  intentId := proposal.proposalId
  assetId := proposal.assetId
  side := proposal.direction.value
  quantity := quantity
  maxSlippage := proposal.maxAcceptableSlippage
  orderType := "MARKET"
  timeInForce := "IOC"

/-- The price is looked at before the notional. -/
theorem proposalToIntent_refused (refused : price ≤ fin 0) (copy : TradeProposal) (id : String) :
    proposalToIntent copy (.float price) id =
      .error (.valueError "price must be positive" (some price)) := by
  show (if price ≤ fin 0 then _ else _) = _
  rw [if_pos refused]
  rfl

theorem proposalToIntent_open (open_ : ¬ price ≤ fin 0) (notional : Json) :
    proposalToIntent { proposal with targetNotional := notional } (.float price)
        proposal.proposalId =
      (number notional).map fun x => orderFor proposal (toDouble (x / price)) := by
  show (if price ≤ fin 0 then _ else _) = _
  rw [if_neg open_]
  show (do
    let x ← number notional
    return ({ orderFor proposal (toDouble (x / price)) with
      intentId := if proposal.proposalId = "" then proposal.proposalId else proposal.proposalId } :
        UniversalOrderIntent)) = _
  rw [ite_self]
  cases number notional <;> rfl

theorem action_refused {fields : Dict} (some_ : verdict.get? "Approved" = some (.obj fields))
    (refused : price ≤ fin 0) :
    verdictToOrderAction verdict proposal (.float price) =
      .error (.valueError "price must be positive" (some price)) := by
  rw [action_eq some_]
  show (proposalToIntent _ (.float price) _).bind _ = _
  rw [proposalToIntent_refused refused]
  rfl

theorem action_ordered {fields : Dict} (some_ : verdict.get? "Approved" = some (.obj fields))
    (open_ : ¬ price ≤ fin 0) :
    verdictToOrderAction verdict proposal (.float price) =
      (number (get fields "adjusted_notional" proposal.targetNotional)).map fun x =>
        some (orderFor proposal (toDouble (x / price))) := by
  rw [action_eq some_]
  show (proposalToIntent { proposal with targetNotional := _ } (.float price) _).bind _ = _
  rw [proposalToIntent_open open_]
  cases number (get fields "adjusted_notional" proposal.targetNotional) <;> rfl

end Bridge

/-! ## Which verdicts -/

section Orderly

variable {verdict : Json} {proposal : TradeProposal} {price : PyFloat} {fields : Dict}

theorem get_of_lookup {d : Dict} {key : String} {value : Json} (found : d.lookup key = some value)
    (other : Json) : Python.get d key other = value := by
  rw [Python.get, found, Option.getD_some]

/-- An order is sound where the object carries the notional that it is for. -/
theorem soundOrder_iff (some_ : verdict.get? "Approved" = some (.obj fields))
    (open_ : ¬ price ≤ fin 0) {x : PyFloat}
    (read : number (get fields "adjusted_notional" proposal.targetNotional) = .ok x) :
    SoundOrder verdict proposal price (orderFor proposal (toDouble (x / price))) ↔
      Quoted fields price := by
  constructor
  · rintro ⟨-, -, -, approved, adjusted, n, q, p, member, carried, value, exact_, pos, quotient,
      some_q, rfl, worth⟩
    obtain rfl := Option.some.inj (some_.symm.trans member)
    have carried : fields.lookup "adjusted_notional" = some adjusted := carried
    rw [get_of_lookup carried, exact_] at read
    obtain rfl := Except.ok.inj read
    have inside := (quantity_iff (not_le.mp open_)).mp ⟨q, quotient, some_q, worth⟩
    exact ⟨p, rfl, adjusted, n, carried, value, exact_, pos, inside⟩
  · rintro ⟨p, rfl, adjusted, n, carried, value, exact_, pos, inside⟩
    rw [get_of_lookup carried, exact_] at read
    obtain rfl := Except.ok.inj read
    obtain ⟨q, quotient, some_q, worth⟩ := (quantity_iff (not_le.mp open_)).mpr inside
    exact ⟨rfl, rfl, rfl, _, adjusted, n, q, p, some_, carried, value, exact_, pos, quotient,
      some_q, rfl, worth⟩

/-- An error in reading a notional is no `ValueError`. -/
theorem not_acceptable_of_number {value : Json} {e : PyError} (failed : number value = .error e) :
    ¬ Acceptable verdict proposal price (.error e) := by
  cases value with
  | int n =>
      have failed : floatOfInt n = .error e := failed
      unfold floatOfInt at failed
      split at failed
      · cases failed
      · cases failed
        exact id
  | float => cases failed
  | bool => cases failed
  | _ =>
      cases failed
      exact id

/-- **Exactly which verdicts** end in a `ValueError`, in no order, or in a sound one. -/
theorem acceptable_iff (verdict : Json) (proposal : TradeProposal) (price : PyFloat) :
    Acceptable verdict proposal price (verdictToOrderAction verdict proposal (.float price)) ↔
      Orderly verdict price := by
  cases member : verdict.get? "Approved" with
  | none =>
      rw [action_unapproved member]
      refine ⟨fun _ approved some_ => ?_, fun _ => trivial⟩
      rw [member] at some_
      cases some_
  | some approved =>
      have orderly : Orderly verdict price ↔
          ∃ fields, approved = .obj fields ∧ (price ≤ fin 0 ∨ Quoted fields price) :=
        ⟨fun orderly => orderly approved member, fun here approved' some_ => by
          obtain rfl := Option.some.inj (member.symm.trans some_)
          exact here⟩
      rw [orderly]
      cases approved with
      | obj fields =>
          have here : (∃ fields', Json.obj fields = .obj fields' ∧
              (price ≤ fin 0 ∨ Quoted fields' price)) ↔
              (price ≤ fin 0 ∨ Quoted fields price) := by
            constructor
            · rintro ⟨_, same, holds⟩
              cases same
              exact holds
            · exact fun holds => ⟨fields, rfl, holds⟩
          rw [here]
          by_cases refused : price ≤ fin 0
          · rw [action_refused member refused]
            exact ⟨fun _ => .inl refused, fun _ => trivial⟩
          · rw [action_ordered member refused, or_iff_right refused]
            cases read : number (get fields "adjusted_notional" proposal.targetNotional) with
            | ok x => exact soundOrder_iff member refused read
            | error e =>
                refine ⟨fun acceptable => absurd acceptable (not_acceptable_of_number read), ?_⟩
                rintro ⟨-, -, adjusted, n, carried, -, exact_, -⟩
                rw [get_of_lookup carried, exact_] at read
                cases read
      | _ =>
          rw [action_eq member]
          refine ⟨fun acceptable => acceptable.elim, ?_⟩
          rintro ⟨_, same, -⟩
          cases same

end Orderly

/-! ### Poles -/

namespace Bridging

def proposal : TradeProposal := ⟨"p-1", "BTC-PERP", .buy, .float (fin 100), fin (1 / 1000)⟩

def approved (notional : ℚ) : Json :=
  .obj [("Approved", .obj [("adjusted_notional", .float (fin notional))])]

end Bridging

/-- The fields of a proposal are as its model has them validated. -/
def Validated (proposal : TradeProposal) : Prop :=
  ∃ x, proposal.targetNotional = .float x ∧ fin 0 < x ∧ fin 0 ≤ proposal.maxAcceptableSlippage

/-- Refuting pole: an approved notional that is negative becomes a quantity. -/
theorem negative_notional_ordered :
    ¬ ∀ (verdict : Json) (proposal : TradeProposal) (price : PyFloat), Validated proposal →
      Acceptable verdict proposal price
        (verdictToOrderAction verdict proposal (.float price)) := by
  intro always
  have member : (Bridging.approved (-5)).get? "Approved" =
      some (.obj [("adjusted_notional", .float (fin (-5)))]) := rfl
  have sound := always (Bridging.approved (-5)) Bridging.proposal (fin 100)
    ⟨fin 100, rfl, by decide +kernel, by decide +kernel⟩
  rw [action_ordered member (by decide +kernel)] at sound
  obtain ⟨approved, adjusted, n, q, p, member, carried, value, -, pos, -⟩ :=
    SoundOrder.notional sound
  obtain rfl := Option.some.inj member
  obtain rfl := Option.some.inj carried
  obtain rfl := Option.some.inj value
  exact absurd pos (by norm_num)

end CentaurApex.Adapters
