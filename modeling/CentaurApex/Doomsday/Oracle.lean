/-
# Doomsday.Oracle -- the conversion oracle and its book of orders

The simulated oracle quotes a conversion, takes orders against quotes and settles them.  The
reference of a quote is a digest of what was asked for, and the id of an order is made of the
reference (`quote`, `submitConversionRequest`): nothing else tells two orders apart, and a
submission writes its order where the book may have one.

* **A step on one order** (`step_kept`): only a submission under its id replaces an order;
  settling changes its status and nothing else.
* **Along a run** (`kept_run`): an order stays as it was, or settles, until its id comes again.
* **No order is lost or reopened exactly while no reference is submitted twice**
  (`book_kept_iff`).

Refuting pole `second_epoch_reopens`: the order of an epoch, settled, and the same order of
the next.

The digest and the text of a number are parameters.  A name is text: a string with a
surrogate cannot be encoded, and the models refuse it.
-/
import CentaurApex.Doomsday.Daemon
import CentaurApex.Theory.Json
import CentaurApex.Theory.Machine
import CentaurApex.Theory.PyDict
import CentaurApex.Theory.PyText

namespace CentaurApex.Doomsday

open CentaurApex.Theory
open CentaurApex.Theory.ExtNum (fin)
open CentaurApex.Theory.Python

set_option autoImplicit false

/-! ## Quotes and orders -/

inductive OracleError where
  | valueError (message : String)
  | validationError
  | unicodeEncodeError
  | overflowError
  | keyError (message : String)
  | assertionError
  deriving DecidableEq, Repr

structure ConversionQuote where
  assetIn : String
  assetOut : String
  quantityIn : ExtNum ℚ
  estQuantityOut : ExtNum ℚ
  quoteRef : String
  indicative : Bool
  deriving DecidableEq, Repr

structure SimulationOracle where
  feeBps : ℤ
  orders : PyDict String ConversionOrder
  deriving DecidableEq

/-- What the oracle takes from its runtime: `hashlib.sha256(data).hexdigest()`, and the text
of a float. -/
structure Texts where
  sha256Hex : List UInt8 → List Char
  ofFloat : ExtNum ℚ → String

namespace SimulationOracle

def new (feeBps : ℤ) : SimulationOracle := ⟨feeBps, .empty⟩

/-- The text that a quote's reference is the digest of. -/
def quoteText (texts : Texts) (oracle : SimulationOracle) (assetIn assetOut : String)
    (quantityIn : ExtNum ℚ) : String :=
  assetIn ++ ":" ++ assetOut ++ ":" ++ texts.ofFloat quantityIn ++ ":" ++ toString oracle.feeBps

/-- `hexdigest()[:16]` -/
def refOf (texts : Texts) (text : String) : String :=
  String.ofList ((texts.sha256Hex (utf8 text.toList)).take 16)

def quote (texts : Texts) (oracle : SimulationOracle) (assetIn assetOut : PyStr)
    (quantityIn : ExtNum ℚ) : Except OracleError ConversionQuote :=
  if quantityIn ≤ 0 then .error (.valueError "quantity_in must be positive")
  else
    match floatOfInt oracle.feeBps with
    | .error _ => .error .overflowError
    | .ok fee =>
        match assetIn.chars?, assetOut.chars? with
        | some assetIn, some assetOut =>
            let quote : ConversionQuote :=
              { assetIn := String.ofList assetIn
                assetOut := String.ofList assetOut
                quantityIn
                estQuantityOut := quantityIn * (1 - fee / fin 10000)
                quoteRef := refOf texts
                  (oracle.quoteText texts (String.ofList assetIn) (String.ofList assetOut) quantityIn)
                indicative := true }
            if quote.assetIn ≠ "" ∧ quote.assetOut ≠ "" ∧ 0 < quantityIn ∧ 0 < quote.estQuantityOut
            then .ok quote
            else .error .validationError
        | _, _ => .error .unicodeEncodeError

/-- The order that a submission makes. -/
def orderOf (quote : ConversionQuote) : ConversionOrder where
  orderId := "sim-" ++ quote.quoteRef
  quoteRef := quote.quoteRef
  assetIn := quote.assetIn
  assetOut := quote.assetOut
  quantityIn := quote.quantityIn
  status := .submitted

def submitConversionRequest (oracle : SimulationOracle) (quote : ConversionQuote) :
    ConversionOrder × SimulationOracle :=
  let order := orderOf quote
  (order, { oracle with orders := oracle.orders.setItem order.orderId order })

def getConversionStatus (oracle : SimulationOracle) (orderId : String) :
    Except OracleError ConversionOrder :=
  match oracle.orders.get? orderId with
  | none => .error (.keyError ("unknown conversion order: " ++ orderId))
  | some order => .ok order

/-- The order in the book is the one that settles. -/
def settle (oracle : SimulationOracle) (orderId : String) :
    Except OracleError ConversionOrder × SimulationOracle :=
  match oracle.getConversionStatus orderId with
  | .error e => (.error e, oracle)
  | .ok order =>
      if order.status = .submitted then
        let settled := { order with status := .settled }
        (.ok settled, { oracle with orders := oracle.orders.setItem orderId settled })
      else (.error .assertionError, oracle)

end SimulationOracle

/-- An oracle that passes every call on. -/
structure ConfigDrivenOracle where
  inner : SimulationOracle
  label : String

namespace ConfigDrivenOracle

def quote (texts : Texts) (oracle : ConfigDrivenOracle) (assetIn assetOut : PyStr)
    (quantityIn : ExtNum ℚ) : Except OracleError ConversionQuote :=
  oracle.inner.quote texts assetIn assetOut quantityIn

def submitConversionRequest (oracle : ConfigDrivenOracle) (quote : ConversionQuote) :
    ConversionOrder × ConfigDrivenOracle :=
  let (order, inner) := oracle.inner.submitConversionRequest quote
  (order, { oracle with inner })

def getConversionStatus (oracle : ConfigDrivenOracle) (orderId : String) :
    Except OracleError ConversionOrder := oracle.inner.getConversionStatus orderId

end ConfigDrivenOracle

/-! ## Runs -/

/-- To the oracle itself, or to one that wraps it. -/
inductive Route where
  | direct
  | config (label : String)
  deriving DecidableEq, Repr

inductive OracleCall where
  | quote (route : Route) (assetIn assetOut : PyStr) (quantityIn : ExtNum ℚ)
  | submit (route : Route) (quote : ConversionQuote)
  | status (route : Route) (orderId : String)
  | settle (orderId : String)

inductive OracleReply where
  | quoted (answer : Except OracleError ConversionQuote)
  | submitted (order : ConversionOrder)
  | order (answer : Except OracleError ConversionOrder)

/-- One call, and what it leaves. -/
def SimulationOracle.call (texts : Texts) (oracle : SimulationOracle) :
    OracleCall → OracleReply × SimulationOracle
  | .quote .direct assetIn assetOut quantityIn =>
      (.quoted (oracle.quote texts assetIn assetOut quantityIn), oracle)
  | .quote (.config label) assetIn assetOut quantityIn =>
      (.quoted ((ConfigDrivenOracle.mk oracle label).quote texts assetIn assetOut quantityIn), oracle)
  | .submit .direct quote =>
      let (order, oracle) := oracle.submitConversionRequest quote
      (.submitted order, oracle)
  | .submit (.config label) quote =>
      let (order, wrapper) := (ConfigDrivenOracle.mk oracle label).submitConversionRequest quote
      (.submitted order, wrapper.inner)
  | .status .direct orderId => (.order (oracle.getConversionStatus orderId), oracle)
  | .status (.config label) orderId =>
      (.order ((ConfigDrivenOracle.mk oracle label).getConversionStatus orderId), oracle)
  | .settle orderId =>
      let (answer, oracle) := oracle.settle orderId
      (.order answer, oracle)

def oracleMachine (texts : Texts) : Machine SimulationOracle OracleCall OracleReply where
  step := SimulationOracle.call texts

/-- The references that are submitted, in order. -/
def submittedRefs (calls : List OracleCall) : List String :=
  calls.filterMap fun call =>
    match call with
    | .submit _ quote => some quote.quoteRef
    | _ => none

/-- The orders that were submitted, in order. -/
def submittedIn (events : List (Event SimulationOracle OracleCall OracleReply)) :
    List ConversionOrder :=
  events.filterMap fun e =>
    match e.reply with
    | .submitted order => some order
    | _ => none

/-! ## One order -/

/-- The order as it was, or settled. -/
structure ConversionOrder.Kept (before after : ConversionOrder) : Prop where
  fields : after = { before with status := after.status }
  settled : before.status = .settled → after.status = .settled

theorem ConversionOrder.Kept.refl (order : ConversionOrder) : order.Kept order := ⟨rfl, id⟩

theorem ConversionOrder.Kept.trans {a b c : ConversionOrder} (first : a.Kept b)
    (second : b.Kept c) : a.Kept c := by
  refine ⟨?_, second.settled ∘ first.settled⟩
  rw [second.fields, first.fields]

namespace SimulationOracle

section Step

variable {texts : Texts} {oracle : SimulationOracle}

theorem call_submit (route : Route) (quote : ConversionQuote) :
    oracle.call texts (.submit route quote) =
      (.submitted (orderOf quote), (oracle.submitConversionRequest quote).2) := by
  cases route <;> rfl

/-- A quote leaves the book alone, and so does a status. -/
theorem call_asks (oracle : SimulationOracle) {call : OracleCall}
    (submits : ∀ route quote, call ≠ .submit route quote)
    (settles : ∀ orderId, call ≠ .settle orderId) : (oracle.call texts call).2 = oracle := by
  cases call with
  | quote route => cases route <;> rfl
  | submit route quote => exact absurd rfl (submits route quote)
  | status route => cases route <;> rfl
  | settle orderId => exact absurd rfl (settles orderId)

/-- What settling does to the book. -/
theorem settle_cases (oracle : SimulationOracle) (orderId : String) :
    (oracle.settle orderId).2 = oracle ∨
      ∃ order, oracle.orders.get? orderId = some order ∧ order.status = .submitted ∧
        (oracle.settle orderId).2.orders =
          oracle.orders.setItem orderId { order with status := .settled } := by
  unfold settle getConversionStatus
  cases found : oracle.orders.get? orderId with
  | none => exact .inl rfl
  | some order =>
      by_cases open_ : order.status = .submitted
      · refine .inr ⟨order, rfl, open_, ?_⟩
        simp only [if_pos open_]
      · refine .inl ?_
        simp only [if_neg open_]

variable (texts) in
/-- **A step on one order**: it stays as it was, or settles, unless its id comes again. -/
theorem step_kept {orderId : String} {order : ConversionOrder}
    (found : oracle.orders.get? orderId = some order) (call : OracleCall)
    (other : ∀ ref ∈ submittedRefs [call], "sim-" ++ ref ≠ orderId) :
    ∃ kept, (oracle.call texts call).2.orders.get? orderId = some kept ∧ order.Kept kept := by
  cases call with
  | quote route =>
      rw [call_asks oracle (fun _ _ same => by cases same) (fun _ same => by cases same)]
      exact ⟨order, found, .refl order⟩
  | status route =>
      rw [call_asks oracle (fun _ _ same => by cases same) (fun _ same => by cases same)]
      exact ⟨order, found, .refl order⟩
  | submit route quote =>
      have apart : orderId ≠ "sim-" ++ quote.quoteRef :=
        (other quote.quoteRef (List.mem_singleton_self _)).symm
      rw [call_submit]
      refine ⟨order, ?_, .refl order⟩
      exact (PyDict.get?_setItem _ _ _ _).trans ((if_neg apart).trans found)
  | settle settled =>
      show ∃ kept, (oracle.settle settled).2.orders.get? orderId = some kept ∧ order.Kept kept
      rcases oracle.settle_cases settled with same | ⟨open_, here, was, book⟩
      · rw [same]
        exact ⟨order, found, .refl order⟩
      · rw [book, PyDict.get?_setItem]
        by_cases same : orderId = settled
        · obtain rfl := same
          obtain rfl := Option.some.inj (here.symm.trans found)
          rw [if_pos rfl]
          exact ⟨_, rfl, rfl, fun _ => rfl⟩
        · rw [if_neg same]
          exact ⟨order, found, .refl order⟩

/-- An order that a step leaves in the book was there, or was submitted. -/
theorem step_origin {orderId : String} {order : ConversionOrder} {call : OracleCall}
    (found : (oracle.call texts call).2.orders.get? orderId = some order) :
    (∃ before, oracle.orders.get? orderId = some before) ∨
      ∃ ref ∈ submittedRefs [call], orderId = "sim-" ++ ref := by
  cases call with
  | quote route =>
      rw [call_asks oracle (fun _ _ same => by cases same) (fun _ same => by cases same)] at found
      exact .inl ⟨order, found⟩
  | status route =>
      rw [call_asks oracle (fun _ _ same => by cases same) (fun _ same => by cases same)] at found
      exact .inl ⟨order, found⟩
  | submit route quote =>
      rw [call_submit] at found
      have read := (PyDict.get?_setItem _ _ _ _).symm.trans found
      by_cases here : orderId = "sim-" ++ quote.quoteRef
      · exact .inr ⟨quote.quoteRef, List.mem_singleton_self _, here⟩
      · exact .inl ⟨order, (if_neg here).symm.trans read⟩
  | settle settled =>
      have found : (oracle.settle settled).2.orders.get? orderId = some order := found
      rcases oracle.settle_cases settled with same | ⟨open_, here, -, book⟩
      · rw [same] at found
        exact .inl ⟨order, found⟩
      · rw [book, PyDict.get?_setItem] at found
        by_cases same : orderId = settled
        · exact .inl ⟨open_, same ▸ here⟩
        · rw [if_neg same] at found
          exact .inl ⟨order, found⟩

end Step

/-! ## Along a run -/

section Run

variable {texts : Texts} {oracle : SimulationOracle}

theorem submittedRefs_cons (call : OracleCall) (calls : List OracleCall) :
    submittedRefs (call :: calls) = submittedRefs [call] ++ submittedRefs calls := by
  show submittedRefs ([call] ++ calls) = _
  exact List.filterMap_append

theorem submittedRefs_append (earlier later : List OracleCall) :
    submittedRefs (earlier ++ later) = submittedRefs earlier ++ submittedRefs later :=
  List.filterMap_append

variable (texts) in
theorem kept_run {orderId : String} {order : ConversionOrder}
    (found : oracle.orders.get? orderId = some order) (calls : List OracleCall)
    (others : ∀ ref ∈ submittedRefs calls, "sim-" ++ ref ≠ orderId) :
    ∃ kept, ((oracleMachine texts).run oracle calls).orders.get? orderId = some kept ∧
      order.Kept kept := by
  induction calls generalizing oracle order with
  | nil => exact ⟨order, found, .refl order⟩
  | cons call calls ih =>
      rw [submittedRefs_cons, List.forall_mem_append] at others
      obtain ⟨next, here, first⟩ := step_kept texts found call others.1
      obtain ⟨kept, last, rest⟩ := ih here others.2
      exact ⟨kept, last, first.trans rest⟩

theorem origin_run {orderId : String} {order : ConversionOrder} (calls : List OracleCall)
    (found : ((oracleMachine texts).run oracle calls).orders.get? orderId = some order) :
    (∃ before, oracle.orders.get? orderId = some before) ∨
      ∃ ref ∈ submittedRefs calls, orderId = "sim-" ++ ref := by
  induction calls generalizing oracle with
  | nil => exact .inl ⟨order, found⟩
  | cons call calls ih =>
      rw [submittedRefs_cons]
      rcases ih found with ⟨before, there⟩ | ⟨ref, later, same⟩
      · rcases step_origin there with there | ⟨ref, now, same⟩
        · exact .inl there
        · exact .inr ⟨ref, List.mem_append_left _ now, same⟩
      · exact .inr ⟨ref, List.mem_append_right _ later, same⟩

/-- The ids of the orders are made of the references. -/
theorem ids_eq (calls : List OracleCall) :
    (submittedIn ((oracleMachine texts).trace oracle calls)).map ConversionOrder.orderId =
      (submittedRefs calls).map ("sim-" ++ ·) := by
  induction calls generalizing oracle with
  | nil => rfl
  | cons call calls ih =>
      have rest : (submittedIn ((oracleMachine texts).trace (oracle.call texts call).2 calls)).map
          ConversionOrder.orderId = (submittedRefs calls).map ("sim-" ++ ·) := ih
      rw [submittedRefs_cons, List.map_append, ← rest]
      cases call with
      | quote route => cases route <;> rfl
      | status route => cases route <;> rfl
      | submit route quote => cases route <;> rfl
      | settle => rfl

/-- An order that was submitted comes from a call. -/
theorem exists_call {order : ConversionOrder} {calls : List OracleCall}
    (member : order ∈ submittedIn ((oracleMachine texts).trace oracle calls)) :
    ∃ earlier route quote later, calls = earlier ++ .submit route quote :: later ∧
      order = orderOf quote := by
  induction calls generalizing oracle with
  | nil => cases member
  | cons call calls ih =>
      have parts : order ∈ submittedIn [(oracleMachine texts).event oracle call] ∨
          order ∈ submittedIn ((oracleMachine texts).trace (oracle.call texts call).2 calls) := by
        rw [← List.mem_append]
        show order ∈ List.filterMap _ _ ++ List.filterMap _ _
        rw [← List.filterMap_append]
        exact member
      rcases parts with here | later
      · cases call with
        | submit route quote =>
            refine ⟨[], route, quote, calls, rfl, ?_⟩
            cases route <;> exact List.mem_singleton.mp here
        | quote route => cases route <;> cases here
        | status route => cases route <;> cases here
        | settle => cases here
      · obtain ⟨earlier, route, quote, others, rfl, same⟩ := ih later
        exact ⟨call :: earlier, route, quote, others, rfl, same⟩

end Run

end SimulationOracle

/-! ## The book -/

section Book

open SimulationOracle

/-- After the calls. -/
def afterCalls (texts : Texts) (feeBps : ℤ) (calls : List OracleCall) : SimulationOracle :=
  (oracleMachine texts).run (.new feeBps) calls

/-- Every submission has made an order with an id of its own, every order is there with its
own fields, and what was settled is settled. -/
structure BookKept (texts : Texts) (feeBps : ℤ) (calls : List OracleCall) : Prop where
  fresh : ((submittedIn ((oracleMachine texts).trace (.new feeBps) calls)).map
    ConversionOrder.orderId).Nodup
  retrievable : ∀ order ∈ submittedIn ((oracleMachine texts).trace (.new feeBps) calls),
    ∃ kept, (afterCalls texts feeBps calls).getConversionStatus order.orderId = .ok kept ∧
      kept = { order with status := kept.status }
  settled : ∀ earlier, earlier <+: calls → ∀ orderId order,
    (afterCalls texts feeBps earlier).getConversionStatus orderId = .ok order →
    order.status = .settled →
    ∃ kept, (afterCalls texts feeBps calls).getConversionStatus orderId = .ok kept ∧
      kept.status = .settled

theorem getConversionStatus_eq {oracle : SimulationOracle} {orderId : String}
    {order : ConversionOrder} :
    oracle.getConversionStatus orderId = .ok order ↔ oracle.orders.get? orderId = some order := by
  unfold getConversionStatus
  cases oracle.orders.get? orderId with
  | none => simp
  | some found => simp

theorem sim_injective {ref ref' : String} (same : "sim-" ++ ref = "sim-" ++ ref') : ref = ref' := by
  simpa using same

/-- **No order is lost or reopened** exactly while no reference is submitted twice. -/
theorem book_kept_iff (texts : Texts) (feeBps : ℤ) (calls : List OracleCall) :
    BookKept texts feeBps calls ↔ (submittedRefs calls).Nodup := by
  constructor
  · intro kept
    have fresh := kept.fresh
    rw [ids_eq] at fresh
    exact fresh.of_map _
  · intro once
    refine ⟨?_, ?_, ?_⟩
    · rw [ids_eq]
      exact once.map fun _ _ => sim_injective
    · intro order member
      obtain ⟨earlier, route, quote, later, rfl, rfl⟩ := exists_call member
      rw [submittedRefs_append, submittedRefs_cons] at once
      obtain ⟨-, once, -⟩ := List.nodup_append.mp once
      obtain ⟨fresh, -⟩ := List.nodup_cons.mp once
      have there : (((afterCalls texts feeBps earlier).call texts (.submit route quote)).2.orders).get?
          (orderOf quote).orderId = some (orderOf quote) := by
        rw [call_submit]
        exact (PyDict.get?_setItem _ _ _ _).trans (if_pos rfl)
      obtain ⟨kept, last, same⟩ := kept_run texts there later fun ref again => by
        intro id
        exact fresh (sim_injective id ▸ again)
      refine ⟨kept, getConversionStatus_eq.mpr ?_, same.fields⟩
      rw [afterCalls, Machine.run_append]
      exact last
    · rintro earlier ⟨later, rfl⟩ orderId order found settled
      have found := getConversionStatus_eq.mp found
      rw [submittedRefs_append] at once
      rcases origin_run earlier found with ⟨before, there⟩ | ⟨ref, member, rfl⟩
      · cases there
      · obtain ⟨kept, last, same⟩ := kept_run texts found later fun ref' again id => by
          exact (List.nodup_append.mp once).2.2 ref member ref' again (sim_injective id).symm
        refine ⟨kept, getConversionStatus_eq.mpr ?_, same.settled settled⟩
        rw [afterCalls, Machine.run_append]
        exact last

namespace Epochs

/-- A digest and a number, each with one text. -/
def texts : Texts := ⟨fun _ => "5df6e0e2761359d30a8275058e299fcc".toList, fun _ => "1.0"⟩

/-- What an epoch of the daemon asks for, to acquire dollars. -/
def quote : ConversionQuote := ⟨"PORTFOLIO", "USD", 1, 1, "5df6e0e2761359d3", true⟩

example : (SimulationOracle.quote texts (.new 0) (.ofString "PORTFOLIO") (.ofString "USD") 1).toOption =
    some quote := by decide +kernel

def first : List OracleCall :=
  [.quote .direct (.ofString "PORTFOLIO") (.ofString "USD") 1, .submit .direct quote,
    .settle "sim-5df6e0e2761359d3"]

def second : List OracleCall :=
  [.quote .direct (.ofString "PORTFOLIO") (.ofString "USD") 1, .submit .direct quote]

end Epochs

/-- Refuting pole: the second epoch submits what the first did, and its settled order is open
again. -/
theorem second_epoch_reopens :
    ¬ ∀ (texts : Texts) (feeBps : ℤ) (calls : List OracleCall), BookKept texts feeBps calls := by
  intro always
  have settled : (afterCalls Epochs.texts 0 Epochs.first).orders.get? "sim-5df6e0e2761359d3" =
      some { orderOf Epochs.quote with status := .settled } := by decide +kernel
  have reopened : (afterCalls Epochs.texts 0 (Epochs.first ++ Epochs.second)).orders.get?
      "sim-5df6e0e2761359d3" = some (orderOf Epochs.quote) := by decide +kernel
  obtain ⟨kept, last, still⟩ := (always Epochs.texts 0 (Epochs.first ++ Epochs.second)).settled
    Epochs.first ⟨Epochs.second, rfl⟩ _ _ (getConversionStatus_eq.mpr settled) rfl
  obtain rfl := Option.some.inj (reopened.symm.trans (getConversionStatus_eq.mp last))
  cases still

end Book

end CentaurApex.Doomsday
