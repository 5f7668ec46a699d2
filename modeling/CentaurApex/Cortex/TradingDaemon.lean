/-
# Cortex.TradingDaemon -- what the trading loop does with a verdict

One tick: the engine proposes, the daemon asks `constitutiond` and acts on what
the client hands back.  Placing an order is the only thing that leaves the loop,
so the daemon's state carries the list of orders it has sent to its adapter.

The client hands back the whole response, `verdict` and `system_state`; the
daemon looks for the names of the verdict's variants among *its* keys.  No answer
of the server has such a key (`answer_names_no_variant`), so every answer is
handled as a rejection (`processTick_quiet`): nothing is ordered and nothing is
recorded.  That is right for a rejection and harmless for an emergency; an
approval is dropped.  `routed_iff` puts the three cases together.

The bare verdict would not serve either: its emergency arm asks for a stand-down
that is refused without a governance key (`handleVerdict_emergency`), and its
approved arm prices the order at zero, which the bridge refuses
(`handleVerdict_approved`).
-/
import CentaurApex.Adapters.ProposalBridge
import CentaurApex.Constitution.Ipc
import CentaurApex.Doomsday.Daemon

namespace CentaurApex.Cortex

open CentaurApex.Theory
open CentaurApex.Theory.Python
open CentaurApex.Theory.ExtNum (fin)
open CentaurApex.Adapters
open CentaurApex.Doomsday
open CentaurApex.Constitution (IpcError IpcResponse EvaluateProposalResponse answerJson)

set_option autoImplicit false

/-! ## The daemon -/

/-- A heartbeat interval that the switch's schema accepts. -/
abbrev HeartbeatInterval := { x : PyFloat // fin 0 < x }

/-- A step of the default plan, with nothing but its type. -/
def plainStep (type : StepType) : EscalationStep where
  step := type
  channels := []
  targetPercentage := none
  via := none
  assetOut := none
  target_bounded := by simp

/-- `_default_doomsday_config`. -/
def defaultDoomsdayConfig (heartbeatInterval : HeartbeatInterval) : DeadManConfig where
  heartbeatInterval := heartbeatInterval
  graceMultiplier := 3
  escalationMultiplier := 6
  escalationEnabled := true
  abortableUntilStep := 2
  liquidationGraceMultiplier := 4
  plan :=
    [{ plainStep .notify with channels := ["ops-slack"] },
      plainStep .haltPlacements,
      { plainStep .reduceExposure with
        targetPercentage := some 50
        target_bounded := by norm_num },
      { plainStep .acquireAssets with assetOut := some "USDC", via := some "simulation_oracle" },
      plainStep .seal]
  oracle := "simulation_oracle"
  strictHeartbeatSigning := false
  maxJournalEntries := 2048
  interval_pos := heartbeatInterval.property
  grace_pos := by decide
  escalation_pos := by decide
  liquidation_pos := by decide
  journal_pos := by decide

structure Portfolio where
  timestamp : ℤ
  totalEquity : PyFloat
  cashBalance : PyFloat
  highWaterMark : PyFloat
  openPositions : List Dict

/-- The daemon, and every order it has sent to its adapter. -/
structure TradingDaemon where
  assetId : String
  adapter : Option ExchangeAdapter
  portfolio : Portfolio
  heartbeatInterval : HeartbeatInterval
  dormant : DeadManSwitchDaemon (defaultDoomsdayConfig heartbeatInterval)
  orders : List UniversalOrderIntent

/-- A market tick, with what the world supplies while it is processed: a fresh
identifier, the clocks, and what the client's `evaluate` returns or raises. -/
structure Tick where
  marketTick : Dict
  proposalId : String
  now : ℤ
  clock : ℚ
  evaluated : Except PyError Json

namespace TradingDaemon

def addPosition (d : TradingDaemon) (position : Dict) : TradingDaemon :=
  { d with portfolio :=
    { d.portfolio with openPositions := d.portfolio.openPositions ++ [position] } }

/-- `_apply_approved_proposal`: the dry-run record. -/
def applyApprovedProposal (d : TradingDaemon) (proposal : Dict) (notional : Json) :
    Except PyError Unit × TradingDaemon :=
  let entryPrice : Except PyError PyFloat := do
    let target ← number (get proposal "target_notional" (.float (fin 0)))
    let divisor ← number notional
    return target / max2 divisor (fin 1)
  match entryPrice with
  | .error e => (.error e, d)
  | .ok entryPrice =>
      (.ok (), d.addPosition
        [("asset_id", get proposal "asset_id" (.str "")), ("notional_value", notional),
          ("entry_price", .float entryPrice)])

/-- `_apply_execution`. -/
def applyExecution (d : TradingDaemon) (receipt : ExecutionReceipt) (intent : UniversalOrderIntent)
    (notional : Json) : Except PyError Unit × TradingDaemon :=
  match receipt.status with
  | .filled =>
      (.ok (), d.addPosition
        [("asset_id", .str intent.assetId), ("notional_value", notional),
          ("entry_price", .float receipt.filledPrice), ("quantity", .float receipt.filledQuantity)])
  | .dryRun =>
      d.applyApprovedProposal [("asset_id", .str intent.assetId), ("target_notional", notional)]
        notional
  | _ => (.ok (), d)

/-- `proposal_dict_to_trade_proposal`. -/
def proposalDictToTradeProposal (rt : Runtime) (proposal : Dict) : Except PyError TradeProposal :=
  rt.validate (proposal.filter fun field => field.1 ∈ TradeProposal.modelFields)

/-- Send an intent to the adapter and record what came of it. -/
def execute (d : TradingDaemon) (adapter : ExchangeAdapter) (intent : UniversalOrderIntent)
    (notional : Json) : Except PyError Unit × TradingDaemon :=
  let placed := { d with orders := d.orders ++ [intent] }
  match adapter.executeOrder d.orders intent with
  | .error e => (.error e, placed)
  | .ok receipt => placed.applyExecution receipt intent notional

/-- The `Approved` arm of `_handle_verdict`. -/
def handleApproved (rt : Runtime) (d : TradingDaemon) (verdict : Json) (proposal : Dict) :
    Except PyError Unit × TradingDaemon :=
  match (do getMethod (← item verdict "Approved") "adjusted_notional" (.float (fin 0))) with
  | .error e => (.error e, d)
  | .ok notional =>
      match d.adapter.filter fun adapter => adapter.healthCheck d.orders with
      | none => d.applyApprovedProposal proposal notional
      | some adapter =>
          let routed : Except PyError (Option UniversalOrderIntent) := do
            verdictToOrderAction verdict (← proposalDictToTradeProposal rt proposal)
              (get proposal "_reference_price" (.float (fin 0)))
          match routed with
          | .error e => (.error e, d)
          | .ok none => (.ok (), d)
          | .ok (some intent) => d.execute adapter intent notional

def handleVerdict (rt : Runtime) (d : TradingDaemon) (verdict : Json) (proposal : Dict)
    (clock : ℚ) : Except PyError Unit × TradingDaemon :=
  match contains "Approved" verdict with
  | .error e => (.error e, d)
  | .ok true => handleApproved rt d verdict proposal
  | .ok false =>
      match contains "EmergencyLiquidationAll" verdict with
      | .error e => (.error e, d)
      | .ok true =>
          match d.dormant.disarm clock "" with
          | .error e => (.error e, d)
          | .ok dormant => (.ok (), { d with dormant := dormant })
      | .ok false => (.ok (), d)

/-- What the engine makes of a tick, with the daemon's defaults filled in. -/
def propose (rt : Runtime) (d : TradingDaemon) (tick : Tick) : Except PyError EngineResult :=
  evaluateMarketTick rt d.assetId tick.proposalId tick.now
    (setDefault
      (setDefault tick.marketTick "account_equity" (.float d.portfolio.totalEquity))
      "asset_id" (.str d.assetId))

/-- Everything a tick does before the closing heartbeat. -/
def act (rt : Runtime) (d : TradingDaemon) (tick : Tick) : Except PyError Unit × TradingDaemon :=
  match d.propose rt tick with
  | .error e => (.error e, d)
  | .ok .noAction => (.ok (), d)
  | .ok (.proposalGenerated _ proposal) =>
      match tick.evaluated with
      | .error e => (.error e, d)
      | .ok verdict => d.handleVerdict rt verdict proposal tick.clock

def processTick (rt : Runtime) (d : TradingDaemon) (tick : Tick) :
    Except PyError Unit × TradingDaemon :=
  match d.act rt tick with
  | (.error e, d) => (.error e, d)
  | (.ok (), d) =>
      match d.dormant.beat tick.clock false with
      | .error e => (.error e, d)
      | .ok dormant => (.ok (), { d with dormant := dormant })

end TradingDaemon

/-- The daemon over a sequence of ticks. -/
def tradingMachine (rt : Runtime) : Machine TradingDaemon Tick (Except PyError Unit) where
  step d tick := d.processTick rt tick

/-! ## The server's answers name no variant -/

/-- What the client hands back is one of the server's answers, or it raises. -/
def Tick.Answered (tick : Tick) : Prop :=
  ∀ value, tick.evaluated = .ok value → ∃ answer, value = answerJson answer

/-- **The names of the verdict's variants are no keys of an answer.** -/
theorem answer_names_no_variant (answer : Except IpcError IpcResponse) :
    contains "Approved" (answerJson answer) = .ok false ∧
      contains "EmergencyLiquidationAll" (answerJson answer) = .ok false := by
  cases answer with
  | error e => exact ⟨rfl, rfl⟩
  | ok response => cases response <;> exact ⟨rfl, rfl⟩

theorem handleVerdict_answer (rt : Runtime) (d : TradingDaemon)
    (answer : Except IpcError IpcResponse) (proposal : Dict) (clock : ℚ) :
    d.handleVerdict rt (answerJson answer) proposal clock = (.ok (), d) := by
  obtain ⟨approved, emergency⟩ := answer_names_no_variant answer
  rw [TradingDaemon.handleVerdict, approved, emergency]

/-- A tick whose answer comes from the server changes nothing before its heartbeat. -/
theorem act_answered (rt : Runtime) (d : TradingDaemon) {tick : Tick} (answered : tick.Answered) :
    (d.act rt tick).2 = d := by
  unfold TradingDaemon.act
  split
  · rfl
  · rfl
  · split
    · rfl
    · rename_i verdict returned
      obtain ⟨answer, rfl⟩ := answered verdict returned
      rw [handleVerdict_answer]

/-- **A tick that is answered by the server places no order and records no
position**; and if the engine proposed and the client returned, it does not raise. -/
theorem processTick_quiet (rt : Runtime) (d : TradingDaemon) {tick : Tick}
    (answered : tick.Answered) :
    (d.processTick rt tick).2.orders = d.orders ∧
      (d.processTick rt tick).2.portfolio = d.portfolio ∧
      ((d.act rt tick).1 = .ok () → (d.processTick rt tick).1 = .ok ()) := by
  have same := act_answered rt d answered
  unfold TradingDaemon.processTick
  cases acted : d.act rt tick with
  | mk result after =>
      rw [acted] at same
      obtain rfl : after = d := same
      cases result with
      | error e => exact ⟨rfl, rfl, fun other => absurd other (by simp)⟩
      | ok _ =>
          obtain ⟨dormant, beaten⟩ :=
            DeadManSwitchDaemon.beat_unsigned rfl after.dormant tick.clock false
          simp only [beaten]
          exact ⟨trivial, trivial, fun _ => trivial⟩

/-- No run of answered ticks places an order. -/
theorem run_quiet (rt : Runtime) {ticks : List Tick} (answered : ∀ tick ∈ ticks, tick.Answered) :
    ∀ d : TradingDaemon, ((tradingMachine rt).run d ticks).orders = d.orders := by
  induction ticks with
  | nil => exact fun _ => rfl
  | cons tick ticks ih =>
      intro d
      obtain ⟨first, rest⟩ := List.forall_mem_cons.mp answered
      exact (ih rest _).trans (processTick_quiet rt d first).1

/-! ## The bare verdict -/

section BareVerdict

open CentaurApex.Constitution (ConstitutionVerdict)

variable (rt : Runtime) (d : TradingDaemon) (clock : ℚ)

/-- Handed the bare verdict, the emergency arm would ask the dead-man switch to
stand down, which without a governance key it refuses. -/
theorem handleVerdict_emergency (unset : d.dormant.governanceKey = none) (proposal : Dict) :
    d.handleVerdict rt ConstitutionVerdict.emergencyLiquidationAll.toJson proposal clock =
      (.error (.permissionError "governance override rejected — key mismatch/unset"), d) := by
  have approved : contains "Approved" ConstitutionVerdict.emergencyLiquidationAll.toJson =
      .ok false := congrArg Except.ok (by decide +kernel)
  have emergency : contains "EmergencyLiquidationAll"
      ConstitutionVerdict.emergencyLiquidationAll.toJson = .ok true :=
    congrArg Except.ok (by decide +kernel)
  rw [TradingDaemon.handleVerdict, approved, emergency]
  simp only [DeadManSwitchDaemon.disarm_without_key unset]

/-- Handed the bare verdict, the approved arm would look for a reference price
that no proposal carries, and the bridge refuses a price of zero. -/
theorem handleVerdict_approved {adapter : ExchangeAdapter} (configured : d.adapter = some adapter)
    (healthy : adapter.healthCheck d.orders = true) {proposal : TradeProposal}
    (valid : rt.validate proposal.modelDump = .ok proposal) (n : PyFloat) :
    d.handleVerdict rt (ConstitutionVerdict.approved n).toJson proposal.modelDump clock =
      (.error (.valueError "price must be positive" (some (fin 0))), d) := by
  have fields : proposal.modelDump.filter (fun field => field.1 ∈ TradeProposal.modelFields) =
      proposal.modelDump := rfl
  have typed : TradingDaemon.proposalDictToTradeProposal rt proposal.modelDump = .ok proposal := by
    rw [TradingDaemon.proposalDictToTradeProposal, fields, valid]
  have priced : get proposal.modelDump "_reference_price" (.float (fin 0)) = .float (fin 0) := rfl
  have up : d.adapter.filter (fun adapter => adapter.healthCheck d.orders) = some adapter := by
    rw [configured, Option.filter_some, healthy, if_pos rfl]
  have names : contains "Approved" (ConstitutionVerdict.approved n).toJson = .ok true := rfl
  rw [TradingDaemon.handleVerdict, names]
  simp only [TradingDaemon.handleApproved, up, typed, priced]
  rfl

end BareVerdict

/-! ## Routing -/

/-- What a tick that proposed `proposal` should do with the response. -/
structure Routed (rt : Runtime) (d : TradingDaemon) (tick : Tick) (proposal : Dict)
    (response : EvaluateProposalResponse) : Prop where
  /-- One order, of the approved size at the tick's price; a fill is recorded. -/
  approved : ∀ n, response.verdict = .approved n → ∃ adapter intent price,
    d.adapter = some adapter ∧
    (d.processTick rt tick).2.orders = d.orders ++ [intent] ∧
    proposal.lookup "asset_id" = some (.str intent.assetId) ∧
    proposal.lookup "direction" = some (.str intent.side) ∧
    readFloat rt tick.marketTick "price" (fin 0) = .ok price ∧ intent.quantity * price = n ∧
    (∀ receipt, adapter.executeOrder d.orders intent = .ok receipt → receipt.status = .filled →
      ∃ position, (d.processTick rt tick).2.portfolio.openPositions =
        d.portfolio.openPositions ++ [position] ∧
        position.lookup "notional_value" = some (.float n))
  rejected : ∀ code, response.verdict = .rejected code →
    (d.processTick rt tick).2.orders = d.orders ∧
      (d.processTick rt tick).2.portfolio = d.portfolio
  /-- No order now, no exception, and no order on any later tick. -/
  emergency : response.verdict = .emergencyLiquidationAll →
    (d.processTick rt tick).1 = .ok () ∧ (d.processTick rt tick).2.orders = d.orders ∧
      ∀ later : List Tick, (∀ tick ∈ later, tick.Answered) →
        ((tradingMachine rt).run (d.processTick rt tick).2 later).orders = d.orders

/-- **A verdict is routed as it should be exactly when it is not an approval.** -/
theorem routed_iff (rt : Runtime) (d : TradingDaemon) (tick : Tick) (timestamp : ℤ)
    (proposal : Dict) (emits : d.propose rt tick = .ok (.proposalGenerated timestamp proposal))
    (response : EvaluateProposalResponse) (returned : tick.evaluated = .ok response.toJson) :
    Routed rt d tick proposal response ↔ ∀ n, response.verdict ≠ .approved n := by
  have answered : tick.Answered := by
    intro value returns
    refine ⟨.ok (.evaluateProposal response), ?_⟩
    rw [returned] at returns
    exact (Except.ok.inj returns).symm
  obtain ⟨orders, portfolio, completes⟩ := processTick_quiet rt d answered
  constructor
  · intro routed n approved
    obtain ⟨_, intent, _, _, placed, _⟩ := routed.approved n approved
    rw [orders] at placed
    simp at placed
  · intro other
    refine ⟨fun n approved => absurd approved (other n), fun _ _ => ⟨orders, portfolio⟩,
      fun _ => ⟨completes ?_, orders, fun later answers => ?_⟩⟩
    · have handled := handleVerdict_answer rt d (.ok (.evaluateProposal response)) proposal tick.clock
      rw [TradingDaemon.act, emits, returned]
      exact congrArg Prod.fst handled
    · exact (run_quiet rt answers _).trans orders

/-! ## Poles: a bullish tick -/

namespace BullishTick

/-- Validation on the fields the engine sends it; no text is read as a float. -/
def runtime : Runtime where
  floatOfText _ := none
  validate fields :=
    match fields.lookup "proposal_id", fields.lookup "asset_id", fields.lookup "direction",
      fields.lookup "target_notional", fields.lookup "max_acceptable_slippage" with
    | some (.str proposalId), some (.str assetId), some (.str direction),
      some (.float notional), some (.float slippage) =>
        if notional ≤ fin 0 ∨ slippage < fin 0 then .error .validationError
        else .ok ⟨proposalId, assetId, if direction = "Buy" then .buy else .sell, .float notional,
          slippage⟩
    | _, _, _, _, _ => .error .validationError

/-- An adapter that is always up and fills everything. -/
def adapter : ExchangeAdapter where
  healthCheck _ := true
  executeOrder _ intent := .ok
    { intentId := intent.intentId
      executionId := "x"
      filledPrice := fin (1085 / 1000)
      filledQuantity := intent.quantity
      status := .filled }

def daemon : TradingDaemon where
  assetId := "EURUSD"
  adapter := some adapter
  portfolio :=
    { timestamp := 0
      totalEquity := fin 100000
      cashBalance := fin 90000
      highWaterMark := fin 100000
      openPositions := [] }
  heartbeatInterval := ⟨fin 5, by decide⟩
  dormant := .new _ none
  orders := []

def tick (response : EvaluateProposalResponse) : Tick where
  marketTick :=
    [("price", .float (fin (1085 / 1000))), ("momentum_signal", .bool true),
      ("trend", .str "bullish"), ("volatility", .float (fin (7 / 1000)))]
  proposalId := "t"
  now := 0
  clock := 0
  evaluated := .ok response.toJson

def generates : Except PyError EngineResult → Bool
  | .ok (.proposalGenerated _ _) => true
  | _ => false

/-- The engine proposes on the tick, whatever the response will be. -/
theorem emits (response : EvaluateProposalResponse) :
    ∃ timestamp proposal,
      daemon.propose runtime (tick response) = .ok (.proposalGenerated timestamp proposal) := by
  have shape : generates (daemon.propose runtime (tick ⟨.emergencyLiquidationAll, ""⟩)) = true := by
    decide +kernel
  have same : daemon.propose runtime (tick response) =
      daemon.propose runtime (tick ⟨.emergencyLiquidationAll, ""⟩) := rfl
  rw [same]
  cases result : daemon.propose runtime (tick ⟨.emergencyLiquidationAll, ""⟩) with
  | error e => simp [result, generates] at shape
  | ok result' =>
      cases result' with
      | noAction => simp [result, generates] at shape
      | proposalGenerated timestamp proposal => exact ⟨timestamp, proposal, rfl⟩

end BullishTick

/-- Refuting pole: with a healthy adapter that fills everything, an approval of
5000 is not acted on. -/
theorem approval_dropped :
    ¬ ∀ (rt : Runtime) (d : TradingDaemon) (adapter : ExchangeAdapter),
      d.adapter = some adapter → (∀ orders, adapter.healthCheck orders = true) →
      ∀ (tick : Tick) (timestamp : ℤ) (proposal : Dict),
        d.propose rt tick = .ok (.proposalGenerated timestamp proposal) →
        ∀ response : EvaluateProposalResponse, tick.evaluated = .ok response.toJson →
          Routed rt d tick proposal response := by
  intro always
  obtain ⟨timestamp, proposal, emits⟩ := BullishTick.emits ⟨.approved (fin 5000), "Normal"⟩
  have routed := always BullishTick.runtime BullishTick.daemon BullishTick.adapter rfl
    (fun _ => rfl) _ timestamp proposal emits ⟨.approved (fin 5000), "Normal"⟩ rfl
  obtain ⟨_, intent, _, _, placed, _⟩ := routed.approved (fin 5000) rfl
  have answered : (BullishTick.tick ⟨.approved (fin 5000), "Normal"⟩).Answered :=
    fun value returned => ⟨.ok (.evaluateProposal ⟨.approved (fin 5000), "Normal"⟩),
      (Except.ok.inj returned).symm⟩
  have quiet := processTick_quiet BullishTick.runtime BullishTick.daemon answered
  rw [quiet.1] at placed
  simp at placed

/-- Satisfiable pole: the same tick with an emergency verdict is routed. -/
theorem emergency_routed :
    ∃ proposal, Routed BullishTick.runtime BullishTick.daemon
      (BullishTick.tick ⟨.emergencyLiquidationAll, "EmergencyHalt"⟩) proposal
      ⟨.emergencyLiquidationAll, "EmergencyHalt"⟩ := by
  obtain ⟨timestamp, proposal, emits⟩ :=
    BullishTick.emits ⟨.emergencyLiquidationAll, "EmergencyHalt"⟩
  exact ⟨proposal, (routed_iff BullishTick.runtime BullishTick.daemon _ timestamp proposal emits
    ⟨.emergencyLiquidationAll, "EmergencyHalt"⟩ rfl).mpr fun n other => by cases other⟩

end CentaurApex.Cortex
