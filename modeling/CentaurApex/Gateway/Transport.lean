/-
# Gateway.Transport -- two ways from the gateway to the kernel

The gateway asks the constitution for an evaluation, for its status or for a sign
of life, over one of two transports.  `RustBridgeService` connects to the daemon,
whose one kernel has seen every call before; `CliBridgeService` runs
`constitution_cli`, which builds a kernel for the call and drops it.

The envelope is the same text on both (`Call.envelope`).  `JSON.stringify` is a
parameter; what is asked of it is that `serde_json` reads the envelope back
(`Carried`).  A response is the JSON value it was written from.  How the socket
cuts a response into pieces is not modelled here.

`transports_compared` says what each of them answers, and that a call gets the
same result from both exactly when the daemon's kernel still looks new to it
(`LooksNew`).
-/
import CentaurApex.Constitution.Connection
import CentaurApex.Constitution.Delivery
import CentaurApex.Constitution.Drawdown
import CentaurApex.Theory.DecimalFloat
import CentaurApex.Theory.JsonText

namespace CentaurApex.Gateway

open CentaurApex.Theory
open CentaurApex.Theory.ExtNum (fin)
open CentaurApex.Constitution

set_option autoImplicit false

/-! ## The calls -/

/-- A call on a `ConstitutionTransport`, with its JavaScript arguments. -/
inductive Call where
  | evaluateProposal (portfolio proposal : Json)
  | getStatus
  | heartbeat

/-- `throw new Error(message)`, with the value the message ends in. -/
structure GatewayError where
  message : String
  got : Option Json

namespace Call

def opcode : Call → IpcOpcode
  | evaluateProposal _ _ => .evaluateProposal
  | getStatus => .getStatus
  | heartbeat => .heartbeat

def opcodeName : Call → String
  | evaluateProposal _ _ => "EvaluateProposal"
  | getStatus => "GetStatus"
  | heartbeat => "Heartbeat"

variable (stringify : Json → String)

def payload : Call → String
  | evaluateProposal portfolio proposal =>
      stringify (.obj [("portfolio", portfolio), ("proposal", proposal)])
  | getStatus => "\x7b\x7d"
  | heartbeat => "\x7b\x7d"

/-- The text of a call's envelope, the same on both transports. -/
def envelope (call : Call) : String :=
  stringify (.obj [("protocol_version", .int 1), ("request_id", .str "gateway-0001"),
    ("opcode", .str call.opcodeName), ("payload", .str (call.payload stringify))])

def frame (call : Call) : List UInt8 := utf8 (call.envelope stringify).toList

end Call

/-- Whether JavaScript takes a property for true. -/
def truthy : Option Json → Bool
  | none => false
  | some .null => false
  | some (.bool b) => b
  | some (.int n) => n ≠ 0
  | some (.float x) => x ≠ fin 0 ∧ x ≠ .nan
  | some (.str s) => s ≠ ""
  | some (.arr _) => true
  | some (.obj _) => true

/-- A heartbeat is looked at before it is returned. -/
def Call.checked (call : Call) (notAlive : String) (response : Json) : Except GatewayError Json :=
  match call with
  | heartbeat =>
      if truthy (response.get? "alive") then .ok response else .error ⟨notAlive, none⟩
  | _ => .ok response

/-! ## `constitution_cli` -/

inductive CliExit where
  | failed (stderr : String)
  | printed (response : Json)

/-- An error as the command prints it. -/
def IpcError.cliText : IpcError → String
  | .versionMismatch _ _ => "version_mismatch"
  | e => e.debug

def cliUsage : Json :=
  .obj [("alive", .bool true), ("protocol_version", .int ipcProtocolVersion.toNat),
    ("usage", .str "constitution_cli '<envelope-json>' | constitution_cli")]

/-- What the command prints for the answer of its server. -/
def cliResponse : Except IpcError IpcResponse → Json
  | .ok response => response.toJson
  | .error e => .obj [("error", .str (IpcError.cliText e))]

/-- `main`, with the arguments behind the program's name. -/
def cliMain (codec : Codec) (args : List String) (stdin : String) : CliExit :=
  let payload := if args.isEmpty then stdin else " ".intercalate args
  let text := trim payload.toList
  let frame := utf8 text
  if !text.isEmpty && frame.length > maxFrameBytes then
    .failed "Payload exceeds MAX_FRAME_BYTES = 16384"
  else if text.isEmpty then .printed cliUsage
  else
    let server := IpcServer.new (.new .default)
    .printed (cliResponse (server.handleFrame codec frame).1)

/-! ## The transports -/

section Transports

variable (codec : Codec) (stringify : Json → String)

namespace RustBridgeService

/-- `rpc`: one connection for one frame, read by the daemon in the pieces `chunks`. -/
def rpc (server : IpcServer) (call : Call) (chunks : Nat → Nat) :
    Except GatewayError Json × IpcServer :=
  if (call.frame stringify).length > maxFrameBytes then
    (.error ⟨"Frame exceeds MAX_FRAME_BYTES", none⟩, server)
  else
    let stream := packU32 (call.frame stringify).length ++ call.frame stringify
    let served := handleConnection (ipcMachine codec) ⟨stream, chunks⟩ server
    match served.written with
    | [] => (.error ⟨"constitutiond RPC timed out", none⟩, served.server)
    | answer :: _ => (.ok (answerJson answer), served.server)

/-- The calls of a gateway on one daemon. -/
def machine : Machine IpcServer (Call × (Nat → Nat)) (Except GatewayError Json) where
  step server input :=
    let answer := rpc codec stringify server input.1 input.2
    (answer.1.bind (input.1.checked "constitution daemon reported not alive"), answer.2)

end RustBridgeService

/-- `CliBridgeService`: one process for one call. -/
def CliBridgeService.call (call : Call) : Except GatewayError Json :=
  match cliMain codec [call.envelope stringify] "" with
  | .failed stderr => .error ⟨"Command failed: ", some (.str stderr)⟩
  | .printed response =>
      if truthy (response.get? "error") then
        .error ⟨"constitution_cli error: ", response.get? "error"⟩
      else call.checked "constitution_cli reported not alive" response

/-- The envelope of a call arrives: its text neither is empty nor begins or ends
with a blank, and `serde_json` reads from it what was written into it. -/
structure Carried (call : Call) : Prop where
  nonempty : (call.envelope stringify).toList ≠ []
  trimmed : trim (call.envelope stringify).toList = (call.envelope stringify).toList
  read : codec.envelope (call.frame stringify) =
    some ⟨ipcProtocolVersion, "gateway-0001", call.opcode, call.payload stringify⟩

end Transports

/-! ## What a call comes to -/

section Calls

variable {codec : Codec} {stringify : Json → String} {call : Call}

theorem Carried.frame_pos (carried : Carried codec stringify call) :
    0 < (call.frame stringify).length :=
  List.length_pos_iff.mpr fun empty => carried.nonempty (utf8_eq_nil.mp empty)

/-- An exchange with the daemon is one `handle_frame`. -/
theorem rpc_eq (carried : Carried codec stringify call) (chunks : Nat → Nat) (server : IpcServer)
    (short : (call.frame stringify).length ≤ maxFrameBytes) :
    RustBridgeService.rpc codec stringify server call chunks =
      (.ok (answerJson (server.handleFrame codec (call.frame stringify)).1),
        (server.handleFrame codec (call.frame stringify)).2) := by
  have fits : (call.frame stringify).length < 2 ^ 32 := by
    simp only [maxFrameBytes] at short
    omega
  obtain ⟨written, after⟩ := handleConnection_wire (ipcMachine codec) ⟨call.frame stringify, fits⟩
    carried.frame_pos short chunks server
  simp only [Frame.wire] at written after
  rw [RustBridgeService.rpc, if_neg (not_lt.mpr short)]
  simp only [written, after]
  rfl

/-- The command reads the envelope as it is. -/
theorem cliMain_text (carried : Carried codec stringify call) :
    cliMain codec [call.envelope stringify] "" =
      if (call.frame stringify).length > maxFrameBytes then
        .failed "Payload exceeds MAX_FRAME_BYTES = 16384"
      else .printed (cliResponse
        ((IpcServer.new (.new .default)).handleFrame codec (call.frame stringify)).1) := by
  have text : trim (" ".intercalate [call.envelope stringify]).toList =
      (call.envelope stringify).toList := by
    rw [String.intercalate_singleton]
    exact carried.trimmed
  have some_ : (call.envelope stringify).toList.isEmpty = false :=
    List.isEmpty_eq_false_iff.mpr carried.nonempty
  simp only [cliMain, List.isEmpty_cons, Bool.false_eq_true, if_false, text, some_, Bool.not_false,
    Bool.true_and, decide_eq_true_eq, Call.frame]
  split
  · rename_i long
    exact (if_pos long).symm
  · rename_i short
    exact (if_neg short).symm

/-- A run of the command is one `handle_frame` of a new server. -/
theorem cliMain_eq (carried : Carried codec stringify call)
    (short : (call.frame stringify).length ≤ maxFrameBytes) :
    cliMain codec [call.envelope stringify] "" = .printed (cliResponse
      ((IpcServer.new (.new .default)).handleFrame codec (call.frame stringify)).1) := by
  rw [cliMain_text carried, if_neg (not_lt.mpr short)]

theorem read_carried (carried : Carried codec stringify call)
    (short : (call.frame stringify).length ≤ maxFrameBytes) :
    codec.read (call.frame stringify) =
      codec.readPayload ⟨ipcProtocolVersion, "gateway-0001", call.opcode, call.payload stringify⟩ := by
  simp only [Codec.read, if_neg (not_lt.mpr short), carried.read, ne_eq, not_true_eq_false,
    if_false]

/-- A call reads as its own request. -/
theorem request_carried (carried : Carried codec stringify call) {request : Request}
    (read : codec.read (call.frame stringify) = .ok request) :
    (call.frame stringify).length ≤ maxFrameBytes ∧
      match call with
      | .evaluateProposal _ _ =>
          ∃ portfolio proposal, request = .evaluateProposal portfolio proposal
      | .getStatus => request = .getStatus
      | .heartbeat => request = .heartbeat := by
  have short : (call.frame stringify).length ≤ maxFrameBytes := by
    by_contra long
    rw [Codec.read, if_pos (not_le.mp long)] at read
    cases read
  refine ⟨short, ?_⟩
  rw [read_carried carried short] at read
  cases call with
  | evaluateProposal portfolio proposal =>
      simp only [Codec.readPayload, Call.opcode] at read
      split at read
      · cases read
      · exact ⟨_, _, (Except.ok.inj read).symm⟩
  | getStatus => exact (Except.ok.inj read).symm
  | heartbeat => exact (Except.ok.inj read).symm

/-- A served heartbeat passes the check, and nothing else is checked. -/
theorem checked_served (carried : Carried codec stringify call) {request : Request}
    (read : codec.read (call.frame stringify) = .ok request) (server : IpcServer)
    (notAlive : String) :
    call.checked notAlive (server.serve request).1.toJson = .ok (server.serve request).1.toJson := by
  obtain ⟨_, same⟩ := request_carried carried read
  cases call with
  | evaluateProposal portfolio proposal => rfl
  | getStatus => rfl
  | heartbeat =>
      dsimp only at same
      subst same
      rfl

/-- **The daemon's one kernel answers.** -/
theorem rustBridge_step (carried : Carried codec stringify call) {request : Request}
    (read : codec.read (call.frame stringify) = .ok request) (server : IpcServer)
    (chunks : Nat → Nat) :
    (RustBridgeService.machine codec stringify).step server (call, chunks) =
      (.ok (server.serve request).1.toJson, (server.serve request).2) := by
  obtain ⟨short, _⟩ := request_carried carried read
  simp only [RustBridgeService.machine, rpc_eq carried chunks server short, handleFrame_eq, read,
    IpcServer.answer, answerJson, Except.bind, checked_served carried read]

/-- What passes the check is the response. -/
theorem checked_ok {notAlive : String} {response result : Json}
    (passed : call.checked notAlive response = .ok result) : result = response := by
  cases call with
  | evaluateProposal portfolio proposal => exact (Except.ok.inj passed).symm
  | getStatus => exact (Except.ok.inj passed).symm
  | heartbeat =>
      simp only [Call.checked] at passed
      split at passed
      · exact (Except.ok.inj passed).symm
      · cases passed

/-- A call that cannot be read leaves the daemon as it was, and gets no verdict. -/
theorem rustBridge_step_error (carried : Carried codec stringify call) {e : IpcError}
    (read : codec.read (call.frame stringify) = .error e) (server : IpcServer)
    (chunks : Nat → Nat) :
    ((RustBridgeService.machine codec stringify).step server (call, chunks)).2 = server ∧
      ∀ response, ((RustBridgeService.machine codec stringify).step server (call, chunks)).1 =
        .ok response → response.get? "verdict" = none := by
  by_cases short : (call.frame stringify).length ≤ maxFrameBytes
  · simp only [RustBridgeService.machine, rpc_eq carried chunks server short, handleFrame_eq, read,
      IpcServer.answer, Except.bind, true_and]
    intro response passed
    rw [checked_ok passed]
    rfl
  · simp only [RustBridgeService.machine, RustBridgeService.rpc, if_pos (not_le.mp short),
      Except.bind, true_and]
    intro response passed
    cases passed

/-- A frame that is too long is not sent. -/
theorem rustBridge_step_long (long : (call.frame stringify).length > maxFrameBytes)
    (server : IpcServer) (chunks : Nat → Nat) :
    ((RustBridgeService.machine codec stringify).step server (call, chunks)).1.toOption = none := by
  simp only [RustBridgeService.machine, RustBridgeService.rpc, if_pos long]
  rfl

/-- **A new kernel answers**, and only it. -/
theorem cliBridge_call (carried : Carried codec stringify call) {request : Request}
    (read : codec.read (call.frame stringify) = .ok request) :
    CliBridgeService.call codec stringify call =
      .ok ((IpcServer.new (.new .default)).serve request).1.toJson := by
  obtain ⟨short, _⟩ := request_carried carried read
  have noError : ∀ response : IpcResponse, truthy (response.toJson.get? "error") = false := by
    intro response
    cases response <;> rfl
  simp only [CliBridgeService.call, cliMain_eq carried short, handleFrame_eq, read,
    IpcServer.answer, cliResponse, noError, Bool.false_eq_true, if_false,
    checked_served carried read]

/-- An error of the Rust side is a rejection. -/
theorem cliBridge_call_error (carried : Carried codec stringify call) {e : IpcError}
    (read : codec.read (call.frame stringify) = .error e) :
    (CliBridgeService.call codec stringify call).toOption = none := by
  by_cases short : (call.frame stringify).length ≤ maxFrameBytes
  · have isError : ∀ e : IpcError, truthy ((cliResponse (.error e)).get? "error") = true := by
      intro e
      cases e <;> rfl
    simp only [CliBridgeService.call, cliMain_eq carried short, handleFrame_eq, read,
      IpcServer.answer, isError, if_true]
    rfl
  · simp only [CliBridgeService.call, cliMain_text carried, if_pos (not_le.mp short)]
    rfl

end Calls

/-! ## Where the two agree -/

/-- The daemon's kernel answers the request as a new one would. -/
def LooksNew (k : ConstitutionKernel) : Request → Prop
  | .evaluateProposal portfolio proposal =>
      k.state = .normal ∨ k.state = .softDeleveraging ∧
        ∀ code, evaluateProposal portfolio proposal k.params ≠ .rejected code
  | .getStatus => k.proposalCount.val = 0
  | .attemptRecovery _ => False
  | .heartbeat => True

/-- What the calls of a gateway make of the daemon's kernel. -/
def GatewayKernel (k : ConstitutionKernel) : Prop :=
  k.params = .default ∧ (k = .new .default ∨ 0 < k.proposalCount.val)

section Agreement

variable {k : ConstitutionKernel} {portfolio : PortfolioState} {proposal : TradeProposal}

theorem processProposal_count (k : ConstitutionKernel) (portfolio : PortfolioState)
    (proposal : TradeProposal) :
    (k.processProposal portfolio proposal).2.proposalCount = k.proposalCount.saturatingAdd 1 := by
  rcases processProposal_cases k portfolio proposal with
    ⟨_, eq⟩ | ⟨_, _, eq⟩ | ⟨_, _, _, eq⟩ | ⟨_, _, _, eq⟩ <;> rw [eq]
  · rfl
  · simp only [ConstitutionKernel.enterEmergency]
    split <;> rfl
  · rfl
  · unfold ConstitutionKernel.trackSoftBand
    split
    · split
      · split <;> rfl
      · split <;> rfl
      · rfl
      · rfl
    · rfl

/-- The soft band is followed to the same state from either trading state. -/
theorem trackSoftBand_state (k k' : ConstitutionKernel) (trading : k.state.Trading)
    (trading' : k'.state.Trading) {T d : ℚ} (threshold : k.params.maxDrawdownThreshold = fin T)
    (threshold' : k'.params.maxDrawdownThreshold = fin T) (mark : portfolio.highWaterMark > 0)
    (drawdown : portfolio.drawdown = fin d) (below : d < T) :
    (k.trackSoftBand portfolio).state = (k'.trackSoftBand portfolio).state := by
  have tracked := trackSoftBand_tracked trading threshold mark drawdown
  have tracked' := trackSoftBand_tracked trading' threshold' mark drawdown
  simp only [BandTracked, RiskParameters.softThreshold, threshold, threshold', drawdown,
    ExtNum.fin_mul_fin, ExtNum.fin_le_fin, ExtNum.fin_lt_fin] at tracked tracked'
  by_cases inBand : T * (80 / 100) ≤ d
  · rw [tracked.1 inBand below, tracked'.1 inBand below]
  · rw [tracked.2 (not_le.mp inBand), tracked'.2 (not_le.mp inBand)]

/-- Two trading kernels with the default parameters give the same verdict, and end
in the same state unless it rejects. -/
theorem processProposal_default (portfolio : PortfolioState) (proposal : TradeProposal)
    {k' : ConstitutionKernel} (trading : k.state.Trading)
    (trading' : k'.state.Trading) (params : k.params = .default) (params' : k'.params = .default) :
    (k.processProposal portfolio proposal).1 = (k'.processProposal portfolio proposal).1 ∧
      ((∀ code, evaluateProposal portfolio proposal .default ≠ .rejected code) →
        (k.processProposal portfolio proposal).2.state =
          (k'.processProposal portfolio proposal).2.state) := by
  rw [processProposal_trading trading, processProposal_trading trading', params, params']
  refine ⟨rfl, fun passes => ?_⟩
  cases verdict : evaluateProposal portfolio proposal .default with
  | rejected code => exact absurd verdict (passes code)
  | emergencyLiquidationAll =>
      have halts : ∀ {k : ConstitutionKernel}, k.state.Trading →
          k.countProposal.enterEmergency.state = .emergencyHalt := fun {k} trading =>
        (enterEmergency_moves (k := k.countProposal) trading).2
      exact (halts trading).trans (halts trading').symm
  | approved n =>
      obtain ⟨valid, noBreach, _⟩ := evaluate_approved_iff.mp verdict
      obtain ⟨E, H, _, ⟨hE, _⟩, ⟨hH, posH⟩, _⟩ := not_invalidNumerical_iff.mp valid
      have drawdown := drawdown_eq hE hH posH
      have mark : portfolio.highWaterMark > 0 := by
        rw [hH]
        exact posH
      rw [DrawdownBreached, drawdown] at noBreach
      exact trackSoftBand_state k.countProposal k'.countProposal trading trading'
        (congrArg RiskParameters.maxDrawdownThreshold params)
        (congrArg RiskParameters.maxDrawdownThreshold params') mark drawdown (not_le.mp noBreach)

theorem debug_injective {s t : SystemOperationalState} (same : s.debug = t.debug) : s = t := by
  cases s <;> cases t <;> first | rfl | exact absurd same (by decide)

/-- The gate's own verdict never reads as the answer of a locked kernel. -/
theorem verdict_ne_locked {params : RiskParameters} :
    (evaluateProposal portfolio proposal params).toJson ≠
      (ConstitutionVerdict.rejected .maxDrawdownBreached).toJson := by
  intro same
  cases verdict : evaluateProposal portfolio proposal params with
  | approved n =>
      rw [verdict] at same
      simp [ConstitutionVerdict.toJson] at same
  | emergencyLiquidationAll =>
      rw [verdict] at same
      simp [ConstitutionVerdict.toJson] at same
  | rejected code =>
      rw [verdict] at same
      have names : code.debug = RiskViolationCode.maxDrawdownBreached.debug := by
        simpa [ConstitutionVerdict.toJson] using same
      have code_eq : code = .maxDrawdownBreached := by
        cases code <;> first | rfl | exact absurd names (by decide)
      exact (evaluate_rejected verdict).1 code_eq

theorem gatewayKernel_new : GatewayKernel (.new .default) := ⟨rfl, Or.inl rfl⟩

theorem gatewayKernel_processProposal (gateway : GatewayKernel k) (portfolio : PortfolioState)
    (proposal : TradeProposal) :
    GatewayKernel (k.processProposal portfolio proposal).2 := by
  refine ⟨(step_params k (.processProposal portfolio proposal)).trans gateway.1, Or.inr ?_⟩
  rw [processProposal_count]
  simp only [SatCounter.saturatingAdd, u64Max]
  omega

/-- Two answers to a proposal are the same text when verdict and state are. -/
theorem evaluation_eq_iff (k k' : ConstitutionKernel) (portfolio : PortfolioState)
    (proposal : TradeProposal) :
    ((IpcServer.serve ⟨⟨k⟩⟩ (.evaluateProposal portfolio proposal)).1.toJson =
        (IpcServer.serve ⟨⟨k'⟩⟩ (.evaluateProposal portfolio proposal)).1.toJson) ↔
      (k.processProposal portfolio proposal).1.toJson =
          (k'.processProposal portfolio proposal).1.toJson ∧
        (k.processProposal portfolio proposal).2.state =
          (k'.processProposal portfolio proposal).2.state := by
  constructor
  · intro same
    have fields := Json.obj.inj same
    simp only [List.cons.injEq, Prod.mk.injEq, Json.str.injEq] at fields
    exact ⟨fields.1.2, debug_injective fields.2.1.2⟩
  · rintro ⟨verdicts, states⟩
    simp only [IpcServer.serve, IpcResponse.toJson, EvaluateProposalResponse.toJson,
      ConstitutionService.handleIncomingRequest, ConstitutionService.getStatus, verdicts, states]

/-- The status tells a new kernel from one that has counted a proposal. -/
theorem status_eq_iff (gateway : GatewayKernel k) :
    ((IpcServer.serve ⟨⟨k⟩⟩ .getStatus).1.toJson =
        ((IpcServer.new (.new .default)).serve .getStatus).1.toJson) ↔
      k.proposalCount.val = 0 := by
  constructor
  · intro same
    have fields := Json.obj.inj same
    simp only [List.cons.injEq, Prod.mk.injEq, Json.int.injEq, Int.natCast_inj] at fields
    exact fields.2.1.2
  · intro none_
    rcases gateway.2 with rfl | some_
    · rfl
    · exact absurd none_ some_.ne'

/-- A trading kernel answers a proposal as a new one does unless it is rejected in the
soft band. -/
theorem trading_eq_iff (trading : k.state.Trading) (params : k.params = .default) :
    ((k.processProposal portfolio proposal).1.toJson =
          ((ConstitutionKernel.new .default).processProposal portfolio proposal).1.toJson ∧
        (k.processProposal portfolio proposal).2.state =
          ((ConstitutionKernel.new .default).processProposal portfolio proposal).2.state) ↔
      LooksNew k (.evaluateProposal portfolio proposal) := by
  have new : (ConstitutionKernel.new .default).state.Trading := Or.inl rfl
  obtain ⟨verdicts, states⟩ := processProposal_default portfolio proposal trading new params rfl
  simp only [verdicts, true_and, LooksNew, params]
  by_cases passes : ∀ code, evaluateProposal portfolio proposal .default ≠ .rejected code
  · exact iff_of_true (states passes) (trading.imp id fun soft => ⟨soft, passes⟩)
  · -- a rejection leaves either kernel in the state it was in
    obtain ⟨code, rejected⟩ : ∃ code, evaluateProposal portfolio proposal .default =
        .rejected code := by simpa using passes
    have newParams : (ConstitutionKernel.new .default).params = .default := rfl
    rw [processProposal_trading trading, processProposal_trading new, params, newParams, rejected]
    constructor
    · exact Or.inl
    · rintro (normal | ⟨_, other⟩)
      · exact normal
      · exact absurd rfl (other code)

/-- **A request is answered as by a new kernel exactly when the kernel looks new to
it.** -/
theorem serve_eq_iff (gateway : GatewayKernel k) {request : Request}
    (noRecovery : ∀ valid, request ≠ .attemptRecovery valid) :
    ((IpcServer.serve ⟨⟨k⟩⟩ request).1.toJson =
        ((IpcServer.new (.new .default)).serve request).1.toJson) ↔ LooksNew k request := by
  cases request with
  | heartbeat => exact iff_of_true rfl trivial
  | attemptRecovery valid => exact absurd rfl (noRecovery valid)
  | getStatus => exact status_eq_iff gateway
  | evaluateProposal portfolio proposal =>
      refine (evaluation_eq_iff k (.new .default) portfolio proposal).trans ?_
      by_cases trading : k.state.Trading
      · exact trading_eq_iff trading gateway.1
      · refine iff_of_false (fun same => ?_) (fun looks => ?_)
        · have new : (ConstitutionKernel.new .default).state.Trading := Or.inl rfl
          rw [processProposal_locked trading, processProposal_trading new] at same
          exact verdict_ne_locked same.1.symm
        · exact trading (looks.imp id And.left)

end Agreement

/-! ## Whole sessions -/

/-- A call of the gateway as it happened on the daemon. -/
abbrev CallEvent : Type := Event IpcServer (Call × (Nat → Nat)) (Except GatewayError Json)

def SaysEmergency (reply : Except GatewayError Json) : Prop :=
  ∃ response, reply = .ok response ∧
    response.get? "verdict" = some (.str "EmergencyLiquidationAll")

def SaysApproved (reply : Except GatewayError Json) : Prop :=
  ∃ response verdict amount, reply = .ok response ∧
    response.get? "verdict" = some verdict ∧ verdict.get? "Approved" = some amount

/-- What the two transports make of one call. -/
structure Compared (codec : Codec) (stringify : Json → String) (e : CallEvent) : Prop where
  /-- The daemon answers from the kernel that has handled every call before. -/
  daemon : ∀ request, codec.read (e.input.1.frame stringify) = .ok request →
    e.reply = .ok (e.before.serve request).1.toJson
  /-- The command answers from a kernel of its own. -/
  command : ∀ request, codec.read (e.input.1.frame stringify) = .ok request →
    CliBridgeService.call codec stringify e.input.1 =
      .ok ((IpcServer.new (.new .default)).serve request).1.toJson
  agree : ∀ request, codec.read (e.input.1.frame stringify) = .ok request →
    (e.reply.toOption = (CliBridgeService.call codec stringify e.input.1).toOption ↔
      LooksNew e.before.constitution.kernel request)
  commandRejects : ∀ error, codec.read (e.input.1.frame stringify) = .error error →
    (CliBridgeService.call codec stringify e.input.1).toOption = none
  tooLong : (e.input.1.frame stringify).length > maxFrameBytes → e.reply.toOption = none

section Sessions

variable {codec : Codec} {stringify : Json → String}

/-- What a request of the gateway does to the daemon's kernel. -/
theorem serve_kernel {request : Request} (noRecovery : ∀ valid, request ≠ .attemptRecovery valid)
    (server : IpcServer) :
    (server.serve request).2 = server ∨ ∃ portfolio proposal,
      request = .evaluateProposal portfolio proposal ∧
        (server.serve request).2 =
          ⟨⟨(server.constitution.kernel.processProposal portfolio proposal).2⟩⟩ := by
  cases request with
  | evaluateProposal portfolio proposal => exact Or.inr ⟨portfolio, proposal, rfl, rfl⟩
  | getStatus => exact Or.inl rfl
  | attemptRecovery valid => exact absurd rfl (noRecovery valid)
  | heartbeat => exact Or.inl rfl

/-- The gateway never asks for a recovery. -/
theorem Carried.noRecovery {call : Call} (carried : Carried codec stringify call)
    {request : Request} (read : codec.read (call.frame stringify) = .ok request) :
    ∀ valid, request ≠ .attemptRecovery valid := by
  rintro valid rfl
  obtain ⟨_, same⟩ := request_carried carried read
  cases call with
  | evaluateProposal portfolio proposal =>
      obtain ⟨_, _, eq⟩ := same
      cases eq
  | getStatus => cases same
  | heartbeat => cases same

/-- What every proposal keeps of the daemon's kernel, every call of the gateway
keeps. -/
theorem rustBridge_keeps {P : ConstitutionKernel → Prop}
    (keeps : ∀ k portfolio proposal, P k → P (k.processProposal portfolio proposal).2)
    (server : IpcServer) (input : Call × (Nat → Nat)) (carried : Carried codec stringify input.1)
    (holds : P server.constitution.kernel) :
    P ((RustBridgeService.machine codec stringify).step server input).2.constitution.kernel := by
  obtain ⟨call, chunks⟩ := input
  cases read : codec.read (call.frame stringify) with
  | error e =>
      rw [(rustBridge_step_error carried read server chunks).1]
      exact holds
  | ok request =>
      rw [rustBridge_step carried read]
      rcases serve_kernel (carried.noRecovery read) server with same | ⟨portfolio, proposal, _, eq⟩
      · rw [same]
        exact holds
      · rw [eq]
        exact keeps _ portfolio proposal holds

/-- Only a proposal gets a verdict back. -/
theorem rustBridge_verdict {server : IpcServer} {call : Call} {chunks : Nat → Nat}
    (carried : Carried codec stringify call) {response verdict : Json}
    (reply : ((RustBridgeService.machine codec stringify).step server (call, chunks)).1 =
      .ok response)
    (given : response.get? "verdict" = some verdict) :
    ∃ portfolio proposal,
      verdict = (server.constitution.kernel.processProposal portfolio proposal).1.toJson ∧
      ((RustBridgeService.machine codec stringify).step server (call, chunks)).2 =
        ⟨⟨(server.constitution.kernel.processProposal portfolio proposal).2⟩⟩ := by
  cases read : codec.read (call.frame stringify) with
  | error e =>
      rw [(rustBridge_step_error carried read server chunks).2 response reply] at given
      cases given
  | ok request =>
      rw [rustBridge_step carried read] at reply ⊢
      obtain rfl := Except.ok.inj reply
      cases request with
      | evaluateProposal portfolio proposal =>
          exact ⟨portfolio, proposal, (Option.some.inj given).symm, rfl⟩
      | getStatus => cases given
      | attemptRecovery valid => cases given
      | heartbeat => cases given

/-- After an emergency the daemon approves nothing the gateway asks for. -/
theorem halted_approves_nothing {server : IpcServer}
    (halted : server.constitution.kernel.state = .emergencyHalt)
    {calls : List (Call × (Nat → Nat))}
    (carried : ∀ input ∈ calls, Carried codec stringify input.1) :
    ∀ e ∈ (RustBridgeService.machine codec stringify).trace server calls,
      ¬ SaysApproved e.reply := by
  intro e member
  have locked : ∀ {k : ConstitutionKernel}, k.state = .emergencyHalt → ¬ k.state.Trading := by
    intro k state
    rw [state]
    decide
  obtain ⟨before, sent, eq⟩ := (RustBridgeService.machine codec stringify).trace_invariant_of
    (P := fun server => server.constitution.kernel.state = .emergencyHalt)
    (fun server input sent halted => rustBridge_keeps (P := fun k => k.state = .emergencyHalt)
      (fun k portfolio proposal state => by
        rw [processProposal_locked (locked state)]
        exact state) server input sent halted)
    halted carried e member
  rintro ⟨response, verdict, amount, reply, given, approved⟩
  rw [eq] at reply
  obtain ⟨portfolio, proposal, rfl, _⟩ := rustBridge_verdict sent reply given
  rw [processProposal_locked (locked before)] at approved
  cases approved

theorem halted_of_emergency {server : IpcServer} {input : Call × (Nat → Nat)}
    (carried : Carried codec stringify input.1)
    (emergency :
      SaysEmergency ((RustBridgeService.machine codec stringify).step server input).1) :
    ((RustBridgeService.machine codec stringify).step server input).2.constitution.kernel.state =
      .emergencyHalt := by
  obtain ⟨response, reply, given⟩ := emergency
  obtain ⟨portfolio, proposal, verdict, after⟩ := rustBridge_verdict carried reply given
  rw [after]
  refine (processProposal_verdict _ portfolio proposal).2 ?_
  cases answer : (server.constitution.kernel.processProposal portfolio proposal).1 with
  | approved n =>
      rw [answer] at verdict
      cases verdict
  | rejected code =>
      rw [answer] at verdict
      cases verdict
  | emergencyLiquidationAll => rfl

theorem compared {server : IpcServer} (gateway : GatewayKernel server.constitution.kernel)
    {input : Call × (Nat → Nat)} (carried : Carried codec stringify input.1) :
    Compared codec stringify ((RustBridgeService.machine codec stringify).event server input) := by
  obtain ⟨call, chunks⟩ := input
  refine ⟨fun request read => ?_, fun request read => cliBridge_call carried read,
    fun request read => ?_, fun error read => cliBridge_call_error carried read,
    fun long => rustBridge_step_long long server chunks⟩
  · simp only [Machine.event, rustBridge_step carried read]
  · simp only [Machine.event, rustBridge_step carried read, cliBridge_call carried read]
    exact Option.some_inj.trans (serve_eq_iff gateway (carried.noRecovery read))

/-- **The transports, call by call**: the daemon answers from one kernel for all
calls, the command from a new one for each, and they agree exactly on the calls
to which the daemon's kernel looks new.  Over the daemon nothing is approved after
an emergency. -/
theorem transports_compared (codec : Codec) (stringify : Json → String)
    (calls : List (Call × (Nat → Nat)))
    (carried : ∀ input ∈ calls, Carried codec stringify input.1) :
    (∀ e ∈ (RustBridgeService.machine codec stringify).trace (.new (.new .default)) calls,
      Compared codec stringify e) ∧
    ∀ before halt between later after,
      (RustBridgeService.machine codec stringify).trace (.new (.new .default)) calls =
          before ++ halt :: (between ++ later :: after) →
        SaysEmergency halt.reply → ¬ SaysApproved later.reply := by
  refine ⟨fun e member => ?_, fun before halt between later after split emergency => ?_⟩
  · obtain ⟨gateway, sent, eq⟩ := (RustBridgeService.machine codec stringify).trace_invariant_of
      (P := fun server => GatewayKernel server.constitution.kernel)
      (rustBridge_keeps fun k portfolio proposal gateway =>
        gatewayKernel_processProposal gateway portfolio proposal)
      gatewayKernel_new carried e member
    rw [eq]
    exact compared gateway sent
  · obtain ⟨_, rest, rfl, _, fromHalt⟩ :=
      (RustBridgeService.machine codec stringify).trace_eq_append split
    obtain ⟨step, tail, rfl, restEq⟩ :=
      (RustBridgeService.machine codec stringify).trace_eq_cons fromHalt
    have sent : ∀ input ∈ halt.input :: tail, Carried codec stringify input.1 := fun input member =>
      carried input (List.mem_append_right _ member)
    obtain ⟨first, others⟩ := List.forall_mem_cons.mp sent
    have halted : halt.after.constitution.kernel.state = .emergencyHalt := by
      rw [step] at emergency ⊢
      exact halted_of_emergency first emergency
    refine halted_approves_nothing halted others later ?_
    rw [restEq]
    exact List.mem_append_right _ List.mem_cons_self

end Sessions

/-! ## Poles: a breach, then a sound proposal -/

namespace Exchange

/-- `JSON.stringify`, on texts in ASCII and whole numbers. -/
def stringify (j : Json) : String :=
  .ofList ((j.render fun _ => []).map fun b => .ofNat b.toNat)

def evaluate (equity : ℤ) : Call :=
  .evaluateProposal
    (.obj [("timestamp", .int 1), ("total_equity", .int equity), ("cash_balance", .int 0),
      ("high_water_mark", .int 10), ("open_positions", .arr [])])
    (.obj [("proposal_id", .str "t"), ("asset_id", .str "BTC-PERP"), ("direction", .str "Buy"),
      ("target_notional", .int 1), ("max_acceptable_slippage", .int 0)])

/-- The decoders at the two proposals of the exchange. -/
def codec : Codec where
  envelope raw :=
    if raw = (evaluate 7).frame stringify then
      some ⟨1, "gateway-0001", .evaluateProposal, (evaluate 7).payload stringify⟩
    else if raw = (evaluate 9).frame stringify then
      some ⟨1, "gateway-0001", .evaluateProposal, (evaluate 9).payload stringify⟩
    else none
  evaluateProposal payload :=
    if payload = (evaluate 7).payload stringify then
      some ⟨Session.portfolio 7, Session.proposal⟩
    else if payload = (evaluate 9).payload stringify then
      some ⟨Session.portfolio 9, Session.proposal⟩
    else none
  attemptRecovery _ := none

def calls : List (Call × (Nat → Nat)) := [(evaluate 7, fun _ => 1), (evaluate 9, fun _ => 1)]

/-! The texts, as lists: a string is not taken apart twice. -/

def payloadText (equity : ℤ) : List Char :=
  match evaluate equity with
  | .evaluateProposal portfolio proposal =>
      ((Json.obj [("portfolio", portfolio), ("proposal", proposal)]).render fun _ => []).map
        fun b => .ofNat b.toNat
  | _ => []

def envelopeFields (payload : List Char) : List UInt8 :=
  renderString "protocol_version" ++ 58 :: (renderInt 1 ++ 44 ::
    (renderString "request_id" ++ 58 :: (renderString "gateway-0001" ++ 44 ::
      (renderString "opcode" ++ 58 :: (renderString "EvaluateProposal" ++ 44 ::
        (renderString "payload" ++ 58 :: 34 :: (payload.flatMap renderChar ++ [34])))))))

def envelopeText (equity : ℤ) : List Char :=
  '\x7b' :: ((envelopeFields (payloadText equity)).map (fun b => .ofNat b.toNat) ++ ['\x7d'])

theorem payload_eq (equity : ℤ) :
    (evaluate equity).payload stringify = .ofList (payloadText equity) := rfl

theorem envelope_toList (equity : ℤ) :
    ((evaluate equity).envelope stringify).toList = envelopeText equity := by
  have string : renderString ((evaluate equity).payload stringify) =
      34 :: ((payloadText equity).flatMap renderChar ++ [34]) := by
    rw [payload_eq, renderString, String.toList_ofList]
  have opcode : (evaluate equity).opcodeName = "EvaluateProposal" := rfl
  simp only [Call.envelope, Exchange.stringify, String.toList_ofList, Json.render,
    Json.renderFields]
  rw [string, opcode, List.map_cons, List.map_append]
  rfl

theorem frame_short {equity : ℤ} (short : (envelopeText equity).length ≤ 4000) :
    ((evaluate equity).frame stringify).length ≤ maxFrameBytes := by
  have := length_utf8_le (envelopeText equity)
  rw [Call.frame, envelope_toList, maxFrameBytes]
  omega

theorem frame_ne : (evaluate 9).frame stringify ≠ (evaluate 7).frame stringify := by
  rw [Call.frame, Call.frame, envelope_toList, envelope_toList]
  decide +kernel

/-- The frames differ in their payloads only. -/
theorem payload_ne : (evaluate 9).payload stringify ≠ (evaluate 7).payload stringify := by
  intro same
  refine frame_ne ?_
  rw [Call.frame, Call.frame, Call.envelope, Call.envelope, same]
  rfl

/-- The envelope is one object: it begins and ends with a brace. -/
theorem envelope_framed (equity : ℤ) :
    ((evaluate equity).envelope stringify).toList ≠ [] ∧
      trim ((evaluate equity).envelope stringify).toList =
        ((evaluate equity).envelope stringify).toList := by
  rw [envelope_toList]
  exact ⟨List.cons_ne_nil _ _, trim_eq (by decide) (by decide)⟩

/-- An evaluation arrives where the decoder knows its frame. -/
theorem carried_of_known {equity : ℤ}
    (known : codec.envelope ((evaluate equity).frame stringify) =
      some ⟨1, "gateway-0001", .evaluateProposal, (evaluate equity).payload stringify⟩) :
    Carried codec stringify (evaluate equity) where
  nonempty := (envelope_framed equity).1
  trimmed := (envelope_framed equity).2
  read := known

theorem carried_breach : Carried codec stringify (evaluate 7) := by
  refine carried_of_known ?_
  simp only [codec, if_true]

theorem carried_sound : Carried codec stringify (evaluate 9) := by
  refine carried_of_known ?_
  simp only [codec, if_neg frame_ne, if_true]

theorem carried : ∀ input ∈ calls, Carried codec stringify input.1 := by
  simp only [calls, List.forall_mem_cons]
  exact ⟨carried_breach, carried_sound, fun _ none_ => (by cases none_)⟩

/-- An evaluation that arrives, and is short, is read as its proposal. -/
theorem read_evaluate {equity : ℤ} (carried : Carried codec stringify (evaluate equity))
    (short : (envelopeText equity).length ≤ 4000)
    (payload : codec.evaluateProposal ((evaluate equity).payload stringify) =
      some ⟨Session.portfolio equity, Session.proposal⟩) :
    codec.read ((evaluate equity).frame stringify) =
      .ok (.evaluateProposal (Session.portfolio equity) Session.proposal) := by
  have opcode : (evaluate equity).opcode = .evaluateProposal := rfl
  rw [read_carried carried (frame_short short), opcode]
  simp only [Codec.readPayload, payload]

theorem read_breach : codec.read ((evaluate 7).frame stringify) =
    .ok (.evaluateProposal (Session.portfolio 7) Session.proposal) := by
  have short : (envelopeText 7).length ≤ 4000 := by decide +kernel
  have payload : codec.evaluateProposal ((evaluate 7).payload stringify) =
      some ⟨Session.portfolio 7, Session.proposal⟩ := by
    simp only [codec, if_true]
  exact read_evaluate carried_breach short payload

theorem read_sound : codec.read ((evaluate 9).frame stringify) =
    .ok (.evaluateProposal (Session.portfolio 9) Session.proposal) := by
  have short : (envelopeText 9).length ≤ 4000 := by decide +kernel
  have payload : codec.evaluateProposal ((evaluate 9).payload stringify) =
      some ⟨Session.portfolio 9, Session.proposal⟩ := by
    simp only [codec, if_neg payload_ne, if_true]
  exact read_evaluate carried_sound short payload

theorem verdict_eq (k : ConstitutionKernel) (portfolio : PortfolioState)
    (proposal : TradeProposal) :
    (IpcServer.serve ⟨⟨k⟩⟩ (.evaluateProposal portfolio proposal)).1.toJson.get? "verdict" =
      some (k.processProposal portfolio proposal).1.toJson := rfl

theorem breach_verdict : ((ConstitutionKernel.new .default).processProposal (Session.portfolio 7)
    Session.proposal).1 = .emergencyLiquidationAll := by decide +kernel

theorem sound_verdict : ((ConstitutionKernel.new .default).processProposal (Session.portfolio 9)
    Session.proposal).1 = .approved (fin 1) := by decide +kernel

theorem locked_verdict : (Session.haltedKernel.processProposal (Session.portfolio 9)
    Session.proposal).1 = .rejected .maxDrawdownBreached := by decide +kernel

/-- The new kernel and the first proposal: an emergency. -/
theorem breach_emergency : SaysEmergency (.ok ((IpcServer.new (.new .default)).serve
    (.evaluateProposal (Session.portfolio 7) Session.proposal)).1.toJson) := by
  refine ⟨_, rfl, (verdict_eq (.new .default) _ _).trans ?_⟩
  rw [breach_verdict]
  rfl

/-- The new kernel and the second proposal: an approval. -/
theorem sound_approved : SaysApproved (.ok ((IpcServer.new (.new .default)).serve
    (.evaluateProposal (Session.portfolio 9) Session.proposal)).1.toJson) := by
  refine ⟨_, _, .obj [("adjusted_notional", numberToJson (fin 1))], rfl, verdict_eq (.new .default) _ _, ?_⟩
  rw [sound_verdict]
  rfl

/-- What the daemon does in the exchange. -/
theorem trace_eq : (RustBridgeService.machine codec stringify).trace (.new (.new .default)) calls =
    [⟨.new (.new .default), (evaluate 7, fun _ => 1),
        .ok ((IpcServer.new (.new .default)).serve
          (.evaluateProposal (Session.portfolio 7) Session.proposal)).1.toJson,
        ⟨⟨Session.haltedKernel⟩⟩⟩,
      ⟨⟨⟨Session.haltedKernel⟩⟩, (evaluate 9, fun _ => 1),
        .ok (IpcServer.serve ⟨⟨Session.haltedKernel⟩⟩
          (.evaluateProposal (Session.portfolio 9) Session.proposal)).1.toJson,
        (IpcServer.serve ⟨⟨Session.haltedKernel⟩⟩
          (.evaluateProposal (Session.portfolio 9) Session.proposal)).2⟩] := by
  simp only [calls, Machine.trace, Machine.event, rustBridge_step carried_breach read_breach]
  have halted : ((IpcServer.new (.new .default)).serve
      (.evaluateProposal (Session.portfolio 7) Session.proposal)).2 =
        ⟨⟨Session.haltedKernel⟩⟩ := rfl
  rw [halted, rustBridge_step carried_sound read_sound]

end Exchange

/-- Refuting pole: after a breach the daemon rejects what the command approves. -/
theorem command_approves_after_emergency :
    (∀ input ∈ Exchange.calls, Carried Exchange.codec Exchange.stringify input.1) ∧
      ∃ halt later : CallEvent,
        (RustBridgeService.machine Exchange.codec Exchange.stringify).trace
          (.new (.new .default)) Exchange.calls = [halt, later] ∧
        SaysEmergency halt.reply ∧
        SaysEmergency (CliBridgeService.call Exchange.codec Exchange.stringify halt.input.1) ∧
        SaysApproved (CliBridgeService.call Exchange.codec Exchange.stringify later.input.1) ∧
        ¬ SaysApproved later.reply := by
  refine ⟨Exchange.carried, _, _, Exchange.trace_eq, Exchange.breach_emergency, ?_, ?_, ?_⟩
  · rw [cliBridge_call Exchange.carried_breach Exchange.read_breach]
    exact Exchange.breach_emergency
  · rw [cliBridge_call Exchange.carried_sound Exchange.read_sound]
    exact Exchange.sound_approved
  · rintro ⟨response, given, amount, reply, eq, approved⟩
    obtain rfl := Except.ok.inj reply
    rw [Exchange.verdict_eq, Exchange.locked_verdict] at eq
    obtain rfl := Option.some.inj eq
    cases approved

/-- Satisfiable pole: the same exchange, as the daemon sees it. -/
theorem transports_compared_exchange :
    (∀ e ∈ (RustBridgeService.machine Exchange.codec Exchange.stringify).trace
        (.new (.new .default)) Exchange.calls, Compared Exchange.codec Exchange.stringify e) ∧
      ¬ SaysApproved (.ok (IpcServer.serve ⟨⟨Session.haltedKernel⟩⟩
        (.evaluateProposal (Session.portfolio 9) Session.proposal)).1.toJson) := by
  obtain ⟨each, after⟩ :=
    transports_compared Exchange.codec Exchange.stringify Exchange.calls Exchange.carried
  exact ⟨each, after [] _ [] _ [] Exchange.trace_eq Exchange.breach_emergency⟩

end CentaurApex.Gateway
