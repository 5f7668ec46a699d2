/-
# Constitution.Ipc -- the frame handler, and recovery over whole sessions

`handle_frame` turns one request frame into one response: size, envelope,
version, then one of four opcodes.  The three request types are read by
`serde_json`; how it reads them is a parameter (`Codec`), any three partial
functions.

Two opcodes reach the kernel, and `handleFrame_cases` says so once: a frame is a
proposal put to the kernel, a recovery attempt on it, or leaves it alone and
carries no verdict.  With that, `recovery_two_phase`: a rank of the kernel's
state (two phases from `emergencyHalt`, one from `autonomousRecovery`) is lowered
only by a valid proof that was accepted, and an approval needs rank zero
(`Machine.credit_le`).
-/
import CentaurApex.Theory.Json
import CentaurApex.Constitution.StateMachine

namespace CentaurApex.Constitution

open CentaurApex.Theory
open CentaurApex.Theory.ExtNum (fin)

set_option autoImplicit false

def ipcProtocolVersion : UInt32 := 1

def maxFrameBytes : Nat := 16384

/-! ## Messages -/

inductive IpcOpcode where
  | evaluateProposal
  | getStatus
  | attemptRecovery
  | heartbeat
  deriving DecidableEq, Repr

structure IpcEnvelope where
  protocolVersion : UInt32
  requestId : String
  opcode : IpcOpcode
  payload : String
  deriving DecidableEq, Repr

structure EvaluateProposalRequest where
  portfolio : PortfolioState
  proposal : TradeProposal
  deriving DecidableEq, Repr

structure EvaluateProposalResponse where
  verdict : ConstitutionVerdict
  systemState : String
  deriving DecidableEq, Repr

structure StatusResponse where
  systemState : String
  proposalsSeen : U64Counter
  emergencies : U64Counter
  transitions : U64Counter
  stateHistory : List (SystemOperationalState × SystemOperationalState)

structure AttemptRecoveryRequest where
  cryptographicProofValid : Bool
  deriving DecidableEq, Repr

structure HeartbeatResponse where
  alive : Bool
  protocolVersion : UInt32
  deriving DecidableEq, Repr

inductive IpcResponse where
  | evaluateProposal (response : EvaluateProposalResponse)
  | status (response : StatusResponse)
  | recovery (recoverySuccess : Bool)
  | heartbeat (response : HeartbeatResponse)

inductive IpcError where
  | frameSizeExceeded
  | malformedEnvelope
  | malformedPayload
  | serializationFailed
  | versionMismatch (expected actual : UInt32)
  deriving DecidableEq, Repr

/-- How the requests are read from bytes and text (`serde_json`). -/
structure Codec where
  envelope : List UInt8 → Option IpcEnvelope
  evaluateProposal : String → Option EvaluateProposalRequest
  attemptRecovery : String → Option AttemptRecoveryRequest

/-- `format!("{:?}", state)`. -/
def SystemOperationalState.debug : SystemOperationalState → String
  | .normal => "Normal"
  | .softDeleveraging => "SoftDeleveraging"
  | .emergencyHalt => "EmergencyHalt"
  | .autonomousRecovery => "AutonomousRecovery"

/-! ## Responses as JSON -/

/-- A number as `serde_json` writes it: one that is not finite is `null`. -/
def numberToJson (x : F64) : Json := if x.IsFinite then .float x else .null

def RiskViolationCode.debug : RiskViolationCode → String
  | .maxDrawdownBreached => "MaxDrawdownBreached"
  | .globalLeverageCapExceeded => "GlobalLeverageCapExceeded"
  | .assetConcentrationLimitExceeded => "AssetConcentrationLimitExceeded"
  | .invalidNumericalState => "InvalidNumericalState"

/-- Two variants are one-field objects, the third a bare string. -/
def ConstitutionVerdict.toJson : ConstitutionVerdict → Json
  | .approved adjustedNotional =>
      .obj [("Approved", .obj [("adjusted_notional", numberToJson adjustedNotional)])]
  | .rejected reasonCode => .obj [("Rejected", .obj [("reason_code", .str reasonCode.debug)])]
  | .emergencyLiquidationAll => .str "EmergencyLiquidationAll"

def EvaluateProposalResponse.toJson (response : EvaluateProposalResponse) : Json :=
  .obj [("verdict", response.verdict.toJson), ("system_state", .str response.systemState)]

/-- The fields in the order of their names, as `json!` keeps them. -/
def StatusResponse.toJson (response : StatusResponse) : Json :=
  .obj [("emergencies", .int response.emergencies.val),
    ("proposals_seen", .int response.proposalsSeen.val),
    ("state_history", .arr (response.stateHistory.map fun edge =>
      .arr [.str edge.1.debug, .str edge.2.debug])),
    ("system_state", .str response.systemState),
    ("transitions", .int response.transitions.val)]

def IpcResponse.toJson : IpcResponse → Json
  | .evaluateProposal response => response.toJson
  | .status response => response.toJson
  | .recovery recoverySuccess => .obj [("recovery_success", .bool recoverySuccess)]
  | .heartbeat response =>
      .obj [("alive", .bool response.alive),
        ("protocol_version", .int response.protocolVersion.toNat)]

def IpcError.debug : IpcError → String
  | .frameSizeExceeded => "FrameSizeExceeded"
  | .malformedEnvelope => "MalformedEnvelope"
  | .malformedPayload => "MalformedPayload"
  | .serializationFailed => "SerializationFailed"
  | .versionMismatch expected actual =>
      "VersionMismatch \x7b expected: " ++ toString expected ++ ", actual: " ++ toString actual ++ " \x7d"

/-- What the connection handler writes back for a result of `handle_frame`. -/
def answerJson : Except IpcError IpcResponse → Json
  | .ok response => response.toJson
  | .error e => .obj [("error", .str e.debug)]

/-! ## The server -/

structure ConstitutionService where
  kernel : ConstitutionKernel

namespace ConstitutionService

def new (params : RiskParameters) : ConstitutionService := ⟨.new params⟩

def handleIncomingRequest (s : ConstitutionService) (portfolio : PortfolioState)
    (proposal : TradeProposal) : ConstitutionVerdict × ConstitutionService :=
  ((s.kernel.processProposal portfolio proposal).1,
    ⟨(s.kernel.processProposal portfolio proposal).2⟩)

def attemptCryptographicRecovery (s : ConstitutionService) (proofValid : Bool) :
    Bool × ConstitutionService :=
  ((s.kernel.attemptRecovery proofValid).1, ⟨(s.kernel.attemptRecovery proofValid).2⟩)

def getStatus (s : ConstitutionService) : SystemOperationalState := s.kernel.state

end ConstitutionService

structure IpcServer where
  constitution : ConstitutionService

namespace IpcServer

def new (constitution : ConstitutionService) : IpcServer := ⟨constitution⟩

/-- The four arms of `handle_frame`, behind its three guards. -/
def dispatch (server : IpcServer) (codec : Codec) (envelope : IpcEnvelope) :
    Except IpcError IpcResponse × IpcServer :=
  match envelope.opcode with
  | .evaluateProposal =>
      match codec.evaluateProposal envelope.payload with
      | none => (.error .malformedPayload, server)
      | some req =>
          let answer := server.constitution.handleIncomingRequest req.portfolio req.proposal
          (.ok (.evaluateProposal
            { verdict := answer.1, systemState := answer.2.getStatus.debug }), ⟨answer.2⟩)
  | .getStatus =>
      let kernel := server.constitution.kernel
      (.ok (.status
        { systemState := server.constitution.getStatus.debug
          proposalsSeen := kernel.proposalCount
          emergencies := kernel.emergencyCount
          transitions := kernel.transitionCount
          stateHistory := kernel.transitionHistory.entries }), server)
  | .attemptRecovery =>
      match codec.attemptRecovery envelope.payload with
      | none => (.error .malformedPayload, server)
      | some req =>
          let answer := server.constitution.attemptCryptographicRecovery req.cryptographicProofValid
          (.ok (.recovery answer.1), ⟨answer.2⟩)
  | .heartbeat => (.ok (.heartbeat { alive := true, protocolVersion := ipcProtocolVersion }), server)

def handleFrame (codec : Codec) (server : IpcServer) (rawFrame : List UInt8) :
    Except IpcError IpcResponse × IpcServer :=
  if rawFrame.length > maxFrameBytes then (.error .frameSizeExceeded, server)
  else
    match codec.envelope rawFrame with
    | none => (.error .malformedEnvelope, server)
    | some envelope =>
        if envelope.protocolVersion ≠ ipcProtocolVersion then
          (.error (.versionMismatch ipcProtocolVersion envelope.protocolVersion), server)
        else server.dispatch codec envelope

end IpcServer

/-- A server over a sequence of frames, from however many connections. -/
def ipcMachine (codec : Codec) : Machine IpcServer (List UInt8) (Except IpcError IpcResponse) where
  step server frame := server.handleFrame codec frame

/-! ## What one frame does -/

/-- The verdict a response carries, if it carries one. -/
def verdict? : Except IpcError IpcResponse → Option ConstitutionVerdict
  | .ok (.evaluateProposal response) => some response.verdict
  | _ => none

/-- The frame is a readable `AttemptRecovery` with `cryptographic_proof_valid = true`. -/
def Codec.provesRecovery (codec : Codec) (frame : List UInt8) : Bool :=
  match codec.envelope frame with
  | some ⟨_, _, .attemptRecovery, payload⟩ =>
      match codec.attemptRecovery payload with
      | some req => req.cryptographicProofValid
      | none => false
  | _ => false

/-- A recovery frame with a valid proof that was answered `recovery_success = true`. -/
def recoveredWithProof (codec : Codec)
    (e : Event IpcServer (List UInt8) (Except IpcError IpcResponse)) : Bool :=
  codec.provesRecovery e.input && match e.reply with
    | .ok (.recovery success) => success
    | _ => false

/-- **A frame is a proposal, a recovery attempt, or nothing to the kernel.** -/
theorem handleFrame_cases (codec : Codec) (server : IpcServer) (frame : List UInt8) :
    (∃ portfolio proposal, server.handleFrame codec frame =
      (.ok (.evaluateProposal
          { verdict := (server.constitution.kernel.processProposal portfolio proposal).1
            systemState :=
              (server.constitution.kernel.processProposal portfolio proposal).2.state.debug }),
        ⟨⟨(server.constitution.kernel.processProposal portfolio proposal).2⟩⟩)) ∨
    (∃ valid, codec.provesRecovery frame = valid ∧ server.handleFrame codec frame =
      (.ok (.recovery (server.constitution.kernel.attemptRecovery valid).1),
        ⟨⟨(server.constitution.kernel.attemptRecovery valid).2⟩⟩)) ∨
    (verdict? (server.handleFrame codec frame).1 = none ∧
      (server.handleFrame codec frame).2 = server) := by
  unfold IpcServer.handleFrame
  split
  · exact Or.inr (Or.inr ⟨rfl, rfl⟩)
  · cases read : codec.envelope frame with
    | none => exact Or.inr (Or.inr ⟨rfl, rfl⟩)
    | some envelope =>
        obtain ⟨version, requestId, opcode, payload⟩ := envelope
        dsimp only
        split
        · exact Or.inr (Or.inr ⟨rfl, rfl⟩)
        · cases opcode with
          | evaluateProposal =>
              cases request : codec.evaluateProposal payload with
              | none =>
                  simp only [IpcServer.dispatch, request]
                  exact Or.inr (Or.inr ⟨rfl, trivial⟩)
              | some req =>
                  simp only [IpcServer.dispatch, request]
                  exact Or.inl ⟨req.portfolio, req.proposal, rfl⟩
          | attemptRecovery =>
              cases request : codec.attemptRecovery payload with
              | none =>
                  simp only [IpcServer.dispatch, request]
                  exact Or.inr (Or.inr ⟨rfl, trivial⟩)
              | some req =>
                  simp only [IpcServer.dispatch, request]
                  refine Or.inr (Or.inl ⟨req.cryptographicProofValid, ?_, rfl⟩)
                  simp only [Codec.provesRecovery, read, request]
          | getStatus => exact Or.inr (Or.inr ⟨rfl, rfl⟩)
          | heartbeat => exact Or.inr (Or.inr ⟨rfl, rfl⟩)

theorem handleFrame_of_envelope {codec : Codec} {server : IpcServer} {frame : List UInt8}
    {envelope : IpcEnvelope} (size : frame.length ≤ maxFrameBytes)
    (read : codec.envelope frame = some envelope)
    (version : envelope.protocolVersion = ipcProtocolVersion) :
    server.handleFrame codec frame = server.dispatch codec envelope := by
  rw [IpcServer.handleFrame, if_neg (not_lt.mpr size), read]
  exact if_neg (fun other => other version)

/-! ## Recovery takes two phases -/

/-- Valid proofs still needed before a proposal reaches the gate. -/
def SystemOperationalState.phasesLeft : SystemOperationalState → Nat
  | .emergencyHalt => 2
  | .autonomousRecovery => 1
  | .normal => 0
  | .softDeleveraging => 0

theorem phasesLeft_eq_zero {s : SystemOperationalState} (trading : s.Trading) :
    s.phasesLeft = 0 := by
  rcases trading with rfl | rfl <;> rfl

/-- A recovery attempt lowers the phases by one, and only when it succeeds on a
valid proof. -/
theorem attemptRecovery_phasesLeft (k : ConstitutionKernel) (valid : Bool) :
    k.state.phasesLeft ≤ (k.attemptRecovery valid).2.state.phasesLeft +
      if valid && (k.attemptRecovery valid).1 then 1 else 0 := by
  cases valid with
  | false => exact Nat.le_add_right _ _
  | true =>
      simp only [ConstitutionKernel.attemptRecovery, Bool.not_true, Bool.false_eq_true, if_false,
        Bool.true_and]
      cases state : k.state <;> simp [SystemOperationalState.phasesLeft]

/-- A proposal never lowers the phases: with phases left it is turned away. -/
theorem processProposal_phasesLeft (k : ConstitutionKernel) (portfolio : PortfolioState)
    (proposal : TradeProposal) :
    k.state.phasesLeft ≤ (k.processProposal portfolio proposal).2.state.phasesLeft := by
  by_cases trading : k.state.Trading
  · rw [phasesLeft_eq_zero trading]
    exact Nat.zero_le _
  · rw [processProposal_locked trading]
    exact le_refl _

/-- The phases still needed, as a rank of the server. -/
def IpcServer.phasesLeft (server : IpcServer) : Nat := server.constitution.kernel.state.phasesLeft

/-- **A frame lowers the phases by at most one, and only as an accepted proof.** -/
theorem step_phasesLeft (codec : Codec) (server : IpcServer) (frame : List UInt8) :
    server.phasesLeft ≤ ((ipcMachine codec).step server frame).2.phasesLeft +
      if recoveredWithProof codec ((ipcMachine codec).event server frame) then 1 else 0 := by
  rcases handleFrame_cases codec server frame with
    ⟨portfolio, proposal, eq⟩ | ⟨valid, proves, eq⟩ | ⟨_, same⟩
  · have kept := processProposal_phasesLeft server.constitution.kernel portfolio proposal
    simp only [ipcMachine, Machine.event, eq]
    exact le_trans kept (Nat.le_add_right _ _)
  · have moved := attemptRecovery_phasesLeft server.constitution.kernel valid
    simp only [ipcMachine, Machine.event, recoveredWithProof, eq, proves]
    exact moved
  · have after : ((ipcMachine codec).step server frame).2 = server := same
    rw [after]
    exact Nat.le_add_right _ _

/-! ## Verdicts and states -/

/-- A response's `system_state` agrees with its verdict. -/
def ReplyAgrees : Except IpcError IpcResponse → Prop
  | .ok (.evaluateProposal ⟨.approved _, systemState⟩) =>
      systemState = "Normal" ∨ systemState = "SoftDeleveraging"
  | .ok (.evaluateProposal ⟨.emergencyLiquidationAll, systemState⟩) =>
      systemState = "EmergencyHalt"
  | _ => True

/-- What a verdict says about the kernel before and after it. -/
theorem processProposal_verdict (k : ConstitutionKernel) (portfolio : PortfolioState)
    (proposal : TradeProposal) :
    (∀ n, (k.processProposal portfolio proposal).1 = .approved n →
        k.state.Trading ∧ (k.processProposal portfolio proposal).2.state.Trading) ∧
      ((k.processProposal portfolio proposal).1 = .emergencyLiquidationAll →
        (k.processProposal portfolio proposal).2.state = .emergencyHalt) := by
  rcases processProposal_cases k portfolio proposal with
    ⟨_, eq⟩ | ⟨trading, _, eq⟩ | ⟨_, _, _, eq⟩ | ⟨trading, _, _, eq⟩
  · rw [eq]
    exact ⟨fun _ other => (by cases other), fun other => (by cases other)⟩
  · rw [eq]
    exact ⟨fun _ other => (by cases other),
      fun _ => (enterEmergency_moves (k := k.countProposal) trading).2⟩
  · rw [eq]
    exact ⟨fun _ other => (by cases other), fun other => (by cases other)⟩
  · rw [eq]
    exact ⟨fun _ _ => ⟨trading, trackSoftBand_trading (k := k.countProposal) trading⟩,
      fun other => (by cases other)⟩

theorem step_replyAgrees (codec : Codec) (server : IpcServer) (frame : List UInt8) :
    ReplyAgrees ((ipcMachine codec).step server frame).1 := by
  rcases handleFrame_cases codec server frame with
    ⟨portfolio, proposal, eq⟩ | ⟨valid, _, eq⟩ | ⟨none_, _⟩
  · obtain ⟨approved, emergency⟩ :=
      processProposal_verdict server.constitution.kernel portfolio proposal
    simp only [ipcMachine, eq]
    cases verdict : (server.constitution.kernel.processProposal portfolio proposal).1 with
    | approved n =>
        rcases (approved n verdict).2 with normal | soft
        · exact Or.inl (congrArg SystemOperationalState.debug normal)
        · exact Or.inr (congrArg SystemOperationalState.debug soft)
    | rejected code => trivial
    | emergencyLiquidationAll => exact congrArg SystemOperationalState.debug (emergency verdict)
  · simp only [ipcMachine, eq]
    trivial
  · show ReplyAgrees (server.handleFrame codec frame).1
    cases reply : (server.handleFrame codec frame).1 with
    | error e => trivial
    | ok response =>
        cases response with
        | evaluateProposal response =>
            rw [reply] at none_
            cases none_
        | status response => trivial
        | recovery success => trivial
        | heartbeat response => trivial

/-- A response with a verdict tells the phases left before and after its frame. -/
theorem event_phasesLeft (codec : Codec) {server : IpcServer}
    {e : Event IpcServer (List UInt8) (Except IpcError IpcResponse)}
    (step : e = (ipcMachine codec).event server e.input) :
    (verdict? e.reply = some .emergencyLiquidationAll → e.after.phasesLeft = 2) ∧
      (∀ n, verdict? e.reply = some (.approved n) → server.phasesLeft = 0) := by
  rw [step]
  rcases handleFrame_cases codec server e.input with
    ⟨portfolio, proposal, eq⟩ | ⟨valid, _, eq⟩ | ⟨none_, _⟩
  · obtain ⟨approved, emergency⟩ :=
      processProposal_verdict server.constitution.kernel portfolio proposal
    simp only [ipcMachine, Machine.event, eq, verdict?, Option.some.injEq]
    refine ⟨fun halted => ?_, fun n passed => ?_⟩
    · exact congrArg SystemOperationalState.phasesLeft (emergency halted)
    · exact phasesLeft_eq_zero (approved n passed).1
  · simp [ipcMachine, Machine.event, eq, verdict?]
  · have quiet : verdict? ((ipcMachine codec).event server e.input).reply = none := none_
    rw [quiet]
    exact ⟨fun other => (by cases other), fun _ other => (by cases other)⟩

/-! ## Whole sessions -/

/-- **Between an emergency and a later approval lie two accepted proofs**, on every
sequence of frames; and every response's `system_state` agrees with its verdict. -/
theorem recovery_two_phase (codec : Codec) (params : RiskParameters)
    (frames : List (List UInt8)) :
    (∀ before halt between approval after,
      (ipcMachine codec).trace (.new (.new params)) frames =
          before ++ halt :: (between ++ approval :: after) →
      verdict? halt.reply = some .emergencyLiquidationAll →
      (∃ n, verdict? approval.reply = some (.approved n)) →
        2 ≤ between.countP (recoveredWithProof codec)) ∧
      ∀ e ∈ (ipcMachine codec).trace (.new (.new params)) frames, ReplyAgrees e.reply := by
  refine ⟨?_, ?_⟩
  · rintro before halt between approval after split halted ⟨n, approved⟩
    obtain ⟨_, _, _, _, fromHalt⟩ := (ipcMachine codec).trace_eq_append split
    obtain ⟨haltStep, rest, _, restEq⟩ := (ipcMachine codec).trace_eq_cons fromHalt
    obtain ⟨inputs, _, _, betweenEq, fromApproval⟩ := (ipcMachine codec).trace_eq_append restEq
    obtain ⟨approvalStep, _⟩ := (ipcMachine codec).trace_eq_cons fromApproval
    have full := (event_phasesLeft codec haltStep).1 halted
    have none_ := (event_phasesLeft codec approvalStep).2 n approved
    have credit := (ipcMachine codec).credit_le IpcServer.phasesLeft (recoveredWithProof codec)
      (step_phasesLeft codec) halt.after inputs
    rw [full, none_, betweenEq, Nat.zero_add] at credit
    exact credit
  · intro e member
    obtain ⟨_, eq⟩ := (ipcMachine codec).trace_invariant (P := fun _ => True)
      (fun _ _ _ => trivial) trivial frames e member
    rw [eq]
    exact step_replyAgrees codec e.before e.input

/-! ## Poles: a halt, two proofs, an approval -/

namespace Session

def portfolio (equity : ℚ) : PortfolioState where
  timestamp := 1
  totalEquity := fin equity
  cashBalance := fin 0
  highWaterMark := fin 10
  openPositions := []

def proposal : TradeProposal where
  proposalId := "t"
  assetId := "BTC-PERP"
  direction := .buy
  targetNotional := fin 1
  maxAcceptableSlippage := fin 0

/-- The frames of a session, and the payloads inside them. -/
structure Frames where
  breach : List UInt8
  proof : List UInt8
  sound : List UInt8
  breachPayload : String
  proofPayload : String
  soundPayload : String
  breach_short : breach.length ≤ maxFrameBytes
  proof_short : proof.length ≤ maxFrameBytes
  sound_short : sound.length ≤ maxFrameBytes
  proof_ne_breach : proof ≠ breach
  sound_ne_breach : sound ≠ breach
  sound_ne_proof : sound ≠ proof
  payload_ne : soundPayload ≠ breachPayload

/-- The decoders at the frames of the session. -/
def codec (f : Frames) : Codec where
  envelope raw :=
    if raw = f.breach then some ⟨1, "t", .evaluateProposal, f.breachPayload⟩
    else if raw = f.proof then some ⟨1, "t", .attemptRecovery, f.proofPayload⟩
    else if raw = f.sound then some ⟨1, "t", .evaluateProposal, f.soundPayload⟩
    else none
  evaluateProposal payload :=
    if payload = f.breachPayload then some ⟨portfolio 7, proposal⟩
    else if payload = f.soundPayload then some ⟨portfolio 9, proposal⟩
    else none
  attemptRecovery payload := if payload = f.proofPayload then some ⟨true⟩ else none

def start : IpcServer := .new (.new .default)

/-- The kernel after the breach, and after the two proofs. -/
def haltedKernel : ConstitutionKernel :=
  ((ConstitutionKernel.new .default).processProposal (portfolio 7) proposal).2

def recoveredKernel : ConstitutionKernel :=
  ((haltedKernel.attemptRecovery true).2.attemptRecovery true).2

theorem breach_step (f : Frames) : verdict? ((ipcMachine (codec f)).step start f.breach).1 =
      some .emergencyLiquidationAll ∧
    ((ipcMachine (codec f)).step start f.breach).2 = ⟨⟨haltedKernel⟩⟩ := by
  have verdict : ((ConstitutionKernel.new .default).processProposal (portfolio 7) proposal).1 =
      .emergencyLiquidationAll := by decide +kernel
  have step : (ipcMachine (codec f)).step start f.breach =
      start.dispatch (codec f) ⟨1, "t", .evaluateProposal, f.breachPayload⟩ :=
    handleFrame_of_envelope f.breach_short (if_pos rfl) rfl
  have request : (codec f).evaluateProposal f.breachPayload = some ⟨portfolio 7, proposal⟩ :=
    if_pos rfl
  rw [step]
  simp only [IpcServer.dispatch, request]
  exact ⟨congrArg some verdict, rfl⟩

theorem proof_step (f : Frames) (k : ConstitutionKernel) :
    ((ipcMachine (codec f)).step ⟨⟨k⟩⟩ f.proof).2 = ⟨⟨(k.attemptRecovery true).2⟩⟩ := by
  have read : (codec f).envelope f.proof = some ⟨1, "t", .attemptRecovery, f.proofPayload⟩ := by
    simp only [codec, if_neg f.proof_ne_breach, if_true]
  have step : (ipcMachine (codec f)).step ⟨⟨k⟩⟩ f.proof =
      IpcServer.dispatch ⟨⟨k⟩⟩ (codec f) ⟨1, "t", .attemptRecovery, f.proofPayload⟩ :=
    handleFrame_of_envelope f.proof_short read rfl
  have request : (codec f).attemptRecovery f.proofPayload = some ⟨true⟩ := if_pos rfl
  rw [step]
  simp only [IpcServer.dispatch, request]
  rfl

theorem sound_step (f : Frames) :
    verdict? ((ipcMachine (codec f)).step ⟨⟨recoveredKernel⟩⟩ f.sound).1 =
      some (.approved (fin 1)) := by
  have verdict : (recoveredKernel.processProposal (portfolio 9) proposal).1 = .approved (fin 1) := by
    decide +kernel
  have read : (codec f).envelope f.sound = some ⟨1, "t", .evaluateProposal, f.soundPayload⟩ := by
    simp only [codec, if_neg f.sound_ne_breach, if_neg f.sound_ne_proof, if_true]
  have step : (ipcMachine (codec f)).step ⟨⟨recoveredKernel⟩⟩ f.sound =
      IpcServer.dispatch ⟨⟨recoveredKernel⟩⟩ (codec f) ⟨1, "t", .evaluateProposal, f.soundPayload⟩ :=
    handleFrame_of_envelope f.sound_short read rfl
  have request : (codec f).evaluateProposal f.soundPayload = some ⟨portfolio 9, proposal⟩ := by
    simp only [codec, if_neg f.payload_ne, if_true]
  rw [step]
  simp only [IpcServer.dispatch, request]
  exact congrArg some verdict

theorem trace_eq (f : Frames) :
    (ipcMachine (codec f)).trace start [f.breach, f.proof, f.proof, f.sound] =
      [] ++ (ipcMachine (codec f)).event start f.breach ::
        ((ipcMachine (codec f)).trace ⟨⟨haltedKernel⟩⟩ [f.proof, f.proof] ++
          (ipcMachine (codec f)).event ⟨⟨recoveredKernel⟩⟩ f.sound :: []) := by
  have proofs : (ipcMachine (codec f)).run ⟨⟨haltedKernel⟩⟩ [f.proof, f.proof] =
      ⟨⟨recoveredKernel⟩⟩ := by
    simp only [Machine.run, proof_step]
    rfl
  have split := (ipcMachine (codec f)).trace_append ⟨⟨haltedKernel⟩⟩ [f.proof, f.proof] [f.sound]
  rw [proofs] at split
  rw [Machine.trace, (breach_step f).2]
  exact congrArg (List.cons _) split

/-! The frames as JSON. -/

def bytes (text : String) : List UInt8 := text.toList.map fun c => c.toNat.toUInt8

/-- The quotes of a text inside a JSON string. -/
def escaped (raw : List UInt8) : List UInt8 :=
  raw.flatMap fun c => if c = 34 then [92, 34] else [c]

def frame (opcode payload : String) : List UInt8 :=
  bytes "\x7b\"opcode\":\"" ++ (bytes opcode ++ (bytes "\",\"payload\":\"" ++
    (escaped (bytes payload) ++ bytes "\",\"protocol_version\":1,\"request_id\":\"t\"\x7d")))

def payloadHead : String := "\x7b\"portfolio\":\x7b\"total_equity\":"

def payloadTail : String :=
  ",\"cash_balance\":0.0,\"high_water_mark\":10.0,\"open_positions\":[],\"timestamp\":1\x7d," ++
    "\"proposal\":\x7b\"proposal_id\":\"t\",\"asset_id\":\"BTC-PERP\",\"direction\":\"Buy\"," ++
    "\"target_notional\":1.0,\"max_acceptable_slippage\":0.0\x7d\x7d"

def evaluatePayload (equity : String) : String := payloadHead ++ (equity ++ payloadTail)

theorem bytes_append (s t : String) : bytes (s ++ t) = bytes s ++ bytes t := by
  rw [bytes, String.toList_append, List.map_append]
  rfl

theorem escaped_append (s t : List UInt8) : escaped (s ++ t) = escaped s ++ escaped t :=
  List.flatMap_append

theorem length_escaped_le (raw : List UInt8) : (escaped raw).length ≤ 2 * raw.length := by
  induction raw with
  | nil => rfl
  | cons c raw ih =>
      have split : escaped (c :: raw) = escaped [c] ++ escaped raw := escaped_append [c] raw
      have here : (escaped [c]).length ≤ 2 := by
        unfold escaped
        rw [List.flatMap_singleton]
        split <;> simp
      rw [split, List.length_append, List.length_cons]
      omega

/-- The parts of a frame that do not depend on the equity. -/
theorem length_parts_le : ∀ part ∈ [payloadHead, "\x7b\"opcode\":\"", "EvaluateProposal",
    "\",\"payload\":\"", "\",\"protocol_version\":1,\"request_id\":\"t\"\x7d"],
    (bytes part).length ≤ 50 := by decide +kernel

theorem length_payloadTail_le : (bytes payloadTail).length ≤ 300 := by
  unfold payloadTail
  simp only [bytes_append, List.length_append]
  decide +kernel

/-- A frame around a short equity is short. -/
theorem length_frame_le (equity : String) (short : (bytes equity).length ≤ 100) :
    (frame "EvaluateProposal" (evaluatePayload equity)).length ≤ maxFrameBytes := by
  have payload := length_escaped_le (bytes (evaluatePayload equity))
  have tail := length_payloadTail_le
  have parts := length_parts_le
  simp only [List.forall_mem_cons] at parts
  obtain ⟨head, opening, opcode, middle, closing, -⟩ := parts
  rw [evaluatePayload, bytes_append, bytes_append, List.length_append, List.length_append,
    ← bytes_append, ← bytes_append] at payload
  simp only [frame, List.length_append, maxFrameBytes]
  rw [evaluatePayload]
  omega

theorem frame_ne : frame "EvaluateProposal" (evaluatePayload "9.0") ≠
    frame "EvaluateProposal" (evaluatePayload "7.0") := by
  intro same
  simp only [frame, evaluatePayload, bytes_append, escaped_append, List.append_cancel_left_eq,
    List.append_cancel_right_eq] at same
  exact absurd same (by decide +kernel)

theorem payload_ne : evaluatePayload "9.0" ≠ evaluatePayload "7.0" := by
  intro same
  have lists := congrArg String.toList same
  simp only [evaluatePayload, String.toList_append, List.append_cancel_left_eq,
    List.append_cancel_right_eq] at lists
  exact absurd lists (by decide +kernel)

def proofPayload : String := "\x7b\"cryptographic_proof_valid\":true\x7d"

/-- The frame of the proof is short, and neither of the others. -/
theorem proof_spec : (frame "AttemptRecovery" proofPayload).length ≤ maxFrameBytes ∧
    ∀ equity ∈ ["7.0", "9.0"], frame "AttemptRecovery" proofPayload ≠
      frame "EvaluateProposal" (evaluatePayload equity) := by decide +kernel

theorem length_proof_le : (frame "AttemptRecovery" proofPayload).length ≤ maxFrameBytes :=
  proof_spec.1

theorem proof_ne_breach : frame "AttemptRecovery" proofPayload ≠
    frame "EvaluateProposal" (evaluatePayload "7.0") := proof_spec.2 "7.0" (.head _)

theorem sound_ne_proof : frame "EvaluateProposal" (evaluatePayload "9.0") ≠
    frame "AttemptRecovery" proofPayload := (proof_spec.2 "9.0" (.tail _ (.head _))).symm

theorem breach_short : (frame "EvaluateProposal" (evaluatePayload "7.0")).length ≤ maxFrameBytes :=
  length_frame_le "7.0" (by simp [bytes])

theorem sound_short : (frame "EvaluateProposal" (evaluatePayload "9.0")).length ≤ maxFrameBytes :=
  length_frame_le "9.0" (by simp [bytes])

def frames : Frames where
  breach := frame "EvaluateProposal" (evaluatePayload "7.0")
  proof := frame "AttemptRecovery" proofPayload
  sound := frame "EvaluateProposal" (evaluatePayload "9.0")
  breachPayload := evaluatePayload "7.0"
  proofPayload := proofPayload
  soundPayload := evaluatePayload "9.0"
  breach_short := breach_short
  proof_short := length_proof_le
  sound_short := sound_short
  proof_ne_breach := proof_ne_breach
  sound_ne_breach := frame_ne
  sound_ne_proof := sound_ne_proof
  payload_ne := payload_ne

end Session

/-- Satisfiable pole: the session of a breach, two proofs and an approval. -/
theorem recovery_two_phase_session :
    2 ≤ ((ipcMachine (Session.codec Session.frames)).trace ⟨⟨Session.haltedKernel⟩⟩
      [Session.frames.proof, Session.frames.proof]).countP
        (recoveredWithProof (Session.codec Session.frames)) := by
  have session : ∀ f : Session.Frames,
      2 ≤ ((ipcMachine (Session.codec f)).trace ⟨⟨Session.haltedKernel⟩⟩ [f.proof, f.proof]).countP
        (recoveredWithProof (Session.codec f)) := fun f =>
    (recovery_two_phase (Session.codec f) .default _).1 _ _ _ _ _ (Session.trace_eq f)
      (Session.breach_step f).1 ⟨fin 1, Session.sound_step f⟩
  exact session Session.frames

end CentaurApex.Constitution
