/-
# Constitution.Delivery -- one frame, and the same frame again

`handle_frame` decodes before it acts.  `Codec.read` is the decoding half: an
error, or the request a frame carries; `IpcServer.serve` is the acting half, and
`handleFrame_eq` puts them together.  Hence

* `frame_atomic`: a frame that is answered with an error has touched nothing, and
  the requests that must not move a locked kernel do not;
* `redelivery`: the request id is not part of the request, so a frame delivered
  again is served again.  What the second delivery can still change is one
  counter, or a second recovery phase.
-/
import CentaurApex.Constitution.Ipc

namespace CentaurApex.Constitution

open CentaurApex.Theory
open CentaurApex.Theory.ExtNum (fin)

set_option autoImplicit false

/-! ## Decoding, then acting -/

/-- What a readable frame asks for. -/
inductive Request where
  | evaluateProposal (portfolio : PortfolioState) (proposal : TradeProposal)
  | getStatus
  | attemptRecovery (cryptographicProofValid : Bool)
  | heartbeat

/-- The payload, read as its opcode asks. -/
def Codec.readPayload (codec : Codec) (envelope : IpcEnvelope) : Except IpcError Request :=
  match envelope.opcode with
  | .evaluateProposal =>
      match codec.evaluateProposal envelope.payload with
      | none => .error .malformedPayload
      | some req => .ok (.evaluateProposal req.portfolio req.proposal)
  | .getStatus => .ok .getStatus
  | .attemptRecovery =>
      match codec.attemptRecovery envelope.payload with
      | none => .error .malformedPayload
      | some req => .ok (.attemptRecovery req.cryptographicProofValid)
  | .heartbeat => .ok .heartbeat

def Codec.read (codec : Codec) (frame : List UInt8) : Except IpcError Request :=
  if frame.length > maxFrameBytes then .error .frameSizeExceeded
  else
    match codec.envelope frame with
    | none => .error .malformedEnvelope
    | some envelope =>
        if envelope.protocolVersion ≠ ipcProtocolVersion then
          .error (.versionMismatch ipcProtocolVersion envelope.protocolVersion)
        else codec.readPayload envelope

namespace IpcServer

def serve (server : IpcServer) : Request → IpcResponse × IpcServer
  | .evaluateProposal portfolio proposal =>
      let answer := server.constitution.handleIncomingRequest portfolio proposal
      (.evaluateProposal { verdict := answer.1, systemState := answer.2.getStatus.debug },
        ⟨answer.2⟩)
  | .getStatus =>
      let kernel := server.constitution.kernel
      (.status
        { systemState := server.constitution.getStatus.debug
          proposalsSeen := kernel.proposalCount
          emergencies := kernel.emergencyCount
          transitions := kernel.transitionCount
          stateHistory := kernel.transitionHistory.entries }, server)
  | .attemptRecovery valid =>
      let answer := server.constitution.attemptCryptographicRecovery valid
      (.recovery answer.1, ⟨answer.2⟩)
  | .heartbeat => (.heartbeat { alive := true, protocolVersion := ipcProtocolVersion }, server)

/-- The server's answer to what a frame was read as. -/
def answer (server : IpcServer) : Except IpcError Request → Except IpcError IpcResponse × IpcServer
  | .error e => (.error e, server)
  | .ok request => (.ok (server.serve request).1, (server.serve request).2)

end IpcServer

/-- **A frame is decoded first and served afterwards.** -/
theorem handleFrame_eq (codec : Codec) (server : IpcServer) (frame : List UInt8) :
    server.handleFrame codec frame = server.answer (codec.read frame) := by
  unfold IpcServer.handleFrame Codec.read
  split
  · rfl
  · cases codec.envelope frame with
    | none => rfl
    | some envelope =>
        obtain ⟨version, requestId, opcode, payload⟩ := envelope
        dsimp only
        split
        · rfl
        · cases opcode with
          | evaluateProposal =>
              simp only [IpcServer.dispatch, Codec.readPayload]
              cases codec.evaluateProposal payload <;> rfl
          | getStatus => rfl
          | attemptRecovery =>
              simp only [IpcServer.dispatch, Codec.readPayload]
              cases codec.attemptRecovery payload <;> rfl
          | heartbeat => rfl

/-! ## What a frame may change -/

/-- At most the number of proposals seen has changed. -/
def OnlyCounted (k k' : ConstitutionKernel) : Prop :=
  ∃ count, k' = { k with proposalCount := count }

theorem OnlyCounted.refl (k : ConstitutionKernel) : OnlyCounted k k := ⟨k.proposalCount, rfl⟩

theorem onlyCounted_countProposal (k : ConstitutionKernel) : OnlyCounted k k.countProposal :=
  ⟨_, rfl⟩

/-- A refused recovery attempt leaves the kernel as it was. -/
theorem attemptRecovery_refused {k : ConstitutionKernel} {valid : Bool}
    (refused : (k.attemptRecovery valid).1 = false) : (k.attemptRecovery valid).2 = k := by
  cases valid with
  | false => rfl
  | true =>
      simp only [ConstitutionKernel.attemptRecovery, Bool.not_true, Bool.false_eq_true,
        if_false] at refused ⊢
      cases state : k.state <;> rw [state] at refused <;> first | rfl | cases refused

/-- What may happen to the kernel when `frame` is handled. -/
structure FrameAtomic (codec : Codec) (server : IpcServer) (frame : List UInt8) : Prop where
  /-- An error comes before anything was changed. -/
  failed : ∀ e, (server.handleFrame codec frame).1 = .error e →
    (server.handleFrame codec frame).2 = server
  readOnly : codec.read frame = .ok .getStatus ∨ codec.read frame = .ok .heartbeat →
    (server.handleFrame codec frame).2 = server
  locked : ∀ portfolio proposal,
    codec.read frame = .ok (.evaluateProposal portfolio proposal) →
      ¬ server.constitution.kernel.state.Trading →
        OnlyCounted server.constitution.kernel
          (server.handleFrame codec frame).2.constitution.kernel
  refused : (server.handleFrame codec frame).1 = .ok (.recovery false) →
    OnlyCounted server.constitution.kernel
      (server.handleFrame codec frame).2.constitution.kernel

/-- **A frame that fails changes nothing, and what must not move the kernel does
not move it**, on every server and every string of bytes. -/
theorem frame_atomic (codec : Codec) (server : IpcServer) (frame : List UInt8) :
    FrameAtomic codec server frame := by
  refine ⟨fun e failed => ?_, fun quiet => ?_, fun portfolio proposal read locked => ?_,
    fun refused => ?_⟩
  · rw [handleFrame_eq] at failed ⊢
    cases read : codec.read frame with
    | error e => rfl
    | ok request =>
        rw [read] at failed
        cases failed
  · rw [handleFrame_eq]
    rcases quiet with read | read <;> rw [read] <;> rfl
  · rw [handleFrame_eq, read]
    simp only [IpcServer.answer, IpcServer.serve, ConstitutionService.handleIncomingRequest,
      processProposal_locked locked]
    exact onlyCounted_countProposal _
  · rw [handleFrame_eq] at refused ⊢
    cases read : codec.read frame with
    | error e => exact OnlyCounted.refl _
    | ok request =>
        rw [read] at refused
        cases request with
        | evaluateProposal portfolio proposal => cases refused
        | getStatus => cases refused
        | heartbeat => cases refused
        | attemptRecovery valid =>
            have failed : (server.constitution.kernel.attemptRecovery valid).1 = false :=
              IpcResponse.recovery.inj (Except.ok.inj refused)
            simp only [IpcServer.answer, IpcServer.serve,
              ConstitutionService.attemptCryptographicRecovery, attemptRecovery_refused failed]
            exact OnlyCounted.refl _

/-! ## The same frame again -/

/-- A kernel that has followed the soft band stays where it is when it follows it
again. -/
theorem trackSoftBand_again {k k' : ConstitutionKernel} {portfolio : PortfolioState}
    (state : k'.state = (k.trackSoftBand portfolio).state) (params : k'.params = k.params) :
    k'.trackSoftBand portfolio = k' := by
  unfold ConstitutionKernel.trackSoftBand at state ⊢
  by_cases mark : portfolio.highWaterMark > 0
  · simp only [if_pos mark, params] at state ⊢
    cases before : k.state with
    | normal =>
        simp only [before] at state
        split at state
        · rename_i inBand
          simp only [state, if_neg fun below => ExtNum.not_le_of_lt below inBand]
        · rename_i below
          simp only [state, before, if_neg below]
    | softDeleveraging =>
        simp only [before] at state
        split at state
        · rename_i below
          simp only [state, ge_iff_le, if_neg (ExtNum.not_le_of_lt below)]
        · rename_i inBand
          simp only [state, before, if_neg inBand]
    | emergencyHalt => simp only [state, before]
    | autonomousRecovery => simp only [state, before]
  · rw [if_neg mark]

/-- A proposal put to the kernel twice: the second time at most the count moves,
and the verdict is the first one unless that halted the kernel. -/
theorem processProposal_again (k : ConstitutionKernel) (portfolio : PortfolioState)
    (proposal : TradeProposal) :
    OnlyCounted (k.processProposal portfolio proposal).2
        ((k.processProposal portfolio proposal).2.processProposal portfolio proposal).2 ∧
      ((k.processProposal portfolio proposal).2.processProposal portfolio proposal).1 =
        if (k.processProposal portfolio proposal).1 = .emergencyLiquidationAll then
          .rejected .maxDrawdownBreached
        else (k.processProposal portfolio proposal).1 := by
  rcases processProposal_cases k portfolio proposal with
    ⟨locked, eq⟩ | ⟨trading, _, eq⟩ | ⟨trading, code, verdict, eq⟩ | ⟨trading, n, verdict, eq⟩ <;>
    rw [eq]
  · have still : ¬ k.countProposal.state.Trading := locked
    rw [processProposal_locked still]
    exact ⟨onlyCounted_countProposal _, (if_neg (by simp)).symm⟩
  · have halted := (enterEmergency_moves (k := k.countProposal) trading).2
    have locked : ¬ k.countProposal.enterEmergency.state.Trading := by
      rw [halted]
      decide
    rw [processProposal_locked locked]
    exact ⟨onlyCounted_countProposal _, (if_pos rfl).symm⟩
  · have still : k.countProposal.state.Trading := trading
    have params : k.countProposal.params = k.params := rfl
    rw [processProposal_trading still, params, verdict]
    exact ⟨onlyCounted_countProposal _, (if_neg (by simp)).symm⟩
  · have still : (k.countProposal.trackSoftBand portfolio).state.Trading :=
      trackSoftBand_trading (k := k.countProposal) trading
    have params : (k.countProposal.trackSoftBand portfolio).params = k.params :=
      trackSoftBand_params k.countProposal portfolio
    have settled : (k.countProposal.trackSoftBand portfolio).countProposal.trackSoftBand portfolio =
        (k.countProposal.trackSoftBand portfolio).countProposal :=
      trackSoftBand_again (k := k.countProposal) rfl (trackSoftBand_params k.countProposal portfolio)
    rw [processProposal_trading still, params, verdict]
    refine ⟨?_, (if_neg (by simp)).symm⟩
    simp only [ConstitutionKernel.settle, settled]
    exact onlyCounted_countProposal _

/-- What a second delivery of `frame` does. -/
structure Redelivery (codec : Codec) (server : IpcServer) (frame : List UInt8) : Prop where
  /-- The request id is not part of the request. -/
  anonymous : ∀ frame' envelope requestId, frame.length ≤ maxFrameBytes →
    frame'.length ≤ maxFrameBytes → codec.envelope frame = some envelope →
      codec.envelope frame' = some { envelope with requestId := requestId } →
        server.handleFrame codec frame' = server.handleFrame codec frame
  quiet : (∃ e, codec.read frame = .error e) ∨ codec.read frame = .ok .getStatus ∨
      codec.read frame = .ok .heartbeat →
    (server.handleFrame codec frame).2.handleFrame codec frame = server.handleFrame codec frame
  /-- A proposal is counted again; it is answered as before, unless it has halted
  the kernel. -/
  proposal : ∀ portfolio proposal, codec.read frame = .ok (.evaluateProposal portfolio proposal) →
    OnlyCounted (server.handleFrame codec frame).2.constitution.kernel
        ((server.handleFrame codec frame).2.handleFrame codec frame).2.constitution.kernel ∧
      (verdict? (server.handleFrame codec frame).1 ≠ some .emergencyLiquidationAll →
        ((server.handleFrame codec frame).2.handleFrame codec frame).1 =
          (server.handleFrame codec frame).1) ∧
      (verdict? (server.handleFrame codec frame).1 = some .emergencyLiquidationAll →
        verdict? ((server.handleFrame codec frame).2.handleFrame codec frame).1 =
          some (.rejected .maxDrawdownBreached))
  /-- A recovery attempt is a second attempt. -/
  recovery : ∀ valid, codec.read frame = .ok (.attemptRecovery valid) →
    (valid = false ∨ server.constitution.kernel.state.Trading →
      (server.handleFrame codec frame).2.handleFrame codec frame =
        server.handleFrame codec frame) ∧
    (valid = true → server.constitution.kernel.state = .autonomousRecovery →
      (server.handleFrame codec frame).2.handleFrame codec frame =
        (.ok (.recovery false), (server.handleFrame codec frame).2)) ∧
    (valid = true → server.constitution.kernel.state = .emergencyHalt →
      (server.handleFrame codec frame).1 = .ok (.recovery true) ∧
        ((server.handleFrame codec frame).2.handleFrame codec frame).1 = .ok (.recovery true) ∧
        ((server.handleFrame codec frame).2.handleFrame codec frame).2.constitution.kernel.state =
          .normal)

theorem read_anonymous {codec : Codec} {frame frame' : List UInt8} {envelope : IpcEnvelope}
    {requestId : String} (short : frame.length ≤ maxFrameBytes)
    (short' : frame'.length ≤ maxFrameBytes) (envelope_eq : codec.envelope frame = some envelope)
    (envelope_eq' : codec.envelope frame' = some { envelope with requestId := requestId }) :
    codec.read frame' = codec.read frame := by
  simp only [Codec.read, if_neg (not_lt.mpr short), if_neg (not_lt.mpr short'), envelope_eq,
    envelope_eq', Codec.readPayload]

/-- **A frame delivered again is served again**: whatever its request id, the
second delivery counts a proposal or attempts a recovery of its own. -/
theorem redelivery (codec : Codec) (server : IpcServer) (frame : List UInt8) :
    Redelivery codec server frame := by
  refine ⟨fun frame' envelope requestId short short' read read' => ?_, fun quiet => ?_,
    fun portfolio proposal read => ?_, fun valid read => ?_⟩
  · rw [handleFrame_eq, handleFrame_eq, read_anonymous short short' read read']
  · simp only [handleFrame_eq]
    rcases quiet with ⟨e, read⟩ | read | read <;> rw [read] <;> rfl
  · obtain ⟨counted, verdict⟩ :=
      processProposal_again server.constitution.kernel portfolio proposal
    simp only [handleFrame_eq, read, IpcServer.answer, IpcServer.serve,
      ConstitutionService.handleIncomingRequest, verdict?, Option.some.injEq, ne_eq]
    refine ⟨counted, fun other => ?_, fun halted => ?_⟩
    · rw [if_neg other] at verdict
      obtain ⟨_, same⟩ := counted
      rw [verdict, ConstitutionService.getStatus, ConstitutionService.getStatus, same]
    · rw [verdict, if_pos halted]
  · simp only [handleFrame_eq, read, IpcServer.answer, IpcServer.serve,
      ConstitutionService.attemptCryptographicRecovery]
    refine ⟨fun idle => ?_, fun proof recovering => ?_, fun proof halted => ?_⟩
    · rcases idle with rfl | normal | soft
      · rfl
      · cases valid <;> simp [ConstitutionKernel.attemptRecovery, normal]
      · cases valid <;> simp [ConstitutionKernel.attemptRecovery, soft]
    · subst proof
      simp [ConstitutionKernel.attemptRecovery, recovering]
    · subst proof
      simp [ConstitutionKernel.attemptRecovery, halted]

/-! ## Poles: two proofs -/

/-- Refuting pole: a halted kernel takes the second delivery of a proof as a proof
of its own, and is `normal` after it. -/
theorem redelivered_proof :
    ¬ ∀ (codec : Codec) (params : RiskParameters) (server : IpcServer),
      (ipcMachine codec).Reachable (.new (.new params)) server → ∀ frame envelope,
        codec.envelope frame = some envelope →
          (server.handleFrame codec frame).2.handleFrame codec frame =
            server.handleFrame codec frame := by
  intro idempotent
  have twice : ∀ f : Session.Frames, False := by
    intro f
    have read : (Session.codec f).envelope f.proof =
        some ⟨1, "t", .attemptRecovery, f.proofPayload⟩ := by
      simp only [Session.codec, if_neg f.proof_ne_breach, if_true]
    have same := idempotent (Session.codec f) .default ⟨⟨Session.haltedKernel⟩⟩
      ⟨[f.breach], (Session.breach_step f).2⟩ f.proof _ read
    have first : (IpcServer.handleFrame (Session.codec f) ⟨⟨Session.haltedKernel⟩⟩ f.proof).2 =
        ⟨⟨(Session.haltedKernel.attemptRecovery true).2⟩⟩ :=
      Session.proof_step f Session.haltedKernel
    have second := Session.proof_step f (Session.haltedKernel.attemptRecovery true).2
    rw [first] at same
    have states := congrArg (fun answer => answer.2.constitution.kernel.state) same
    rw [first] at states
    have moved := (congrArg (fun server => server.constitution.kernel.state) second).symm.trans states
    exact absurd moved (by decide +kernel)
  exact twice Session.frames

end CentaurApex.Constitution
