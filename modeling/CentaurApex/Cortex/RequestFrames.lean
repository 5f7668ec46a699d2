/-
# Cortex.RequestFrames -- the requests of both clients, and the daemon's length check

`constitutiond` ends a connection at a length prefix that is not from 1 to
`MAX_FRAME_BYTES`.  A client that never writes such a prefix fits the protocol
(`FitsProtocol`).  The gateway's `rpc` looks at the length of its frame first.
`ConstitutionIPCClient` has the same limit, and looks at it in responses only: its
request is as long as its portfolio makes it.

How long that is can be counted on the values (`requestSize`): the request is JSON in a
string of the envelope's JSON, so its quotation marks are escaped, and those inside its
strings are escaped twice.  `request_frames_iff`: a call fits the protocol exactly when it
raises or what was counted is within the limit, a session is ended by the length check
exactly when one of its calls does not fit, and the gateway's calls always fit.
`crowded_portfolio_cut_off` is a portfolio that does not.
-/
import CentaurApex.Theory.JsonDumps
import CentaurApex.Cortex.ProposalApi
import CentaurApex.Gateway.Transport

set_option autoImplicit false

namespace CentaurApex.Gateway.RustBridgeService

open CentaurApex.Theory
open CentaurApex.Constitution

/-- What `rpc` writes, or what it rejects with before it makes a socket. -/
def request (stringify : Json → String) (call : Call) : Except GatewayError (List UInt8) :=
  if (call.frame stringify).length > maxFrameBytes then
    .error ⟨"Frame exceeds MAX_FRAME_BYTES", none⟩
  else .ok (packU32 (call.frame stringify).length ++ call.frame stringify)

/-- `rpc` is an exchange of what it writes. -/
theorem rpc_eq_request (codec : Codec) (stringify : Json → String) (server : IpcServer)
    (call : Call) (chunks : Nat → Nat) :
    rpc codec stringify server call chunks =
      match request stringify call with
      | .error e => (.error e, server)
      | .ok stream =>
          let served := handleConnection (ipcMachine codec) ⟨stream, chunks⟩ server
          match served.written with
          | [] => (.error ⟨"constitutiond RPC timed out", none⟩, served.server)
          | answer :: _ => (.ok (answerJson answer), served.server) := by
  unfold rpc request
  split <;> rfl

end CentaurApex.Gateway.RustBridgeService

namespace CentaurApex.Cortex.RequestFrames

open CentaurApex.Theory
open CentaurApex.Theory.Python (PyError)
open CentaurApex.Theory.PyValue (Dumpable dumps wireSize)
open CentaurApex.Cortex.ProposalApi (buildEnvelope)
open CentaurApex.Constitution (maxFrameBytes handleConnection)
open CentaurApex.Gateway (Call RustBridgeService.request)

/-! ## Requests -/

/-- A call wrote a frame whose length prefix the daemon accepts, or raised before it wrote
anything. -/
def FitsProtocol {ε : Type} (sent : Except ε (List UInt8)) : Prop :=
  ∀ written, sent = .ok written →
    0 < unpackU32 (written.take 4) ∧ unpackU32 (written.take 4) ≤ maxFrameBytes

section Client

/-- `_send_frame`, up to its `sendall`. -/
def sendFrame (sessionOpen : Bool) (payload : List UInt8) : Except PyError (List UInt8) :=
  if sessionOpen then
    match Frame.ofBytes? payload with
    | none => .error .structError
    | some frame => .ok frame.wire
  else .error (.connectionError "No active session. Use open_session() first.")

variable {φ : Type}

/-- The calls of the client. -/
inductive Rpc (φ : Type) where
  | evaluate (portfolio proposal : PyValue φ)
  | status
  | heartbeat
  | recover (cryptographicProofValid : Bool)

def Rpc.opcode : Rpc φ → String
  | evaluate _ _ => "EvaluateProposal"
  | status => "GetStatus"
  | heartbeat => "Heartbeat"
  | recover _ => "AttemptRecovery"

variable (repr : FloatRepr φ)

def Rpc.payload : Rpc φ → Except PyError (List Char)
  | evaluate portfolio proposal =>
      dumps repr (.dict [(.str (.ofString "portfolio"), portfolio),
        (.str (.ofString "proposal"), proposal)])
  | status => .ok "\x7b\x7d".toList
  | heartbeat => .ok "\x7b\x7d".toList
  | recover cryptographicProofValid =>
      dumps repr (.dict [(.str (.ofString "cryptographic_proof_valid"),
        .bool cryptographicProofValid)])

/-- What a call writes. -/
def Rpc.send (sessionOpen : Bool) (rpc : Rpc φ) : Except PyError (List UInt8) :=
  (rpc.payload repr).bind fun payload => sendFrame sessionOpen (buildEnvelope rpc.opcode payload)

/-- `evaluate(portfolio, proposal)`. -/
def evaluate (sessionOpen : Bool) (portfolio proposal : PyValue φ) : Except PyError (List UInt8) :=
  (Rpc.evaluate portfolio proposal).send repr sessionOpen

/-- All that the calls of an open session write. -/
def written (rpcs : List (Rpc φ)) : List UInt8 :=
  rpcs.flatMap fun rpc =>
    match rpc.send repr true with
    | .ok bytes => bytes
    | .error _ => []

/-! ## What a request takes -/

/-- The length of the frame of `evaluate`, counted on the values it is called with. -/
def requestSize (portfolio proposal : PyValue φ) : ℕ :=
  130 + wireSize repr portfolio + wireSize repr proposal

/-- The call raises before it writes, or what it writes is within the limit. -/
def Sendable (sessionOpen : Bool) (portfolio proposal : PyValue φ) : Prop :=
  sessionOpen = false ∨ ¬ Dumpable portfolio ∨ ¬ Dumpable proposal ∨
    2 ^ 32 ≤ requestSize repr portfolio proposal ∨
    requestSize repr portfolio proposal ≤ maxFrameBytes

end Client

/-! ## The envelope -/

theorem length_buildEnvelope (opcode : String) (payload : List Char) :
    (buildEnvelope opcode payload).length =
      81 + quotedSize opcode.toList + quotedSize payload := by
  have ascii (s : PyStr) :
      (∀ c ∈ s.flatMap JsonTree.asciiEscaping.escape, c.toNat < 128) ↔ True :=
    iff_true_intro (ascii_flatMap_escapeAscii s)
  have quoted (text : List Char) :
      ((PyStr.ofChars text).flatMap JsonTree.asciiEscaping.escape).length = quotedSize text :=
    length_flatMap_escapeAscii text
  have names : quotedSize "protocol_version".toList = 16 ∧ quotedSize "request_id".toList = 10 ∧
      quotedSize "cortex-0001".toList = 11 ∧ quotedSize "opcode".toList = 6 ∧
      quotedSize "payload".toList = 7 := by decide +kernel
  have one : (∀ c ∈ "1".toList, c.toNat < 128) ↔ True :=
    iff_true_intro (List.forall_mem_singleton.mpr (by decide))
  rw [buildEnvelope, length_utf8_of_ascii]
  · simp only [ProposalApi.dumps, JsonTree.object, JsonTree.write, JsonTree.writeFields,
      List.map_cons, List.map_nil, JsonTree.row, JsonTree.writeString, PyStr.ofString,
      List.length_append, List.length_cons, List.length_nil, quoted, names]
    have digit : "1".toList.length = 1 := rfl
    omega
  · simp only [ProposalApi.dumps, JsonTree.object, JsonTree.write, JsonTree.writeFields,
      List.map_cons, List.map_nil, JsonTree.row, JsonTree.writeString, List.forall_mem_append,
      List.forall_mem_cons, List.not_mem_nil, false_implies, implies_true, ascii, one, and_true,
      true_and]
    decide

/-! ## What fits -/

theorem fitsProtocol_error {ε : Type} (raised : ε) :
    FitsProtocol (.error raised : Except ε (List UInt8)) := fun _ sent => (by cases sent)

theorem fitsProtocol_wire {ε : Type} (frame : Frame) :
    FitsProtocol (.ok frame.wire : Except ε (List UInt8)) ↔
      ¬ (frame.body.length = 0 ∨ frame.body.length > maxFrameBytes) := by
  have prefix_ : unpackU32 (frame.wire.take 4) = frame.body.length := by
    rw [frame.take_wire, unpackU32_packU32 frame.short]
  have bounds : ¬ (frame.body.length = 0 ∨ frame.body.length > maxFrameBytes) ↔
      0 < frame.body.length ∧ frame.body.length ≤ maxFrameBytes := by omega
  rw [bounds, ← prefix_]
  constructor
  · exact fun fits => fits _ rfl
  · rintro fits _ sent
    obtain rfl := Except.ok.inj sent
    exact fits

theorem fitsProtocol_sendFrame {sessionOpen : Bool} {payload : List UInt8}
    (some_ : 0 < payload.length) :
    FitsProtocol (sendFrame sessionOpen payload) ↔
      sessionOpen = false ∨ 2 ^ 32 ≤ payload.length ∨ payload.length ≤ maxFrameBytes := by
  cases sessionOpen with
  | false => exact iff_of_true (fitsProtocol_error _) (.inl rfl)
  | true =>
      rw [sendFrame, if_pos rfl, Frame.ofBytes?]
      by_cases short : payload.length < 2 ^ 32
      · rw [dif_pos short, fitsProtocol_wire]
        simp only [Bool.true_eq_false, false_or]
        omega
      · rw [dif_neg short]
        exact iff_of_true (fitsProtocol_error _) (.inr (.inl (not_lt.mp short)))

section Calls

variable {φ : Type} (repr : FloatRepr φ)

/-- A call whose payload is written sends a frame as long as was counted. -/
theorem send_of_payload (sessionOpen : Bool) {rpc : Rpc φ} {payload : List Char}
    (dumped : rpc.payload repr = .ok payload) :
    FitsProtocol (rpc.send repr sessionOpen) ↔ sessionOpen = false ∨
      2 ^ 32 ≤ 81 + quotedSize rpc.opcode.toList + quotedSize payload ∨
      81 + quotedSize rpc.opcode.toList + quotedSize payload ≤ maxFrameBytes := by
  have length := length_buildEnvelope rpc.opcode payload
  have sent : rpc.send repr sessionOpen =
      sendFrame sessionOpen (buildEnvelope rpc.opcode payload) := by
    rw [Rpc.send, dumped]
    rfl
  rw [sent, fitsProtocol_sendFrame (by omega), length]

/-- **An evaluation fits exactly when it is sendable.** -/
theorem evaluate_fits_iff (sessionOpen : Bool) (portfolio proposal : PyValue φ) :
    FitsProtocol (evaluate repr sessionOpen portfolio proposal) ↔
      Sendable repr sessionOpen portfolio proposal := by
  by_cases dumpable : Dumpable portfolio ∧ Dumpable proposal
  · have whole : Dumpable (.dict [(.str (.ofString "portfolio"), portfolio),
        (.str (.ofString "proposal"), proposal)]) :=
      ⟨trivial, dumpable.1, trivial, dumpable.2, trivial⟩
    obtain ⟨payload, dumped, size⟩ := PyValue.dumps_of_dumpable repr whole
    have opcode : quotedSize "EvaluateProposal".toList = 16 := by decide +kernel
    have keys : stringSize (.ofString "portfolio") = 13 ∧ stringSize (.ofString "proposal") = 12 := by
      decide +kernel
    have counted : 81 + quotedSize "EvaluateProposal".toList + quotedSize payload =
        requestSize repr portfolio proposal := by
      rw [size, opcode, requestSize]
      simp only [wireSize, PyValue.fieldsSize, PyValue.keySize, keys, List.length_cons,
        List.length_nil]
      omega
    have sent := send_of_payload repr sessionOpen
      (show (Rpc.evaluate portfolio proposal).payload repr = .ok payload from dumped)
    rw [evaluate, sent, Rpc.opcode, counted, Sendable, or_iff_right (not_not.mpr dumpable.1),
      or_iff_right (not_not.mpr dumpable.2)]
  · have raises : ∃ raised, (Rpc.evaluate portfolio proposal).payload repr = .error raised :=
      PyValue.dumps_of_not_dumpable repr fun whole =>
        dumpable ⟨whole.2.1, whole.2.2.2.1⟩
    obtain ⟨raised, dumped⟩ := raises
    rw [evaluate, Rpc.send, dumped]
    refine iff_of_true (fitsProtocol_error raised) (.inr ?_)
    rcases not_and_or.mp dumpable with portfolio | proposal
    · exact .inl portfolio
    · exact .inr (.inl proposal)

theorem opcode_size_le (rpc : Rpc φ) : quotedSize rpc.opcode.toList ≤ 16 := by
  cases rpc <;> rw [Rpc.opcode] <;> decide +kernel

/-- The other calls always fit. -/
theorem send_fits_iff (rpc : Rpc φ) :
    FitsProtocol (rpc.send repr true) ↔
      ∀ portfolio proposal, rpc = .evaluate portfolio proposal →
        Sendable repr true portfolio proposal := by
  have short {rpc : Rpc φ} {payload : List Char} (dumped : rpc.payload repr = .ok payload)
      (size : quotedSize payload ≤ 100) : FitsProtocol (rpc.send repr true) := by
    have opcode := opcode_size_le rpc
    rw [send_of_payload repr true dumped, maxFrameBytes]
    omega
  have empty : quotedSize "\x7b\x7d".toList ≤ 100 := by decide
  cases rpc with
  | evaluate portfolio proposal =>
      refine (evaluate_fits_iff repr true portfolio proposal).trans
        ⟨?_, fun sendable => sendable _ _ rfl⟩
      rintro sendable _ _ same
      obtain ⟨rfl, rfl⟩ := Rpc.evaluate.inj same
      exact sendable
  | status =>
      exact iff_of_true (short rfl empty) fun _ _ other => (by cases other)
  | heartbeat =>
      exact iff_of_true (short rfl empty) fun _ _ other => (by cases other)
  | recover valid =>
      have whole : Dumpable (.dict [(.str (.ofString "cryptographic_proof_valid"),
          (.bool valid : PyValue φ))]) := ⟨trivial, trivial, trivial⟩
      obtain ⟨payload, dumped, size⟩ := PyValue.dumps_of_dumpable repr whole
      have dumped : (Rpc.recover valid).payload repr = .ok payload := dumped
      have key : stringSize (.ofString "cryptographic_proof_valid") = 29 := by decide +kernel
      have counted : quotedSize payload ≤ 100 := by
        rw [size]
        cases valid <;>
          simp only [wireSize, PyValue.fieldsSize, PyValue.keySize, key, List.length_cons,
            List.length_nil] <;>
          omega
      exact iff_of_true (short dumped counted) fun _ _ other => (by cases other)

/-- A call of an open session raises, or writes one frame. -/
theorem send_cases (rpc : Rpc φ) :
    (∃ raised, rpc.send repr true = .error raised) ∨
      ∃ frame : Frame, rpc.send repr true = .ok frame.wire := by
  rw [Rpc.send]
  cases rpc.payload repr with
  | error raised => exact .inl ⟨raised, rfl⟩
  | ok payload =>
      rw [Except.bind, sendFrame, if_pos rfl]
      cases Frame.ofBytes? (buildEnvelope rpc.opcode payload) with
      | none => exact .inl ⟨_, rfl⟩
      | some frame => exact .inr ⟨frame, rfl⟩

/-- What a session writes is a row of frames, and one is out of bounds where a call does
not fit. -/
theorem exists_frames (rpcs : List (Rpc φ)) :
    ∃ frames : List Frame, written repr rpcs = frames.flatMap Frame.wire ∧
      ((∃ f ∈ frames, f.body.length = 0 ∨ f.body.length > maxFrameBytes) ↔
        ∃ rpc ∈ rpcs, ¬ FitsProtocol (rpc.send repr true)) := by
  induction rpcs with
  | nil => exact ⟨[], rfl, by simp⟩
  | cons rpc rpcs ih =>
      obtain ⟨frames, rest, illegal⟩ := ih
      rcases send_cases repr rpc with ⟨raised, sent⟩ | ⟨frame, sent⟩
      · refine ⟨frames, ?_, ?_⟩
        · rw [written, List.flatMap_cons, sent]
          exact rest
        · rw [illegal, List.exists_mem_cons_iff, sent]
          exact (or_iff_right (not_not.mpr (fitsProtocol_error raised))).symm
      · refine ⟨frame :: frames, ?_, ?_⟩
        · rw [written, List.flatMap_cons, sent, List.flatMap_cons, ← rest]
          rfl
        · rw [List.exists_mem_cons_iff, List.exists_mem_cons_iff, illegal, sent,
            fitsProtocol_wire, not_not]

/-- **A session is ended by the length check exactly when a call of it does not fit.** -/
theorem ended_iff {σ ο : Type} (server : Machine σ (List UInt8) ο) (rpcs : List (Rpc φ))
    (chunks : Nat → Nat) (state : σ) :
    (handleConnection server ⟨written repr rpcs, chunks⟩ state).invalid = true ↔
      ∃ portfolio proposal, .evaluate portfolio proposal ∈ rpcs ∧
        ¬ Sendable repr true portfolio proposal := by
  obtain ⟨frames, spelt, illegal⟩ := exists_frames repr rpcs
  rw [spelt, Constitution.handleConnection_invalid_iff, illegal]
  simp only [send_fits_iff, not_forall]
  constructor
  · rintro ⟨_, called, portfolio, proposal, rfl, unsendable⟩
    exact ⟨portfolio, proposal, called, unsendable⟩
  · rintro ⟨portfolio, proposal, called, unsendable⟩
    exact ⟨_, called, portfolio, proposal, rfl, unsendable⟩

end Calls

/-! ## The gateway -/

/-- What the gateway sends is a whole frame, and not a long one. -/
theorem request_fits {stringify : Json → String}
    (object : ∀ fields, ∃ rest, (stringify (.obj fields)).toList = '\x7b' :: rest) (call : Call) :
    FitsProtocol (RustBridgeService.request stringify call) := by
  obtain ⟨rest, text⟩ := object [("protocol_version", .int 1), ("request_id", .str "gateway-0001"),
    ("opcode", .str call.opcodeName), ("payload", .str (call.payload stringify))]
  have some_ : (call.frame stringify).length ≠ 0 := by
    rw [Call.frame, Call.envelope, text]
    exact fun empty => absurd (utf8_eq_nil.mp (List.length_eq_zero_iff.mp empty))
      (List.cons_ne_nil _ _)
  rw [RustBridgeService.request]
  split
  · exact fitsProtocol_error _
  · rename_i short
    have fits : (call.frame stringify).length < 2 ^ 32 := by
      simp only [maxFrameBytes] at short
      omega
    exact (fitsProtocol_wire ⟨call.frame stringify, fits⟩).mpr (not_or.mpr ⟨some_, short⟩)

/-! ## Both clients -/

/-- **The request law.**  An evaluation fits the protocol exactly when it is sendable, a
session is ended by the daemon's length check exactly when one of its evaluations is not,
and the gateway's calls always fit. -/
theorem request_frames_iff {φ : Type} (repr : FloatRepr φ) {stringify : Json → String}
    (object : ∀ fields, ∃ rest, (stringify (.obj fields)).toList = '\x7b' :: rest) :
    (∀ sessionOpen portfolio proposal,
      FitsProtocol (evaluate repr sessionOpen portfolio proposal) ↔
        Sendable repr sessionOpen portfolio proposal) ∧
    (∀ {σ ο : Type} (server : Machine σ (List UInt8) ο) (rpcs : List (Rpc φ)) (chunks : Nat → Nat)
      (state : σ), (handleConnection server ⟨written repr rpcs, chunks⟩ state).invalid = true ↔
        ∃ portfolio proposal, .evaluate portfolio proposal ∈ rpcs ∧
          ¬ Sendable repr true portfolio proposal) ∧
    ∀ call, FitsProtocol (RustBridgeService.request stringify call) :=
  ⟨evaluate_fits_iff repr, ended_iff repr, request_fits object⟩

/-! ## The proposals of the model -/

section Dump

open CentaurApex.Cortex.ProposalApi (FloatText dumpsFloat evaluateFrame)

theorem isPlainChar_of_isNumberChar {c : Char} (number : JsonTree.isNumberChar c) :
    IsPlainChar c := by
  simp only [JsonTree.isNumberChar, JsonTree.NumberState.isExp, Bool.or_eq_true,
    decide_eq_true_eq] at number
  rcases number with (((digit | rfl | rfl) | rfl) | rfl) | rfl
  · simp only [JsonTree.NumberState.isDigit, Bool.and_eq_true, decide_eq_true_eq] at digit
    have from_ : 48 ≤ c.toNat := digit.1
    have to_ : c.toNat ≤ 57 := digit.2
    unfold IsPlainChar
    omega
  all_goals decide

theorem isPlainChar_of_all {text : List Char} (all : text.all fun c => decide (IsPlainChar c)) :
    ∀ c ∈ text, IsPlainChar c := fun c member =>
  of_decide_eq_true (List.all_eq_true.mp all c member)

/-- The texts of the numbers of a proposal. -/
def floatRepr (text : FloatText) : FloatRepr PyFloat where
  text
    | .fin x => text.repr x
    | .posInf => "Infinity".toList
    | .negInf => "-Infinity".toList
    | .nan => "NaN".toList
  plain
    | .fin x => fun c member =>
        isPlainChar_of_isNumberChar (JsonTree.isNumberChar_of_mem (text.repr_number x) c member)
    | .posInf => isPlainChar_of_all (show "Infinity".toList.all _ by decide)
    | .negInf => isPlainChar_of_all (show "-Infinity".toList.all _ by decide)
    | .nan => isPlainChar_of_all (show "NaN".toList.all _ by decide)

/-- `proposal.model_dump()`. -/
def modelDump (proposal : ProposalApi.TradeProposal) : PyValue PyFloat :=
  .dict
    [(.str (.ofString "proposal_id"), .str proposal.proposalId),
      (.str (.ofString "asset_id"), .str proposal.assetId),
      (.str (.ofString "direction"), .str (.ofString proposal.direction.value)),
      (.str (.ofString "target_notional"), .float proposal.targetNotional),
      (.str (.ofString "max_acceptable_slippage"), .float proposal.maxAcceptableSlippage)]

/-- What is sent for such a proposal is the frame that the round trip is about. -/
theorem evaluate_modelDump (text : FloatText) (sessionOpen : Bool) {portfolio : PyValue PyFloat}
    {tree : JsonTree} (walked : portfolio.tree (floatRepr text) = .ok tree)
    (proposal : ProposalApi.TradeProposal) :
    evaluate (floatRepr text) sessionOpen portfolio (modelDump proposal) =
      sendFrame sessionOpen (evaluateFrame text tree proposal) := by
  have dumped : (modelDump proposal).tree (floatRepr text) =
      .ok (proposal.fields (dumpsFloat text)) := by
    have float (x : PyFloat) : dumpsFloat text x = .number ((floatRepr text).text x) := by
      cases x <;> rfl
    rw [ProposalApi.TradeProposal.fields, float, float]
    rfl
  have request : (Rpc.evaluate portfolio (modelDump proposal)).payload (floatRepr text) =
      .ok (ProposalApi.dumps (JsonTree.object
        [("portfolio", tree), ("proposal", proposal.fields (dumpsFloat text))])) := by
    rw [Rpc.payload, dumps, PyValue.tree, PyValue.fieldTrees, PyValue.fieldTrees,
      PyValue.fieldTrees, walked, dumped]
    rfl
  rw [evaluate, Rpc.send, request, Except.bind, Rpc.opcode, evaluateFrame]

end Dump

/-! ## Poles -/

section Poles

open CentaurApex.Cortex.ProposalApi (oneDecimalText purchase hundred_gt)

/-- What `_apply_execution` records of a filled order. -/
def position : PyValue PyFloat :=
  .dict
    [(.str (.ofString "asset_id"), .str (.ofString "BTC-PERP")),
      (.str (.ofString "notional_value"), .float (.fin 100)),
      (.str (.ofString "entry_price"), .float (.fin 100)),
      (.str (.ofString "quantity"), .float (.fin (1 / 2)))]

/-- A portfolio with so many open positions. -/
def portfolioOf (positions : ℕ) : PyValue PyFloat :=
  .dict
    [(.str (.ofString "timestamp"), .int 7),
      (.str (.ofString "total_equity"), .float (.fin 100)),
      (.str (.ofString "cash_balance"), .float (.fin 100)),
      (.str (.ofString "high_water_mark"), .float (.fin 100)),
      (.str (.ofString "open_positions"), .list (List.replicate positions position))]

theorem portfolioOf_dumpable (positions : ℕ) : Dumpable (portfolioOf positions) := by
  have each : PyValue.DumpableItems (List.replicate positions position) :=
    PyValue.dumpableItems_iff.mpr fun item member => by
      obtain rfl := List.eq_of_mem_replicate member
      exact ⟨trivial, trivial, trivial, trivial, trivial, trivial, trivial, trivial, trivial⟩
  have seven : ShortInt 7 := by decide
  exact ⟨trivial, seven, trivial, trivial, trivial, trivial, trivial, trivial, trivial, each, trivial⟩

theorem unsendable_crowd : ¬ Sendable (floatRepr oneDecimalText) true (portfolioOf 200)
    (modelDump (purchase (.fin 100) hundred_gt)) := by
  have purchase_dumpable : Dumpable (modelDump (purchase (.fin 100) hundred_gt)) :=
    ⟨trivial, trivial, trivial, trivial, trivial, trivial, trivial, trivial, trivial, trivial,
      trivial⟩
  have size : maxFrameBytes < requestSize (floatRepr oneDecimalText) (portfolioOf 200)
        (modelDump (purchase (.fin 100) hundred_gt)) ∧
      requestSize (floatRepr oneDecimalText) (portfolioOf 200)
        (modelDump (purchase (.fin 100) hundred_gt)) < 2 ^ 32 := by decide +kernel
  rintro (closed | raises | raises | huge | short)
  · cases closed
  · exact raises (portfolioOf_dumpable 200)
  · exact raises purchase_dumpable
  · exact absurd huge (not_le.mpr size.2)
  · exact absurd short (not_le.mpr size.1)

/-- Refuting pole: two hundred open positions are sent in one frame, and the daemon ends
the session. -/
theorem crowded_portfolio_cut_off :
    (¬ ∀ (sessionOpen : Bool) (portfolio proposal : PyValue PyFloat),
      FitsProtocol (evaluate (floatRepr oneDecimalText) sessionOpen portfolio proposal)) ∧
    ∀ (codec : Constitution.Codec) (chunks : Nat → Nat) (server : Constitution.IpcServer),
      (handleConnection (Constitution.ipcMachine codec)
        ⟨written (floatRepr oneDecimalText)
          [.evaluate (portfolioOf 200) (modelDump (purchase (.fin 100) hundred_gt))], chunks⟩
        server).invalid = true := by
  refine ⟨fun always => ?_, fun codec chunks server => ?_⟩
  · exact unsendable_crowd ((evaluate_fits_iff _ true _ _).mp (always true _ _))
  · exact (ended_iff _ _ _ _ _).mpr ⟨_, _, List.mem_cons_self, unsendable_crowd⟩

theorem stringify_object (fields : List (String × Json)) :
    ∃ rest, (Gateway.Exchange.stringify (.obj fields)).toList = '\x7b' :: rest := by
  rw [Gateway.Exchange.stringify, String.toList_ofList]
  exact ⟨_, rfl⟩

/-- Satisfiable pole: with no open position the same purchase is sent, from both clients. -/
theorem first_purchase_fits :
    FitsProtocol (evaluate (floatRepr oneDecimalText) true (portfolioOf 0)
      (modelDump (purchase (.fin 100) hundred_gt))) ∧
    FitsProtocol (RustBridgeService.request Gateway.Exchange.stringify
      (Gateway.Exchange.evaluate 9)) := by
  obtain ⟨evaluations, -, calls⟩ :=
    request_frames_iff (floatRepr oneDecimalText) stringify_object
  exact ⟨(evaluations true _ _).mpr (.inr (.inr (.inr (.inr (by decide +kernel))))), calls _⟩

end Poles

end CentaurApex.Cortex.RequestFrames
