/-
# Constitution.ResponseText -- how long a response can get

What `constitutiond` writes back is the JSON text of `answerJson`.  Only the
status grows with the run, through its journal and its counters, and both are
bounded by their types (`Journal`, `SatCounter`); the other responses are a few
fields around a number.  `response_fits` adds the pieces up: every response is
from one to `MAX_FRAME_BYTES` bytes long.

How `serde_json` prints a finite `f64` is a parameter, of at most 24 bytes.
-/
import CentaurApex.Theory.JsonText
import CentaurApex.Theory.Framing
import CentaurApex.Constitution.Delivery

namespace CentaurApex.Constitution

open CentaurApex.Theory

set_option autoImplicit false

/-- The bytes of a response, behind its length. -/
def responseBytes (number : F64 → List UInt8) (answer : Except IpcError IpcResponse) :
    List UInt8 :=
  (answerJson answer).render number

section Lengths

variable {number : F64 → List UInt8}

/-- The names in a response, and the lengths they have there. -/
def responseNames : List (String × ℕ) :=
  [("Approved", 10), ("adjusted_notional", 19), ("Rejected", 10), ("reason_code", 13),
    ("EmergencyLiquidationAll", 25), ("verdict", 9), ("system_state", 14), ("emergencies", 13),
    ("proposals_seen", 16), ("state_history", 15), ("transitions", 13), ("recovery_success", 18),
    ("alive", 7), ("protocol_version", 18), ("error", 7)]

theorem length_names : ∀ name ∈ responseNames, (renderString name.1).length = name.2 := by
  decide +kernel

theorem length_state_le (s : SystemOperationalState) :
    (renderString s.debug).length ≤ 20 := by
  cases s <;> decide +kernel

theorem length_edge_le (edge : SystemOperationalState × SystemOperationalState) :
    ((Json.arr [.str edge.1.debug, .str edge.2.debug]).render number).length ≤ 43 := by
  have := length_state_le edge.1
  have := length_state_le edge.2
  simp only [Json.render, Json.renderItems, List.length_cons, List.length_append, List.length_nil]
  omega

theorem length_history_le (number : F64 → List UInt8)
    {history : List (SystemOperationalState × SystemOperationalState)}
    (bounded : history.length ≤ maxTransitionHistory) :
    ((Json.arr (history.map fun edge =>
      .arr [.str edge.1.debug, .str edge.2.debug])).render number).length ≤ 2818 := by
  have short : ∀ item ∈ history.map fun edge => Json.arr [.str edge.1.debug, .str edge.2.debug],
      (item.render number).length ≤ 43 := by
    intro item member
    obtain ⟨edge, _, rfl⟩ := List.mem_map.mp member
    exact length_edge_le edge
  have items := length_renderItems_le number short
  rw [List.length_map] at items
  simp only [maxTransitionHistory] at bounded
  simp only [Json.render, List.length_cons, List.length_append, List.length_nil]
  omega

theorem length_counter_le (number : F64 → List UInt8) (c : U64Counter) :
    ((Json.int c.val).render number).length ≤ 20 := by
  have small : c.val < 10 ^ (19 + 1) := by
    have := c.val_le
    simp only [u64Max] at this
    omega
  exact length_renderNat_le small

theorem length_number_le (width : ∀ x : F64, x.IsFinite → (number x).length ≤ 24) (x : F64) :
    ((numberToJson x).render number).length ≤ 24 := by
  unfold numberToJson
  split
  · rename_i finite
    exact width x finite
  · simp [Json.render]

theorem length_verdict_le (width : ∀ x : F64, x.IsFinite → (number x).length ≤ 24)
    (verdict : ConstitutionVerdict) : (verdict.toJson.render number).length ≤ 80 := by
  cases verdict with
  | approved n =>
      have := length_number_le width n
      have outer : (renderString "Approved").length = 10 :=
        length_names ("Approved", 10) (by simp [responseNames])
      have inner : (renderString "adjusted_notional").length = 19 :=
        length_names ("adjusted_notional", 19) (by simp [responseNames])
      simp only [ConstitutionVerdict.toJson, Json.render, Json.renderFields, List.length_cons,
        List.length_append, List.length_nil]
      omega
  | rejected code =>
      have outer : (renderString "Rejected").length = 10 :=
        length_names ("Rejected", 10) (by simp [responseNames])
      have inner : (renderString "reason_code").length = 13 :=
        length_names ("reason_code", 13) (by simp [responseNames])
      have : (renderString code.debug).length ≤ 33 := by cases code <;> decide +kernel
      simp only [ConstitutionVerdict.toJson, Json.render, Json.renderFields, List.length_cons,
        List.length_append, List.length_nil]
      omega
  | emergencyLiquidationAll =>
      have : (renderString "EmergencyLiquidationAll").length = 25 :=
        length_names ("EmergencyLiquidationAll", 25) (by simp [responseNames])
      simp only [ConstitutionVerdict.toJson, Json.render]
      omega

theorem length_response_le (width : ∀ x : F64, x.IsFinite → (number x).length ≤ 24)
    (server : IpcServer) (request : Request) :
    ((server.serve request).1.toJson.render number).length ≤ 3000 := by
  have system : (renderString "system_state").length = 14 :=
    length_names ("system_state", 14) (by simp [responseNames])
  cases request with
  | evaluateProposal portfolio proposal =>
      have verdict := length_verdict_le width
        (server.constitution.kernel.processProposal portfolio proposal).1
      have state := length_state_le
        (server.constitution.kernel.processProposal portfolio proposal).2.state
      have key : (renderString "verdict").length = 9 :=
        length_names ("verdict", 9) (by simp [responseNames])
      simp only [IpcServer.serve, ConstitutionService.handleIncomingRequest,
        ConstitutionService.getStatus, IpcResponse.toJson, EvaluateProposalResponse.toJson,
        Json.render, Json.renderFields, List.length_cons, List.length_append, List.length_nil]
      omega
  | getStatus =>
      have history := length_history_le number
        server.constitution.kernel.transitionHistory.length_le
      have state := length_state_le server.constitution.kernel.state
      have proposals := length_counter_le number server.constitution.kernel.proposalCount
      have emergencies := length_counter_le number
        server.constitution.kernel.emergencyCount
      have transitions := length_counter_le number
        server.constitution.kernel.transitionCount
      have emergenciesKey : (renderString "emergencies").length = 13 :=
        length_names ("emergencies", 13) (by simp [responseNames])
      have proposalsKey : (renderString "proposals_seen").length = 16 :=
        length_names ("proposals_seen", 16) (by simp [responseNames])
      have historyKey : (renderString "state_history").length = 15 :=
        length_names ("state_history", 15) (by simp [responseNames])
      have transitionsKey : (renderString "transitions").length = 13 :=
        length_names ("transitions", 13) (by simp [responseNames])
      simp only [Json.render] at history proposals emergencies transitions
      simp only [IpcServer.serve, ConstitutionService.getStatus, IpcResponse.toJson,
        StatusResponse.toJson, Json.render, Json.renderFields, List.length_cons,
        List.length_append, List.length_nil] at history ⊢
      omega
  | attemptRecovery valid =>
      have key : (renderString "recovery_success").length = 18 :=
        length_names ("recovery_success", 18) (by simp [responseNames])
      cases success : (server.constitution.kernel.attemptRecovery valid).1 <;>
        simp [IpcServer.serve, ConstitutionService.attemptCryptographicRecovery,
          IpcResponse.toJson, Json.render, Json.renderFields, success, key]
  | heartbeat =>
      have alive : (renderString "alive").length = 7 :=
        length_names ("alive", 7) (by simp [responseNames])
      have version : (renderString "protocol_version").length = 18 :=
        length_names ("protocol_version", 18) (by simp [responseNames])
      have one : (renderInt ipcProtocolVersion.toNat).length = 1 := by decide +kernel
      simp [IpcServer.serve, IpcResponse.toJson, Json.render, Json.renderFields, alive, version, one]

theorem length_toString_u32 (n : UInt32) : (toString n).length ≤ 10 := by
  have small : n.toNat < 10 ^ 10 := by
    have := n.toNat_lt
    omega
  have digits : (Nat.toDigits 10 n.toNat).length ≤ 10 :=
    (Nat.length_toDigits_le_iff (by decide) (by decide)).mpr small
  rw [← Nat.toList_repr, String.length_toList] at digits
  exact digits

theorem debug_versionMismatch (expected actual : UInt32) :
    (IpcError.versionMismatch expected actual).debug = "VersionMismatch \x7b expected: " ++
      toString expected ++ ", actual: " ++ toString actual ++ " \x7d" := rfl

theorem length_versionMismatch_le (expected actual : UInt32) :
    (IpcError.versionMismatch expected actual).debug.length ≤ 60 := by
  have first := length_toString_u32 expected
  have second := length_toString_u32 actual
  have opening : "VersionMismatch \x7b expected: ".length = 28 := rfl
  have middle : ", actual: ".length = 10 := rfl
  have closing : " \x7d".length = 2 := rfl
  rw [debug_versionMismatch, String.length_append, String.length_append, String.length_append,
    String.length_append, opening, middle, closing]
  omega

/-- The errors without fields. -/
theorem length_bare_le : ∀ e ∈ [IpcError.frameSizeExceeded, .malformedEnvelope,
    .malformedPayload, .serializationFailed], (renderString e.debug).length ≤ 900 := by
  decide +kernel

theorem length_error_le (e : IpcError) :
    ((answerJson (.error e)).render number).length ≤ 1000 := by
  have key : (renderString "error").length = 7 :=
    length_names ("error", 7) (by simp [responseNames])
  have message : (renderString e.debug).length ≤ 900 := by
    cases e with
    | frameSizeExceeded => exact length_bare_le _ (by simp)
    | malformedEnvelope => exact length_bare_le _ (by simp)
    | malformedPayload => exact length_bare_le _ (by simp)
    | serializationFailed => exact length_bare_le _ (by simp)
    | versionMismatch expected actual =>
        have bound := length_renderString_le (IpcError.versionMismatch expected actual).debug
        have short := length_versionMismatch_le expected actual
        exact bound.trans (by omega)
  simp only [answerJson, Json.render, Json.renderFields, List.length_cons, List.length_append,
    List.length_nil]
  omega

end Lengths

/-! ## Every response fits a frame -/

/-- **Every response is from one to `MAX_FRAME_BYTES` bytes long**, in every
state of the server and for every string of bytes received. -/
theorem response_fits (codec : Codec) (number : F64 → List UInt8)
    (width : ∀ x : F64, x.IsFinite → (number x).length ≤ 24) (server : IpcServer)
    (frame : List UInt8) :
    1 ≤ (responseBytes number (server.handleFrame codec frame).1).length ∧
      (responseBytes number (server.handleFrame codec frame).1).length ≤ maxFrameBytes := by
  rw [handleFrame_eq]
  have isObject : ∀ answer : Except IpcError IpcResponse,
      1 ≤ (responseBytes number answer).length := by
    intro answer
    obtain ⟨fields, eq⟩ : ∃ fields, answerJson answer = .obj fields := by
      cases answer with
      | error e => exact ⟨_, rfl⟩
      | ok response => cases response <;> exact ⟨_, rfl⟩
    rw [responseBytes, eq, Json.render, List.length_cons]
    omega
  refine ⟨isObject _, ?_⟩
  cases codec.read frame with
  | error e => exact (length_error_le e).trans (by decide)
  | ok request => exact (length_response_le width server request).trans (by decide)

/-- Satisfiable pole: an approval of one, with the number printed as `1.0`. -/
theorem approval_fits :
    1 ≤ (responseBytes (fun _ => [49, 46, 48])
        (Session.start.handleFrame (Session.codec Session.frames) Session.frames.sound).1).length ∧
      (responseBytes (fun _ => [49, 46, 48])
        (Session.start.handleFrame (Session.codec Session.frames) Session.frames.sound).1).length ≤
          maxFrameBytes :=
  response_fits (Session.codec Session.frames) (fun _ => [49, 46, 48]) (fun _ _ => by decide)
    Session.start Session.frames.sound

end CentaurApex.Constitution
