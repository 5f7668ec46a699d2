/-
# Cortex.ConstitutionClient -- calls and answers on one session

A session is a socket.  A call sends its request and then reads one frame from
the socket, with as many `recv`s as it takes; a `recv` that raises, sees the end
of the stream or delivers a short header makes the call raise, and the caller may
go on with the same session.

The daemon answers the frames of a connection in order: it is any deterministic
machine from request bytes to response frames, and its answers queue up on the
wire whether or not they are read.  Nothing in a response names its request, so
an answer left on the wire by one call is read by the next (`late_answer`).  As
long as every earlier call has drained its answer (`Drained`), a value is decoded
from the answer to its own request: `paired_of_drained`.
-/
import CentaurApex.Theory.Framing
import CentaurApex.Theory.Json
import CentaurApex.Theory.Machine

namespace CentaurApex.Cortex

open CentaurApex.Theory
open CentaurApex.Theory.Python

set_option autoImplicit false

namespace ConstitutionIpcClient

def protocolVersion : ℤ := 1

def maxFrameBytes : Nat := 16384

/-- `json.dumps`, and `json.loads` on UTF-8 text. -/
structure JsonText where
  dumps : Json → String
  loads : List UInt8 → Option Json

/-- `text.encode("utf-8")`. -/
def encode (text : String) : List UInt8 := text.toUTF8.toList

/-! ## Framing -/

/-- `_read_exact`, with the outcomes of the `recv`s to come; the second component
is what stays unread. -/
def readExact (remaining : Nat) (chunks unread : List UInt8) :
    List RecvOutcome → Except PyError (List UInt8) × List UInt8
  | [] => if remaining = 0 then (.ok chunks, unread) else (.error .socketError, unread)
  | outcome :: outcomes =>
      if remaining = 0 then (.ok chunks, unread)
      else
        match recv remaining unread outcome with
        | (none, rest) => (.error .socketError, rest)
        | (some [], rest) =>
            (.error (.connectionError "Connection closed early by Constitution daemon"), rest)
        | (some (b :: chunk), rest) =>
            readExact (remaining - (b :: chunk).length) (chunks ++ b :: chunk) rest outcomes

/-- The reading half of `_send_frame`: one `recv` for the header, then the body. -/
def receiveFrame (unread : List UInt8) (outcomes : List RecvOutcome) :
    Except PyError (List UInt8) × List UInt8 :=
  match outcomes with
  | [] => (.error .socketError, unread)
  | outcome :: outcomes =>
      match recv 4 unread outcome with
      | (none, rest) => (.error .socketError, rest)
      | (some header, rest) =>
          if header.length ≠ 4 then
            (.error (.connectionError "Constitution closed connection early"), rest)
          else
            let frameLen := unpackU32 header
            if frameLen = 0 ∨ frameLen > maxFrameBytes then
              (.error (.valueError "Invalid response frame length" (some (.fin frameLen))), rest)
            else readExact frameLen [] rest outcomes

/-! ## The calls -/

inductive Rpc where
  | evaluate (portfolio proposal : Json)
  | status
  | heartbeat
  | recover (cryptographicProofValid : Bool)

structure ConstitutionStatus where
  systemState : Json
  proposalsSeen : Json
  emergencies : Json

inductive RpcValue where
  | json (value : Json)
  | status (value : ConstitutionStatus)

def buildEnvelope (text : JsonText) (opcode payload : String) : List UInt8 :=
  encode (text.dumps (.obj
    [("protocol_version", .int protocolVersion), ("request_id", .str "cortex-0001"),
      ("opcode", .str opcode), ("payload", .str payload)]))

def Rpc.request (text : JsonText) : Rpc → List UInt8
  | evaluate portfolio proposal =>
      buildEnvelope text "EvaluateProposal"
        (text.dumps (.obj [("portfolio", portfolio), ("proposal", proposal)]))
  | status => buildEnvelope text "GetStatus" "\x7b\x7d"
  | heartbeat => buildEnvelope text "Heartbeat" "\x7b\x7d"
  | recover cryptographicProofValid =>
      buildEnvelope text "AttemptRecovery"
        (text.dumps (.obj [("cryptographic_proof_valid", .bool cryptographicProofValid)]))

/-- What a call returns for the bytes of a response. -/
def Rpc.decode (text : JsonText) (rpc : Rpc) (raw : List UInt8) : Except PyError RpcValue :=
  match text.loads raw with
  | none => .error .decodeError
  | some resp =>
      match rpc with
      | status => do
          let systemState ← item resp "system_state"
          let proposalsSeen ← item resp "proposals_seen"
          let emergencies ← item resp "emergencies"
          return .status ⟨systemState, proposalsSeen, emergencies⟩
      | _ => .ok (.json resp)

/-! ## A session -/

/-- An open session: the daemon's side, and the bytes it has sent that no `recv`
has delivered yet. -/
structure Session (δ : Type) where
  daemon : δ
  unread : List UInt8

/-- A call, and what the `recv`s it makes will do. -/
structure Call where
  rpc : Rpc
  outcomes : List RecvOutcome

/-- A call as it happened. -/
abbrev CallEvent (δ : Type) : Type := Event (Session δ) Call (Except PyError RpcValue)

section Session

variable {δ : Type} (text : JsonText) (daemon : Machine δ (List UInt8) Frame)

/-- One call.  A request too long for its length prefix is never sent. -/
def session : Machine (Session δ) Call (Except PyError RpcValue) where
  step s call :=
    match Frame.ofBytes? (call.rpc.request text) with
    | none => (.error .structError, s)
    | some request =>
        let answer := daemon.step s.daemon request.body
        let received := receiveFrame (s.unread ++ answer.1.wire) call.outcomes
        (received.1.bind (call.rpc.decode text), { daemon := answer.2, unread := received.2 })

/-- The daemon's answer to the request of a call, if the request was sent. -/
def answer (s : Session δ) (call : Call) : Option Frame :=
  (Frame.ofBytes? (call.rpc.request text)).map fun request => (daemon.step s.daemon request.body).1

/-- The value a call returned is decoded from the answer to its own request. -/
def Paired (e : CallEvent δ) : Prop :=
  ∀ value, e.reply = .ok value → ∃ response, answer text daemon e.before e.input = some response ∧
    e.input.rpc.decode text response.body = .ok value

/-- The next `recv`s deliver `n` bytes between them. -/
def Delivers : Nat → List RecvOutcome → Prop
  | 0, _ => True
  | n + 1, .delivers k :: outcomes => Delivers (n - k) outcomes
  | _ + 1, _ => False

/-- The `recv`s of a call take a whole response of length `n` off the wire: four
bytes at once, and then the body, if its length is one the client reads. -/
def Drains (n : Nat) : List RecvOutcome → Prop
  | .delivers k :: outcomes => 3 ≤ k ∧ (n = 0 ∨ n ≤ maxFrameBytes ∧ Delivers n outcomes)
  | _ => False

/-- A call that left nothing of its answer on the wire. -/
def Drained (e : CallEvent δ) : Prop :=
  ∀ response, answer text daemon e.before e.input = some response →
    Drains response.body.length e.input.outcomes

end Session

/-! ## What the reader takes off the wire -/

/-- What `_read_exact` returns is the front of what was unread. -/
theorem readExact_ok {outcomes : List RecvOutcome} :
    ∀ {remaining : Nat} {chunks unread raw rest : List UInt8},
      readExact remaining chunks unread outcomes = (.ok raw, rest) →
        raw = chunks ++ unread.take remaining := by
  induction outcomes with
  | nil =>
      intro remaining chunks unread raw rest read
      by_cases done : remaining = 0
      · simp only [readExact, if_pos done, Prod.mk.injEq, Except.ok.injEq] at read
        rw [done, List.take_zero, List.append_nil]
        exact read.1.symm
      · simp [readExact, done] at read
  | cons outcome outcomes ih =>
      intro remaining chunks unread raw rest read
      by_cases done : remaining = 0
      · simp only [readExact, if_pos done, Prod.mk.injEq, Except.ok.injEq] at read
        rw [done, List.take_zero, List.append_nil]
        exact read.1.symm
      · simp only [readExact, if_neg done] at read
        split at read
        · simp at read
        · simp at read
        · rename_i b chunk unread' delivered
          obtain ⟨rfl, le⟩ := recv_eq delivered
          rw [ih read, List.take_append, List.take_of_length_le le, List.append_assoc]

/-- `recv`s that deliver `n` bytes between them leave nothing of `n`. -/
theorem readExact_drains {outcomes : List RecvOutcome} :
    ∀ {n : Nat} {chunks unread : List UInt8}, unread.length = n → Delivers n outcomes →
      (readExact n chunks unread outcomes).2 = [] := by
  induction outcomes with
  | nil =>
      intro n chunks unread length delivers
      cases n with
      | zero => exact List.length_eq_zero_iff.mp length
      | succ n => exact absurd delivers id
  | cons outcome outcomes ih =>
      intro n chunks unread length delivers
      cases n with
      | zero => exact List.length_eq_zero_iff.mp length
      | succ n =>
          cases outcome with
          | raises => exact absurd delivers id
          | closed => exact absurd delivers id
          | delivers k =>
              obtain ⟨b, rest, rfl⟩ : ∃ b rest, unread = b :: rest :=
                List.exists_cons_of_length_eq_add_one length
              have size : min (k + 1) (n + 1) = min k n + 1 := Nat.succ_min_succ k n
              have chunkLength : (b :: rest.take (min k n)).length = min k n + 1 := by
                rw [List.length_cons, List.length_take]
                simp only [List.length_cons] at length
                omega
              simp only [readExact, recv, List.isEmpty_cons, size, List.take_succ_cons,
                List.drop_succ_cons]
              have remaining : n + 1 - (b :: rest.take (min k n)).length = n - k := by
                rw [chunkLength]
                omega
              rw [if_neg (Nat.succ_ne_zero n)]
              simp only [Bool.false_eq_true, if_false, remaining]
              refine ih ?_ delivers
              rw [List.length_drop]
              simp only [List.length_cons] at length
              omega

/-- With nothing else on the wire, a frame that is read is the frame sent. -/
theorem receiveFrame_ok {f : Frame} {outcomes : List RecvOutcome} {raw rest : List UInt8}
    (received : receiveFrame f.wire outcomes = (.ok raw, rest)) : raw = f.body := by
  cases outcomes with
  | nil => simp [receiveFrame] at received
  | cons outcome outcomes =>
      simp only [receiveFrame] at received
      split at received
      · simp at received
      · rename_i header unread delivered
        by_cases short : header.length ≠ 4
        · rw [if_pos short] at received
          simp at received
        · obtain ⟨whole, _⟩ := recv_eq delivered
          obtain ⟨rfl, rfl⟩ : header = packU32 f.body.length ∧ unread = f.body :=
            List.append_inj whole (not_not.mp short)
          rw [if_neg short, unpackU32_packU32 f.short] at received
          split at received
          · simp at received
          · rw [readExact_ok received, List.nil_append, List.take_length]

/-- A drained response is off the wire. -/
theorem receiveFrame_drains {f : Frame} {outcomes : List RecvOutcome}
    (drains : Drains f.body.length outcomes) : (receiveFrame f.wire outcomes).2 = [] := by
  cases outcomes with
  | nil => exact absurd drains id
  | cons outcome outcomes =>
      cases outcome with
      | raises => exact absurd drains id
      | closed => exact absurd drains id
      | delivers k =>
          obtain ⟨whole, body⟩ := drains
          have header : recv 4 f.wire (.delivers k) = (some (packU32 f.body.length), f.body) := by
            have some_ : f.wire ≠ [] := by
              intro empty
              have := f.length_wire
              rw [empty, List.length_nil] at this
              omega
            rw [recv_delivers some_, Nat.min_eq_right (by omega), f.take_wire, f.drop_wire]
          simp only [receiveFrame, header, length_packU32, ne_eq, not_true_eq_false, if_false,
            unpackU32_packU32 f.short]
          rcases body with empty | ⟨legal, delivers⟩
          · rw [if_pos (Or.inl empty)]
            exact List.length_eq_zero_iff.mp empty
          · split
            · rename_i illegal
              exact List.length_eq_zero_iff.mp (illegal.resolve_right (not_lt.mpr legal))
            · exact readExact_drains rfl delivers

/-! ## Pairing -/

section Pairing

variable {δ : Type} {text : JsonText} {daemon : Machine δ (List UInt8) Frame}

/-- A call reads what was left on the wire, then its own answer. -/
theorem step_of_answer {s : Session δ} {call : Call} {response : Frame}
    (answered : answer text daemon s call = some response) :
    ((session text daemon).step s call).1 =
        (receiveFrame (s.unread ++ response.wire) call.outcomes).1.bind (call.rpc.decode text) ∧
      ((session text daemon).step s call).2.unread =
        (receiveFrame (s.unread ++ response.wire) call.outcomes).2 := by
  unfold answer at answered
  cases sent : Frame.ofBytes? (call.rpc.request text) with
  | none => simp [sent] at answered
  | some request =>
      rw [sent, Option.map_some, Option.some.injEq] at answered
      simp only [session, sent, answered, and_self]

/-- A request that is not sent leaves the session as it was. -/
theorem step_of_no_answer {s : Session δ} {call : Call}
    (unanswered : answer text daemon s call = none) :
    (session text daemon).step s call = (.error .structError, s) := by
  unfold answer at unanswered
  cases sent : Frame.ofBytes? (call.rpc.request text) with
  | none => simp only [session, sent]
  | some request => simp [sent] at unanswered

/-- A call on an empty wire is paired. -/
theorem paired_of_unread_nil {s : Session δ} (empty : s.unread = []) (call : Call) :
    Paired text daemon ((session text daemon).event s call) := by
  intro value returned
  have reply : ((session text daemon).step s call).1 = .ok value := returned
  cases answered : answer text daemon s call with
  | none =>
      rw [step_of_no_answer answered] at reply
      cases reply
  | some response =>
      refine ⟨response, answered, ?_⟩
      rw [(step_of_answer answered).1, empty, List.nil_append] at reply
      cases received : receiveFrame response.wire call.outcomes with
      | mk result rest =>
          rw [received] at reply
          cases result with
          | error e => cases reply
          | ok raw =>
              rw [← receiveFrame_ok received]
              exact reply

/-- A drained call leaves the wire as empty as it found it. -/
theorem step_unread_nil {s : Session δ} (empty : s.unread = []) {call : Call}
    (drained : Drained text daemon ((session text daemon).event s call)) :
    ((session text daemon).step s call).2.unread = [] := by
  cases answered : answer text daemon s call with
  | none =>
      rw [step_of_no_answer answered]
      exact empty
  | some response =>
      rw [(step_of_answer answered).2, empty, List.nil_append]
      exact receiveFrame_drains (drained response answered)

/-- Drained calls keep the wire empty. -/
theorem run_unread_nil {calls : List Call} :
    ∀ {s : Session δ}, s.unread = [] →
      (∀ c ∈ (session text daemon).trace s calls, Drained text daemon c) →
        ((session text daemon).run s calls).unread = [] := by
  induction calls with
  | nil => exact fun empty _ => empty
  | cons call calls ih =>
      intro s empty drained
      obtain ⟨first, rest⟩ := List.forall_mem_cons.mp drained
      exact ih (step_unread_nil empty first) rest

end Pairing

/-- **A value is decoded from the answer to its own call**, as long as every
earlier call of the session drained its answer. -/
theorem paired_of_drained {δ : Type} (text : JsonText) (daemon : Machine δ (List UInt8) Frame)
    (start : δ) (calls : List Call) (earlier later : List (CallEvent δ)) (e : CallEvent δ)
    (split : (session text daemon).trace ⟨start, []⟩ calls = earlier ++ e :: later)
    (drained : ∀ c ∈ earlier, Drained text daemon c) : Paired text daemon e := by
  obtain ⟨before, rest, _, trace, fromHere⟩ := (session text daemon).trace_eq_append split
  obtain ⟨step, _⟩ := (session text daemon).trace_eq_cons fromHere
  rw [← trace] at drained
  rw [step]
  exact paired_of_unread_nil (run_unread_nil rfl drained) e.input

/-! ## Poles: a heartbeat that answers late -/

namespace LateAnswer

def heartbeatRequest : String :=
  "\x7b\"protocol_version\": 1, \"request_id\": \"cortex-0001\", " ++
    "\"opcode\": \"Heartbeat\", \"payload\": \"\x7b\x7d\"\x7d"

def recoverRequest : String :=
  "\x7b\"protocol_version\": 1, \"request_id\": \"cortex-0001\", \"opcode\": \"AttemptRecovery\", " ++
    "\"payload\": \"\x7b\\\"cryptographic_proof_valid\\\": true\x7d\"\x7d"

def heartbeatAnswer : Frame :=
  ⟨encode "\x7b\"alive\":true,\"protocol_version\":1\x7d", by decide +kernel⟩

def recoverAnswer : Frame := ⟨encode "\x7b\"recovery_success\":false\x7d", by decide +kernel⟩

/-- `json` on the texts of this session. -/
def text : JsonText where
  dumps value :=
    match value.get? "opcode" with
    | some (.str "Heartbeat") => heartbeatRequest
    | some (.str "AttemptRecovery") => recoverRequest
    | _ => "\x7b\"cryptographic_proof_valid\": true\x7d"
  loads raw :=
    if raw = heartbeatAnswer.body then
      some (.obj [("alive", .bool true), ("protocol_version", .int 1)])
    else if raw = recoverAnswer.body then some (.obj [("recovery_success", .bool false)])
    else none

/-- The daemon on the requests of this session, in `normal`. -/
def daemon : Machine Unit (List UInt8) Frame where
  step _ request := (if request = encode heartbeatRequest then heartbeatAnswer else recoverAnswer, ())

/-- What the two requests are answered. -/
theorem heartbeat_answer (s : Session Unit) (outcomes : List RecvOutcome) :
    answer text daemon s ⟨.heartbeat, outcomes⟩ = some heartbeatAnswer := by
  have short : (encode heartbeatRequest).length < 2 ^ 32 := by decide +kernel
  have sent : Frame.ofBytes? (Rpc.heartbeat.request text) = some ⟨encode heartbeatRequest, short⟩ :=
    dif_pos short
  simp only [answer, sent, Option.map_some, daemon, if_true]

theorem recover_answer (s : Session Unit) (outcomes : List RecvOutcome) :
    answer text daemon s ⟨.recover true, outcomes⟩ = some recoverAnswer := by
  have short : (encode recoverRequest).length < 2 ^ 32 := by decide +kernel
  have other : encode recoverRequest ≠ encode heartbeatRequest := by decide +kernel
  have sent : Frame.ofBytes? ((Rpc.recover true).request text) = some ⟨encode recoverRequest, short⟩ :=
    dif_pos short
  simp only [answer, sent, Option.map_some, daemon, if_neg other]

/-- A heartbeat that times out, and one that does not. -/
def late : Call := ⟨.heartbeat, [.raises]⟩

def prompt : Call := ⟨.heartbeat, [.delivers 3, .delivers 99]⟩

def recover : Call := ⟨.recover true, [.delivers 3, .delivers 0, .delivers 99]⟩

end LateAnswer

/-- Refuting pole: after a heartbeat whose `recv` timed out, `recover` returns the
heartbeat's answer. -/
theorem late_answer :
    ¬ ∀ (δ : Type) (text : JsonText) (daemon : Machine δ (List UInt8) Frame) (start : δ)
      (calls : List Call), ∀ e ∈ (session text daemon).trace ⟨start, []⟩ calls,
        Paired text daemon e := by
  intro always
  have paired := always Unit LateAnswer.text LateAnswer.daemon ()
    [LateAnswer.late, LateAnswer.recover] _ (List.mem_cons_of_mem _ (List.mem_singleton.mpr rfl))
  -- the heartbeat left its whole answer on the wire
  have unread : ((session LateAnswer.text LateAnswer.daemon).step ⟨(), []⟩
      LateAnswer.late).2.unread = LateAnswer.heartbeatAnswer.wire :=
    (step_of_answer (LateAnswer.heartbeat_answer ⟨(), []⟩ [.raises])).2
  have reply := (step_of_answer (LateAnswer.recover_answer
    ((session LateAnswer.text LateAnswer.daemon).step ⟨(), []⟩ LateAnswer.late).2
    LateAnswer.recover.outcomes)).1
  have received : (receiveFrame (LateAnswer.heartbeatAnswer.wire ++ LateAnswer.recoverAnswer.wire)
      LateAnswer.recover.outcomes).1 = .ok LateAnswer.heartbeatAnswer.body := by decide +kernel
  have alive : LateAnswer.text.loads LateAnswer.heartbeatAnswer.body =
      some (.obj [("alive", .bool true), ("protocol_version", .int 1)]) := if_pos rfl
  have other : LateAnswer.recoverAnswer.body ≠ LateAnswer.heartbeatAnswer.body := by decide +kernel
  have recovery : LateAnswer.text.loads LateAnswer.recoverAnswer.body =
      some (.obj [("recovery_success", .bool false)]) := (if_neg other).trans (if_pos rfl)
  rw [unread, received] at reply
  simp only [Except.bind, Rpc.decode, alive] at reply
  obtain ⟨response, answered, decoded⟩ := paired _ reply
  obtain rfl := Option.some.inj ((LateAnswer.recover_answer _ _).symm.trans answered)
  have own : LateAnswer.recover.rpc.decode LateAnswer.text LateAnswer.recoverAnswer.body =
      .ok (.json (.obj [("recovery_success", .bool false)])) := by
    simp only [Rpc.decode, recovery, LateAnswer.recover]
  have same := own.symm.trans decoded
  simp at same

/-- Satisfiable pole: had the heartbeat been answered in time, `recover` would
return its own answer. -/
theorem prompt_answer :
    Paired LateAnswer.text LateAnswer.daemon
      ((session LateAnswer.text LateAnswer.daemon).event
        ((session LateAnswer.text LateAnswer.daemon).step ⟨(), []⟩ LateAnswer.prompt).2
        LateAnswer.recover) := by
  refine paired_of_drained LateAnswer.text LateAnswer.daemon () [LateAnswer.prompt,
    LateAnswer.recover] [_] [] _ rfl fun c member => ?_
  obtain rfl := List.mem_singleton.mp member
  intro response answered
  have same := (LateAnswer.heartbeat_answer ⟨(), []⟩ LateAnswer.prompt.outcomes).symm.trans answered
  obtain rfl := Option.some.inj same
  have length : LateAnswer.heartbeatAnswer.body.length = 35 := by decide +kernel
  rw [length]
  exact ⟨le_refl 3, Or.inr ⟨by decide, trivial⟩⟩

end ConstitutionIpcClient

end CentaurApex.Cortex
