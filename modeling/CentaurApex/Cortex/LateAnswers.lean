/-
# Cortex.LateAnswers -- how far a session falls behind

A call that raises before it has read its answer leaves the answer on the wire, and
nothing takes it off but a later call, which then leaves its own.  As long as every call
takes a whole answer or nothing (`Clean`), the wire is a queue of answers: the daemon
appends, a call that reads takes the oldest (`Behind`).

`late_answers`: a call returns what is decoded from the answer to the call as many calls
before it as answers have been lost; so the session never catches up, and it reads its
own answer as long as none was lost.
`constitutiond_late_answers` says it of the daemon, whose answers always fit
(`response_fits`).
-/
import CentaurApex.Constitution.ResponseText
import CentaurApex.Cortex.Chunks

namespace CentaurApex.Cortex.ConstitutionIpcClient

open CentaurApex.Theory
open CentaurApex.Theory.Python

set_option autoImplicit false

/-! ## Whole answers, or nothing -/

/-- The first `recv` raises or sees the end of the stream: the answer stays unread. -/
def lost : List RecvOutcome → Bool
  | .delivers _ :: _ => false
  | _ => true

/-- The answer of legal length. -/
def Legal (f : Frame) : Prop := 0 < f.body.length ∧ f.body.length ≤ maxFrameBytes

theorem receiveFrame_lost {outcomes : List RecvOutcome} (none_ : lost outcomes = true)
    (unread : List UInt8) :
    (∀ raw, (receiveFrame unread outcomes).1 ≠ .ok raw) ∧
      (receiveFrame unread outcomes).2 = unread := by
  cases outcomes with
  | nil => exact ⟨by simp [receiveFrame], rfl⟩
  | cons outcome outcomes =>
      cases outcome with
      | raises => exact ⟨by simp [receiveFrame, recv], rfl⟩
      | closed => exact ⟨by simp [receiveFrame, recv], rfl⟩
      | delivers k => cases none_

/-- `recv`s that deliver `n` bytes between them deliver the next `n`. -/
theorem readExact_delivers {outcomes : List RecvOutcome} :
    ∀ {n : Nat} {chunks unread : List UInt8}, n ≤ unread.length → Delivers n outcomes →
      readExact n chunks unread outcomes = (.ok (chunks ++ unread.take n), unread.drop n) := by
  induction outcomes with
  | nil =>
      intro n chunks unread _ delivers
      cases n with
      | zero => rw [readExact_zero, List.take_zero, List.drop_zero, List.append_nil]
      | succ n => exact absurd delivers id
  | cons outcome outcomes ih =>
      intro n chunks unread enough delivers
      cases n with
      | zero => rw [readExact_zero, List.take_zero, List.drop_zero, List.append_nil]
      | succ n =>
          cases outcome with
          | raises => exact absurd delivers id
          | closed => exact absurd delivers id
          | delivers k =>
              obtain ⟨b, rest, rfl⟩ : ∃ b rest, unread = b :: rest :=
                List.exists_cons_of_length_pos (by omega)
              have size : min (k + 1) (n + 1) = min k n + 1 := Nat.succ_min_succ _ _
              have there : min k n ≤ rest.length := by
                rw [List.length_cons] at enough
                omega
              have length : (b :: rest.take (min k n)).length = min k n + 1 := by
                rw [List.length_cons, List.length_take, Nat.min_eq_left there]
              have left : n + 1 - (min k n + 1) = n - k := by omega
              rw [readExact, if_neg (Nat.succ_ne_zero n),
                recv_delivers (List.cons_ne_nil b rest), size, List.take_succ_cons,
                List.drop_succ_cons]
              simp only [length, left]
              rw [ih (by rw [List.length_drop, List.length_cons] at *; omega) delivers,
                List.drop_drop, List.append_assoc, List.cons_append]
              by_cases all : k ≤ n
              · rw [Nat.min_eq_left all, ← List.take_add, Nat.add_sub_cancel' all,
                  List.take_succ_cons, List.drop_succ_cons]
              · have nothing : n - k = 0 := by omega
                rw [Nat.min_eq_right (by omega), nothing, List.take_zero, List.append_nil,
                  Nat.add_zero, List.take_succ_cons, List.drop_succ_cons]

/-- A call that drains takes the oldest answer, and leaves the others. -/
theorem receiveFrame_front {f : Frame} (legal : Legal f) {outcomes : List RecvOutcome}
    (drains : Drains f.body.length outcomes) (rest : List UInt8) :
    receiveFrame (f.wire ++ rest) outcomes = (.ok f.body, rest) := by
  cases outcomes with
  | nil => exact absurd drains id
  | cons outcome outcomes =>
      cases outcome with
      | raises => exact absurd drains id
      | closed => exact absurd drains id
      | delivers k =>
          obtain ⟨whole, body⟩ := drains
          obtain ⟨positive, bounded⟩ := legal
          have delivers := (body.resolve_left (by omega)).2
          have some_ : f.wire ++ rest ≠ [] := by
            rw [Frame.wire, packU32]
            exact List.cons_ne_nil _ _
          have header : (f.wire ++ rest).take 4 = packU32 f.body.length := by
            rw [Frame.wire, List.append_assoc]
            exact List.take_left' (length_packU32 _)
          have behind : (f.wire ++ rest).drop 4 = f.body ++ rest := by
            rw [Frame.wire, List.append_assoc]
            exact List.drop_left' (length_packU32 _)
          simp only [receiveFrame, recv_delivers some_, Nat.min_eq_right (show 4 ≤ k + 1 by omega),
            header, behind, length_packU32, ne_eq, not_true_eq_false, if_false,
            unpackU32_packU32 f.short]
          rw [if_neg (by omega), readExact_delivers (by rw [List.length_append]; omega) delivers,
            List.nil_append, List.take_left, List.drop_left]

/-! ## The queue of answers -/

section Session

variable {δ : Type} (text : JsonText) (daemon : Machine δ (List UInt8) Frame)

/-- The daemon's answers fit a frame. -/
def Answers : Prop := ∀ s request, Legal (daemon.step s request).1

/-- A call takes the oldest unread answer whole, or nothing. -/
def Clean (e : CallEvent δ) : Prop :=
  ∀ own, answer text daemon e.before e.input = some own →
    lost e.input.outcomes = true ∨ Drains (announced (e.before.unread ++ own.wire)) e.input.outcomes

/-- The answers to the calls of a run, in order. -/
def answersOf (past : List (CallEvent δ)) : List Frame :=
  past.filterMap fun e => answer text daemon e.before e.input

/-- The answers that nobody has read: one for each call that was answered and took
nothing off the wire. -/
def lostOf (past : List (CallEvent δ)) : ℕ :=
  past.countP fun e => (answer text daemon e.before e.input).isSome && lost e.input.outcomes

/-- After some calls, the wire holds the last answers: as many as were lost. -/
structure Behind (past : List (CallEvent δ)) (s : Session δ) : Prop where
  few : lostOf text daemon past ≤ (answersOf text daemon past).length
  legal : ∀ f ∈ answersOf text daemon past, Legal f
  unread : s.unread = ((answersOf text daemon past).drop
    ((answersOf text daemon past).length - lostOf text daemon past)).flatMap Frame.wire

theorem answersOf_concat (past : List (CallEvent δ)) (e : CallEvent δ) :
    answersOf text daemon (past ++ [e]) =
      answersOf text daemon past ++ (answer text daemon e.before e.input).toList := by
  simp only [answersOf, List.filterMap_append, List.filterMap_cons, List.filterMap_nil]
  cases answer text daemon e.before e.input <;> rfl

theorem lostOf_concat (past : List (CallEvent δ)) (e : CallEvent δ) :
    lostOf text daemon (past ++ [e]) = lostOf text daemon past +
      if (answer text daemon e.before e.input).isSome && lost e.input.outcomes then 1 else 0 := by
  rw [lostOf, List.countP_append, List.countP_singleton]
  rfl

end Session

section Late

variable {δ : Type} {text : JsonText} {daemon : Machine δ (List UInt8) Frame}

theorem announced_wire (f : Frame) (rest : List UInt8) :
    announced (f.wire ++ rest) = f.body.length := by
  have header : (f.wire ++ rest).take 4 = packU32 f.body.length := by
    rw [Frame.wire, List.append_assoc]
    exact List.take_left' (length_packU32 _)
  rw [announced, header, unpackU32_packU32 f.short]

/-- What the next call finds on the wire: the answers lost so far, and its own. -/
theorem Behind.wire {past : List (CallEvent δ)} {s : Session δ}
    (behind : Behind text daemon past s) (own : Frame) :
    s.unread ++ own.wire = ((answersOf text daemon past ++ [own]).drop
      ((answersOf text daemon past).length - lostOf text daemon past)).flatMap Frame.wire := by
  rw [behind.unread, List.drop_append_of_le_length (by omega), List.flatMap_append,
    List.flatMap_singleton]

/-- The oldest answer on the wire. -/
theorem Behind.oldest {past : List (CallEvent δ)} {s : Session δ}
    (behind : Behind text daemon past s) (own : Frame) :
    ∃ f, (answersOf text daemon past ++ [own])[
        (answersOf text daemon past).length - lostOf text daemon past]? = some f ∧
      s.unread ++ own.wire = f.wire ++ ((answersOf text daemon past ++ [own]).drop
        ((answersOf text daemon past).length - lostOf text daemon past + 1)).flatMap Frame.wire := by
  have inside : (answersOf text daemon past).length - lostOf text daemon past <
      (answersOf text daemon past ++ [own]).length := by
    rw [List.length_append, List.length_singleton]
    omega
  refine ⟨_, List.getElem?_eq_getElem inside, ?_⟩
  rw [behind.wire own, List.drop_eq_getElem_cons inside, List.flatMap_cons]

section Step

variable (legal : Answers daemon) {past : List (CallEvent δ)} {s : Session δ} {call : Call}
  (behind : Behind text daemon past s)
include legal behind

theorem answers_legal {own : Frame} (answered : answer text daemon s call = some own) :
    ∀ f ∈ answersOf text daemon past ++ [own], Legal f := by
  intro f member
  rcases List.mem_append.mp member with before | here
  · exact behind.legal f before
  · obtain rfl := List.mem_singleton.mp here
    unfold answer at answered
    obtain ⟨request, _, rfl⟩ := Option.map_eq_some_iff.mp answered
    exact legal s.daemon request.body

/-- **A call that reads takes the oldest answer**, and leaves the others. -/
theorem reads_oldest {own : Frame} (answered : answer text daemon s call = some own)
    (reads : Drains (announced (s.unread ++ own.wire)) call.outcomes) :
    ∃ f, (answersOf text daemon past ++ [own])[
        (answersOf text daemon past).length - lostOf text daemon past]? = some f ∧
      ((session text daemon).step s call).1 = call.rpc.decode text f.body ∧
      ((session text daemon).step s call).2.unread =
        ((answersOf text daemon past ++ [own]).drop
          ((answersOf text daemon past).length - lostOf text daemon past + 1)).flatMap Frame.wire := by
  obtain ⟨f, oldest, wire⟩ := behind.oldest own
  obtain ⟨reply, unread⟩ := step_of_answer answered
  have whole : Legal f :=
    answers_legal legal behind answered f (List.mem_of_getElem? oldest)
  rw [wire, announced_wire] at reads
  rw [wire, receiveFrame_front whole reads] at reply unread
  exact ⟨f, oldest, reply, unread⟩

/-- **A clean call keeps the wire a queue of the last answers.** -/
theorem behind_step (clean : Clean text daemon ((session text daemon).event s call)) :
    Behind text daemon (past ++ [(session text daemon).event s call])
      ((session text daemon).step s call).2 := by
  cases answered : answer text daemon s call with
  | none =>
      have history := answersOf_concat text daemon past ((session text daemon).event s call)
      have count := lostOf_concat text daemon past ((session text daemon).event s call)
      simp only [Machine.event, answered, Option.toList_none, List.append_nil, Option.isSome_none,
        Bool.false_and, Bool.false_eq_true, if_false, Nat.add_zero] at history count
      obtain ⟨few, legal, unread⟩ := behind
      rw [step_of_no_answer answered]
      exact ⟨by rw [Machine.event, history, count]; exact few,
        by rw [Machine.event, history]; exact legal,
        by rw [Machine.event, history, count]; exact unread⟩
  | some own =>
      have history := answersOf_concat text daemon past ((session text daemon).event s call)
      have count := lostOf_concat text daemon past ((session text daemon).event s call)
      simp only [Machine.event, answered, Option.toList_some, Option.isSome_some, Bool.true_and]
        at history count
      have few := behind.few
      have all := answers_legal legal behind answered
      have length : (answersOf text daemon past ++ [own]).length =
          (answersOf text daemon past).length + 1 := List.length_append
      cases none_ : lost call.outcomes with
      | true =>
          rw [none_, if_pos rfl] at count
          refine ⟨?_, ?_, ?_⟩
          · rw [Machine.event, history, count, length]
            omega
          · rw [Machine.event, history]
            exact all
          · rw [(step_of_answer answered).2, (receiveFrame_lost none_ _).2, behind.wire own,
              Machine.event, history, count, length, Nat.add_sub_add_right]
      | false =>
          rw [none_, if_neg Bool.false_ne_true, Nat.add_zero] at count
          have reads := (clean own answered).resolve_left (by simp [Machine.event, none_])
          obtain ⟨f, _, _, unread⟩ := reads_oldest legal behind answered reads
          refine ⟨?_, ?_, ?_⟩
          · rw [Machine.event, history, count, length]
            omega
          · rw [Machine.event, history]
            exact all
          · rw [unread, Machine.event, history, count, length,
              Nat.sub_add_comm few]

end Step

/-- **A session stays behind**: a call that reads returns what is decoded from the answer
to the call as many answered calls before it as answers have been lost. -/
theorem late_answers (legal : Answers daemon) (start : δ) {calls : List Call}
    (clean : ∀ e ∈ (session text daemon).trace ⟨start, []⟩ calls, Clean text daemon e)
    {past later : List (CallEvent δ)} {e : CallEvent δ}
    (split : (session text daemon).trace ⟨start, []⟩ calls = past ++ e :: later) {own : Frame}
    (answered : answer text daemon e.before e.input = some own) :
    (lost e.input.outcomes = true → ∀ value, e.reply ≠ .ok value) ∧
      (lost e.input.outcomes = false → ∃ f, (answersOf text daemon past ++ [own])[
          (answersOf text daemon past).length - lostOf text daemon past]? = some f ∧
        e.reply = e.input.rpc.decode text f.body) := by
  obtain ⟨behind, step⟩ := (session text daemon).history_split
    (P := fun past s => (∀ e ∈ past, Clean text daemon e) → Behind text daemon past s)
    (fun past s call behind clean => by
      obtain ⟨before, here⟩ := List.forall_mem_append.mp clean
      exact behind_step legal (behind before) (here _ (List.mem_singleton.mpr rfl)))
    (fun _ => ⟨le_refl 0, by simp [answersOf], rfl⟩) split
  rw [split] at clean
  have here := clean e (List.mem_append_right _ List.mem_cons_self)
  have behind := behind fun e member => clean e (List.mem_append_left _ member)
  have reply : e.reply = ((session text daemon).step e.before e.input).1 :=
    congrArg Event.reply step
  constructor
  · intro none_ value returned
    rw [reply, (step_of_answer answered).1] at returned
    cases received : (receiveFrame (e.before.unread ++ own.wire) e.input.outcomes).1 with
    | error raised =>
        rw [received] at returned
        cases returned
    | ok raw => exact (receiveFrame_lost none_ _).1 raw received
  · intro reads
    have drains := (here own answered).resolve_left (by simp [reads])
    obtain ⟨f, oldest, read, _⟩ := reads_oldest legal behind answered drains
    exact ⟨f, oldest, reply.trans read⟩

end Late

/-! ## The daemon -/

section Constitutiond

open CentaurApex.Constitution (F64 Codec IpcServer RiskParameters responseBytes response_fits)

/-- `constitutiond` behind one connection: what it writes for a frame, as a frame. -/
def constitutiond (codec : Codec) (number : F64 → List UInt8)
    (width : ∀ x : F64, x.IsFinite → (number x).length ≤ 24) :
    Machine IpcServer (List UInt8) Frame where
  step server frame :=
    (⟨responseBytes number (server.handleFrame codec frame).1,
        (response_fits codec number width server frame).2.trans_lt (by decide)⟩,
      (server.handleFrame codec frame).2)

variable (codec : Codec) (number : F64 → List UInt8)
  (width : ∀ x : F64, x.IsFinite → (number x).length ≤ 24)

theorem constitutiond_answers : Answers (constitutiond codec number width) :=
  fun server frame => response_fits codec number width server frame

/-- **Over `constitutiond`**, whatever state its kernel is in and whatever is asked: a
call that reads an answer returns the answer to the call `lostOf past` answered calls
before it; one that does not, raises. -/
theorem constitutiond_late_answers (text : JsonText) (start : IpcServer) (calls : List Call)
    (clean : ∀ e ∈ (session text (constitutiond codec number width)).trace ⟨start, []⟩ calls,
      Clean text (constitutiond codec number width) e)
    (past later : List (CallEvent IpcServer)) (e : CallEvent IpcServer)
    (split : (session text (constitutiond codec number width)).trace ⟨start, []⟩ calls =
      past ++ e :: later)
    (own : Frame) (answered : answer text (constitutiond codec number width) e.before e.input =
      some own) :
    let answers := answersOf text (constitutiond codec number width) past ++ [own]
    let behind := lostOf text (constitutiond codec number width) past
    (lost e.input.outcomes = true → ∀ value, e.reply ≠ .ok value) ∧
      (lost e.input.outcomes = false → ∃ f, answers[answers.length - 1 - behind]? = some f ∧
        e.reply = e.input.rpc.decode text f.body) := by
  obtain ⟨raises, reads⟩ :=
    late_answers (constitutiond_answers codec number width) start clean split answered
  refine ⟨raises, fun none_ => ?_⟩
  rw [List.length_append, List.length_singleton, Nat.add_sub_cancel]
  exact reads none_

end Constitutiond

/-! ## Poles: a status request that times out, and a heartbeat -/

namespace TimedOut

open CentaurApex.Constitution (Codec IpcServer IpcResponse answerJson handleFrame_of_envelope
  responseBytes)

/-- An envelope with an empty payload, as `json.dumps` writes it. -/
def envelopeText (opcode : String) : String :=
  "\x7b\"protocol_version\": 1, \"request_id\": \"cortex-0001\", \"opcode\": \"" ++ opcode ++
    "\", \"payload\": \"\x7b\x7d\"\x7d"

/-- `serde_json`, as far as it reads the two requests. -/
def codec : Codec where
  envelope frame :=
    if frame = encode (envelopeText "GetStatus") then
      some ⟨1, "cortex-0001", .getStatus, "\x7b\x7d"⟩
    else if frame = encode (envelopeText "Heartbeat") then
      some ⟨1, "cortex-0001", .heartbeat, "\x7b\x7d"⟩
    else none
  evaluateProposal _ := none
  attemptRecovery _ := none

def daemon : Machine IpcServer (List UInt8) Frame := constitutiond codec (fun _ => []) (by simp)

def server : IpcServer := .new (.new .default)

/-- What a new server says of itself. -/
def statusResponse : IpcResponse :=
  .status ⟨"Normal", ⟨0, by decide⟩, ⟨0, by decide⟩, ⟨0, by decide⟩, []⟩

def heartbeatResponse : IpcResponse := .heartbeat ⟨true, 1⟩

/-- `json`, as far as it writes the two requests and reads the two responses. -/
def text : JsonText where
  dumps value :=
    match value with
    | .obj [_, _, (_, .str opcode), _] => envelopeText opcode
    | _ => ""
  loads raw :=
    if raw = responseBytes (fun _ => []) (.ok statusResponse) then
      some (answerJson (.ok statusResponse))
    else if raw = responseBytes (fun _ => []) (.ok heartbeatResponse) then
      some (answerJson (.ok heartbeatResponse))
    else none

def status : Frame := ⟨responseBytes (fun _ => []) (.ok statusResponse), by decide +kernel⟩

def alive : Frame := ⟨responseBytes (fun _ => []) (.ok heartbeatResponse), by decide +kernel⟩

def timedOut : Call := ⟨.status, [.raises]⟩

def onTime : Call := ⟨.heartbeat, [.delivers 3, .delivers 199]⟩

theorem status_step : daemon.step server (Rpc.status.request text) = (status, server) := by
  have read : codec.envelope (Rpc.status.request text) =
      some ⟨1, "cortex-0001", .getStatus, "\x7b\x7d"⟩ := by decide +kernel
  have handled : server.handleFrame codec (Rpc.status.request text) = server.dispatch codec _ :=
    handleFrame_of_envelope (by decide +kernel) read rfl
  simp only [daemon, constitutiond, handled]
  rfl

theorem heartbeat_step : daemon.step server (Rpc.heartbeat.request text) = (alive, server) := by
  have read : codec.envelope (Rpc.heartbeat.request text) =
      some ⟨1, "cortex-0001", .heartbeat, "\x7b\x7d"⟩ := by decide +kernel
  have handled : server.handleFrame codec (Rpc.heartbeat.request text) =
      server.dispatch codec _ :=
    handleFrame_of_envelope (by decide +kernel) read rfl
  simp only [daemon, constitutiond, handled]
  rfl

theorem loads_status : text.loads status.body = some (answerJson (.ok statusResponse)) := by
  simp only [text, status, if_pos]

/-- The first of the two calls, as it happened. -/
def first : CallEvent IpcServer := (session text daemon).event ⟨server, []⟩ timedOut

theorem answer_status (unread : List UInt8) (outcomes : List RecvOutcome) :
    answer text daemon ⟨server, unread⟩ ⟨.status, outcomes⟩ = some status := by
  have sent : Frame.ofBytes? (Rpc.status.request text) =
      some ⟨Rpc.status.request text, by decide +kernel⟩ := dif_pos _
  rw [answer, sent, Option.map_some, status_step]

theorem answer_heartbeat (unread : List UInt8) (outcomes : List RecvOutcome) :
    answer text daemon ⟨server, unread⟩ ⟨.heartbeat, outcomes⟩ = some alive := by
  have sent : Frame.ofBytes? (Rpc.heartbeat.request text) =
      some ⟨Rpc.heartbeat.request text, by decide +kernel⟩ := dif_pos _
  rw [answer, sent, Option.map_some, heartbeat_step]

/-- The status is left on the wire. -/
theorem first_after : ((session text daemon).step ⟨server, []⟩ timedOut).2 =
    ⟨server, status.wire⟩ := by
  have sent : Frame.ofBytes? (Rpc.status.request text) =
      some ⟨Rpc.status.request text, by decide +kernel⟩ := dif_pos _
  simp only [session, timedOut, sent, status_step]
  rfl

/-- Each of the two calls takes nothing, or the oldest answer. -/
theorem session_clean :
    ∀ e ∈ (session text daemon).trace ⟨server, []⟩ [timedOut, onTime], Clean text daemon e := by
  intro e member own own_
  rcases List.mem_cons.mp member with rfl | second
  · exact .inl rfl
  · obtain rfl := List.mem_singleton.mp second
    right
    have length : status.body.length = 95 := by decide +kernel
    show Drains (announced (((session text daemon).step ⟨server, []⟩ timedOut).2.unread ++
      own.wire)) onTime.outcomes
    rw [first_after, announced_wire, length]
    exact ⟨le_refl 3, Or.inr ⟨by decide, trivial⟩⟩

theorem first_answered : answersOf text daemon [first] = [status] := by
  simp only [answersOf, first, Machine.event, timedOut, answer_status, List.filterMap_cons,
    List.filterMap_nil]

theorem first_lost : lostOf text daemon [first] = 1 := by
  rw [lostOf, List.countP_singleton]
  simp only [first, Machine.event, timedOut, answer_status, lost, Option.isSome_some,
    Bool.and_self, if_true]

end TimedOut

/-- Satisfiable pole: the heartbeat that is answered in time returns the status that the call
before it has asked for, and not its own answer. -/
theorem heartbeat_returns_status :
    ∃ e, (session TimedOut.text TimedOut.daemon).trace ⟨TimedOut.server, []⟩
        [TimedOut.timedOut, TimedOut.onTime] = [TimedOut.first, e] ∧
      e.reply = .ok (.json (Constitution.answerJson (.ok TimedOut.statusResponse))) ∧
      TimedOut.status.body ≠ TimedOut.alive.body := by
  have after := TimedOut.first_after
  obtain ⟨f, oldest, reply⟩ := (constitutiond_late_answers TimedOut.codec (fun _ => []) (by simp)
    TimedOut.text TimedOut.server [TimedOut.timedOut, TimedOut.onTime] TimedOut.session_clean
    [TimedOut.first] [] _ rfl TimedOut.alive (by
      show answer _ _ ((session TimedOut.text TimedOut.daemon).step _ _).2 _ = _
      rw [after]
      exact TimedOut.answer_heartbeat _ _)).2 rfl
  refine ⟨_, rfl, ?_, by decide +kernel⟩
  change (answersOf TimedOut.text TimedOut.daemon [TimedOut.first] ++ [TimedOut.alive])[
    (answersOf TimedOut.text TimedOut.daemon [TimedOut.first] ++ [TimedOut.alive]).length - 1 -
      lostOf TimedOut.text TimedOut.daemon [TimedOut.first]]? = some f at oldest
  rw [TimedOut.first_lost, TimedOut.first_answered] at oldest
  obtain rfl : TimedOut.status = f := Option.some.inj oldest
  refine reply.trans ?_
  show Rpc.heartbeat.decode TimedOut.text TimedOut.status.body = _
  rw [Rpc.decode, TimedOut.loads_status]

end CentaurApex.Cortex.ConstitutionIpcClient
