/-
# Mesh.Inbound -- the frames of a connection

A peer sends raw frames.  `_dispatch` loads each as JSON, answers what is no dict itself, and
gives the rest to the handler of the node.  It catches one exception of the decoder, and none of
the handler: what else is raised ends the connection, with the frames that are still to come.

* **A frame is handled, exactly when** (`handled_iff`) the decoder raises nothing but a
  `JSONDecodeError` on it, and it is no vote request whose proposer is a list or a dict.
* **A connection is read to its end, exactly when** (`serve_ok_iff`) every frame of it is
  handled.

Refuting pole `unhashable_proposer`: a vote request of the proposer `[]`.
-/
import CentaurApex.Mesh.Consensus

namespace CentaurApex.Mesh

open CentaurApex.Theory
open CentaurApex.Theory.Python

set_option autoImplicit false

/-- A frame, as the socket gives it. -/
inductive RawFrame where
  | text (text : List Char)
  | bytes (bytes : List UInt8)

/-- What `json.loads` raises but a `JSONDecodeError`: on bytes that are no Unicode text, on values
that are nested too deep, and on integers of too many digits. -/
inductive LoadsError where
  | unicodeDecodeError
  | recursionError
  | valueError
  deriving DecidableEq

/-- What `json.loads` makes of a frame. -/
inductive Loaded where
  /-- a `JSONDecodeError` -/
  | malformed
  | raises (e : LoadsError)
  | value (message : Json)

/-- What leaves the loop over the frames. -/
inductive InboundError where
  | loads (e : LoadsError)
  | handler (e : PyError)

section Inbound

-- `loads`: `json.loads`; `strOf`: how a value that is no string is formatted by `str(value)`
variable (loads : RawFrame → Loaded) (strOf : Json → String)

/-- The body of the loop of `_dispatch`: the response that is sent, and the node after it. -/
def receive (node : BFTNodeStateSync) (raw : RawFrame) :
    Except InboundError (Option Json × BFTNodeStateSync) :=
  match loads raw with
  | .malformed => .ok (some (voteResponse false (some "malformed")), node)
  | .raises e => .error (.loads e)
  | .value (.obj message) => (createHandler strOf node message).mapError .handler
  | .value _ => .ok (some (voteResponse false (some "malformed")), node)

/-- `_dispatch`: the responses that are sent on a connection, if it comes to its end. -/
def serve : BFTNodeStateSync → List RawFrame → Except InboundError (List Json × BFTNodeStateSync)
  | node, [] => .ok ([], node)
  | node, raw :: frames => do
      let (response, node) ← receive loads strOf node raw
      let (responses, node) ← serve node frames
      return (response.toList ++ responses, node)

/-! ## A frame -/

/-- A list or a dict: no key of a dict. -/
def Unhashable : Json → Prop
  | .arr _ => True
  | .obj _ => True
  | _ => False

/-- The decoder raises nothing that is not caught, and no list or dict is looked up. -/
def Answerable (raw : RawFrame) : Prop :=
  (∀ e, loads raw ≠ .raises e) ∧
    ∀ message, loads raw = .value (.obj message) → get message "op" .null = .str "vote_request" →
      ¬ Unhashable (get message "proposer" .null)

/-- The frame is a commit of a registered peer. -/
def RegisteredCommit (node : BFTNodeStateSync) (raw : RawFrame) : Prop :=
  ∃ message sender key value, loads raw = .value message ∧
    IsCommit strOf message sender key value ∧ node.peers.Contains sender

/-- The frame is handled: what is sent, if anything, is a vote response, and only a commit of a
registered peer changes the node. -/
def Handled (node : BFTNodeStateSync) (raw : RawFrame) : Prop :=
  ∃ response node', receive loads strOf node raw = .ok (response, node') ∧
    (∀ answer, response = some answer → ∃ vote reason, answer = voteResponse vote reason) ∧
    (¬ RegisteredCommit loads strOf node raw → node' = node)

variable {loads strOf} {node : BFTNodeStateSync}

variable (node) in
theorem policyOf_raises_iff {proposer : Json} :
    (∃ e, policyOf node proposer = .error e) ↔ Unhashable proposer := by
  cases proposer <;> simp [policyOf, Unhashable]

/-- What the handler sends. -/
theorem createHandler_response {message : Dict} {response : Option Json}
    {node' : BFTNodeStateSync} {answer : Json}
    (ok : createHandler strOf node message = .ok (response, node'))
    (sent : response = some answer) : ∃ vote reason, answer = voteResponse vote reason := by
  unfold createHandler at ok
  split at ok
  · obtain ⟨policy, -, ok⟩ := bind_ok_iff.mp ok
    split at ok
    · obtain ⟨rfl, -⟩ := Prod.mk.inj (Except.ok.inj ok)
      exact ⟨_, _, (Option.some.inj sent).symm⟩
    · obtain ⟨rfl, -⟩ := Prod.mk.inj (Except.ok.inj ok)
      exact ⟨_, _, (Option.some.inj sent).symm⟩
  · obtain ⟨rfl, -⟩ := Prod.mk.inj (Except.ok.inj ok)
    cases sent
  · obtain ⟨rfl, -⟩ := Prod.mk.inj (Except.ok.inj ok)
    cases sent

variable (strOf node) in
/-- The handler raises on a vote request of a proposer that is no key, and on nothing else. -/
theorem createHandler_ok_iff {message : Dict} :
    (∃ answer, createHandler strOf node message = .ok answer) ↔
      (get message "op" .null = .str "vote_request" →
        ¬ Unhashable (get message "proposer" .null)) := by
  rw [← policyOf_raises_iff node]
  unfold createHandler
  split
  · rename_i op
    simp only [op, true_implies]
    cases policy : policyOf node (get message "proposer" .null) with
    | error e =>
        refine iff_of_false ?_ fun none_ => none_ ⟨e, rfl⟩
        rintro ⟨answer, ok⟩
        cases ok
    | ok found =>
        refine iff_of_true ?_ ?_
        · by_cases faulty : found = some .faulty
          · exact ⟨_, bind_ok_iff.mpr ⟨_, rfl, if_pos faulty⟩⟩
          · exact ⟨_, bind_ok_iff.mpr ⟨_, rfl, if_neg faulty⟩⟩
        · rintro ⟨e, raised⟩
          cases raised
  · rename_i op
    refine iff_of_true ⟨_, rfl⟩ fun request => ?_
    exact absurd (Json.str.inj (op.symm.trans request)) (by decide)
  · rename_i other _
    exact iff_of_true ⟨_, rfl⟩ fun request => absurd request other

/-- A message that is no commit of a registered peer changes nothing. -/
theorem createHandler_unchanged {raw : RawFrame} {message : Dict} {response : Option Json}
    {node' : BFTNodeStateSync} (read : loads raw = .value (.obj message))
    (ok : createHandler strOf node message = .ok (response, node'))
    (other : ¬ RegisteredCommit loads strOf node raw) : node' = node := by
  rcases createHandler_cases ok with same | ⟨sender, key, value, commit, known, -⟩
  · exact same
  · exact absurd ⟨_, sender, key, value, read, commit, known⟩ other

variable (loads strOf) in
/-- A frame raises in the decoder, is a dict, or is answered as malformed. -/
theorem receive_cases (raw : RawFrame) :
    (∃ e, loads raw = .raises e) ∨ (∃ message, loads raw = .value (.obj message)) ∨
      (∀ e, loads raw ≠ .raises e) ∧ (∀ message, loads raw ≠ .value (.obj message)) ∧
        ∀ node, receive loads strOf node raw =
          .ok (some (voteResponse false (some "malformed")), node) := by
  unfold receive
  cases loads raw with
  | malformed => exact .inr (.inr ⟨by simp, by simp, fun _ => rfl⟩)
  | raises e => exact .inl ⟨e, rfl⟩
  | value value =>
      cases value with
      | obj message => exact .inr (.inl ⟨message, rfl⟩)
      | _ => exact .inr (.inr ⟨by simp, by simp, fun _ => rfl⟩)

/-- The loop goes on after a frame, exactly when the decoder raises nothing that is not caught, and
no list or dict is looked up. -/
theorem receive_ok_iff {raw : RawFrame} :
    (∃ answer, receive loads strOf node raw = .ok answer) ↔ Answerable loads raw := by
  rcases receive_cases loads strOf raw with ⟨e, read⟩ | ⟨message, read⟩ | ⟨quiet, list, answered⟩
  · refine iff_of_false ?_ fun answerable => answerable.1 e read
    rintro ⟨answer, ok⟩
    rw [receive, read] at ok
    cases ok
  · have answerable : Answerable loads raw ↔
        ∃ answer, createHandler strOf node message = .ok answer := by
      rw [createHandler_ok_iff, Answerable, read]
      simp
    rw [answerable, receive, read]
    exact exists_congr fun answer => mapError_ok_iff
  · exact iff_of_true ⟨_, answered node⟩ ⟨quiet, fun message value => absurd value (list message)⟩

/-- What is sent after a frame is a vote response, and the node is as before unless it was a commit
of a registered peer. -/
theorem receive_spec {raw : RawFrame} {response : Option Json} {node' : BFTNodeStateSync}
    (ok : receive loads strOf node raw = .ok (response, node')) :
    (∀ answer, response = some answer → ∃ vote reason, answer = voteResponse vote reason) ∧
      (¬ RegisteredCommit loads strOf node raw → node' = node) := by
  rcases receive_cases loads strOf raw with ⟨e, read⟩ | ⟨message, read⟩ | ⟨-, -, answered⟩
  · rw [receive, read] at ok
    cases ok
  · rw [receive, read] at ok
    have handled := mapError_ok_iff.mp ok
    exact ⟨fun answer => createHandler_response handled, createHandler_unchanged read handled⟩
  · rw [answered] at ok
    obtain ⟨rfl, rfl⟩ := Prod.mk.inj (Except.ok.inj ok)
    exact ⟨fun answer sent => ⟨_, _, (Option.some.inj sent).symm⟩, fun _ => rfl⟩

theorem handled_iff {raw : RawFrame} :
    Handled loads strOf node raw ↔ Answerable loads raw := by
  have goes : (∃ answer, receive loads strOf node raw = .ok answer) ↔ Answerable loads raw :=
    receive_ok_iff
  rw [← goes]
  constructor
  · rintro ⟨response, node', ok, -⟩
    exact ⟨_, ok⟩
  · rintro ⟨⟨response, node'⟩, ok⟩
    exact ⟨response, node', ok, receive_spec ok⟩

/-! ## A connection -/

/-- The frames of a connection are all read, exactly when each of them is handled. -/
theorem serve_ok_iff {frames : List RawFrame} :
    (∃ result, serve loads strOf node frames = .ok result) ↔
      ∀ raw ∈ frames, Answerable loads raw := by
  induction frames generalizing node with
  | nil => exact iff_of_true ⟨_, rfl⟩ (by simp)
  | cons raw frames ih =>
      rw [List.forall_mem_cons]
      constructor
      · rintro ⟨result, ok⟩
        obtain ⟨answer, received, ok⟩ := bind_ok_iff.mp ok
        obtain ⟨rest, served, -⟩ := bind_ok_iff.mp ok
        exact ⟨receive_ok_iff.mp ⟨_, received⟩, ih.mp ⟨_, served⟩⟩
      · rintro ⟨first, others⟩
        obtain ⟨answer, received⟩ : ∃ answer, receive loads strOf node raw = .ok answer :=
          receive_ok_iff.mpr first
        obtain ⟨rest, served⟩ := ih.mpr others
        exact ⟨_, bind_ok_iff.mpr ⟨_, received, bind_ok_iff.mpr ⟨_, served, rfl⟩⟩⟩

/-- **The handler is total exactly on** the frames on which the decoder raises nothing that is not
caught, and no list or dict is looked up; and a connection of such frames is read to its end, and
no other. -/
theorem inbound_iff (loads : RawFrame → Loaded) (strOf : Json → String)
    (node : BFTNodeStateSync) :
    (∀ raw, Handled loads strOf node raw ↔ Answerable loads raw) ∧
    ∀ frames, (∃ result, serve loads strOf node frames = .ok result) ↔
      ∀ raw ∈ frames, Answerable loads raw :=
  ⟨fun _ => handled_iff, fun _ => serve_ok_iff⟩

/-- What `json.loads` makes of `{"op": "vote_request", "proposer": []}`. -/
def listProposer (_ : RawFrame) : Loaded :=
  .value (.obj [("op", .str "vote_request"), ("proposer", .arr [])])

/-- Refuting pole: the proposer is a list, and it is looked up. -/
theorem unhashable_proposer :
    ¬ ∀ (loads : RawFrame → Loaded) (strOf : Json → String) (node : BFTNodeStateSync),
      (∀ raw, Handled loads strOf node raw) ∧
        ∀ frames, ∃ result, serve loads strOf node frames = .ok result := by
  intro always
  obtain ⟨response, node', ok, -⟩ :=
    (always listProposer (fun _ => "") (.new "mesh-0" true)).1 (.text [])
  cases ok

end Inbound

end CentaurApex.Mesh
