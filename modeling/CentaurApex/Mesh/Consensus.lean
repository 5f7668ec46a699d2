/-
# Mesh.Consensus -- one node of the state sync

A node keeps a ledger and the peers it knows.  It proposes an update by asking its
peers for votes, one after the other, and commits it where the votes reach a quorum
of the nodes; a commit is broadcast, and a peer that receives one applies it if it
knows the sender's name (`applyCommit`).  `createHandler` answers what arrives.

A proposal is a coroutine: it is suspended at every await.  `Round` is what it holds
meanwhile, `Round.advance` runs it to its next await and says what it sends, and
`Round.answered` resumes it with the response of the peer it waits for.
-/
import CentaurApex.Theory.Json
import CentaurApex.Theory.PyDict

namespace CentaurApex.Mesh

open CentaurApex.Theory
open CentaurApex.Theory.Python

set_option autoImplicit false

inductive Policy where
  | honest
  | faulty
  | other (text : String)
  deriving DecidableEq, Repr

structure BFTNodeStateSync where
  nodeId : String
  /-- A transport is attached. -/
  attached : Bool
  peers : PyDict String (Option String)
  policies : PyDict String Policy
  stateLedger : PyDict String String
  commitCount : Nat
  rejectedCount : Nat
  byzantineCount : Nat
  deriving DecidableEq

/-! ## Wire -/

def voteRequestPayload (nodeId key value : String) : Json :=
  .obj [("op", .str "vote_request"), ("proposer", .str nodeId), ("key", .str key),
    ("value", .str value), ("protocol_version", .int 1)]

def commitPayload (nodeId key value : String) : Json :=
  .obj [("op", .str "commit"), ("sender", .str nodeId), ("key", .str key),
    ("value", .str value), ("protocol_version", .int 1)]

def voteResponse (vote : Bool) (reason : Option String) : Json :=
  .obj ([("op", .str "vote_response"), ("vote", .bool vote)] ++
    (reason.map fun text => ("reason", Json.str text)).toList)

/-- The response is a dict, and its vote is `True`. -/
def grants : Json → Bool
  | .obj fields =>
      match fields.lookup "vote" with
      | some (.bool vote) => vote
      | _ => false
  | _ => false

namespace BFTNodeStateSync

def new (nodeId : String) (attached : Bool) : BFTNodeStateSync :=
  ⟨nodeId, attached, .empty, .empty, .empty, 0, 0, 0⟩

variable (node : BFTNodeStateSync)

/-- What a running node was set up with. -/
def roster : String × Bool × PyDict String (Option String) :=
  (node.nodeId, node.attached, node.peers)

def registerPeer (peerNodeId : String) (wsUri : Option String) : BFTNodeStateSync :=
  if node.peers.Contains peerNodeId then
    match wsUri with
    | some _ => { node with peers := node.peers.setItem peerNodeId wsUri }
    | none => node
  else
    { node with
      peers := node.peers.setItem peerNodeId wsUri
      policies := node.policies.setItem peerNodeId .honest }

def setPeerPolicy (peerNodeId : String) (policy : Policy) : Except PyError BFTNodeStateSync :=
  if node.peers.Contains peerNodeId then
    .ok { node with policies := node.policies.setItem peerNodeId policy }
  else .error (.keyError ("peer " ++ peerNodeId ++ " is not registered"))

def quorumFor : Nat := (node.peers.items.length + 1) / 2 + 1

/-- The update enters the ledger. -/
def commit (key value : String) : BFTNodeStateSync :=
  { node with
    stateLedger := node.stateLedger.setItem key value
    commitCount := node.commitCount + 1 }

def applyCommit (key value sender : String) : BFTNodeStateSync :=
  if node.peers.Contains sender then node.commit key value else node

end BFTNodeStateSync

/-! ## The handler -/

section Handler

-- `strOf`: how a value that is no string is formatted by `str(value)`
variable (strOf : Json → String) (consensus : BFTNodeStateSync)

def pyStr : Json → String
  | .str s => s
  | value => strOf value

/-- `consensus._policies.get(value)`: a list or a dict is no key. -/
def policyOf : Json → Except PyError (Option Policy)
  | .str s => .ok (consensus.policies.get? s)
  | .arr _ | .obj _ => .error .typeError
  | _ => .ok none

def createHandler (message : Dict) : Except PyError (Option Json × BFTNodeStateSync) :=
  match get message "op" .null with
  | .str "vote_request" => do
      let policy ← policyOf consensus (get message "proposer" .null)
      if policy = some .faulty then
        return (some (voteResponse false (some "node policy: faulty")), consensus)
      return (some (voteResponse true none), consensus)
  | .str "commit" =>
      .ok (none, consensus.applyCommit (pyStr strOf (get message "key" (.str "")))
        (pyStr strOf (get message "value" (.str ""))) (pyStr strOf (get message "sender" (.str ""))))
  | _ => .ok (none, consensus)

/-- One message of a connection; an exception of the handler closes it. -/
def dispatch : Json → Option Json × BFTNodeStateSync
  | .obj message =>
      match createHandler strOf consensus message with
      | .ok answer => answer
      | .error _ => (none, consensus)
  | _ => (some (voteResponse false (some "malformed")), consensus)

end Handler

section HandlerFacts

variable {strOf : Json → String} {consensus : BFTNodeStateSync}

/-- The message is read as a commit of `key` and `value` by `sender`. -/
def IsCommit (strOf : Json → String) (message : Json) (sender key value : String) : Prop :=
  ∃ fields, message = .obj fields ∧ get fields "op" .null = .str "commit" ∧
    pyStr strOf (get fields "key" (.str "")) = key ∧
    pyStr strOf (get fields "value" (.str "")) = value ∧
    pyStr strOf (get fields "sender" (.str "")) = sender

theorem isCommit_commitPayload (nodeId key value : String) :
    IsCommit strOf (commitPayload nodeId key value) nodeId key value :=
  ⟨_, rfl, rfl, rfl, rfl, rfl⟩

/-- What a node's own commit is read as. -/
theorem IsCommit.payload {nodeId key value sender key' value' : String}
    (commit : IsCommit strOf (commitPayload nodeId key value) sender key' value') :
    key' = key ∧ value' = value := by
  obtain ⟨fields, same, -, rfl, rfl, -⟩ := commit
  obtain rfl := Json.obj.inj same
  exact ⟨rfl, rfl⟩

theorem createHandler_cases {message : Dict} {answer : Option Json × BFTNodeStateSync}
    (ok : createHandler strOf consensus message = .ok answer) :
    answer.2 = consensus ∨
      ∃ sender key value, IsCommit strOf (.obj message) sender key value ∧
        consensus.peers.Contains sender ∧ answer.2 = consensus.commit key value := by
  unfold createHandler at ok
  split at ok
  · cases policy : policyOf consensus (get message "proposer" .null) with
    | error e =>
        rw [policy] at ok
        cases ok
    | ok policy' =>
        rw [policy] at ok
        by_cases faulty : policy' = some .faulty
        · simp only [bind, Except.bind, pure, Except.pure, if_pos faulty, Except.ok.injEq] at ok
          exact .inl (congrArg Prod.snd ok.symm)
        · simp only [bind, Except.bind, pure, Except.pure, if_neg faulty, Except.ok.injEq] at ok
          exact .inl (congrArg Prod.snd ok.symm)
  · rename_i op
    obtain rfl := Except.ok.inj ok
    by_cases known : consensus.peers.Contains (pyStr strOf (get message "sender" (.str "")))
    · exact .inr ⟨_, _, _, ⟨message, rfl, op, rfl, rfl, rfl⟩, known, if_pos known⟩
    · exact .inl (if_neg known)
  · exact .inl (congrArg Prod.snd (Except.ok.inj ok).symm)

/-- A message is a commit, from whomever it claims, of what it says -- or it changes nothing. -/
theorem dispatch_cases (strOf : Json → String) (consensus : BFTNodeStateSync) (message : Json) :
    (dispatch strOf consensus message).2 = consensus ∨
      ∃ sender key value, IsCommit strOf message sender key value ∧
        consensus.peers.Contains sender ∧
        (dispatch strOf consensus message).2 = consensus.commit key value := by
  cases message with
  | obj fields =>
      cases handled : createHandler strOf consensus fields with
      | error e =>
          left
          simp only [dispatch, handled]
      | ok answer =>
          simp only [dispatch, handled]
          exact createHandler_cases handled
  | _ => exact .inl rfl

/-- A commit of a known sender is applied. -/
theorem dispatch_commit {message : Json} {sender key value : String}
    (commit : IsCommit strOf message sender key value) (known : consensus.peers.Contains sender) :
    dispatch strOf consensus message = (none, consensus.commit key value) := by
  obtain ⟨fields, rfl, op, rfl, rfl, rfl⟩ := commit
  simp only [dispatch, createHandler, op, BFTNodeStateSync.applyCommit, if_pos known]

/-- A vote request is answered, and changes nothing. -/
theorem dispatch_voteRequest (nodeId key value : String) :
    (dispatch strOf consensus (voteRequestPayload nodeId key value)).2 = consensus := by
  rcases dispatch_cases strOf consensus (voteRequestPayload nodeId key value) with same | ⟨_, _, _, ⟨_, fields, op, _⟩, _⟩
  · exact same
  · obtain rfl := Json.obj.inj fields
    exact absurd (Json.str.inj op) (by decide)

end HandlerFacts

/-! ## Rounds -/

/-- `uri`, if it is true. -/
def liveUri : Option String → Option String
  | some "" => none
  | uri => uri

theorem liveUri_of_ne {uri : String} (live : uri ≠ "") : liveUri (some uri) = some uri := by
  unfold liveUri
  split
  · rename_i empty
    exact absurd (Option.some.inj empty) live
  · rfl

theorem eq_some_of_liveUri {entry : Option String} {uri : String}
    (live : liveUri entry = some uri) : entry = some uri := by
  unfold liveUri at live
  split at live
  · cases live
  · exact live

theorem ne_of_liveUri {uri : String} (live : liveUri (some uri) = some uri) : uri ≠ "" := by
  rintro rfl
  cases live

/-- Where a proposal is suspended. -/
inductive Phase where
  | asking (rest : List (String × Option String))
  | waiting (peer uri : String) (rest : List (String × Option String))
  | sending (uris : List (Option String))
  | finished (committed : Bool)
  deriving DecidableEq

/-- The peers not yet heard. -/
def Phase.ballots : Phase → List (String × Option String)
  | .asking rest => rest
  | .waiting peer uri rest => (peer, some uri) :: rest
  | _ => []

/-- The peers a commit is still to be sent to. -/
def Phase.uris : Phase → List String
  | .sending uris => uris.filterMap liveUri
  | _ => []

/-- What a proposal sends at an await. -/
inductive Outgoing where
  | requestVote (peer uri : String) (payload : Json)
  | sendMessage (uri : String) (payload : Json)

structure Round where
  key : String
  value : String
  /-- The peers whose votes were counted. -/
  granted : List String
  phase : Phase
  deriving DecidableEq

namespace Round

def votes (round : Round) : Nat := 1 + round.granted.length

/-- `_propose_state_update` up to its first await. -/
def start (node : BFTNodeStateSync) (key value : String) : BFTNodeStateSync × Round :=
  if node.attached then (node, ⟨key, value, [], .asking node.peers.items⟩)
  else if 1 + node.peers.items.length ≥ node.quorumFor then
    (node.commit key value, ⟨key, value, [], .finished true⟩)
  else
    ({ node with rejectedCount := node.rejectedCount + 1 }, ⟨key, value, [], .finished false⟩)

theorem start_attached {node : BFTNodeStateSync} (attached : node.attached = true)
    (key value : String) : start node key value = (node, ⟨key, value, [], .asking node.peers.items⟩) :=
  if_pos attached

/-- The proposal runs to its next await, or to its next pass through a loop. -/
def advance (node : BFTNodeStateSync) (round : Round) :
    BFTNodeStateSync × Round × Option Outgoing :=
  match round.phase with
  | .asking [] =>
      if round.votes ≥ node.quorumFor then
        (node.commit round.key round.value,
          { round with phase := .sending (node.peers.items.map Prod.snd) }, none)
      else
        ({ node with rejectedCount := node.rejectedCount + 1 },
          { round with phase := .finished false }, none)
  | .asking ((peer, uri) :: rest) =>
      if node.policies.get? peer = some .faulty then
        ({ node with byzantineCount := node.byzantineCount + 1 },
          { round with phase := .asking rest }, none)
      else
        match liveUri uri with
        | none => (node, { round with phase := .asking rest }, none)
        | some uri =>
            (node, { round with phase := .waiting peer uri rest },
              some (.requestVote peer uri (voteRequestPayload node.nodeId round.key round.value)))
  | .waiting _ _ _ => (node, round, none)
  | .sending [] => (node, { round with phase := .finished true }, none)
  | .sending (uri :: rest) =>
      match liveUri uri with
      | none => (node, { round with phase := .sending rest }, none)
      | some uri =>
          (node, { round with phase := .sending rest },
            some (.sendMessage uri (commitPayload node.nodeId round.key round.value)))
  | .finished _ => (node, round, none)

/-- `request_vote` returned: a response, or nothing where the peer did not answer. -/
def answered (node : BFTNodeStateSync) (round : Round) (response : Option Json) :
    BFTNodeStateSync × Round :=
  match round.phase with
  | .waiting peer _ rest =>
      if response.any grants then
        (node, { round with granted := round.granted ++ [peer], phase := .asking rest })
      else
        ({ node with byzantineCount := node.byzantineCount + 1 },
          { round with phase := .asking rest })
  | _ => (node, round)

/-! ### What a round does -/

section Effects

variable {node : BFTNodeStateSync} {round : Round}

/-- The next step of the proposal commits it. -/
def Commits (node : BFTNodeStateSync) (round : Round) : Prop :=
  round.phase = .asking [] ∧ round.votes ≥ node.quorumFor

instance (node : BFTNodeStateSync) (round : Round) : Decidable (Commits node round) :=
  inferInstanceAs (Decidable (_ ∧ _))

/-- What a step of a proposal can do: commit, ask a peer, send a commit to a peer, or
move on with nothing to show for it but the counters of its node. -/
inductive Advanced (node : BFTNodeStateSync) (round : Round) :
    BFTNodeStateSync → Round → Option Outgoing → Prop
  | committed (commits : Commits node round) :
      Advanced node round (node.commit round.key round.value)
        { round with phase := .sending (node.peers.items.map Prod.snd) } none
  | asked (peer uri : String) (rest : List (String × Option String))
      (phase : round.phase = .asking ((peer, some uri) :: rest)) :
      Advanced node round node { round with phase := .waiting peer uri rest }
        (some (.requestVote peer uri (voteRequestPayload node.nodeId round.key round.value)))
  | sent (uri : String) (rest : List (Option String)) (live : uri ≠ "")
      (phase : round.phase = .sending (some uri :: rest)) :
      Advanced node round node { round with phase := .sending rest }
        (some (.sendMessage uri (commitPayload node.nodeId round.key round.value)))
  | moved (node' : BFTNodeStateSync) (phase : Phase) (roster : node'.roster = node.roster)
      (ledger : node'.stateLedger = node.stateLedger)
      (ballots : phase.ballots.Sublist round.phase.ballots) (uris : phase.uris = round.phase.uris) :
      Advanced node round node' { round with phase := phase } none

theorem advance_advanced (node : BFTNodeStateSync) (round : Round) :
    Advanced node round (advance node round).1 (advance node round).2.1
      (advance node round).2.2 := by
  obtain ⟨key, value, granted, phase⟩ := round
  cases phase with
  | asking rest =>
      cases rest with
      | nil =>
          by_cases quorum : (Round.mk key value granted (.asking [])).votes ≥ node.quorumFor
          · simp only [advance, if_pos quorum]
            exact .committed ⟨rfl, quorum⟩
          · simp only [advance, if_neg quorum]
            exact .moved _ (.finished false) rfl rfl (.refl _) rfl
      | cons ballot rest =>
          obtain ⟨peer, uri⟩ := ballot
          have skipped : rest.Sublist ((peer, uri) :: rest) := List.sublist_cons_self _ _
          by_cases faulty : node.policies.get? peer = some .faulty
          · simp only [advance, if_pos faulty]
            exact .moved _ (.asking rest) rfl rfl skipped rfl
          · cases live : liveUri uri with
            | none =>
                simp only [advance, if_neg faulty, live]
                exact .moved _ (.asking rest) rfl rfl skipped rfl
            | some at_ =>
                obtain rfl := eq_some_of_liveUri live
                simp only [advance, if_neg faulty, live]
                exact .asked peer at_ rest rfl
  | waiting peer uri rest => exact .moved _ (.waiting peer uri rest) rfl rfl (.refl _) rfl
  | sending uris =>
      cases uris with
      | nil => exact .moved _ (.finished true) rfl rfl (.refl _) rfl
      | cons uri rest =>
          cases live : liveUri uri with
          | none =>
              simp only [advance, live]
              refine .moved _ (.sending rest) rfl rfl (.refl _) ?_
              simp only [Phase.uris, List.filterMap_cons, live]
          | some at_ =>
              obtain rfl := eq_some_of_liveUri live
              simp only [advance, live]
              exact .sent at_ rest (ne_of_liveUri live) rfl
  | finished committed => exact .moved _ (.finished committed) rfl rfl (.refl _) rfl

/-- What an answer does: it is counted, or it changes nothing but the counters. -/
inductive Answered (node : BFTNodeStateSync) (round : Round) (response : Option Json) :
    BFTNodeStateSync → Round → Prop
  | granted (peer uri : String) (rest : List (String × Option String))
      (phase : round.phase = .waiting peer uri rest) (grant : response.any grants = true) :
      Answered node round response node
        { round with granted := round.granted ++ [peer], phase := .asking rest }
  | moved (node' : BFTNodeStateSync) (phase : Phase) (roster : node'.roster = node.roster)
      (ledger : node'.stateLedger = node.stateLedger)
      (ballots : phase.ballots.Sublist round.phase.ballots) (uris : phase.uris = round.phase.uris) :
      Answered node round response node' { round with phase := phase }

/-- Counted or not, an answer changes no more than who voted and who is still to be asked. -/
theorem Answered.frame {response : Option Json} {node' : BFTNodeStateSync} {round' : Round}
    (answered : Answered node round response node' round') :
    round'.key = round.key ∧ round'.value = round.value ∧
      round'.phase.uris = round.phase.uris ∧ node'.stateLedger = node.stateLedger := by
  cases answered with
  | granted peer uri rest phase grant =>
      rw [phase]
      exact ⟨rfl, rfl, rfl, rfl⟩
  | moved _ phase roster ledger ballots uris => exact ⟨rfl, rfl, uris, ledger⟩

theorem Answered.roster {response : Option Json} {node' : BFTNodeStateSync} {round' : Round}
    (answered : Answered node round response node' round') : node'.roster = node.roster := by
  cases answered with
  | granted => rfl
  | moved _ phase roster => exact roster

theorem answered_answered (node : BFTNodeStateSync) (round : Round) (response : Option Json) :
    Answered node round response (answered node round response).1
      (answered node round response).2 := by
  obtain ⟨key, value, votes, phase⟩ := round
  cases phase with
  | waiting peer uri rest =>
      cases grant : response.any grants with
      | true =>
          simp only [answered, grant, if_true]
          exact .granted peer uri rest rfl grant
      | false =>
          simp only [answered, grant]
          exact .moved _ (.asking rest) rfl rfl (List.sublist_cons_self _ _) rfl
  | _ => exact .moved _ _ rfl rfl (.refl _) rfl

end Effects

end Round

end CentaurApex.Mesh
