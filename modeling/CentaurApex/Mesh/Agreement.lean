/-
# Mesh.Agreement -- ledgers under concurrent proposals

A mesh of nodes that all run the code, each connected with every other, on a network
that delays and reorders and loses nothing.  Read at one key it is a set of replicas
(`replicas`): a commit writes at its proposer and is then on its way to the others,
as a message or as a broadcast that has not come to it yet, and a delivery stores it
(`refines_moved`).

* `agreement_of_run`: so where every commit of a key finds no commit of another value
  of it under way, ledgers that have the key agree on it once nothing is under way;
* `crossing_commits_disagree`: nothing in a vote rules two proposals out, and where
  their commits cross, each of two nodes ends with the value of the other.
-/
import CentaurApex.Mesh.Network
import CentaurApex.Theory.Replica

namespace CentaurApex.Mesh

open CentaurApex.Theory

set_option autoImplicit false

section Connected

variable {n : ℕ} (mesh : Topology n)

/-- What the network does by itself: it delivers, in any order, and answers may come
too late. -/
def MeshAction.Reliable : MeshAction n → Prop
  | .lose _ | .answer _ _ | .inject _ _ => False
  | _ => True

instance : (a : MeshAction n) → Decidable a.Reliable
  | .lose _ | .answer _ _ | .inject _ _ => .isFalse id
  | .propose _ _ _ | .proceed _ | .deliver _ | .timeout _ | .setPeerPolicy _ _ _ => .isTrue trivial

/-- Every node has a transport, and knows every other one by its name and URI. -/
structure FullyConnected (nodes : Fin n → BFTNodeStateSync) : Prop where
  distinct : ∀ i j, (nodes i).nodeId = (nodes j).nodeId → i = j
  attached : ∀ i, (nodes i).attached = true
  peers : ∀ i peer uri, (peer, uri) ∈ (nodes i).peers.items ↔
    ∃ j, j ≠ i ∧ peer = (nodes j).nodeId ∧ uri = some (mesh.uri j)

/-- The commits of `key` under way, with where to: messages, and what is left of
broadcasts. -/
def underWay (net : MeshState n) (key : String) : Set (Fin n × String) :=
  { p | (∃ sender, .oneWay (mesh.uri p.1) (commitPayload sender key p.2) ∈ net.packets) ∨
    ∃ proposal ∈ net.proposals, proposal.round.key = key ∧ proposal.round.value = p.2 ∧
      mesh.uri p.1 ∈ proposal.round.phase.uris }

/-- The mesh, read at one key. -/
def replicas (net : MeshState n) (key : String) : Replicas (Fin n) String where
  held i := (net.nodes i).stateLedger.get? key
  pending := underWay mesh net key

/-- No message is in flight, and no broadcast is under way. -/
def Quiet (net : MeshState n) : Prop :=
  net.packets = [] ∧ ∀ proposal ∈ net.proposals, proposal.round.phase.uris = []

instance (net : MeshState n) : Decidable (Quiet net) := inferInstanceAs (Decidable (_ ∧ _))

/-- The proposal that an action commits. -/
def committing (net : MeshState n) : MeshAction n → Option (Proposal n)
  | .proceed r =>
      net.proposals[r]?.filter fun proposal =>
        proposal.round.Commits (net.nodes proposal.proposer)
  | _ => none

/-- A step that commits a proposal of `key` finds no commit of another value under way. -/
def Exclusive (key : String) (e : Event (MeshState n) (MeshAction n) (Option Delivery)) : Prop :=
  ∀ proposal, committing e.before e.input = some proposal → proposal.round.key = key →
    (replicas mesh e.before key).Alone proposal.round.value

/-- What is in flight is what the nodes themselves sent to each other. -/
structure Upright (net : MeshState n) : Prop where
  connected : FullyConnected mesh net.nodes
  requests : ∀ r peer uri message, .request r peer uri message ∈ net.packets →
    ∃ nodeId key value, message = voteRequestPayload nodeId key value
  oneWays : ∀ uri message, .oneWay uri message ∈ net.packets →
    ∃ i j key value, j ≠ i ∧ uri = mesh.uri j ∧
      message = commitPayload (net.nodes i).nodeId key value
  broadcasts : ∀ proposal ∈ net.proposals, ∀ uri ∈ proposal.round.phase.uris,
    ∃ j, j ≠ proposal.proposer ∧ uri = mesh.uri j

/-! ## What is under way after a step -/

variable {mesh} {net net' : MeshState n}

theorem commitPayload_inj {sender key value sender' key' value' : String}
    (same : commitPayload sender key value = commitPayload sender' key' value') :
    sender = sender' ∧ key = key' ∧ value = value' := by
  simpa [commitPayload] using same

/-- The round is a broadcast of `value` at `key` that has not come to `uri` yet. -/
def Round.Carries (round : Round) (key value uri : String) : Prop :=
  round.key = key ∧ round.value = value ∧ uri ∈ round.phase.uris

/-- The two states have the same commits under way. -/
structure SameTraffic (net net' : MeshState n) : Prop where
  oneWays : ∀ uri message,
    Packet.oneWay uri message ∈ net'.packets ↔ Packet.oneWay uri message ∈ net.packets
  broadcasts : ∀ key value uri, (∃ q ∈ net'.proposals, q.round.Carries key value uri) ↔
    ∃ q ∈ net.proposals, q.round.Carries key value uri

theorem SameTraffic.underWay (same : SameTraffic net net') (key : String) :
    underWay mesh net' key = underWay mesh net key := by
  ext p
  exact or_congr (exists_congr fun _ => same.oneWays _ _) (same.broadcasts key p.2 (mesh.uri p.1))

theorem replicas_congr {key : String}
    (ledgers : ∀ i, (net'.nodes i).stateLedger = (net.nodes i).stateLedger)
    (same : underWay mesh net' key = underWay mesh net key) :
    replicas mesh net' key = replicas mesh net key := by
  unfold replicas
  rw [same]
  simp only [ledgers]

section SetRound

variable {r : ℕ} {proposal : Proposal n} {round : Round}

/-- A round that says the same of its broadcast leaves the broadcasts as they were. -/
theorem carries_setRound (here : net.proposals[r]? = some proposal)
    (key_ : round.key = proposal.round.key)
    (value_ : round.value = proposal.round.value)
    (uris : round.phase.uris = proposal.round.phase.uris) (key value uri : String) :
    (∃ q ∈ net.proposals.set r { proposal with round }, q.round.Carries key value uri) ↔
      ∃ q ∈ net.proposals, q.round.Carries key value uri := by
  have same : round.Carries key value uri ↔ proposal.round.Carries key value uri := by
    unfold Round.Carries
    rw [key_, value_, uris]
  constructor
  · intro after
    rcases exists_of_setRound (Round.Carries · key value uri) after with new | before
    · exact ⟨proposal, List.mem_of_getElem? here, same.mp new⟩
    · exact before
  · intro before
    rcases setRound_of_exists (Round.Carries · key value uri) here before with old | after
    · exact exists_setRound (Round.Carries · key value uri) here (same.mpr old)
    · exact after

end SetRound

/-! ## Messages the nodes sent themselves -/

theorem FullyConnected.of_roster {nodes nodes' : Fin n → BFTNodeStateSync}
    (connected : FullyConnected mesh nodes)
    (roster : ∀ i, (nodes' i).roster = (nodes i).roster) : FullyConnected mesh nodes' := by
  have ids (i : Fin n) : (nodes' i).nodeId = (nodes i).nodeId := congrArg Prod.fst (roster i)
  have transports (i : Fin n) : (nodes' i).attached = (nodes i).attached :=
    congrArg (fun r => r.2.1) (roster i)
  have peers (i : Fin n) : (nodes' i).peers = (nodes i).peers :=
    congrArg (fun r => r.2.2) (roster i)
  constructor
  · intro i j same
    exact connected.distinct i j (by rw [← ids, ← ids, same])
  · intro i
    rw [transports]
    exact connected.attached i
  · intro i peer uri
    simp only [peers, ids]
    exact connected.peers i peer uri

/-- Every node knows every other one. -/
theorem FullyConnected.knows {nodes : Fin n → BFTNodeStateSync}
    (connected : FullyConnected mesh nodes) {i j : Fin n} (other : j ≠ i) :
    (nodes j).peers.Contains (nodes i).nodeId :=
  List.mem_map.mpr ⟨_, (connected.peers j _ _).mpr ⟨i, other.symm, rfl, rfl⟩, rfl⟩

/-- A commit is broadcast to the other nodes. -/
theorem FullyConnected.mem_uris {nodes : Fin n → BFTNodeStateSync}
    (connected : FullyConnected mesh nodes) (i : Fin n) (uri : String) :
    uri ∈ (Phase.sending ((nodes i).peers.items.map Prod.snd)).uris ↔
      ∃ j, j ≠ i ∧ uri = mesh.uri j := by
  unfold Phase.uris
  rw [List.mem_filterMap]
  constructor
  · rintro ⟨entry, member, live⟩
    obtain ⟨⟨peer, _⟩, known, rfl⟩ := List.mem_map.mp member
    obtain ⟨j, other, -, rfl⟩ := (connected.peers i _ _).mp known
    exact ⟨j, other, (Option.some.inj (eq_some_of_liveUri live)).symm⟩
  · rintro ⟨j, other, rfl⟩
    exact ⟨some (mesh.uri j), List.mem_map.mpr
      ⟨_, (connected.peers i _ _).mpr ⟨j, other, rfl, rfl⟩, rfl⟩, liveUri_of_ne (mesh.uri_live j)⟩

theorem Upright.next (upright : Upright mesh net)
    (roster : ∀ i, (net'.nodes i).roster = (net.nodes i).roster)
    (requests : ∀ r peer uri message, .request r peer uri message ∈ net'.packets →
      .request r peer uri message ∈ net.packets ∨
        ∃ nodeId key value, message = voteRequestPayload nodeId key value)
    (oneWays : ∀ uri message, .oneWay uri message ∈ net'.packets →
      .oneWay uri message ∈ net.packets ∨ ∃ i j key value, j ≠ i ∧ uri = mesh.uri j ∧
        message = commitPayload (net.nodes i).nodeId key value)
    (broadcasts : ∀ q ∈ net'.proposals, q ∈ net.proposals ∨
      ∀ uri ∈ q.round.phase.uris, ∃ j, j ≠ q.proposer ∧ uri = mesh.uri j) :
    Upright mesh net' := by
  have ids (i : Fin n) : (net'.nodes i).nodeId = (net.nodes i).nodeId :=
    congrArg Prod.fst (roster i)
  constructor
  · exact upright.connected.of_roster roster
  · intro r peer uri message member
    exact (requests r peer uri message member).elim (upright.requests r peer uri message) id
  · intro uri message member
    simp only [ids]
    exact (oneWays uri message member).elim (upright.oneWays uri message) id
  · intro q member
    exact (broadcasts q member).elim (upright.broadcasts q) id

theorem Upright.drop (upright : Upright mesh net) (p : ℕ) : Upright mesh (net.drop p) :=
  upright.next (fun _ => rfl) (fun _ _ _ _ member => .inl (MeshState.mem_of_mem_drop member))
    (fun _ _ member => .inl (MeshState.mem_of_mem_drop member)) fun _ member => .inl member

section Rounds

variable {r : ℕ} {proposal : Proposal n} {node : BFTNodeStateSync} {round : Round}
  (here : net.proposals[r]? = some proposal)

include here

theorem Upright.advanced (upright : Upright mesh net) {out : Option Outgoing}
    (advanced : Round.Advanced (net.nodes proposal.proposer) proposal.round node round out) :
    Upright mesh (((net.setNode proposal.proposer node).setRound r proposal round).send
      (out.map (Packet.ofOutgoing r)).toList) := by
  have own := upright.broadcasts proposal (List.mem_of_getElem? here)
  cases advanced with
  | committed commits =>
      refine upright.next (roster_update rfl) (fun _ _ _ _ member => .inl (by simpa using member))
        (fun _ _ member => .inl (by simpa using member)) fun q member => ?_
      rcases MeshState.mem_of_mem_setRound member with before | rfl
      · exact .inl before
      · exact .inr fun uri carried => (upright.connected.mem_uris _ uri).mp carried
  | asked peer uri rest phase =>
      refine upright.next (roster_update rfl) (fun r peer uri message member => ?_)
        (fun _ _ member => .inl (by simpa [Packet.ofOutgoing] using member)) fun q member => ?_
      · rcases List.mem_append.mp member with before | new
        · exact .inl before
        · obtain ⟨-, -, -, rfl⟩ := Packet.request.inj (List.mem_singleton.mp new)
          exact .inr ⟨_, _, _, rfl⟩
      · rcases MeshState.mem_of_mem_setRound member with before | rfl
        · exact .inl before
        · exact .inr fun uri carried => absurd carried List.not_mem_nil
  | sent uri rest live phase =>
      rw [phase] at own
      refine upright.next (roster_update rfl)
        (fun _ _ _ _ member => .inl (by simpa [Packet.ofOutgoing] using member))
        (fun uri message member => ?_) fun q member => ?_
      · rcases List.mem_append.mp member with before | new
        · exact .inl before
        · obtain ⟨rfl, rfl⟩ := Packet.oneWay.inj (List.mem_singleton.mp new)
          obtain ⟨j, other, rfl⟩ := own uri (by simp [Phase.uris, liveUri_of_ne live])
          exact .inr ⟨proposal.proposer, j, _, _, other, rfl, rfl⟩
      · rcases MeshState.mem_of_mem_setRound member with before | rfl
        · exact .inl before
        · refine .inr fun uri carried => own uri ?_
          obtain ⟨entry, member, live⟩ := List.mem_filterMap.mp carried
          exact List.mem_filterMap.mpr ⟨entry, List.mem_cons_of_mem _ member, live⟩
  | moved _ phase roster ledger ballots uris =>
      refine upright.next (roster_update roster)
        (fun _ _ _ _ member => .inl (by simpa using member))
        (fun _ _ member => .inl (by simpa using member)) fun q member => ?_
      rcases MeshState.mem_of_mem_setRound member with before | rfl
      · exact .inl before
      · exact .inr fun uri carried => own uri (uris ▸ carried)

theorem Upright.answered (upright : Upright mesh net) {response : Option Json}
    (answered : Round.Answered (net.nodes proposal.proposer) proposal.round response node round) :
    Upright mesh ((net.setNode proposal.proposer node).setRound r proposal round) := by
  have own := upright.broadcasts proposal (List.mem_of_getElem? here)
  obtain ⟨-, -, uris, -⟩ := answered.frame
  refine upright.next (roster_update answered.roster) (fun _ _ _ _ => .inl) (fun _ _ => .inl)
    fun q member => ?_
  rcases MeshState.mem_of_mem_setRound member with before | rfl
  · exact .inl before
  · exact .inr fun uri carried => own uri (uris ▸ carried)

end Rounds

/-- A step of a reliable network leaves nothing in flight but what the nodes sent. -/
theorem Upright.moved (upright : Upright mesh net) {action : MeshAction n}
    (reliable : action.Reliable) {delivery : Option Delivery}
    (moved : Moved mesh net action delivery net') : Upright mesh net' := by
  cases moved with
  | idle => exact upright
  | proposed i key value =>
      rw [Round.start_attached (upright.connected.attached i)]
      refine upright.next (roster_update rfl) (fun _ _ _ _ => .inl) (fun _ _ => .inl)
        fun q member => ?_
      rcases List.mem_append.mp member with before | new
      · exact .inl before
      · obtain rfl := List.mem_singleton.mp new
        exact .inr fun uri carried => absurd carried List.not_mem_nil
  | advanced r proposal node round out here advanced => exact upright.advanced here advanced
  | asked p r peer message i here =>
      obtain ⟨nodeId, key, value, rfl⟩ :=
        upright.requests r peer _ message (List.mem_of_getElem? here)
      rw [dispatch_voteRequest]
      refine upright.next (roster_update rfl) (fun _ _ _ _ member => ?_) (fun _ _ member => ?_)
        fun q member => .inl member
      all_goals
        rcases List.mem_append.mp member with before | new
        · exact .inl (MeshState.mem_of_mem_drop before)
        · obtain ⟨_, -, reply⟩ := eq_reply_of_mem_replies new
          cases reply
  | told p message i here =>
      have roster : (dispatch mesh.strOf (net.nodes i) message).2.roster = (net.nodes i).roster := by
        rcases dispatch_cases mesh.strOf (net.nodes i) message with
          same | ⟨_, _, _, -, -, same⟩
        · rw [same]
        · rw [same]
          rfl
      exact (upright.drop p).next (roster_update roster) (fun _ _ _ _ => .inl) (fun _ _ => .inl)
        fun _ => .inl
  | replied p r peer uri rest response proposal node round here waits phase answered =>
      exact (upright.drop p).answered waits answered
  | late p r peer response here => exact upright.drop p
  | timedOut r proposal node round waits answered => exact upright.answered waits answered
  | policed i peer policy node roster ledger =>
      exact upright.next (roster_update roster) (fun _ _ _ _ => .inl) (fun _ _ => .inl)
        fun _ => .inl
  | lost p => exact reliable.elim
  | answeredElsewhere p r peer uri message response here => exact reliable.elim
  | injected uri message => exact reliable.elim

/-! ## The mesh as replicas -/

/-- A commit at one node, read at a key. -/
theorem held_commit (nodes : Fin n → BFTNodeStateSync) (i : Fin n) (key value k : String) :
    (fun j => (Function.update nodes i ((nodes i).commit key value) j).stateLedger.get? k) =
      if k = key then Function.update (fun j => (nodes j).stateLedger.get? k) i (some value)
      else fun j => (nodes j).stateLedger.get? k := by
  funext j
  by_cases here : j = i
  · subst here
    simp only [Function.update_self, BFTNodeStateSync.commit, PyDict.get?_setItem]
    split
    · rw [Function.update_self]
    · rfl
  · simp only [Function.update_of_ne here]
    split
    · rw [Function.update_of_ne here]
    · rfl

/-- A step that commits the proposal of `key` writes; every other step of the mesh is a
delivery or nothing to the replicas of `key`. -/
def Refines (mesh : Topology n) (net : MeshState n) (action : MeshAction n) (net' : MeshState n)
    (key : String) : Prop :=
  ∃ write, (replicas mesh net key).Step write (replicas mesh net' key) ∧
    ∀ i v, write = some (i, v) → ∃ proposal, committing net action = some proposal ∧
      proposal.round.key = key ∧ proposal.round.value = v

theorem committing_proceed {r : ℕ} {proposal : Proposal n} (here : net.proposals[r]? = some proposal)
    (commits : proposal.round.Commits (net.nodes proposal.proposer)) :
    committing net (.proceed r) = some proposal := by
  simp only [committing, here, Option.filter_some, decide_eq_true commits, if_true]

theorem Refines.of_same {action : MeshAction n} {key : String}
    (same : replicas mesh net' key = replicas mesh net key) :
    Refines mesh net action net' key := by
  refine ⟨none, ?_, fun _ _ write => by cases write⟩
  rw [same]
  exact .stutter

theorem mem_underWay {key : String} {p : Fin n × String} :
    p ∈ underWay mesh net key ↔
      (∃ sender, .oneWay (mesh.uri p.1) (commitPayload sender key p.2) ∈ net.packets) ∨
        ∃ q ∈ net.proposals, q.round.Carries key p.2 (mesh.uri p.1) :=
  Iff.rfl

section Rounds

variable {r : ℕ} {proposal : Proposal n} {node : BFTNodeStateSync} {round : Round}
  (here : net.proposals[r]? = some proposal)

include here

variable (node round) in
/-- A commit is on its way to every other node. -/
theorem underWay_committed (upright : Upright mesh net)
    (commits : proposal.round.Commits (net.nodes proposal.proposer)) (key : String)
    (phase : round.phase =
      .sending ((net.nodes proposal.proposer).peers.items.map Prod.snd))
    (key_ : round.key = proposal.round.key) (value_ : round.value = proposal.round.value) :
    underWay mesh ((net.setNode proposal.proposer node).setRound r proposal round) key =
      if key = proposal.round.key then
        underWay mesh net key ∪ {p | p.1 ≠ proposal.proposer ∧ p.2 = proposal.round.value}
      else underWay mesh net key := by
  have carries (p : Fin n × String) : round.Carries key p.2 (mesh.uri p.1) ↔
      key = proposal.round.key ∧ p.1 ≠ proposal.proposer ∧ p.2 = proposal.round.value := by
    unfold Round.Carries
    rw [key_, value_, phase, upright.connected.mem_uris]
    constructor
    · rintro ⟨rfl, same, j, other, at_⟩
      obtain rfl := mesh.uri_injective at_
      exact ⟨rfl, other, same.symm⟩
    · rintro ⟨rfl, other, same⟩
      exact ⟨rfl, same.symm, p.1, other, rfl⟩
  have silent (value uri : String) : ¬ proposal.round.Carries key value uri := by
    rintro ⟨-, -, member⟩
    rw [commits.1] at member
    cases member
  have after (p : Fin n × String) :
      p ∈ underWay mesh ((net.setNode proposal.proposer node).setRound r proposal round) key ↔
        p ∈ underWay mesh net key ∨ round.Carries key p.2 (mesh.uri p.1) := by
    rw [mem_underWay, mem_underWay, or_assoc]
    refine or_congr Iff.rfl ⟨fun new => ?_, ?_⟩
    · exact (exists_of_setRound (Round.Carries · key p.2 (mesh.uri p.1)) new).symm
    · rintro (before | new)
      · rcases setRound_of_exists (Round.Carries · key p.2 (mesh.uri p.1)) here before with
          old | after
        · exact absurd old (silent _ _)
        · exact after
      · exact exists_setRound (Round.Carries · key p.2 (mesh.uri p.1)) here new
  ext p
  rw [after, carries]
  split
  · rename_i same
    simp [same]
  · rename_i other
    simp [other]

/-- A commit is under way as a message once the broadcast has come to its receiver. -/
theorem underWay_sent {uri : String} {rest : List (Option String)} (live : uri ≠ "")
    (phase : proposal.round.phase = .sending (some uri :: rest)) (key nodeId : String) :
    underWay mesh (((net.setNode proposal.proposer node).setRound r proposal
        { proposal.round with phase := .sending rest }).send
          [.oneWay uri (commitPayload nodeId proposal.round.key proposal.round.value)]) key =
      underWay mesh net key := by
  have carries (value uri' : String) : proposal.round.Carries key value uri' ↔
      (proposal.round.key = key ∧ proposal.round.value = value ∧ uri' = uri) ∨
        Round.Carries { proposal.round with phase := .sending rest } key value uri' := by
    simp only [Round.Carries, phase, Phase.uris, List.filterMap_cons, liveUri_of_ne live,
      List.mem_cons]
    tauto
  ext p
  rw [mem_underWay, mem_underWay]
  constructor
  · rintro (⟨sender, packet⟩ | after)
    · rcases List.mem_append.mp packet with before | new
      · exact .inl ⟨sender, before⟩
      · obtain ⟨at_, same⟩ := Packet.oneWay.inj (List.mem_singleton.mp new)
        obtain ⟨-, rfl, value⟩ := commitPayload_inj same
        exact .inr ⟨proposal, List.mem_of_getElem? here, (carries _ _).mpr (.inl ⟨rfl, value.symm, at_⟩)⟩
    · rcases exists_of_setRound (Round.Carries · key p.2 (mesh.uri p.1)) after with new | before
      · exact .inr ⟨proposal, List.mem_of_getElem? here, (carries _ _).mpr (.inr new)⟩
      · exact .inr before
  · rintro (⟨sender, packet⟩ | before)
    · exact .inl ⟨sender, List.mem_append_left _ packet⟩
    · rcases setRound_of_exists (Round.Carries · key p.2 (mesh.uri p.1)) here before with
        old | after
      · rcases (carries _ _).mp old with ⟨rfl, value, at_⟩ | left
        · refine .inl ⟨nodeId, List.mem_append_right _ ?_⟩
          rw [at_, value]
          exact List.mem_singleton_self _
        · exact .inr (exists_setRound (Round.Carries · key p.2 (mesh.uri p.1)) here left)
      · exact .inr after

theorem refines_advanced (upright : Upright mesh net) {out : Option Outgoing}
    (advanced : Round.Advanced (net.nodes proposal.proposer) proposal.round node round out)
    (key : String) :
    Refines mesh net (.proceed r) (((net.setNode proposal.proposer node).setRound r proposal
      round).send (out.map (Packet.ofOutgoing r)).toList) key := by
  cases advanced with
  | committed commits =>
      have held := held_commit net.nodes proposal.proposer proposal.round.key proposal.round.value key
      have pending := underWay_committed
        ((net.nodes proposal.proposer).commit proposal.round.key proposal.round.value)
        { proposal.round with
          phase := .sending ((net.nodes proposal.proposer).peers.items.map Prod.snd) }
        here upright commits key rfl rfl rfl
      have read : ∀ net' : MeshState n, replicas mesh (net'.send []) key =
          ⟨fun i => (net'.nodes i).stateLedger.get? key, underWay mesh net' key⟩ := by
        intro net'
        simp only [replicas, MeshState.send, List.append_nil]
      rw [Refines, Option.map_none, Option.toList_none, read, pending, MeshState.setRound_nodes,
        MeshState.setNode_nodes, held]
      by_cases same : key = proposal.round.key
      · rw [if_pos same, if_pos same]
        refine ⟨some (proposal.proposer, proposal.round.value), .write _ _, ?_⟩
        rintro i v write
        obtain ⟨rfl, rfl⟩ := Prod.mk.inj (Option.some.inj write)
        exact ⟨proposal, committing_proceed here commits, same.symm, rfl⟩
      · rw [if_neg same, if_neg same]
        exact ⟨none, .stutter, fun _ _ write => by cases write⟩
  | asked peer uri rest phase =>
      refine .of_same (replicas_congr (ledger_update rfl) (SameTraffic.underWay ⟨?_, ?_⟩ key))
      · intro uri message
        simp [Packet.ofOutgoing]
      · exact carries_setRound here rfl rfl (by rw [phase]; rfl)
  | sent uri rest live phase =>
      exact .of_same (replicas_congr (ledger_update rfl) (underWay_sent here live phase key _))
  | moved _ phase roster ledger ballots uris =>
      refine .of_same (replicas_congr (ledger_update ledger) (SameTraffic.underWay ⟨?_, ?_⟩ key))
      · intro uri message
        simp
      · exact carries_setRound here rfl rfl uris

end Rounds

/-- A commit that arrives is stored. -/
theorem refines_told (upright : Upright mesh net) {p : ℕ} {message : Json} {j : Fin n}
    (here : net.packets[p]? = some (.oneWay (mesh.uri j) message)) (key : String) :
    Refines mesh net (.deliver p)
      ((net.drop p).setNode j (dispatch mesh.strOf (net.nodes j) message).2) key := by
  obtain ⟨i, j', key', value, other, at_, rfl⟩ :=
    upright.oneWays _ _ (List.mem_of_getElem? here)
  obtain rfl := mesh.uri_injective at_
  have commit : IsCommit mesh.strOf (commitPayload (net.nodes i).nodeId key' value)
      (net.nodes i).nodeId key' value := isCommit_commitPayload _ _ _
  have applied := dispatch_commit commit (upright.connected.knows other)
  have held := held_commit net.nodes j key' value key
  have old : underWay mesh (net.drop p) key ⊆ underWay mesh net key := by
    rintro q (⟨sender, packet⟩ | broadcast)
    · exact .inl ⟨sender, MeshState.mem_of_mem_drop packet⟩
    · exact .inr broadcast
  have left : ∀ q ∈ underWay mesh net key, (key = key' ∧ q = (j, value)) ∨
      q ∈ underWay mesh (net.drop p) key := by
    rintro q (⟨sender, packet⟩ | broadcast)
    · rcases MeshState.mem_drop here packet with delivered | still
      · obtain ⟨at_, same⟩ := Packet.oneWay.inj delivered
        obtain ⟨-, same_key, same_value⟩ := commitPayload_inj same
        exact .inl ⟨same_key, Prod.ext (mesh.uri_injective at_) same_value⟩
      · exact .inr (.inl ⟨sender, still⟩)
    · exact .inr (.inr broadcast)
  have read : replicas mesh ((net.drop p).setNode j
      (dispatch mesh.strOf (net.nodes j) (commitPayload (net.nodes i).nodeId key' value)).2) key =
        ⟨if key = key' then
          Function.update (replicas mesh net key).held j (some value)
          else (replicas mesh net key).held, underWay mesh (net.drop p) key⟩ := by
    rw [applied]
    exact congrArg (Replicas.mk · _) held
  rw [Refines, read]
  refine ⟨none, ?_, fun _ _ write => by cases write⟩
  by_cases same : key = key'
  · subst same
    rw [if_pos rfl]
    refine .deliver j value _ (.inl ⟨_, List.mem_of_getElem? here⟩) old fun q member => ?_
    rcases left q member with ⟨-, delivered⟩ | still
    · exact .inl delivered
    · exact .inr still
  · rw [if_neg same]
    have unchanged : underWay mesh (net.drop p) key = underWay mesh net key :=
      Set.Subset.antisymm old fun q member =>
        (left q member).resolve_left fun delivered => same delivered.1
    rw [unchanged]
    exact .stutter

/-- **A step of the mesh is a step of the replicas at every key.** -/
theorem refines_moved (upright : Upright mesh net) {action : MeshAction n}
    (reliable : action.Reliable) {delivery : Option Delivery}
    (moved : Moved mesh net action delivery net') (key : String) :
    Refines mesh net action net' key := by
  cases moved with
  | idle => exact .of_same rfl
  | proposed i k value =>
      rw [Round.start_attached (upright.connected.attached i)]
      refine .of_same (replicas_congr (ledger_update rfl) (SameTraffic.underWay ?_ key))
      refine ⟨fun _ _ => .rfl, fun key' value' uri => ?_⟩
      constructor
      · rintro ⟨q, member, carries⟩
        rcases List.mem_append.mp member with before | new
        · exact ⟨q, before, carries⟩
        · obtain rfl := List.mem_singleton.mp new
          exact absurd carries.2.2 List.not_mem_nil
      · rintro ⟨q, member, carries⟩
        exact ⟨q, List.mem_append_left _ member, carries⟩
  | advanced r proposal node round out here advanced =>
      exact refines_advanced here upright advanced key
  | asked p r peer message i here =>
      obtain ⟨nodeId, key', value, rfl⟩ :=
        upright.requests r peer _ message (List.mem_of_getElem? here)
      rw [dispatch_voteRequest]
      refine .of_same (replicas_congr (ledger_update rfl) (SameTraffic.underWay ?_ key))
      refine ⟨fun uri message => ?_, fun _ _ _ => .rfl⟩
      rw [MeshState.send_packets, List.mem_append]
      constructor
      · rintro (before | new)
        · exact MeshState.mem_of_mem_drop before
        · obtain ⟨_, -, reply⟩ := eq_reply_of_mem_replies new
          cases reply
      · exact fun member => .inl ((MeshState.mem_drop_iff here (by simp)).mpr member)
  | told p message i here => exact refines_told upright here key
  | replied p r peer uri rest response proposal node round here waits phase answered =>
      obtain ⟨key_, value_, uris, ledger⟩ := answered.frame
      refine .of_same (replicas_congr (ledger_update ledger) (SameTraffic.underWay ?_ key))
      exact ⟨fun _ _ => MeshState.mem_drop_iff here (by simp),
        carries_setRound waits key_ value_ uris⟩
  | late p r peer response here =>
      refine .of_same (replicas_congr (fun _ => rfl) (SameTraffic.underWay ?_ key))
      exact ⟨fun _ _ => MeshState.mem_drop_iff here (by simp), fun _ _ _ => .rfl⟩
  | timedOut r proposal node round waits answered =>
      obtain ⟨key_, value_, uris, ledger⟩ := answered.frame
      refine .of_same (replicas_congr (ledger_update ledger) (SameTraffic.underWay ?_ key))
      exact ⟨fun _ _ => .rfl, carries_setRound waits key_ value_ uris⟩
  | policed i peer policy node roster ledger =>
      refine .of_same (replicas_congr (ledger_update ledger) (SameTraffic.underWay ?_ key))
      exact ⟨fun _ _ => .rfl, fun _ _ _ => .rfl⟩
  | lost p => exact reliable.elim
  | answeredElsewhere p r peer uri message response here => exact reliable.elim
  | injected uri message => exact reliable.elim

/-! ## Runs -/

/-- A mesh to begin with: connected, with empty ledgers. -/
structure Started (mesh : Topology n) (net : MeshState n) : Prop where
  connected : FullyConnected mesh net.nodes
  ledgers : ∀ i, (net.nodes i).stateLedger = .empty
  proposals : net.proposals = []
  packets : net.packets = []

theorem Started.upright (started : Started mesh net) : Upright mesh net where
  connected := started.connected
  requests r peer uri message member := by
    rw [started.packets] at member
    cases member
  oneWays uri message member := by
    rw [started.packets] at member
    cases member
  broadcasts q member := by
    rw [started.proposals] at member
    cases member

/-- Nothing is under way in a quiet mesh. -/
theorem Quiet.pending (quiet : Quiet net) (key : String) :
    (replicas mesh net key).pending = ∅ := by
  refine Set.eq_empty_iff_forall_notMem.mpr fun p member => ?_
  rcases member with ⟨sender, packet⟩ | ⟨q, member, -, -, uri⟩
  · rw [quiet.1] at packet
    cases packet
  · rw [quiet.2 q member] at uri
    cases uri

theorem Started.converging (started : Started mesh net) (key : String) :
    (replicas mesh net key).Converging := by
  have quiet : Quiet net := by
    refine ⟨started.packets, fun q member => ?_⟩
    rw [started.proposals] at member
    cases member
  refine .inl ⟨fun i => ?_, quiet.pending key⟩
  change (net.nodes i).stateLedger.get? key = none
  rw [started.ledgers]
  rfl

/-- **Agreement**: where every commit of a key finds no commit of another value of it
under way, ledgers that have the key agree on it whenever nothing is under way. -/
theorem agreement_of_run (mesh : Topology n) (net : MeshState n) (started : Started mesh net)
    (key : String) (actions : List (MeshAction n)) (reliable : ∀ a ∈ actions, a.Reliable)
    (exclusive : ∀ e ∈ (meshMachine mesh).trace net actions, Exclusive mesh key e)
    (quiet : Quiet ((meshMachine mesh).run net actions)) (i j : Fin n) (v w : String)
    (first : (((meshMachine mesh).run net actions).nodes i).stateLedger.get? key = some v)
    (second : (((meshMachine mesh).run net actions).nodes j).stateLedger.get? key = some w) :
    v = w := by
  have inputs := (meshMachine mesh).trace_invariant_of (P := fun _ => True)
    (fun _ _ _ _ => trivial) (s := net) trivial reliable
  have holds := (meshMachine mesh).run_invariant_of_events
    (P := fun net => Upright mesh net ∧ (replicas mesh net key).Converging)
    (Q := fun e => Exclusive mesh key e ∧ e.input.Reliable)
    (fun net action allowed before => by
      obtain ⟨upright, converging⟩ := before
      obtain ⟨alone, reliable⟩ := allowed
      have moved := meshStep_moved mesh net action
      obtain ⟨write, step, commits⟩ := refines_moved upright reliable moved key
      refine ⟨upright.moved reliable moved, step.converging (fun i v written => ?_) converging⟩
      obtain ⟨proposal, commit, key_, rfl⟩ := commits i v written
      exact alone proposal commit key_)
    ⟨started.upright, started.converging key⟩
    (fun e member => ⟨exclusive e member, (inputs e member).2.1⟩)
  have same := holds.2.held_eq (quiet.pending key) i j
  exact Option.some.inj (first.symm.trans (same.trans second))

/-- A commit made while nothing is under way is alone. -/
theorem Exclusive.of_quiet {mesh : Topology n} {key : String}
    {e : Event (MeshState n) (MeshAction n) (Option Delivery)}
    (quiet : (committing e.before e.input).isSome → Quiet e.before) : Exclusive mesh key e := by
  intro proposal commits _ p member
  have nothing : (replicas mesh e.before key).pending = ∅ :=
    (quiet (by rw [commits]; rfl)).pending key
  rw [nothing] at member
  exact member.elim

end Connected

/-! ### Poles -/

namespace Duo

def name : Fin 2 → String
  | 0 => "a"
  | 1 => "b"

def uri : Fin 2 → String
  | 0 => "ws://a"
  | 1 => "ws://b"

def mesh : Topology 2 := ⟨uri, fun _ => "", by decide, by decide⟩

/-- A node that has registered the other one. -/
def node (i : Fin 2) : BFTNodeStateSync :=
  (BFTNodeStateSync.new (name i) true).registerPeer (name i.rev) (some (uri i.rev))

def net : MeshState 2 := ⟨node, [], []⟩

theorem started : Started mesh net where
  connected.distinct := by decide
  connected.attached := by decide
  connected.peers i peer uri' := by
    have other : ∀ j : Fin 2, j ≠ i ↔ j = i.rev := by decide +revert
    have items : (net.nodes i).peers.items = [(name i.rev, some (uri i.rev))] := by
      decide +revert
    rw [items, List.mem_singleton, Prod.mk.injEq]
    constructor
    · rintro ⟨rfl, rfl⟩
      exact ⟨i.rev, (other _).mpr rfl, by decide +revert, rfl⟩
    · rintro ⟨j, apart, rfl, rfl⟩
      obtain rfl := (other j).mp apart
      exact ⟨by decide +revert, rfl⟩
  ledgers := by decide
  proposals := rfl
  packets := rfl

/-- Proposal `r` of node `i` is begun and asks the other node, which votes for it. -/
def voted (i : Fin 2) (r : ℕ) (value : String) : List (MeshAction 2) :=
  [.propose i "k" value, .proceed r, .deliver 0, .deliver 0]

/-- It commits, its commit is sent, and the broadcast ends. -/
def broadcast (r : ℕ) : List (MeshAction 2) := [.proceed r, .proceed r, .proceed r]

/-- Node `i` writes, and when that has arrived node `j` does. -/
def inTurn (i j : Fin 2) : List (MeshAction 2) :=
  voted i 0 "x" ++ broadcast 0 ++ [.deliver 0] ++ voted j 1 "y" ++ broadcast 1 ++ [.deliver 0]

/-- Both have the votes before either commits. -/
def crossing (i j : Fin 2) : List (MeshAction 2) :=
  voted i 0 "x" ++ voted j 1 "y" ++ broadcast 0 ++ broadcast 1 ++ [.deliver 0, .deliver 0]

theorem inTurn_quiet : ∀ e ∈ (meshMachine mesh).trace net (inTurn 0 1),
    (committing e.before e.input).isSome → Quiet e.before := by decide +kernel

end Duo

/-- Satisfiable pole: one write after the other. -/
theorem agreement_of_run_inTurn :
    (((meshMachine Duo.mesh).run Duo.net (Duo.inTurn 0 1)).nodes 0).stateLedger.get? "k" =
      (((meshMachine Duo.mesh).run Duo.net (Duo.inTurn 0 1)).nodes 1).stateLedger.get? "k" := by
  have first : (((meshMachine Duo.mesh).run Duo.net (Duo.inTurn 0 1)).nodes 0).stateLedger.get? "k" =
      some "y" := by decide +kernel
  have second : (((meshMachine Duo.mesh).run Duo.net (Duo.inTurn 0 1)).nodes 1).stateLedger.get? "k" =
      some "y" := by decide +kernel
  have same := agreement_of_run Duo.mesh Duo.net Duo.started "k" (Duo.inTurn 0 1) (by decide)
    (fun e member => Exclusive.of_quiet (Duo.inTurn_quiet e member)) (by decide +kernel)
    0 1 "y" "y" first second
  exact first.trans ((congrArg some same).trans second.symm)

/-- Refuting pole: commits that cross leave each node with the other's value. -/
theorem crossing_commits_disagree :
    ¬ ∀ (n : ℕ) (mesh : Topology n) (net : MeshState n), Started mesh net →
      ∀ (actions : List (MeshAction n)), (∀ a ∈ actions, a.Reliable) →
        Quiet ((meshMachine mesh).run net actions) → ∀ (key : String) (i j : Fin n) (v w : String),
          (((meshMachine mesh).run net actions).nodes i).stateLedger.get? key = some v →
            (((meshMachine mesh).run net actions).nodes j).stateLedger.get? key = some w →
              v = w := by
  intro agree
  have same := agree 2 Duo.mesh Duo.net Duo.started (Duo.crossing 0 1) (by decide) (by decide +kernel)
    "k" 0 1 "y" "x" (by decide +kernel) (by decide +kernel)
  exact absurd same (by decide)

end CentaurApex.Mesh
