/-
# Mesh.Quorum -- what an entry of a ledger rests on

Nodes that run the code, among parties that need not.  Packets are delivered in any
order, or lost; whoever listens at the other URIs answers as they like and sends what
they like.  What the run has observed so far accounts for everything in its state
(`Accounted`): a proposal was made by its proposer, a request is a proposal's own, a
reply that grants a vote is a vote that was cast, a counted vote is one of a peer that
cast it, and a commit in flight is one that had its quorum -- or one that somebody else
made up.

* `ledger_backed`: so an entry of a ledger has a strict majority behind it, or it came
  with a made-up commit that names a sender the node knows;
* `forged_commit_unbacked`: a sender is a name in the message, and one made-up commit
  writes what nobody voted for.
-/
import CentaurApex.Mesh.Network

namespace CentaurApex.Mesh

open CentaurApex.Theory

set_option autoImplicit false

abbrev MeshEvent (n : ℕ) : Type := Event (MeshState n) (MeshAction n) (Option Delivery)

section Backing

variable {n : ℕ} (mesh : Topology n) (nodes : Fin n → BFTNodeStateSync) (past : List (MeshEvent n))

/-- Whoever listens at `uri` was asked by `nodeId` to vote for exactly this update, and
voted for it. -/
def VotedFor (uri nodeId key value : String) : Prop :=
  ∃ e ∈ past, ∃ response,
    e.reply = some ⟨uri, voteRequestPayload nodeId key value, some response⟩ ∧
      grants response = true

/-- A peer of node `i` voted for its update. -/
def PeerVoted (i : Fin n) (key value peer : String) : Prop :=
  ∃ uri, (nodes i).peers.get? peer = some (some uri) ∧
    VotedFor past uri (nodes i).nodeId key value

/-- Node `i` proposed the update. -/
def Proposed (i : Fin n) (key value : String) : Prop :=
  ∃ e ∈ past, e.input = .propose i key value

/-- A strict majority of a node and its peers is for the update: the node, which
proposed it, and peers that voted for it. -/
def QuorumBacked (key value : String) : Prop :=
  ∃ i, Proposed past i key value ∧ ∃ voters : List String,
    voters.Nodup ∧ (∀ peer ∈ voters, PeerVoted nodes past i key value peer) ∧
      (nodes i).peers.items.length + 1 < 2 * (1 + voters.length)

/-- Node `i` was sent, by somebody else, a commit of the update that names a sender it knows. -/
def Forged (i : Fin n) (key value : String) : Prop :=
  ∃ e ∈ past, ∃ message sender, e.input = .inject (mesh.uri i) message ∧
    IsCommit mesh.strOf message sender key value ∧ (nodes i).peers.Contains sender

end Backing

section Accounted

variable {n : ℕ} {mesh : Topology n} {nodes : Fin n → BFTNodeStateSync}
  {past : List (MeshEvent n)} {net net' : MeshState n}

/-- What proposal `r` is about. -/
def MeshState.stamp (net : MeshState n) (r : ℕ) : Option (Fin n × String × String) :=
  net.proposals[r]?.map fun q => (q.proposer, q.round.key, q.round.value)

/-- The votes a proposal has counted were cast, by peers it has not to ask again. -/
structure RoundAccounted (nodes : Fin n → BFTNodeStateSync) (past : List (MeshEvent n))
    (q : Proposal n) : Prop where
  proposed : Proposed past q.proposer q.round.key q.round.value
  ballots : q.round.phase.ballots.Sublist (nodes q.proposer).peers.items
  distinct : (q.round.granted ++ q.round.phase.ballots.map Prod.fst).Nodup
  votes : ∀ peer ∈ q.round.granted,
    PeerVoted nodes past q.proposer q.round.key q.round.value peer
  backed : q.round.phase.uris ≠ [] → QuorumBacked nodes past q.round.key q.round.value

structure Accounted (mesh : Topology n) (nodes : Fin n → BFTNodeStateSync)
    (past : List (MeshEvent n)) (net : MeshState n) : Prop where
  roster : ∀ i, (net.nodes i).roster = (nodes i).roster
  entries : ∀ i key value, (net.nodes i).stateLedger.get? key = some value →
    QuorumBacked nodes past key value ∨ Forged mesh nodes past i key value
  rounds : ∀ q ∈ net.proposals, RoundAccounted nodes past q
  requests : ∀ r peer uri message, .request r peer uri message ∈ net.packets →
    ∃ i key value, net.stamp r = some (i, key, value) ∧
      message = voteRequestPayload (nodes i).nodeId key value ∧
      (nodes i).peers.get? peer = some (some uri)
  replies : ∀ r peer response, .reply r peer response ∈ net.packets → grants response = true →
    ∃ i key value, net.stamp r = some (i, key, value) ∧ PeerVoted nodes past i key value peer
  oneWays : ∀ uri message, .oneWay uri message ∈ net.packets →
    (∃ i key value, message = commitPayload (nodes i).nodeId key value ∧
      QuorumBacked nodes past key value) ∨ ∃ e ∈ past, e.input = .inject uri message

/-- A round that has fewer peers to ask, and the same broadcast before it. -/
theorem RoundAccounted.moved {q : Proposal n} (accounted : RoundAccounted nodes past q)
    {phase : Phase} (ballots : phase.ballots.Sublist q.round.phase.ballots)
    (uris : phase.uris = q.round.phase.uris) :
    RoundAccounted nodes past { q with round := { q.round with phase } } where
  proposed := accounted.proposed
  ballots := ballots.trans accounted.ballots
  distinct := accounted.distinct.sublist ((ballots.map _).append_left _)
  votes := accounted.votes
  backed sending := accounted.backed (uris ▸ sending)

/-! ## More past -/

section Later

variable {later : List (MeshEvent n)} (more : past ⊆ later)

include more

theorem VotedFor.mono {uri nodeId key value : String} :
    VotedFor past uri nodeId key value → VotedFor later uri nodeId key value
  | ⟨e, member, voted⟩ => ⟨e, more member, voted⟩

theorem PeerVoted.mono {i : Fin n} {key value peer : String} :
    PeerVoted nodes past i key value peer → PeerVoted nodes later i key value peer
  | ⟨uri, known, voted⟩ => ⟨uri, known, voted.mono more⟩

theorem Proposed.mono {i : Fin n} {key value : String} :
    Proposed past i key value → Proposed later i key value
  | ⟨e, member, proposed⟩ => ⟨e, more member, proposed⟩

theorem QuorumBacked.mono {key value : String} :
    QuorumBacked nodes past key value → QuorumBacked nodes later key value
  | ⟨i, proposed, voters, distinct, voted, majority⟩ =>
      ⟨i, proposed.mono more, voters, distinct, fun peer member => (voted peer member).mono more,
        majority⟩

theorem Forged.mono {i : Fin n} {key value : String} :
    Forged mesh nodes past i key value → Forged mesh nodes later i key value
  | ⟨e, member, forged⟩ => ⟨e, more member, forged⟩

theorem RoundAccounted.mono {q : Proposal n} (accounted : RoundAccounted nodes past q) :
    RoundAccounted nodes later q where
  proposed := accounted.proposed.mono more
  ballots := accounted.ballots
  distinct := accounted.distinct
  votes peer member := (accounted.votes peer member).mono more
  backed sending := (accounted.backed sending).mono more

theorem Accounted.mono (accounted : Accounted mesh nodes past net) :
    Accounted mesh nodes later net where
  roster := accounted.roster
  entries i key value held :=
    (accounted.entries i key value held).imp (QuorumBacked.mono more) (Forged.mono more)
  rounds q member := (accounted.rounds q member).mono more
  requests := accounted.requests
  replies r peer response member grant := by
    obtain ⟨i, key, value, stamp, voted⟩ := accounted.replies r peer response member grant
    exact ⟨i, key, value, stamp, voted.mono more⟩
  oneWays uri message member := by
    rcases accounted.oneWays uri message member with ⟨i, key, value, same, backed⟩ | injected
    · exact .inl ⟨i, key, value, same, backed.mono more⟩
    · obtain ⟨e, before, same⟩ := injected
      exact .inr ⟨e, more before, same⟩

end Later

/-! ## One step -/

theorem old_entry {i : Fin n} {key value : String}
    (held : (net'.nodes i).stateLedger.get? key = some value)
    (ledgers : ∀ i, (net'.nodes i).stateLedger = (net.nodes i).stateLedger) :
    (net.nodes i).stateLedger.get? key = some value := by
  rw [← ledgers]
  exact held

/-- Old entries, packets and proposals are accounted for already. -/
theorem Accounted.next (accounted : Accounted mesh nodes past net)
    (roster : ∀ i, (net'.nodes i).roster = (net.nodes i).roster)
    (entries : ∀ i key value, (net'.nodes i).stateLedger.get? key = some value →
      (net.nodes i).stateLedger.get? key = some value ∨
        QuorumBacked nodes past key value ∨ Forged mesh nodes past i key value)
    (rounds : ∀ q ∈ net'.proposals, q ∈ net.proposals ∨ RoundAccounted nodes past q)
    (stamps : ∀ r stamp, net.stamp r = some stamp → net'.stamp r = some stamp)
    (packets : ∀ packet ∈ net'.packets, packet ∈ net.packets ∨
      match packet with
      | .request r peer uri message => ∃ i key value, net.stamp r = some (i, key, value) ∧
          message = voteRequestPayload (nodes i).nodeId key value ∧
          (nodes i).peers.get? peer = some (some uri)
      | .reply r peer response => grants response = true → ∃ i key value,
          net.stamp r = some (i, key, value) ∧ PeerVoted nodes past i key value peer
      | .oneWay uri message => (∃ i key value,
          message = commitPayload (nodes i).nodeId key value ∧
            QuorumBacked nodes past key value) ∨ ∃ e ∈ past, e.input = .inject uri message) :
    Accounted mesh nodes past net' where
  roster i := (roster i).trans (accounted.roster i)
  entries i key value held := (entries i key value held).elim (accounted.entries i key value) id
  rounds q member := (rounds q member).elim (accounted.rounds q) id
  requests r peer uri message member := by
    obtain ⟨i, key, value, stamp, request⟩ :=
      (packets _ member).elim (accounted.requests r peer uri message) id
    exact ⟨i, key, value, stamps r _ stamp, request⟩
  replies r peer response member grant := by
    obtain ⟨i, key, value, stamp, voted⟩ :=
      (packets _ member).elim (fun before => accounted.replies r peer response before grant)
        fun new => new grant
    exact ⟨i, key, value, stamps r _ stamp, voted⟩
  oneWays uri message member := (packets _ member).elim (accounted.oneWays uri message) id

theorem Accounted.peers (accounted : Accounted mesh nodes past net) (i : Fin n) :
    (net.nodes i).peers = (nodes i).peers :=
  congrArg (fun r => r.2.2) (accounted.roster i)

theorem Accounted.nodeId (accounted : Accounted mesh nodes past net) (i : Fin n) :
    (net.nodes i).nodeId = (nodes i).nodeId :=
  congrArg Prod.fst (accounted.roster i)

theorem Accounted.drop (accounted : Accounted mesh nodes past net) (p : ℕ) :
    Accounted mesh nodes past (net.drop p) :=
  accounted.next (fun _ => rfl) (fun _ _ _ => .inl) (fun _ => .inl) (fun _ _ => id)
    fun _ member => .inl (MeshState.mem_of_mem_drop member)

section Rounds

variable {r : ℕ} {proposal : Proposal n} {node : BFTNodeStateSync} {round : Round}
  (here : net.proposals[r]? = some proposal)

include here

theorem stamp_eq :
    net.stamp r = some (proposal.proposer, proposal.round.key, proposal.round.value) := by
  simp only [MeshState.stamp, here, Option.map_some]

theorem stamp_of_set (set : net'.proposals = net.proposals.set r { proposal with round })
    (key_ : round.key = proposal.round.key) (value_ : round.value = proposal.round.value) (k : ℕ)
    (stamp : Fin n × String × String) (same : net.stamp k = some stamp) :
    net'.stamp k = some stamp := by
  rw [← same]
  unfold MeshState.stamp
  rw [set]
  by_cases at_ : r = k
  · subst at_
    obtain ⟨bound, -⟩ := List.getElem?_eq_some_iff.mp here
    simp only [List.getElem?_set_self bound, here, Option.map_some, key_, value_]
  · rw [List.getElem?_set_ne at_]

/-- The peers whose votes make the quorum are a majority. -/
theorem quorumBacked_of_commits (accounted : Accounted mesh nodes past net)
    (commits : proposal.round.Commits (net.nodes proposal.proposer)) :
    QuorumBacked nodes past proposal.round.key proposal.round.value := by
  have counted := accounted.rounds proposal (List.mem_of_getElem? here)
  have quorum := commits.2
  rw [BFTNodeStateSync.quorumFor, accounted.peers, Round.votes] at quorum
  refine ⟨proposal.proposer, counted.proposed, proposal.round.granted,
    counted.distinct.of_append_left, counted.votes, ?_⟩
  omega

theorem Accounted.advanced (accounted : Accounted mesh nodes past net) {out : Option Outgoing}
    (advanced : Round.Advanced (net.nodes proposal.proposer) proposal.round node round out) :
    Accounted mesh nodes past (((net.setNode proposal.proposer node).setRound r proposal
      round).send (out.map (Packet.ofOutgoing r)).toList) := by
  have counted := accounted.rounds proposal (List.mem_of_getElem? here)
  cases advanced with
  | committed commits =>
      have backed := quorumBacked_of_commits here accounted commits
      have distinct := counted.distinct.of_append_left
      refine accounted.next (roster_update rfl) (fun i key value held => ?_) (fun q member => ?_)
        (stamp_of_set here rfl rfl rfl) (fun packet member => .inl (by simpa using member))
      · rcases entry_commit held with before | ⟨-, rfl, rfl⟩
        · exact .inl before
        · exact .inr (.inl backed)
      · rcases MeshState.mem_of_mem_setRound member with before | rfl
        · exact .inl before
        · exact .inr ⟨counted.proposed, List.nil_sublist _, by simpa [Phase.ballots] using distinct,
            counted.votes, fun _ => backed⟩
  | asked peer uri rest phase =>
      have ballots := counted.ballots
      have distinct := counted.distinct
      rw [phase] at ballots distinct
      refine accounted.next (roster_update rfl)
        (fun i key value held => .inl (old_entry held (ledger_update rfl))) (fun q member => ?_)
        (stamp_of_set here rfl rfl rfl) (fun packet member => ?_)
      · rcases MeshState.mem_of_mem_setRound member with before | rfl
        · exact .inl before
        · exact .inr ⟨counted.proposed, ballots, distinct, counted.votes,
            fun sending => absurd rfl sending⟩
      · rcases List.mem_append.mp member with before | new
        · exact .inl before
        · obtain rfl := List.mem_singleton.mp new
          refine .inr ⟨proposal.proposer, proposal.round.key, proposal.round.value,
            stamp_eq here, ?_,
            PyDict.get?_of_mem (ballots.subset List.mem_cons_self)⟩
          rw [accounted.nodeId]
  | sent uri rest live phase =>
      have backed := counted.backed (by simp [phase, Phase.uris, liveUri_of_ne live])
      have distinct := counted.distinct.of_append_left
      refine accounted.next (roster_update rfl)
        (fun i key value held => .inl (old_entry held (ledger_update rfl))) (fun q member => ?_)
        (stamp_of_set here rfl rfl rfl) (fun packet member => ?_)
      · rcases MeshState.mem_of_mem_setRound member with before | rfl
        · exact .inl before
        · exact .inr ⟨counted.proposed, List.nil_sublist _, by simpa [Phase.ballots] using distinct,
            counted.votes, fun _ => backed⟩
      · rcases List.mem_append.mp member with before | new
        · exact .inl before
        · obtain rfl := List.mem_singleton.mp new
          refine .inr (.inl
            ⟨proposal.proposer, proposal.round.key, proposal.round.value, ?_, backed⟩)
          rw [accounted.nodeId]
  | moved _ phase roster ledger ballots uris =>
      refine accounted.next (roster_update roster)
        (fun i key value held => .inl (old_entry held (ledger_update ledger))) (fun q member => ?_)
        (stamp_of_set here rfl rfl rfl) (fun packet member => .inl (by simpa using member))
      rcases MeshState.mem_of_mem_setRound member with before | rfl
      · exact .inl before
      · exact .inr (counted.moved ballots uris)

theorem Accounted.answered (accounted : Accounted mesh nodes past net) {response : Option Json}
    (answered : Round.Answered (net.nodes proposal.proposer) proposal.round response node round)
    (cast : ∀ peer uri rest, proposal.round.phase = .waiting peer uri rest →
      response.any grants = true →
        PeerVoted nodes past proposal.proposer proposal.round.key proposal.round.value peer) :
    Accounted mesh nodes past ((net.setNode proposal.proposer node).setRound r proposal round) := by
  have counted := accounted.rounds proposal (List.mem_of_getElem? here)
  have frame := answered.frame
  refine accounted.next (roster_update answered.roster)
    (fun i key value held => .inl (old_entry held (ledger_update frame.2.2.2))) (fun q member => ?_)
    (stamp_of_set here rfl frame.1 frame.2.1) (fun packet => .inl)
  rcases MeshState.mem_of_mem_setRound member with before | rfl
  · exact .inl before
  · refine .inr ?_
    cases answered with
    | granted peer uri rest phase grant =>
        have ballots := counted.ballots
        have distinct := counted.distinct
        rw [phase] at ballots distinct
        refine ⟨counted.proposed, (List.sublist_cons_self _ _).trans ballots, ?_,
          fun voter member => ?_, fun sending => absurd rfl sending⟩
        · simpa [Phase.ballots] using distinct
        · rcases List.mem_append.mp member with before | new
          · exact counted.votes voter before
          · obtain rfl := List.mem_singleton.mp new
            exact cast voter uri rest phase grant
    | moved _ phase roster ledger ballots uris => exact counted.moved ballots uris

end Rounds

/-- A commit in flight is stored where it arrives. -/
theorem Accounted.told (accounted : Accounted mesh nodes past net) {p : ℕ} {message : Json}
    {i : Fin n} (here : net.packets[p]? = some (.oneWay (mesh.uri i) message)) :
    Accounted mesh nodes past
      ((net.drop p).setNode i (dispatch mesh.strOf (net.nodes i) message).2) := by
  rcases dispatch_cases mesh.strOf (net.nodes i) message with
    same | ⟨sender, key, value, commit, known, same⟩
  · rw [same]
    exact (accounted.drop p).next (roster_update rfl)
      (fun _ _ _ held => .inl (old_entry held (ledger_update rfl))) (fun _ => .inl)
      (fun _ _ => id) fun _ => .inl
  · rw [same]
    refine (accounted.drop p).next (roster_update rfl) (fun j k v held => ?_) (fun _ => .inl)
      (fun _ _ => id) fun _ => .inl
    rcases entry_commit held with before | ⟨rfl, rfl, rfl⟩
    · exact .inl before
    · right
      rcases accounted.oneWays _ _ (List.mem_of_getElem? here) with
        ⟨l, k', v', rfl, backed⟩ | ⟨e, member, injected⟩
      · obtain ⟨rfl, rfl⟩ := commit.payload
        exact .inl backed
      · rw [accounted.peers] at known
        exact .inr ⟨e, member, message, sender, injected, commit, known⟩

/-- **A step of the mesh leaves everything accounted for.** -/
theorem Accounted.moved (accounted : Accounted mesh nodes past net)
    (attached : ∀ i, (nodes i).attached = true) {action : MeshAction n}
    {delivery : Option Delivery} (moved : Moved mesh net action delivery net')
    (recorded : ∃ e ∈ past, e.input = action ∧ e.reply = delivery) :
    Accounted mesh nodes past net' := by
  obtain ⟨e, inPast, input, reply⟩ := recorded
  cases moved with
  | idle => exact accounted
  | proposed i key value =>
      have running : (net.nodes i).attached = true :=
        (congrArg (fun r => r.2.1) (accounted.roster i)).trans (attached i)
      rw [Round.start_attached running]
      refine accounted.next (roster_update rfl)
        (fun _ _ _ held => .inl (old_entry held (ledger_update rfl))) (fun q member => ?_)
        (fun r stamp same => ?_) fun _ => .inl
      · rcases List.mem_append.mp member with before | new
        · exact .inl before
        · obtain rfl := List.mem_singleton.mp new
          refine .inr ⟨⟨e, inPast, input⟩, ?_, ?_, fun _ voted => absurd voted List.not_mem_nil,
            fun sending => absurd rfl sending⟩
          · rw [← accounted.peers]
            exact .refl _
          · exact (net.nodes i).peers.nodup
      · obtain ⟨q, at_, same⟩ := Option.map_eq_some_iff.mp same
        have bound := (List.getElem?_eq_some_iff.mp at_).1
        simp only [MeshState.stamp, List.getElem?_append_left bound, at_, Option.map_some, same]
  | advanced r proposal node round out here advanced => exact accounted.advanced here advanced
  | asked p r peer message i here =>
      obtain ⟨j, key, value, stamp, rfl, known⟩ :=
        accounted.requests r peer _ message (List.mem_of_getElem? here)
      rw [dispatch_voteRequest]
      refine (accounted.drop p).next (roster_update rfl)
        (fun _ _ _ held => .inl (old_entry held (ledger_update rfl))) (fun _ => .inl)
        (fun _ _ => id) fun packet member => ?_
      rcases List.mem_append.mp member with before | new
      · exact .inl before
      · obtain ⟨response, answer, rfl⟩ := eq_reply_of_mem_replies new
        rw [answer] at reply
        exact .inr fun grant => ⟨j, key, value, stamp, _, known, e, inPast, response, reply, grant⟩
  | told p message i here => exact accounted.told here
  | replied p r peer uri rest response proposal node round here waits phase answered =>
      refine (accounted.drop p).answered waits answered fun peer' uri' rest' phase' grant => ?_
      obtain ⟨rfl, -, -⟩ := Phase.waiting.inj (phase.symm.trans phase')
      obtain ⟨j, key, value, stamp, voted⟩ :=
        accounted.replies r peer response (List.mem_of_getElem? here) grant
      rw [stamp_eq waits] at stamp
      obtain ⟨rfl, rfl, rfl⟩ := Option.some.inj stamp
      exact voted
  | late p r peer response here => exact accounted.drop p
  | timedOut r proposal node round waits answered =>
      exact accounted.answered waits answered fun _ _ _ _ grant => by cases grant
  | lost p => exact accounted.drop p
  | answeredElsewhere p r peer uri message response here =>
      obtain ⟨j, key, value, stamp, rfl, known⟩ :=
        accounted.requests r peer uri message (List.mem_of_getElem? here)
      refine (accounted.drop p).next (fun _ => rfl) (fun _ _ _ => .inl) (fun _ => .inl)
        (fun _ _ => id) fun packet member => ?_
      rcases List.mem_append.mp member with before | new
      · exact .inl before
      · obtain ⟨answer, rfl, rfl⟩ := eq_reply_of_mem_replies new
        exact .inr fun grant => ⟨j, key, value, stamp, uri, known, e, inPast, answer, reply, grant⟩
  | injected uri message =>
      refine accounted.next (fun _ => rfl) (fun _ _ _ => .inl) (fun _ => .inl) (fun _ _ => id)
        fun packet member => ?_
      rcases List.mem_append.mp member with before | new
      · exact .inl before
      · obtain rfl := List.mem_singleton.mp new
        exact .inr (.inr ⟨e, inPast, input⟩)
  | policed i peer policy node roster ledger =>
      exact accounted.next (roster_update roster)
        (fun _ _ _ held => .inl (old_entry held (ledger_update ledger))) (fun _ => .inl)
        (fun _ _ => id) fun _ => .inl

/-! ## Runs -/

/-- Running nodes to begin with: with transports and empty ledgers, and any peers. -/
structure Fresh (net : MeshState n) : Prop where
  attached : ∀ i, (net.nodes i).attached = true
  ledgers : ∀ i, (net.nodes i).stateLedger = .empty
  proposals : net.proposals = []
  packets : net.packets = []

theorem Fresh.accounted (fresh : Fresh net) : Accounted mesh net.nodes [] net where
  roster _ := rfl
  entries i key value held := by
    rw [fresh.ledgers] at held
    cases held
  rounds q member := by
    rw [fresh.proposals] at member
    cases member
  requests r peer uri message member := by
    rw [fresh.packets] at member
    cases member
  replies r peer response member := by
    rw [fresh.packets] at member
    cases member
  oneWays uri message member := by
    rw [fresh.packets] at member
    cases member

/-- **Every entry of a ledger has a strict majority behind it**, of the node that
proposed it and peers of that node that voted for it when asked for exactly that key
and value -- unless a commit of it, naming a sender the node knows, was made up. -/
theorem ledger_backed (mesh : Topology n) (net : MeshState n) (fresh : Fresh net)
    (actions : List (MeshAction n)) (i : Fin n) (key value : String)
    (held : (((meshMachine mesh).run net actions).nodes i).stateLedger.get? key = some value) :
    QuorumBacked net.nodes ((meshMachine mesh).trace net actions) key value ∨
      Forged mesh net.nodes ((meshMachine mesh).trace net actions) i key value := by
  have accounted := (meshMachine mesh).history_invariant
    (P := fun past net' => Accounted mesh net.nodes past net')
    (fun past net' action accounted =>
      (accounted.mono (List.subset_append_left _ _)).moved fresh.attached
        (meshStep_moved mesh net' action)
        ⟨_, List.mem_append_right _ (List.mem_singleton_self _), rfl, rfl⟩)
    fresh.accounted actions
  exact accounted.entries i key value held

/-- Where nobody makes up a message, no commit was made up. -/
theorem not_forged (mesh : Topology n) (nodes : Fin n → BFTNodeStateSync) (net : MeshState n)
    {actions : List (MeshAction n)}
    (honest : ∀ a ∈ actions, ∀ uri message, a ≠ .inject uri message) (i : Fin n)
    (key value : String) :
    ¬ Forged mesh nodes ((meshMachine mesh).trace net actions) i key value := by
  rintro ⟨e, member, message, sender, injected, -⟩
  have inputs := (meshMachine mesh).trace_invariant_of (P := fun _ => True)
    (fun _ _ _ _ => trivial) (s := net) trivial honest
  exact (inputs e member).2.1 _ message injected

end Accounted

/-! ### Poles -/

namespace Trio

def name : Fin 2 → String
  | 0 => "a"
  | 1 => "b"

def uri : Fin 2 → String
  | 0 => "ws://a"
  | 1 => "ws://b"

def mesh : Topology 2 := ⟨uri, fun _ => "", by decide, by decide⟩

/-- Two nodes that run the code know each other, and a third party. -/
def node (i : Fin 2) : BFTNodeStateSync :=
  ((BFTNodeStateSync.new (name i) true).registerPeer (name i.rev) (some (uri i.rev))).registerPeer
    "c" (some "ws://c")

def net : MeshState 2 := ⟨node, [], []⟩

theorem fresh : Fresh net := ⟨by decide, by decide, rfl, rfl⟩

/-- Node `a` proposes; `b` votes for it, `c` does not answer in time. -/
def outvoted : List (MeshAction 2) :=
  [.propose 0 "k" "v", .proceed 0, .deliver 0, .deliver 0, .proceed 0, .timeout 0, .proceed 0]

/-- The third party sends `a` a commit of its own making. -/
def forged : List (MeshAction 2) :=
  [.inject "ws://a" (commitPayload "c" "k" "v"), .deliver 0]

end Trio

/-- Satisfiable pole: an entry with two of three votes. -/
theorem ledger_backed_outvoted :
    QuorumBacked Trio.node ((meshMachine Trio.mesh).trace Trio.net Trio.outvoted) "k" "v" :=
  (ledger_backed Trio.mesh Trio.net Trio.fresh Trio.outvoted 0 "k" "v"
    (by decide +kernel)).resolve_right
      (not_forged Trio.mesh Trio.node Trio.net (by simp [Trio.outvoted]) 0 "k" "v")

/-- Refuting pole: among three nodes, all registered with each other and one of them
faulty, a made-up commit is applied, and nobody voted for it. -/
theorem forged_commit_unbacked :
    ¬ ∀ (n : ℕ) (mesh : Topology n) (net : MeshState n), Fresh net →
      (∀ i, (net.nodes i).peers.items.length + 1 < 2 * n) →
      (∀ i j, j ≠ i →
        (net.nodes i).peers.get? (net.nodes j).nodeId = some (some (mesh.uri j))) →
      ∀ (actions : List (MeshAction n)) (i : Fin n) (key value : String),
        (((meshMachine mesh).run net actions).nodes i).stateLedger.get? key = some value →
          QuorumBacked net.nodes ((meshMachine mesh).trace net actions) key value := by
  intro backed
  obtain ⟨i, -, voters, -, voted, majority⟩ := backed 2 Trio.mesh Trio.net Trio.fresh (by decide)
    (by decide) Trio.forged 0 "k" "v" (by decide +kernel)
  have silent : ∀ e ∈ (meshMachine Trio.mesh).trace Trio.net Trio.forged,
      (e.reply.bind Delivery.response).isNone = true := by decide +kernel
  have nobody : voters = [] := by
    refine List.eq_nil_iff_forall_not_mem.mpr fun peer member => ?_
    obtain ⟨uri, -, e, inTrace, response, reply, -⟩ := voted peer member
    have none_ := silent e inTrace
    rw [reply] at none_
    cases none_
  have peers : ∀ i, (Trio.net.nodes i).peers.items.length = 2 := by decide
  rw [nobody, peers] at majority
  exact absurd majority (by decide)

end CentaurApex.Mesh
