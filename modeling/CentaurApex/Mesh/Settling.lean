/-
# Mesh.Settling -- the mesh comes to rest

A proposal asks one peer after the other and waits for each, so a mesh could stand still
with an answer that nobody owes.  It does not: on a network that loses nothing, whoever is
waited for has the request or its reply on the way (`Answering`), and every delivery and
every step of a proposal uses up some of a finite load (`lightens`).  So whatever the order,
the mesh comes to rest, and only with every proposal at its end and every message delivered
(`mesh_settles`).

Where nobody is marked faulty and no answer comes too late, every vote is granted, and
every proposal commits; with `commits_applied_once`, every node then has applied every
update that was ever proposed, once (`healthy_mesh_applies_all`).
-/
import CentaurApex.Mesh.Commits

namespace CentaurApex.Mesh

open CentaurApex.Theory
open CentaurApex.Theory.Python

set_option autoImplicit false

/-! ## Answers -/

/-- A vote request is answered; the vote is refused where the proposer is marked faulty. -/
theorem dispatch_voteRequest_answer (strOf : Json → String) (node : BFTNodeStateSync)
    (nodeId key value : String) : ∃ response,
      (dispatch strOf node (voteRequestPayload nodeId key value)).1 = some response ∧
        (node.policies.get? nodeId ≠ some .faulty → grants response = true) := by
  obtain ⟨fields, message, op, proposer⟩ : ∃ fields, voteRequestPayload nodeId key value =
      .obj fields ∧ Python.get fields "op" .null = .str "vote_request" ∧
        Python.get fields "proposer" .null = .str nodeId := ⟨_, rfl, rfl, rfl⟩
  simp only [message, dispatch, createHandler, op, proposer, policyOf, bind, Except.bind, pure,
    Except.pure]
  by_cases faulty : node.policies.get? nodeId = some .faulty
  · rw [if_pos faulty]
    exact ⟨_, rfl, fun honest => absurd faulty honest⟩
  · rw [if_neg faulty]
    exact ⟨_, rfl, fun _ => rfl⟩

namespace Round

/-- What a step of a proposal does, with the reason for it. -/
inductive Took (node : BFTNodeStateSync) (round : Round) :
    BFTNodeStateSync → Round → Option Outgoing → Prop
  | nothing (still : (∃ peer uri rest, round.phase = .waiting peer uri rest) ∨
      ∃ committed, round.phase = .finished committed) : Took node round node round none
  | committed (commits : Commits node round) :
      Took node round (node.commit round.key round.value)
        { round with phase := .sending (node.peers.items.map Prod.snd) } none
  | rejected (phase : round.phase = .asking []) (minority : ¬ round.votes ≥ node.quorumFor) :
      Took node round { node with rejectedCount := node.rejectedCount + 1 }
        { round with phase := .finished false } none
  | skipped (ballot : String × Option String) (rest : List (String × Option String))
      (node' : BFTNodeStateSync) (phase : round.phase = .asking (ballot :: rest))
      (out : node.policies.get? ballot.1 = some .faulty ∨ liveUri ballot.2 = none) :
      Took node round node' { round with phase := .asking rest } none
  | asked (peer uri : String) (rest : List (String × Option String))
      (phase : round.phase = .asking ((peer, some uri) :: rest)) :
      Took node round node { round with phase := .waiting peer uri rest }
        (some (.requestVote peer uri (voteRequestPayload node.nodeId round.key round.value)))
  | passed (uri : Option String) (rest : List (Option String))
      (phase : round.phase = .sending (uri :: rest)) :
      Took node round node { round with phase := .sending rest } none
  | sent (uri : String) (rest : List (Option String))
      (phase : round.phase = .sending (some uri :: rest)) :
      Took node round node { round with phase := .sending rest }
        (some (.sendMessage uri (commitPayload node.nodeId round.key round.value)))
  | ended (phase : round.phase = .sending []) :
      Took node round node { round with phase := .finished true } none

theorem advance_took (node : BFTNodeStateSync) (round : Round) :
    Took node round (advance node round).1 (advance node round).2.1 (advance node round).2.2 := by
  obtain ⟨key, value, granted, phase⟩ := round
  cases phase with
  | asking rest =>
      cases rest with
      | nil =>
          by_cases quorum : (Round.mk key value granted (.asking [])).votes ≥ node.quorumFor
          · simp only [advance, if_pos quorum]
            exact .committed ⟨rfl, quorum⟩
          · simp only [advance, if_neg quorum]
            exact .rejected rfl quorum
      | cons ballot rest =>
          obtain ⟨peer, uri⟩ := ballot
          by_cases faulty : node.policies.get? peer = some .faulty
          · simp only [advance, if_pos faulty]
            exact .skipped (peer, uri) rest _ rfl (.inl faulty)
          · cases live : liveUri uri with
            | none =>
                simp only [advance, if_neg faulty, live]
                exact .skipped (peer, uri) rest _ rfl (.inr live)
            | some at_ =>
                obtain rfl := eq_some_of_liveUri live
                simp only [advance, if_neg faulty, live]
                exact .asked peer at_ rest rfl
  | waiting peer uri rest => exact .nothing (.inl ⟨peer, uri, rest, rfl⟩)
  | sending uris =>
      cases uris with
      | nil => exact .ended rfl
      | cons uri rest =>
          cases live : liveUri uri with
          | none =>
              simp only [advance, live]
              exact .passed uri rest rfl
          | some at_ =>
              obtain rfl := eq_some_of_liveUri live
              simp only [advance, live]
              exact .sent at_ rest rfl
  | finished committed => exact .nothing (.inr ⟨committed, rfl⟩)

section Took

variable {node node' : BFTNodeStateSync} {round round' : Round} {out : Option Outgoing}
  (took : Took node round node' round' out)

include took

theorem Took.ballots : round'.phase.ballots ⊆ round.phase.ballots := by
  cases took with
  | skipped ballot rest _ phase =>
      rw [phase]
      exact List.subset_cons_self _ _
  | asked peer uri rest phase =>
      rw [phase]
      exact List.Subset.refl _
  | nothing => exact List.Subset.refl _
  | _ => exact List.nil_subset _

/-- Who is asked is the next ballot. -/
theorem Took.asks {peer uri : String} {payload : Json}
    (asks : out = some (.requestVote peer uri payload)) :
    (peer, some uri) ∈ round.phase.ballots := by
  cases took with
  | asked peer' uri' rest phase =>
      obtain ⟨rfl, rfl, -⟩ := Outgoing.requestVote.inj (Option.some.inj asks)
      rw [phase]
      exact List.mem_cons_self
  | sent => cases asks
  | _ => cases asks

/-- A round that waits has just asked, or waited before. -/
theorem Took.waits {peer uri : String} {rest : List (String × Option String)}
    (waits : round'.phase = .waiting peer uri rest) :
    round.phase = .waiting peer uri rest ∨
      ∃ payload, out = some (.requestVote peer uri payload) := by
  cases took with
  | nothing => exact .inl waits
  | asked peer' uri' rest' phase =>
      obtain ⟨rfl, rfl, -⟩ := Phase.waiting.inj waits
      exact .inr ⟨_, rfl⟩
  | _ => cases waits

end Took

theorem answered_asks (node : BFTNodeStateSync) {round : Round} {peer uri : String}
    {rest : List (String × Option String)} (waits : round.phase = .waiting peer uri rest)
    (response : Option Json) : (round.answered node response).2.phase = .asking rest := by
  unfold answered
  rw [waits]
  dsimp only
  split <;> rfl

/-- What a proposal has left to do at most, where no node has more than `peers` peers. -/
def load (peers : ℕ) (round : Round) : ℕ :=
  match round.phase with
  | .asking rest => 4 * rest.length + 3 * peers + 3
  | .waiting _ _ rest => 4 * rest.length + 3 * peers + 4
  | .sending uris => 3 * uris.length + 1
  | .finished _ => 0

/-- A step of a proposal uses up some of its load, what it sends included. -/
theorem Took.lightens {node node' : BFTNodeStateSync} {round round' : Round}
    {out : Option Outgoing} (took : Took node round node' round' out) {peers : ℕ}
    (few : node.peers.items.length ≤ peers) :
    (node' = node ∧ round' = round ∧ out = none) ∧ ((∃ peer uri rest,
        round.phase = .waiting peer uri rest) ∨ ∃ committed, round.phase = .finished committed) ∨
      round'.load peers + (out.map fun _ => 2).getD 0 <
        round.load peers := by
  cases took with
  | nothing still => exact .inl ⟨⟨rfl, rfl, rfl⟩, still⟩
  | committed commits =>
      right
      simp only [load, commits.1, List.length_map, List.length_nil, Option.map_none,
        Option.getD_none]
      omega
  | rejected phase | ended phase =>
      right
      simp only [load, phase, Option.map_none, Option.getD_none]
      omega
  | skipped _ _ _ phase | passed _ _ phase =>
      right
      simp only [load, phase, List.length_cons, Option.map_none, Option.getD_none]
      omega
  | asked _ _ _ phase | sent _ _ phase =>
      right
      simp only [load, phase, List.length_cons, Option.map_some, Option.getD_some]
      omega

end Round

/-! ## The load of the mesh -/

/-- A request has its reply before it. -/
def Packet.load : Packet → ℕ
  | .reply _ _ _ => 1
  | _ => 2

section Load

variable {n : ℕ} {mesh : Topology n} {net : MeshState n}

/-- What is left to do: of the packets, and of the proposals. -/
def MeshState.load (net : MeshState n) : ℕ :=
  (net.packets.map Packet.load).sum +
    (net.proposals.map fun proposal => proposal.round.load n).sum

theorem load_drop {p : ℕ} {packet : Packet} (here : net.packets[p]? = some packet) :
    net.load = packet.load + (net.drop p).load := by
  have taken := ((cons_eraseIdx_perm here).map Packet.load).sum_eq
  rw [List.map_cons, List.sum_cons] at taken
  rw [MeshState.load, ← taken, Nat.add_assoc]
  rfl

theorem load_send (packets : List Packet) :
    (net.send packets).load = net.load + (packets.map Packet.load).sum := by
  simp only [MeshState.load, MeshState.send_packets, MeshState.send_proposals, List.map_append,
    List.sum_append]
  omega

theorem load_setRound {r : ℕ} {proposal : Proposal n} (round : Round)
    (here : net.proposals[r]? = some proposal) :
    (net.setRound r proposal round).load + proposal.round.load n =
      net.load + round.load n := by
  have set_ := ((cons_set_perm here { proposal with round }).map fun q => q.round.load n).sum_eq
  simp only [List.map_cons, List.sum_cons] at set_
  simp only [MeshState.load, MeshState.setRound_packets, MeshState.setRound_proposals]
  omega

@[simp] theorem load_setNode {i : Fin n} {node : BFTNodeStateSync} :
    (net.setNode i node).load = net.load := rfl

/-- A proposal that has its answer has less to do. -/
theorem load_answered {r : ℕ} {proposal : Proposal n} (here : net.proposals[r]? = some proposal)
    {peer uri : String} {rest : List (String × Option String)}
    (phase : proposal.round.phase = .waiting peer uri rest) (node : BFTNodeStateSync)
    (response : Option Json) :
    (net.setRound r proposal (proposal.round.answered node response).2).load <
      net.load := by
  have set_ := load_setRound (proposal.round.answered node response).2 here
  rw [Round.load, Round.load, Round.answered_asks node phase response, phase] at set_
  dsimp only at set_
  omega

end Load

/-! ## Whoever is waited for answers -/

section Answering

variable {n : ℕ} (mesh : Topology n)

/-- Only nodes of the mesh are asked, and of a peer that is waited for the request or its
reply is on the way. -/
structure Answering (net : MeshState n) : Prop where
  upright : Upright mesh net
  ballots : ∀ q ∈ net.proposals, ∀ ballot ∈ q.round.phase.ballots, ∃ i, ballot.2 = some (mesh.uri i)
  requests : ∀ r peer uri message, .request r peer uri message ∈ net.packets → ∃ i, uri = mesh.uri i
  awaited : ∀ r peer, net.awaits r = some peer →
    (∃ uri message, .request r peer uri message ∈ net.packets) ∨
      ∃ response, .reply r peer response ∈ net.packets

variable {mesh} {net net' : MeshState n} {r : ℕ} {proposal : Proposal n} {round : Round}

theorem awaits_setRound (here : net.proposals[r]? = some proposal) {r' : ℕ} {peer : String}
    (awaits : (net.setRound r proposal round).awaits r' = some peer) :
    r' ≠ r ∧ net.awaits r' = some peer ∨
      r' = r ∧ ∃ uri rest, round.phase = .waiting peer uri rest := by
  obtain ⟨bound, -⟩ := List.getElem?_eq_some_iff.mp here
  obtain ⟨q, at_, uri, rest, phase⟩ := MeshState.awaits_eq_some awaits
  rw [MeshState.setRound_proposals, List.getElem?_set] at at_
  by_cases same : r = r'
  · subst same
    rw [if_pos rfl, if_pos bound] at at_
    obtain rfl := Option.some.inj at_
    exact .inr ⟨rfl, uri, rest, phase⟩
  · rw [if_neg same] at at_
    refine .inl ⟨fun same' => same same'.symm, ?_⟩
    simp only [MeshState.awaits, at_, phase]

namespace Answering

/-- Nothing that is waited for has gone, and nobody else is asked. -/
theorem next (answering : Answering mesh net) (upright : Upright mesh net')
    (ballots : ∀ q ∈ net'.proposals, q ∈ net.proposals ∨
      ∀ ballot ∈ q.round.phase.ballots, ∃ i, ballot.2 = some (mesh.uri i))
    (requests : ∀ r peer uri message, .request r peer uri message ∈ net'.packets →
      .request r peer uri message ∈ net.packets ∨ ∃ i, uri = mesh.uri i)
    (awaited : ∀ r peer, net'.awaits r = some peer →
      (∃ uri message, .request r peer uri message ∈ net'.packets) ∨
        ∃ response, .reply r peer response ∈ net'.packets) : Answering mesh net' where
  upright := upright
  ballots q member := (ballots q member).elim (answering.ballots q) id
  requests r peer uri message member :=
    (requests r peer uri message member).elim (answering.requests r peer uri message) id
  awaited := awaited

theorem proceed (answering : Answering mesh net) (here : net.proposals[r]? = some proposal)
    {node : BFTNodeStateSync} {out : Option Outgoing}
    (took : Round.Took (net.nodes proposal.proposer) proposal.round node round out)
    (upright : Upright mesh (((net.setNode proposal.proposer node).setRound r proposal round).send
      (out.map (Packet.ofOutgoing r)).toList)) :
    Answering mesh (((net.setNode proposal.proposer node).setRound r proposal round).send
      (out.map (Packet.ofOutgoing r)).toList) := by
  have known := answering.ballots proposal (List.mem_of_getElem? here)
  refine answering.next upright (fun q member => ?_) (fun r' peer uri message member => ?_)
    fun r' peer awaits => ?_
  · rcases MeshState.mem_of_mem_setRound member with before | rfl
    · exact .inl before
    · exact .inr fun ballot member => known ballot (took.ballots member)
  · rcases List.mem_append.mp member with before | new
    · exact .inl before
    · obtain ⟨outgoing, sent, packet⟩ := Option.mem_map.mp (Option.mem_toList.mp new)
      cases outgoing with
      | requestVote peer' uri' payload =>
          obtain ⟨-, -, rfl, -⟩ := Packet.request.inj packet
          obtain ⟨i, at_⟩ := known _ (took.asks sent)
          exact .inr ⟨i, Option.some.inj at_⟩
      | sendMessage uri' payload => cases packet
  · have earlier (awaits : net.awaits r' = some peer) :
        (∃ uri message, .request r' peer uri message ∈ net.packets ++
          (out.map (Packet.ofOutgoing r)).toList) ∨
          ∃ response, .reply r' peer response ∈ net.packets ++
            (out.map (Packet.ofOutgoing r)).toList := by
      rcases answering.awaited r' peer awaits with ⟨uri, message, request⟩ | ⟨response, reply⟩
      · exact .inl ⟨uri, message, List.mem_append_left _ request⟩
      · exact .inr ⟨response, List.mem_append_left _ reply⟩
    have at_ : (net.setNode proposal.proposer node).proposals[r]? = some proposal := here
    rcases awaits_setRound at_ awaits with
      ⟨-, before⟩ | ⟨rfl, uri, rest, phase⟩
    · exact earlier before
    · rcases took.waits phase with before | ⟨payload, rfl⟩
      · exact earlier (by simp only [MeshState.awaits, here, before])
      · exact .inl ⟨uri, payload, List.mem_append_right _ List.mem_cons_self⟩

/-- The packet at `p` is delivered, and nobody waits for it any more. -/
theorem drop (answering : Answering mesh net) {p : ℕ} {packet : Packet}
    (here : net.packets[p]? = some packet)
    (other : ∀ r peer, net.awaits r = some peer →
      (∀ uri message, packet ≠ .request r peer uri message) ∧
        ∀ response, packet ≠ .reply r peer response) : Answering mesh (net.drop p) := by
  refine answering.next (answering.upright.drop p) (fun _ => .inl)
    (fun _ _ _ _ member => .inl (MeshState.mem_of_mem_drop member)) fun r peer awaits => ?_
  obtain ⟨noRequest, noReply⟩ := other r peer awaits
  rcases answering.awaited r peer awaits with ⟨uri, message, request⟩ | ⟨response, reply⟩
  · exact .inl ⟨uri, message, (MeshState.mem_drop here request).resolve_left
      fun same => noRequest uri message same.symm⟩
  · exact .inr ⟨response, (MeshState.mem_drop here reply).resolve_left
      fun same => noReply response same.symm⟩

/-- A proposal has its answer, or waits no longer, and asks the next peer. -/
theorem answered (answering : Answering mesh net) (waits : net.proposals[r]? = some proposal)
    {peer uri : String} {rest : List (String × Option String)}
    (phase : proposal.round.phase = .waiting peer uri rest) (response : Option Json)
    {packets : List Packet} (kept : packets ⊆ net.packets)
    (others : ∀ packet ∈ net.packets, packet ∈ packets ∨ ∃ peer' response',
      packet = .reply r peer' response')
    (upright : Upright mesh (({ net with packets }.setNode proposal.proposer
      (proposal.round.answered (net.nodes proposal.proposer) response).1).setRound r proposal
      (proposal.round.answered (net.nodes proposal.proposer) response).2)) :
    Answering mesh (({ net with packets }.setNode proposal.proposer
      (proposal.round.answered (net.nodes proposal.proposer) response).1).setRound r proposal
      (proposal.round.answered (net.nodes proposal.proposer) response).2) := by
  have asking := Round.answered_asks (net.nodes proposal.proposer) phase response
  have at_ : ({ net with packets }.setNode proposal.proposer
    (proposal.round.answered (net.nodes proposal.proposer) response).1).proposals[r]? =
      some proposal := waits
  refine answering.next upright (fun q member => ?_) (fun _ _ _ _ member => .inl (kept member))
    fun r' peer' awaits => ?_
  · rcases MeshState.mem_of_mem_setRound member with before | rfl
    · exact .inl before
    · refine .inr fun ballot member => ?_
      rw [asking] at member
      refine answering.ballots proposal (List.mem_of_getElem? waits) ballot ?_
      rw [phase]
      exact List.mem_cons_of_mem _ member
  · rcases awaits_setRound at_ awaits with
      ⟨apart, before⟩ | ⟨-, uri', rest', waiting⟩
    · rcases answering.awaited r' peer' before with ⟨uri', message, request⟩ | ⟨response', reply⟩
      · refine .inl ⟨uri', message, (others _ request).resolve_right ?_⟩
        rintro ⟨_, _, same⟩
        cases same
      · refine .inr ⟨response', (others _ reply).resolve_right ?_⟩
        rintro ⟨_, _, same⟩
        exact apart (Packet.reply.inj same).1
    · rw [asking] at waiting
      cases waiting

theorem deliver (answering : Answering mesh net) {p : ℕ} {packet : Packet}
    (here : net.packets[p]? = some packet) : Answering mesh (meshStep mesh net (.deliver p)).2 := by
  have reliable : (MeshAction.deliver p : MeshAction n).Reliable := trivial
  have upright := answering.upright.moved reliable (meshStep_moved mesh net (.deliver p))
  have member := List.mem_of_getElem? here
  cases packet with
  | request r peer uri message =>
      obtain ⟨i, rfl⟩ := answering.requests r peer uri message member
      obtain ⟨nodeId, key, value, rfl⟩ := answering.upright.requests r peer _ message member
      obtain ⟨response, answer, -⟩ :=
        dispatch_voteRequest_answer mesh.strOf (net.nodes i) nodeId key value
      simp only [meshStep, here, mesh.node?_uri, dispatch_voteRequest, answer] at upright ⊢
      refine answering.next upright (fun _ => .inl) (fun r' peer' uri' message' there => ?_)
        fun r' peer' awaits => ?_
      · rcases List.mem_append.mp there with before | new
        · exact .inl (MeshState.mem_of_mem_drop before)
        · obtain ⟨_, -, same⟩ := eq_reply_of_mem_replies new
          cases same
      · rcases answering.awaited r' peer' awaits with ⟨uri', message', request⟩ | ⟨response', reply⟩
        · rcases MeshState.mem_drop here request with same | still
          · obtain ⟨rfl, rfl, -⟩ := Packet.request.inj same
            exact .inr ⟨response, List.mem_append_right _ List.mem_cons_self⟩
          · exact .inl ⟨uri', message', List.mem_append_left _ still⟩
        · exact .inr ⟨response', List.mem_append_left _
            ((MeshState.mem_drop here reply).resolve_left (by simp))⟩
  | reply r peer response =>
      by_cases awaits : net.awaits r = some peer
      · obtain ⟨proposal, waits, uri, rest, phase⟩ := MeshState.awaits_eq_some awaits
        have same : (net.drop p).proposals[r]? = some proposal := waits
        simp only [meshStep, here, if_pos awaits, MeshState.respond_eq same] at upright ⊢
        refine answering.answered waits phase (some response) (List.eraseIdx_subset)
          (fun packet there => ?_) upright
        rcases MeshState.mem_drop here there with gone | still
        · exact .inr ⟨_, _, gone⟩
        · exact .inl still
      · simp only [meshStep, here, if_neg awaits]
        refine answering.drop here fun r' peer' awaits' => ⟨fun _ _ => by simp, fun _ same => ?_⟩
        obtain ⟨rfl, rfl, -⟩ := Packet.reply.inj same
        exact awaits awaits'
  | oneWay uri message =>
      have dropped := answering.drop here fun _ _ _ => ⟨fun _ _ => by simp, fun _ => by simp⟩
      obtain ⟨_, i, _, _, -, rfl, -⟩ := answering.upright.oneWays _ _ member
      simp only [meshStep, here, mesh.node?_uri] at upright ⊢
      exact dropped.next upright (fun _ => .inl) (fun _ _ _ _ => .inl) dropped.awaited

/-- **On a reliable network whoever is waited for keeps being about to answer.** -/
theorem step (answering : Answering mesh net) (action : MeshAction n)
    (reliable : action.Reliable) : Answering mesh (meshStep mesh net action).2 := by
  have upright := answering.upright.moved reliable (meshStep_moved mesh net action)
  cases action with
  | propose i key value =>
      simp only [meshStep, Round.start_attached (answering.upright.connected.attached i)]
        at upright ⊢
      refine answering.next upright (fun q member => ?_) (fun _ _ _ _ => .inl)
        fun r peer awaits => ?_
      · rcases List.mem_append.mp member with before | new
        · exact .inl before
        · obtain rfl := List.mem_singleton.mp new
          refine .inr fun ballot known => ?_
          obtain ⟨j, -, -, at_⟩ :=
            (answering.upright.connected.peers i ballot.1 ballot.2).mp known
          exact ⟨j, at_⟩
      · obtain ⟨q, at_, uri, rest, phase⟩ := MeshState.awaits_eq_some awaits
        refine answering.awaited r peer ?_
        dsimp only at at_
        rcases Nat.lt_or_ge r net.proposals.length with old | new
        · rw [List.getElem?_append_left old] at at_
          simp only [MeshState.awaits, at_, phase]
        · rw [List.getElem?_append_right new] at at_
          obtain rfl := List.mem_singleton.mp (List.mem_of_getElem? at_)
          cases phase
  | proceed r =>
      cases here : net.proposals[r]? with
      | none =>
          simp only [meshStep, here]
          exact answering
      | some proposal =>
          simp only [meshStep, here] at upright ⊢
          exact answering.proceed here (Round.advance_took _ _) upright
  | deliver p =>
      cases here : net.packets[p]? with
      | none =>
          simp only [meshStep, here]
          exact answering
      | some packet => exact answering.deliver here
  | timeout r =>
      cases awaits : net.awaits r with
      | none =>
          simp only [meshStep, awaits]
          exact answering
      | some peer =>
          obtain ⟨proposal, waits, uri, rest, phase⟩ := MeshState.awaits_eq_some awaits
          simp only [meshStep, awaits, Option.isSome_some, if_true, MeshState.respond_eq waits]
            at upright ⊢
          exact answering.answered waits phase none (List.Subset.refl _) (fun _ => .inl) upright
  | setPeerPolicy i peer policy =>
      by_cases known : (net.nodes i).peers.Contains peer
      · simp only [meshStep, BFTNodeStateSync.setPeerPolicy, if_pos known] at upright ⊢
        exact answering.next upright (fun _ => .inl) (fun _ _ _ _ => .inl) answering.awaited
      · simp only [meshStep, BFTNodeStateSync.setPeerPolicy, if_neg known]
        exact answering
  | lose p => exact reliable.elim
  | answer p response => exact reliable.elim
  | inject uri message => exact reliable.elim

end Answering

end Answering

/-! ## Coming to rest -/

/-- What happens without anybody's doing: a message is delivered, a proposal goes on. -/
def MeshAction.Network {n : ℕ} : MeshAction n → Prop
  | .proceed _ | .deliver _ => True
  | _ => False

instance {n : ℕ} : (action : MeshAction n) → Decidable action.Network
  | .proceed _ | .deliver _ => .isTrue trivial
  | .propose _ _ _ | .timeout _ | .lose _ | .answer _ _ | .inject _ _ | .setPeerPolicy _ _ _ =>
      .isFalse id

theorem MeshAction.Network.reliable {n : ℕ} {action : MeshAction n} (network : action.Network) :
    action.Reliable := by
  cases action <;> trivial

/-- Every message has arrived, and every proposal is at its end. -/
def Settled {n : ℕ} (net : MeshState n) : Prop :=
  net.packets = [] ∧ ∀ q ∈ net.proposals, ∃ committed, q.round.phase = .finished committed

instance {n : ℕ} (net : MeshState n) : Decidable (Settled net) :=
  inferInstanceAs (Decidable (_ ∧ _))

section Rest

variable {n : ℕ} {mesh : Topology n} {net : MeshState n}

theorem deliver_lightens (answering : Answering mesh net) {p : ℕ} {packet : Packet}
    (here : net.packets[p]? = some packet) :
    (meshStep mesh net (.deliver p)).2.load < net.load := by
  have member := List.mem_of_getElem? here
  have taken := load_drop here
  cases packet with
  | request r peer uri message =>
      obtain ⟨i, rfl⟩ := answering.requests r peer uri message member
      obtain ⟨nodeId, key, value, rfl⟩ := answering.upright.requests r peer _ message member
      obtain ⟨response, answer, -⟩ :=
        dispatch_voteRequest_answer mesh.strOf (net.nodes i) nodeId key value
      simp only [meshStep, here, mesh.node?_uri, answer]
      rw [load_send, load_setNode, taken]
      change (net.drop p).load + 1 < 2 + (net.drop p).load
      omega
  | reply r peer response =>
      change net.load = 1 + (net.drop p).load at taken
      by_cases awaits : net.awaits r = some peer
      · obtain ⟨proposal, waits, uri, rest, phase⟩ := MeshState.awaits_eq_some awaits
        have same : (net.drop p).proposals[r]? = some proposal := waits
        simp only [meshStep, here, if_pos awaits, MeshState.respond_eq same]
        have at_ : ((net.drop p).setNode proposal.proposer
          (proposal.round.answered (net.nodes proposal.proposer) (some response)).1).proposals[r]? =
            some proposal := waits
        have fewer := load_answered at_ phase (net.nodes proposal.proposer) (some response)
        rw [load_setNode] at fewer
        exact fewer.trans (by omega)
      · simp only [meshStep, here, if_neg awaits]
        omega
  | oneWay uri message =>
      obtain ⟨_, i, _, _, -, rfl, -⟩ := answering.upright.oneWays _ _ member
      simp only [meshStep, here, mesh.node?_uri]
      rw [taken]
      change (net.drop p).load < 2 + (net.drop p).load
      omega

/-- A node has no more peers than there are nodes. -/
theorem FullyConnected.few_peers {nodes : Fin n → BFTNodeStateSync}
    (connected : FullyConnected mesh nodes) (i : Fin n) : (nodes i).peers.items.length ≤ n := by
  have known : (nodes i).peers.items.map Prod.fst ⊆
      (List.finRange n).map fun j => (nodes j).nodeId := by
    intro peer member
    obtain ⟨⟨_, uri⟩, item, rfl⟩ := List.mem_map.mp member
    obtain ⟨j, -, rfl, -⟩ := (connected.peers i _ uri).mp item
    exact List.mem_map.mpr ⟨j, List.mem_finRange j, rfl⟩
  have few := (List.subperm_of_subset (nodes i).peers.nodup known).length_le
  rwa [List.length_map, List.length_map, List.length_finRange] at few

/-- What a proposal sends weighs the same, whatever it is. -/
theorem load_outgoing (r : ℕ) (out : Option Outgoing) :
    ((out.map (Packet.ofOutgoing r)).toList.map Packet.load).sum =
      (out.map fun _ => 2).getD 0 := by
  cases out with
  | none => rfl
  | some outgoing => cases outgoing <;> rfl

theorem unchanged_proceed {r : ℕ} {proposal : Proposal n}
    (here : net.proposals[r]? = some proposal) :
    ((net.setNode proposal.proposer (net.nodes proposal.proposer)).setRound r proposal
      proposal.round).send [] = net := by
  obtain ⟨bound, same⟩ := List.getElem?_eq_some_iff.mp here
  have set_ : net.proposals.set r proposal = net.proposals := by
    rw [← same, List.set_getElem_self]
  simp only [MeshState.setNode, MeshState.setRound, MeshState.send, Function.update_eq_self,
    List.append_nil, set_]

theorem proceed_lightens (connected : FullyConnected mesh net.nodes) {r : ℕ}
    {proposal : Proposal n} (here : net.proposals[r]? = some proposal) :
    (meshStep mesh net (.proceed r)).2 = net ∧ ((∃ peer uri rest,
        proposal.round.phase = .waiting peer uri rest) ∨
          ∃ committed, proposal.round.phase = .finished committed) ∨
      (meshStep mesh net (.proceed r)).2.load < net.load := by
  simp only [meshStep, here]
  have took := Round.advance_took (net.nodes proposal.proposer) proposal.round
  generalize proposal.round.advance (net.nodes proposal.proposer) = result at took ⊢
  obtain ⟨node, round, out⟩ := result
  dsimp only at took ⊢
  rcases took.lightens (connected.few_peers _) with ⟨⟨rfl, rfl, rfl⟩, still⟩ | less
  · exact .inl ⟨unchanged_proceed here, still⟩
  · right
    have at_ : (net.setNode proposal.proposer node).proposals[r]? = some proposal := here
    have set_ := load_setRound round at_
    rw [load_setNode] at set_
    rw [load_send, load_outgoing]
    omega

/-- **What the network does uses up the load of the mesh**, or changes nothing. -/
theorem lightens (answering : Answering mesh net) {action : MeshAction n}
    (network : action.Network) : (meshStep mesh net action).2 = net ∨
      (meshStep mesh net action).2.load < net.load := by
  cases action with
  | proceed r =>
      cases here : net.proposals[r]? with
      | none =>
          left
          simp only [meshStep, here]
      | some proposal => exact (proceed_lightens answering.upright.connected here).imp And.left id
  | deliver p =>
      cases here : net.packets[p]? with
      | none =>
          left
          simp only [meshStep, here]
      | some packet => exact .inr (deliver_lightens answering here)
  | _ => exact network.elim

/-- **There is something to do until the mesh is settled.** -/
theorem enabled (answering : Answering mesh net) (busy : ¬ Settled net) :
    ∃ action : MeshAction n, action.Network ∧ (meshStep mesh net action).2.load < net.load := by
  cases packets : net.packets with
  | cons packet later =>
      have here : net.packets[0]? = some packet := by rw [packets]; rfl
      exact ⟨.deliver 0, trivial, deliver_lightens answering here⟩
  | nil =>
      have going : ∃ q ∈ net.proposals, ∀ committed, q.round.phase ≠ .finished committed := by
        by_contra none_
        push Not at none_
        exact busy ⟨packets, none_⟩
      obtain ⟨q, member, going⟩ := going
      obtain ⟨r, here⟩ := List.mem_iff_getElem?.mp member
      refine ⟨.proceed r, trivial,
        (proceed_lightens answering.upright.connected here).resolve_left ?_⟩
      rintro ⟨-, ⟨peer, uri, rest, phase⟩ | ⟨committed, phase⟩⟩
      · have awaits : net.awaits r = some peer := by simp only [MeshState.awaits, here, phase]
        rcases answering.awaited r peer awaits with ⟨_, _, request⟩ | ⟨_, reply⟩
        · rw [packets] at request
          cases request
        · rw [packets] at reply
          cases reply
      · exact going committed phase

/-- Nothing is coming to anybody in a settled mesh. -/
theorem Settled.coming (settled : Settled net) (i : Fin n) : comingTo mesh net i = [] := by
  rw [comingTo, settled.1, List.flatMap_nil, List.nil_append, List.flatMap_eq_nil_iff]
  intro q member
  obtain ⟨committed, phase⟩ := settled.2 q member
  rw [Round.owes, phase]
  rfl

/-! ## Runs -/

theorem Started.answering (started : Started mesh net) : Answering mesh net where
  upright := started.upright
  ballots q member := by
    rw [started.proposals] at member
    cases member
  requests r peer uri message member := by
    rw [started.packets] at member
    cases member
  awaited r peer awaits := by
    obtain ⟨q, at_, -⟩ := MeshState.awaits_eq_some awaits
    rw [started.proposals] at at_
    cases at_

theorem answering_of_run {actions : List (MeshAction n)} (answering : Answering mesh net)
    (reliable : ∀ a ∈ actions, a.Reliable) : Answering mesh ((meshMachine mesh).run net actions) :=
  (meshMachine mesh).run_invariant_of (P := Answering mesh)
    (fun _ _ reliable answering => answering.step _ reliable) answering reliable

/-- **The mesh comes to rest, and only when it is settled**: after any reliable run, however the
network orders what it does next, it has done its last step that changes anything within a
bound; and as long as a message or a proposal is not at its end, such a step is left. -/
theorem mesh_settles (mesh : Topology n) (net : MeshState n) (started : Started mesh net)
    (actions : List (MeshAction n)) (reliable : ∀ a ∈ actions, a.Reliable) :
    let after := (meshMachine mesh).run net actions
    ∀ more : List (MeshAction n), (∀ a ∈ more, a.Network) →
      (∀ e ∈ (meshMachine mesh).trace after more, e.after ≠ e.before) →
        more.length ≤ after.load ∧
          (Settled ((meshMachine mesh).run after more) ∨ ∃ action : MeshAction n, action.Network ∧
            (meshStep mesh ((meshMachine mesh).run after more) action).2 ≠
              (meshMachine mesh).run after more) := by
  intro after more network moves
  have answering := answering_of_run started.answering reliable
  have steps := (meshMachine mesh).trace_invariant_of (P := Answering mesh)
    (Q := MeshAction.Network) (fun _ _ network answering => answering.step _ network.reliable)
    answering network
  constructor
  · refine (meshMachine mesh).length_le_rank MeshState.load fun e member => ?_
    obtain ⟨before, allowed, event⟩ := steps e member
    have same : e.after = (meshStep mesh e.before e.input).2 := by rw [event]; rfl
    rcases lightens before allowed with still | less
    · exact absurd (same.trans still) (moves e member)
    · rwa [same]
  · refine or_iff_not_imp_left.mpr fun busy => ?_
    obtain ⟨action, allowed, less⟩ := enabled
      (answering_of_run answering fun a member => (network a member).reliable) busy
    refine ⟨action, allowed, fun still => ?_⟩
    rw [still] at less
    exact Nat.lt_irrefl _ less

end Rest

/-! ## A healthy mesh -/

section Healthy

variable {n : ℕ}

/-- Proposals are made, and the network does its part: every answer comes in time, and nobody's
policies change. -/
def MeshAction.Prompt : MeshAction n → Prop
  | .propose _ _ _ | .proceed _ | .deliver _ => True
  | _ => False

instance : (action : MeshAction n) → Decidable action.Prompt
  | .propose _ _ _ | .proceed _ | .deliver _ => .isTrue trivial
  | .timeout _ | .lose _ | .answer _ _ | .inject _ _ | .setPeerPolicy _ _ _ => .isFalse id

/-- The updates that are proposed. -/
def updatesOf (actions : List (MeshAction n)) : List (String × String) :=
  actions.filterMap fun
    | .propose _ key value => some (key, value)
    | _ => none

/-- The update a proposal has not decided on yet. -/
def Round.undecided (round : Round) : List (String × String) :=
  match round.phase with
  | .asking _ | .waiting _ _ _ => [(round.key, round.value)]
  | _ => []

/-- Everybody that was asked has voted for the update, and it was not rejected. -/
def Round.Favoured (peers : ℕ) (round : Round) : Prop :=
  match round.phase with
  | .asking rest => round.granted.length + rest.length = peers
  | .waiting _ _ rest => round.granted.length + rest.length + 1 = peers
  | .finished committed => committed = true
  | .sending _ => True

/-- What a run keeps in which nobody is marked faulty and every answer is in time. -/
structure Healthy (mesh : Topology n) (size : Fin n → ℕ) (past : List (MeshEvent n))
    (net : MeshState n) : Prop where
  answering : Answering mesh net
  sizes : ∀ i, (net.nodes i).peers.items.length = size i
  honest : ∀ i peer, (net.nodes i).policies.get? peer ≠ some .faulty
  replies : ∀ r peer response, .reply r peer response ∈ net.packets → grants response = true
  rounds : ∀ q ∈ net.proposals, q.round.Favoured (size q.proposer)
  account : (commitsOf past ++ net.proposals.flatMap fun q => q.round.undecided).Perm
    (updatesOf (past.map Event.input))

variable {mesh : Topology n} {size : Fin n → ℕ} {past : List (MeshEvent n)} {net : MeshState n}

theorem updatesOf_concat (past : List (MeshEvent n)) (e : MeshEvent n) :
    updatesOf ((past ++ [e]).map Event.input) =
      updatesOf (past.map Event.input) ++ updatesOf [e.input] := by
  rw [List.map_append, updatesOf, List.filterMap_append]
  rfl

/-- A favoured proposal that has asked everybody has its quorum. -/
theorem favoured_commits {round : Round} {node : BFTNodeStateSync}
    (favoured : round.Favoured node.peers.items.length) (phase : round.phase = .asking []) :
    round.votes ≥ node.quorumFor := by
  rw [Round.Favoured, phase] at favoured
  dsimp only [List.length_nil] at favoured
  unfold Round.votes BFTNodeStateSync.quorumFor
  omega

/-- Whom a node asks: the peers, and those of them it marks. -/
def BFTNodeStateSync.setup (node : BFTNodeStateSync) :
    PyDict String (Option String) × PyDict String Policy :=
  (node.peers, node.policies)

theorem Healthy.next (healthy : Healthy mesh size past net) {e : MeshEvent n} {net' : MeshState n}
    (answering : Answering mesh net')
    (setup : ∀ i, (net'.nodes i).setup = (net.nodes i).setup)
    (replies : ∀ r peer response, .reply r peer response ∈ net'.packets →
      .reply r peer response ∈ net.packets ∨ grants response = true)
    (rounds : ∀ q ∈ net'.proposals, q ∈ net.proposals ∨ q.round.Favoured (size q.proposer))
    (account : ((committed e.before e.input).toList ++
        net'.proposals.flatMap fun q => q.round.undecided).Perm
      (updatesOf [e.input] ++ net.proposals.flatMap fun q => q.round.undecided)) :
    Healthy mesh size (past ++ [e]) net' where
  answering := answering
  sizes i := by
    rw [show (net'.nodes i).peers = (net.nodes i).peers from congrArg Prod.fst (setup i)]
    exact healthy.sizes i
  honest i peer := by
    rw [show (net'.nodes i).policies = (net.nodes i).policies from congrArg Prod.snd (setup i)]
    exact healthy.honest i peer
  replies r peer response member :=
    (replies r peer response member).elim (healthy.replies r peer response) id
  rounds q member := (rounds q member).elim (healthy.rounds q) id
  account := by
    rw [commitsOf_concat, updatesOf_concat]
    refine List.perm_iff_count.mpr fun c => ?_
    have before := healthy.account.count_eq c
    have now := account.count_eq c
    simp only [List.count_append] at before now ⊢
    omega

section Step

variable {r : ℕ} {proposal : Proposal n}

theorem Healthy.commits (healthy : Healthy mesh size past net)
    (here : net.proposals[r]? = some proposal)
    (commits : proposal.round.Commits (net.nodes proposal.proposer)) :
    Healthy mesh size (past ++ [(meshMachine mesh).event net (.proceed r)])
      (meshStep mesh net (.proceed r)).2 := by
  have answering := healthy.answering.step (.proceed r) trivial
  simp only [meshStep, here, Round.advance_commits commits] at answering ⊢
  refine healthy.next answering (read_update BFTNodeStateSync.setup (by rfl))
    (fun _ _ _ member => .inl (by simpa using member)) (fun q member => ?_) ?_
  · rcases MeshState.mem_of_mem_setRound member with before | rfl
    · exact .inl before
    · exact .inr trivial
  · have set_ := (cons_set_perm here { proposal with round := { proposal.round with
      phase := .sending ((net.nodes proposal.proposer).peers.items.map Prod.snd) } }).flatMap_right
        fun q => q.round.undecided
    have committed_ : committed net (.proceed r) =
        some (proposal.round.key, proposal.round.value) := by
      rw [committed, committing_proceed here commits]
      rfl
    change ((committed net (.proceed r)).toList ++ _).Perm _
    rw [committed_]
    simp only [List.flatMap_cons, Round.undecided, commits.1] at set_
    exact set_

/-- A proposal that goes on without committing has decided no more and no less. -/
theorem Healthy.goes (healthy : Healthy mesh size past net)
    (here : net.proposals[r]? = some proposal)
    (waits : ¬ proposal.round.Commits (net.nodes proposal.proposer)) :
    Healthy mesh size (past ++ [(meshMachine mesh).event net (.proceed r)])
      (meshStep mesh net (.proceed r)).2 := by
  have answering := healthy.answering.step (.proceed r) trivial
  have favoured := healthy.rounds proposal (List.mem_of_getElem? here)
  have took := Round.advance_took (net.nodes proposal.proposer) proposal.round
  obtain ⟨same, decided, still⟩ : (proposal.round.advance (net.nodes proposal.proposer)).1 =
      net.nodes proposal.proposer ∧
      (proposal.round.advance (net.nodes proposal.proposer)).2.1.undecided =
        proposal.round.undecided ∧
      (proposal.round.advance (net.nodes proposal.proposer)).2.1.Favoured
        (size proposal.proposer) := by
    generalize proposal.round.advance (net.nodes proposal.proposer) = result at took ⊢
    obtain ⟨node, round, out⟩ := result
    dsimp only at took ⊢
    cases took with
    | nothing => exact ⟨rfl, rfl, favoured⟩
    | committed commits => exact absurd commits waits
    | rejected phase minority =>
        rw [← healthy.sizes] at favoured
        exact absurd (favoured_commits favoured phase) minority
    | skipped ballot rest _ phase reason =>
        obtain ⟨i, at_⟩ := healthy.answering.ballots proposal (List.mem_of_getElem? here) ballot
          (by rw [phase]; exact List.mem_cons_self)
        rcases reason with faulty | silent
        · exact absurd faulty (healthy.honest _ _)
        · rw [at_, liveUri_of_ne (mesh.uri_live i)] at silent
          cases silent
    | asked peer uri rest phase =>
        refine ⟨rfl, ?_, ?_⟩
        · rw [Round.undecided, Round.undecided, phase]
        · rw [Round.Favoured, phase] at favoured
          exact favoured
    | passed _ rest phase | sent _ rest phase =>
        refine ⟨rfl, ?_, trivial⟩
        rw [Round.undecided, Round.undecided, phase]
    | ended phase =>
        refine ⟨rfl, ?_, rfl⟩
        rw [Round.undecided, Round.undecided, phase]
  simp only [meshStep, here] at answering ⊢
  refine healthy.next answering (read_update BFTNodeStateSync.setup (by rw [same]))
    (fun _ _ _ member => .inl ?_) (fun q member => ?_) ?_
  · rcases List.mem_append.mp member with before | new
    · exact before
    · obtain ⟨outgoing, -, packet⟩ := Option.mem_map.mp (Option.mem_toList.mp new)
      cases outgoing <;> cases packet
  · rcases MeshState.mem_of_mem_setRound member with before | rfl
    · exact .inl before
    · exact .inr still
  · have set_ := (cons_set_perm here { proposal with
      round := (proposal.round.advance (net.nodes proposal.proposer)).2.1 }).flatMap_right
        fun q => q.round.undecided
    have silent : committed net (.proceed r) = none := by
      rw [committed, committing, here, Option.filter_some, decide_eq_false waits]
      rfl
    change ((committed net (.proceed r)).toList ++ _).Perm _
    rw [silent]
    simp only [List.flatMap_cons, decided] at set_
    exact (List.perm_append_left_iff _).mp set_

/-- A favoured proposal whose peer votes for it stays favoured. -/
theorem Healthy.answered (healthy : Healthy mesh size past net)
    (waits : net.proposals[r]? = some proposal) {peer uri : String}
    {rest : List (String × Option String)}
    (phase : proposal.round.phase = .waiting peer uri rest) {response : Json}
    (grant : grants response = true) {p : ℕ} {e : MeshEvent n}
    (idle : committed e.before e.input = none ∧ updatesOf [e.input] = [])
    (answering : Answering mesh ((net.drop p).respond r (some response))) :
    Healthy mesh size (past ++ [e]) ((net.drop p).respond r (some response)) := by
  have favoured := healthy.rounds proposal (List.mem_of_getElem? waits)
  have same : (net.drop p).proposals[r]? = some proposal := waits
  have granted : proposal.round.answered (net.nodes proposal.proposer) (some response) =
      (net.nodes proposal.proposer, { proposal.round with
        granted := proposal.round.granted ++ [peer], phase := .asking rest }) := by
    unfold Round.answered
    rw [phase]
    exact if_pos grant
  rw [MeshState.respond_eq same] at answering ⊢
  simp only [MeshState.drop_nodes, granted] at answering ⊢
  refine healthy.next answering (read_update BFTNodeStateSync.setup (by rfl))
    (fun _ _ _ member => .inl (MeshState.mem_of_mem_drop member)) (fun q member => ?_) ?_
  · rcases MeshState.mem_of_mem_setRound member with before | rfl
    · exact .inl before
    · refine .inr ?_
      rw [Round.Favoured, phase] at favoured
      simp only [Round.Favoured, List.length_append, List.length_singleton]
      omega
  · have set_ := (cons_set_perm waits { proposal with round := { proposal.round with
      granted := proposal.round.granted ++ [peer], phase := .asking rest } }).flatMap_right
        fun q => q.round.undecided
    rw [idle.1, idle.2]
    simp only [List.flatMap_cons, Round.undecided, phase] at set_
    exact (List.perm_append_left_iff _).mp set_

theorem Healthy.delivers (healthy : Healthy mesh size past net) (p : ℕ) :
    Healthy mesh size (past ++ [(meshMachine mesh).event net (.deliver p)])
      (meshStep mesh net (.deliver p)).2 := by
  have answering := healthy.answering.step (.deliver p) trivial
  cases here : net.packets[p]? with
  | none =>
      simp only [meshStep, here] at answering ⊢
      exact healthy.next answering (fun _ => rfl) (fun _ _ _ => .inl) (fun _ => .inl) (.refl _)
  | some packet =>
      have member := List.mem_of_getElem? here
      cases packet with
      | request r peer uri message =>
          obtain ⟨i, rfl⟩ := healthy.answering.requests r peer uri message member
          obtain ⟨nodeId, key, value, rfl⟩ :=
            healthy.answering.upright.requests r peer _ message member
          obtain ⟨response, answer, grant⟩ :=
            dispatch_voteRequest_answer mesh.strOf (net.nodes i) nodeId key value
          simp only [meshStep, here, mesh.node?_uri, dispatch_voteRequest, answer] at answering ⊢
          refine healthy.next answering (read_update BFTNodeStateSync.setup (by rfl))
            (fun r' peer' response' member => ?_) (fun _ => .inl) (.refl _)
          rcases List.mem_append.mp member with before | new
          · exact .inl (MeshState.mem_of_mem_drop before)
          · obtain ⟨answer', same, packet⟩ := eq_reply_of_mem_replies new
            obtain ⟨-, -, rfl⟩ := Packet.reply.inj packet
            obtain rfl := Option.some.inj same
            exact .inr (grant (healthy.honest i nodeId))
      | reply r peer response =>
          by_cases awaits : net.awaits r = some peer
          · obtain ⟨proposal, waits, uri, rest, phase⟩ := MeshState.awaits_eq_some awaits
            simp only [meshStep, here, if_pos awaits] at answering ⊢
            exact healthy.answered waits phase (healthy.replies r peer response member)
              ⟨rfl, rfl⟩ answering
          · simp only [meshStep, here, if_neg awaits] at answering ⊢
            exact healthy.next answering (fun _ => rfl)
              (fun _ _ _ member => .inl (MeshState.mem_of_mem_drop member)) (fun _ => .inl)
              (.refl _)
      | oneWay uri message =>
          obtain ⟨j, i, key, value, other, rfl, rfl⟩ :=
            healthy.answering.upright.oneWays _ _ member
          have commit : IsCommit mesh.strOf (commitPayload (net.nodes j).nodeId key value)
              (net.nodes j).nodeId key value := isCommit_commitPayload _ _ _
          have applied := dispatch_commit commit (healthy.answering.upright.connected.knows other)
          simp only [meshStep, here, mesh.node?_uri, applied] at answering ⊢
          exact healthy.next answering (read_update BFTNodeStateSync.setup (by rfl))
            (fun _ _ _ member => .inl (MeshState.mem_of_mem_drop member)) (fun _ => .inl)
            (.refl _)

theorem Healthy.proposes (healthy : Healthy mesh size past net) (i : Fin n) (key value : String) :
    Healthy mesh size (past ++ [(meshMachine mesh).event net (.propose i key value)])
      (meshStep mesh net (.propose i key value)).2 := by
  have answering := healthy.answering.step (.propose i key value) trivial
  simp only [meshStep,
    Round.start_attached (healthy.answering.upright.connected.attached i)] at answering ⊢
  refine healthy.next answering (read_update BFTNodeStateSync.setup (by rfl)) (fun _ _ _ => .inl)
    (fun q member => ?_) ?_
  · rcases List.mem_append.mp member with before | new
    · exact .inl before
    · obtain rfl := List.mem_singleton.mp new
      refine .inr ?_
      rw [Round.Favoured, ← healthy.sizes]
      exact Nat.zero_add _
  · change ([] ++ (net.proposals ++ [_]).flatMap _).Perm ([(key, value)] ++ _)
    rw [List.flatMap_append, List.nil_append]
    exact List.perm_append_comm

/-- **In a healthy mesh every update is decided on once, and never rejected.** -/
theorem Healthy.step (healthy : Healthy mesh size past net) {action : MeshAction n}
    (prompt : action.Prompt) :
    Healthy mesh size (past ++ [(meshMachine mesh).event net action])
      (meshStep mesh net action).2 := by
  cases action with
  | propose i key value => exact healthy.proposes i key value
  | deliver p => exact healthy.delivers p
  | proceed r =>
      cases here : net.proposals[r]? with
      | none =>
          have silent : committed net (.proceed r) = none := by
            rw [committed, committing, here]
            rfl
          have answering := healthy.answering.step (.proceed r) trivial
          simp only [meshStep, here] at answering ⊢
          refine healthy.next answering (fun _ => rfl) (fun _ _ _ => .inl) (fun _ => .inl) ?_
          change ((committed net (.proceed r)).toList ++ _).Perm _
          rw [silent]
          exact .refl _
      | some proposal =>
          by_cases commits : proposal.round.Commits (net.nodes proposal.proposer)
          · exact healthy.commits here commits
          · exact healthy.goes here commits
  | _ => exact prompt.elim

end Step

theorem MeshAction.Prompt.reliable {action : MeshAction n} (prompt : action.Prompt) :
    action.Reliable := by
  cases action <;> trivial

theorem healthy_of_run (started : Started mesh net)
    (honest : ∀ i peer, (net.nodes i).policies.get? peer ≠ some .faulty)
    {actions : List (MeshAction n)} (prompt : ∀ a ∈ actions, a.Prompt) :
    Healthy mesh (fun i => (net.nodes i).peers.items.length)
      ((meshMachine mesh).trace net actions) ((meshMachine mesh).run net actions) := by
  have run := (meshMachine mesh).history_invariant
    (P := fun past net' => (∀ e ∈ past, e.input.Prompt) →
      Healthy mesh (fun i => (net.nodes i).peers.items.length) past net')
    (fun past s action before allowed => by
      obtain ⟨earlier, now⟩ := List.forall_mem_append.mp allowed
      exact (before earlier).step (now _ (List.mem_singleton.mpr rfl)))
    (s := net) (fun _ => {
      answering := started.answering
      sizes := fun _ => rfl
      honest := honest
      replies := by simp [started.packets]
      rounds := by simp [started.proposals]
      account := by
        rw [started.proposals]
        exact .refl _ }) actions
  refine run fun e member => ?_
  exact ((meshMachine mesh).trace_invariant_of (P := fun _ => True) (fun _ _ _ _ => trivial)
    (s := net) trivial prompt e member).2.1

theorem trace_inputs (s : MeshState n) (actions : List (MeshAction n)) :
    ((meshMachine mesh).trace s actions).map Event.input = actions := by
  induction actions generalizing s with
  | nil => rfl
  | cons action actions ih => exact congrArg (action :: ·) (ih _)

/-- **In a healthy mesh every update reaches everybody**: where nobody is marked faulty and every
answer comes in time, whatever is proposed by however many nodes at once, a mesh that has
settled has committed every update that was proposed, and every node has applied each of them
once. -/
theorem healthy_mesh_applies_all (mesh : Topology n) (net : MeshState n)
    (started : Started mesh net)
    (honest : ∀ i peer, (net.nodes i).policies.get? peer ≠ some .faulty)
    (actions : List (MeshAction n)) (prompt : ∀ a ∈ actions, a.Prompt)
    (settled : Settled ((meshMachine mesh).run net actions)) (i : Fin n) :
    ∃ applied : List (String × String), applied.Perm (updatesOf actions) ∧
      (((meshMachine mesh).run net actions).nodes i).stateLedger =
        PyDict.empty.setItems applied ∧
      (((meshMachine mesh).run net actions).nodes i).commitCount =
        (net.nodes i).commitCount + (updatesOf actions).length := by
  have healthy := healthy_of_run started honest prompt
  obtain ⟨-, applied, books, accounts⟩ :=
    disseminated_of_run started fun a member => (prompt a member).reliable
  have nothing : (((meshMachine mesh).run net actions).proposals.flatMap fun q =>
      q.round.undecided) = [] := by
    refine List.flatMap_eq_nil_iff.mpr fun q member => ?_
    obtain ⟨committed, phase⟩ := settled.2 q member
    rw [Round.undecided, phase]
  have decided := healthy.account
  rw [nothing, List.append_nil, trace_inputs] at decided
  have all : (applied i).Perm (updatesOf actions) :=
    (accounts.applied (settled.coming i)).trans decided
  exact ⟨applied i, all, books.ledgers i, by rw [books.counts i, all.length_eq]⟩

/-- Two nodes propose at once, and both have both updates. -/
theorem healthy_duo_applies_all :
    (((meshMachine Duo.mesh).run Duo.net (Duo.crossing 0 1)).nodes 1).commitCount = 2 := by
  have items (i : Fin 2) : (Duo.net.nodes i).policies.items = [(Duo.name i.rev, .honest)] := by
    decide +revert
  have honest (i : Fin 2) (peer : String) :
      (Duo.net.nodes i).policies.get? peer ≠ some .faulty := by
    intro faulty
    have member := PyDict.mem_of_get? faulty
    rw [items] at member
    cases (Prod.mk.inj (List.mem_singleton.mp member)).2
  obtain ⟨-, -, -, count⟩ := healthy_mesh_applies_all Duo.mesh Duo.net Duo.started honest
    (Duo.crossing 0 1) (by decide) (by decide +kernel) 1
  rw [count]
  decide

/-- One proposal has its vote; then the network does four more things at least. -/
theorem duo_settles :
    4 ≤ ((meshMachine Duo.mesh).run Duo.net (Duo.voted 0 0 "x")).load := by
  have lighter : ∀ e ∈ (meshMachine Duo.mesh).trace
      ((meshMachine Duo.mesh).run Duo.net (Duo.voted 0 0 "x")) (Duo.broadcast 0 ++ [.deliver 0]),
      e.after.load ≠ e.before.load := by decide +kernel
  exact (mesh_settles Duo.mesh Duo.net Duo.started (Duo.voted 0 0 "x") (by decide)
    (Duo.broadcast 0 ++ [.deliver 0]) (by decide)
    fun e member same => lighter e member (congrArg MeshState.load same)).1

end Healthy

end CentaurApex.Mesh
