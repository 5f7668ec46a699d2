/-
# Mesh.Network -- nodes, proposals and messages in flight

The mesh as one machine (`meshMachine`).  Its state has the nodes that run the code,
the proposals they have begun, and the packets in flight: requests for a vote, their
replies, and messages that ask for none.  An action delivers a packet or loses it,
runs a proposal a step further, or lets a peer's answer time out; packets are
delivered in any order.  What is sent to a URI where none of these nodes listens is
with somebody else, who answers as they like (`answer`) and may send anything to
anybody (`inject`).

The machine replies with what it observed of a delivery: where the message went, and
the answer (`Delivery`).
-/
import CentaurApex.Mesh.Consensus
import CentaurApex.Theory.Machine
import Mathlib.Data.Fintype.Basic
import Mathlib.Data.List.FinRange

namespace CentaurApex.Mesh

open CentaurApex.Theory

set_option autoImplicit false

/-- Where the nodes listen, each at a URI of its own. -/
structure Topology (n : ℕ) where
  uri : Fin n → String
  /-- `str(value)` of a value that is no string. -/
  strOf : Json → String
  uri_injective : Function.Injective uri
  uri_live : ∀ i, uri i ≠ ""

inductive Packet where
  | request (round : ℕ) (peer uri : String) (message : Json)
  | reply (round : ℕ) (peer : String) (response : Json)
  | oneWay (uri : String) (message : Json)

/-- A proposal and the node that makes it. -/
structure Proposal (n : ℕ) where
  proposer : Fin n
  round : Round

structure MeshState (n : ℕ) where
  nodes : Fin n → BFTNodeStateSync
  proposals : List (Proposal n)
  packets : List Packet

inductive MeshAction (n : ℕ) where
  | propose (i : Fin n) (key value : String)
  | proceed (r : ℕ)
  | deliver (p : ℕ)
  | timeout (r : ℕ)
  | lose (p : ℕ)
  | answer (p : ℕ) (response : Option Json)
  | inject (uri : String) (message : Json)
  | setPeerPolicy (i : Fin n) (peer : String) (policy : Policy)

/-- A message that was delivered, and what was answered. -/
structure Delivery where
  uri : String
  message : Json
  response : Option Json

section Step

variable {n : ℕ} (mesh : Topology n)

/-- The node that listens at a URI. -/
def Topology.node? (uri : String) : Option (Fin n) := (List.finRange n).find? fun i => mesh.uri i = uri

theorem Topology.node?_uri (i : Fin n) : mesh.node? (mesh.uri i) = some i := by
  unfold Topology.node?
  cases found : (List.finRange n).find? fun j => mesh.uri j = mesh.uri i with
  | none =>
      have none_ := List.find?_eq_none.mp found i (List.mem_finRange i)
      simp at none_
  | some j =>
      have same : mesh.uri j = mesh.uri i := by simpa using List.find?_some found
      rw [mesh.uri_injective same]

theorem Topology.uri_of_node? {uri : String} {i : Fin n} (found : mesh.node? uri = some i) :
    uri = mesh.uri i := by
  have same := List.find?_some found
  exact (of_decide_eq_true same).symm

namespace MeshState

variable (net : MeshState n)

def setNode (i : Fin n) (node : BFTNodeStateSync) : MeshState n :=
  { net with nodes := Function.update net.nodes i node }

def setRound (r : ℕ) (proposal : Proposal n) (round : Round) : MeshState n :=
  { net with proposals := net.proposals.set r { proposal with round } }

def send (packets : List Packet) : MeshState n := { net with packets := net.packets ++ packets }

def drop (p : ℕ) : MeshState n := { net with packets := net.packets.eraseIdx p }

variable {net} {i : Fin n} {node : BFTNodeStateSync} {r p : ℕ} {proposal : Proposal n}
  {round : Round} {packets : List Packet}

@[simp] theorem setNode_nodes : (net.setNode i node).nodes = Function.update net.nodes i node := rfl
@[simp] theorem setNode_proposals : (net.setNode i node).proposals = net.proposals := rfl
@[simp] theorem setNode_packets : (net.setNode i node).packets = net.packets := rfl
@[simp] theorem setRound_nodes : (net.setRound r proposal round).nodes = net.nodes := rfl
@[simp] theorem setRound_proposals :
    (net.setRound r proposal round).proposals = net.proposals.set r { proposal with round } := rfl
@[simp] theorem setRound_packets : (net.setRound r proposal round).packets = net.packets := rfl
@[simp] theorem send_nodes : (net.send packets).nodes = net.nodes := rfl
@[simp] theorem send_proposals : (net.send packets).proposals = net.proposals := rfl
@[simp] theorem send_packets : (net.send packets).packets = net.packets ++ packets := rfl
@[simp] theorem drop_nodes : (net.drop p).nodes = net.nodes := rfl
@[simp] theorem drop_proposals : (net.drop p).proposals = net.proposals := rfl

theorem mem_of_mem_drop {packet : Packet} (member : packet ∈ (net.drop p).packets) :
    packet ∈ net.packets :=
  List.mem_of_mem_eraseIdx member

/-- Only one packet is gone. -/
theorem mem_drop {packet gone : Packet} (here : net.packets[p]? = some gone)
    (member : packet ∈ net.packets) : packet = gone ∨ packet ∈ (net.drop p).packets := by
  obtain ⟨k, at_⟩ := List.mem_iff_getElem?.mp member
  by_cases same : k = p
  · subst same
    exact .inl (Option.some.inj (at_.symm.trans here))
  · exact .inr (List.mem_eraseIdx_iff_getElem?.mpr ⟨k, same, at_⟩)

theorem mem_drop_iff {packet gone : Packet} (here : net.packets[p]? = some gone)
    (other : packet ≠ gone) : packet ∈ (net.drop p).packets ↔ packet ∈ net.packets :=
  ⟨mem_of_mem_drop, fun member => (mem_drop here member).resolve_left other⟩

theorem mem_of_mem_setRound {q : Proposal n}
    (member : q ∈ (net.setRound r proposal round).proposals) :
    q ∈ net.proposals ∨ q = { proposal with round } :=
  List.mem_or_eq_of_mem_set member

end MeshState

def Packet.ofOutgoing (r : ℕ) : Outgoing → Packet
  | .requestVote peer uri payload => .request r peer uri payload
  | .sendMessage uri payload => .oneWay uri payload

/-- A response reaches the proposal that waits for it, if it still does. -/
def MeshState.respond (net : MeshState n) (r : ℕ) (response : Option Json) : MeshState n :=
  match net.proposals[r]? with
  | some proposal =>
      let (node, round) := proposal.round.answered (net.nodes proposal.proposer) response
      (net.setNode proposal.proposer node).setRound r proposal round
  | none => net

/-- The peer whose answer proposal `r` waits for. -/
def MeshState.awaits (net : MeshState n) (r : ℕ) : Option String :=
  match net.proposals[r]? with
  | some proposal =>
      match proposal.round.phase with
      | .waiting peer _ _ => some peer
      | _ => none
  | none => none

/-- What a peer answers, if it answers, is on its way back. -/
def replies (r : ℕ) (peer : String) (response : Option Json) : List Packet :=
  (response.map fun response => Packet.reply r peer response).toList

theorem eq_reply_of_mem_replies {r : ℕ} {peer : String} {response : Option Json} {packet : Packet}
    (member : packet ∈ replies r peer response) :
    ∃ answer, response = some answer ∧ packet = .reply r peer answer := by
  cases response with
  | none => cases member
  | some answer => exact ⟨answer, rfl, List.mem_singleton.mp member⟩

def meshStep (net : MeshState n) : MeshAction n → Option Delivery × MeshState n
  | .propose i key value =>
      let (node, round) := Round.start (net.nodes i) key value
      (none, { net.setNode i node with proposals := net.proposals ++ [⟨i, round⟩] })
  | .proceed r =>
      match net.proposals[r]? with
      | some proposal =>
          let (node, round, out) := proposal.round.advance (net.nodes proposal.proposer)
          (none, ((net.setNode proposal.proposer node).setRound r proposal round).send
            (out.map (Packet.ofOutgoing r)).toList)
      | none => (none, net)
  | .deliver p =>
      match net.packets[p]? with
      | some (.request r peer uri message) =>
          match mesh.node? uri with
          | some i =>
              let (response, node) := dispatch mesh.strOf (net.nodes i) message
              (some ⟨uri, message, response⟩,
                ((net.drop p).setNode i node).send (replies r peer response))
          | none => (none, net)
      | some (.reply r peer response) =>
          (none, if net.awaits r = some peer then (net.drop p).respond r (some response)
            else net.drop p)
      | some (.oneWay uri message) =>
          match mesh.node? uri with
          | some i =>
              let (response, node) := dispatch mesh.strOf (net.nodes i) message
              (some ⟨uri, message, response⟩, (net.drop p).setNode i node)
          | none => (none, net)
      | none => (none, net)
  | .timeout r => (none, if (net.awaits r).isSome then net.respond r none else net)
  | .lose p => (none, net.drop p)
  | .answer p response =>
      match net.packets[p]? with
      | some (.request r peer uri message) =>
          match mesh.node? uri with
          | some _ => (none, net)
          | none => (some ⟨uri, message, response⟩, (net.drop p).send (replies r peer response))
      | _ => (none, net)
  | .inject uri message => (none, net.send [.oneWay uri message])
  | .setPeerPolicy i peer policy =>
      match (net.nodes i).setPeerPolicy peer policy with
      | .ok node => (none, net.setNode i node)
      | .error _ => (none, net)

def meshMachine : Machine (MeshState n) (MeshAction n) (Option Delivery) := ⟨meshStep mesh⟩

/-! ## What a step does -/

/-- Every way in which an action changes the mesh. -/
inductive Moved (net : MeshState n) :
    MeshAction n → Option Delivery → MeshState n → Prop
  | idle (action : MeshAction n) : Moved net action none net
  | proposed (i : Fin n) (key value : String) :
      Moved net (.propose i key value) none
        { net.setNode i (Round.start (net.nodes i) key value).1 with
          proposals := net.proposals ++ [⟨i, (Round.start (net.nodes i) key value).2⟩] }
  | advanced (r : ℕ) (proposal : Proposal n) (node : BFTNodeStateSync) (round : Round)
      (out : Option Outgoing) (here : net.proposals[r]? = some proposal)
      (advanced : Round.Advanced (net.nodes proposal.proposer) proposal.round node round out) :
      Moved net (.proceed r) none
        (((net.setNode proposal.proposer node).setRound r proposal round).send
          (out.map (Packet.ofOutgoing r)).toList)
  | asked (p r : ℕ) (peer : String) (message : Json) (i : Fin n)
      (here : net.packets[p]? = some (.request r peer (mesh.uri i) message)) :
      Moved net (.deliver p)
        (some ⟨mesh.uri i, message, (dispatch mesh.strOf (net.nodes i) message).1⟩)
        (((net.drop p).setNode i (dispatch mesh.strOf (net.nodes i) message).2).send
          (replies r peer (dispatch mesh.strOf (net.nodes i) message).1))
  | told (p : ℕ) (message : Json) (i : Fin n)
      (here : net.packets[p]? = some (.oneWay (mesh.uri i) message)) :
      Moved net (.deliver p)
        (some ⟨mesh.uri i, message, (dispatch mesh.strOf (net.nodes i) message).1⟩)
        ((net.drop p).setNode i (dispatch mesh.strOf (net.nodes i) message).2)
  | replied (p r : ℕ) (peer uri : String) (rest : List (String × Option String))
      (response : Json) (proposal : Proposal n) (node : BFTNodeStateSync) (round : Round)
      (here : net.packets[p]? = some (.reply r peer response))
      (waits : net.proposals[r]? = some proposal)
      (phase : proposal.round.phase = .waiting peer uri rest)
      (answered : Round.Answered (net.nodes proposal.proposer) proposal.round (some response)
        node round) :
      Moved net (.deliver p) none
        (((net.drop p).setNode proposal.proposer node).setRound r proposal round)
  | late (p r : ℕ) (peer : String) (response : Json)
      (here : net.packets[p]? = some (.reply r peer response)) :
      Moved net (.deliver p) none (net.drop p)
  | timedOut (r : ℕ) (proposal : Proposal n) (node : BFTNodeStateSync) (round : Round)
      (waits : net.proposals[r]? = some proposal)
      (answered : Round.Answered (net.nodes proposal.proposer) proposal.round none node round) :
      Moved net (.timeout r) none ((net.setNode proposal.proposer node).setRound r proposal round)
  | lost (p : ℕ) : Moved net (.lose p) none (net.drop p)
  | answeredElsewhere (p r : ℕ) (peer uri : String) (message : Json) (response : Option Json)
      (here : net.packets[p]? = some (.request r peer uri message)) :
      Moved net (.answer p response) (some ⟨uri, message, response⟩)
        ((net.drop p).send (replies r peer response))
  | injected (uri : String) (message : Json) :
      Moved net (.inject uri message) none (net.send [.oneWay uri message])
  | policed (i : Fin n) (peer : String) (policy : Policy) (node : BFTNodeStateSync)
      (roster : node.roster = (net.nodes i).roster)
      (ledger : node.stateLedger = (net.nodes i).stateLedger) :
      Moved net (.setPeerPolicy i peer policy) none (net.setNode i node)

/-- Where a proposal waits, and for whom. -/
theorem MeshState.awaits_eq_some {net : MeshState n} {r : ℕ} {peer : String}
    (awaits : net.awaits r = some peer) :
    ∃ proposal, net.proposals[r]? = some proposal ∧ ∃ uri rest,
      proposal.round.phase = .waiting peer uri rest := by
  unfold MeshState.awaits at awaits
  split at awaits
  · rename_i proposal here
    split at awaits
    · rename_i waiting uri rest phase
      obtain rfl := Option.some.inj awaits
      exact ⟨proposal, here, uri, rest, phase⟩
    · cases awaits
  · cases awaits

theorem MeshState.respond_eq {net : MeshState n} {r : ℕ} {proposal : Proposal n}
    (here : net.proposals[r]? = some proposal) (response : Option Json) :
    net.respond r response =
      (net.setNode proposal.proposer
        (proposal.round.answered (net.nodes proposal.proposer) response).1).setRound r proposal
        (proposal.round.answered (net.nodes proposal.proposer) response).2 := by
  simp only [MeshState.respond, here]

theorem meshStep_moved (net : MeshState n) (action : MeshAction n) :
    Moved mesh net action (meshStep mesh net action).1 (meshStep mesh net action).2 := by
  cases action with
  | propose i key value => exact .proposed i key value
  | proceed r =>
      cases here : net.proposals[r]? with
      | none =>
          simp only [meshStep, here]
          exact .idle _
      | some proposal =>
          simp only [meshStep, here]
          exact .advanced r proposal _ _ _ here (Round.advance_advanced _ _)
  | deliver p =>
      cases here : net.packets[p]? with
      | none =>
          simp only [meshStep, here]
          exact .idle _
      | some packet =>
          cases packet with
          | request r peer uri message =>
              cases found : mesh.node? uri with
              | none =>
                  simp only [meshStep, here, found]
                  exact .idle _
              | some i =>
                  obtain rfl := mesh.uri_of_node? found
                  simp only [meshStep, here, found]
                  exact .asked p r peer message i here
          | oneWay uri message =>
              cases found : mesh.node? uri with
              | none =>
                  simp only [meshStep, here, found]
                  exact .idle _
              | some i =>
                  obtain rfl := mesh.uri_of_node? found
                  simp only [meshStep, here, found]
                  exact .told p message i here
          | reply r peer response =>
              by_cases awaits : net.awaits r = some peer
              · obtain ⟨proposal, waits, uri, rest, phase⟩ := MeshState.awaits_eq_some awaits
                have same : (net.drop p).proposals[r]? = some proposal := waits
                simp only [meshStep, here, if_pos awaits, MeshState.respond_eq same]
                exact .replied p r peer uri rest response proposal _ _ here waits phase
                  (Round.answered_answered _ _ _)
              · simp only [meshStep, here, if_neg awaits]
                exact .late p r peer response here
  | timeout r =>
      cases awaits : net.awaits r with
      | none =>
          simp only [meshStep, awaits]
          exact .idle _
      | some peer =>
          obtain ⟨proposal, waits, _⟩ := MeshState.awaits_eq_some awaits
          simp only [meshStep, awaits, Option.isSome_some, if_true, MeshState.respond_eq waits]
          exact .timedOut r proposal _ _ waits (Round.answered_answered _ _ _)
  | lose p => exact .lost p
  | answer p response =>
      cases here : net.packets[p]? with
      | none =>
          simp only [meshStep, here]
          exact .idle _
      | some packet =>
          cases packet with
          | request r peer uri message =>
              cases found : mesh.node? uri with
              | none =>
                  simp only [meshStep, here, found]
                  exact .answeredElsewhere p r peer uri message response here
              | some i =>
                  simp only [meshStep, here, found]
                  exact .idle _
          | _ =>
              simp only [meshStep, here]
              exact .idle _
  | inject uri message => exact .injected uri message
  | setPeerPolicy i peer policy =>
      by_cases known : (net.nodes i).peers.Contains peer
      · simp only [meshStep, BFTNodeStateSync.setPeerPolicy, if_pos known]
        exact .policed i peer policy _ rfl rfl
      · simp only [meshStep, BFTNodeStateSync.setPeerPolicy, if_neg known]
        exact .idle _

/-! ## Reading a changed state -/

section Update

variable {nodes : Fin n → BFTNodeStateSync} {i : Fin n} {node : BFTNodeStateSync}

theorem read_update {τ : Type} (f : BFTNodeStateSync → τ) (same : f node = f (nodes i))
    (j : Fin n) : f (Function.update nodes i node j) = f (nodes j) := by
  by_cases here : j = i
  · subst here
    rw [Function.update_self, same]
  · rw [Function.update_of_ne here]

theorem roster_update (roster : node.roster = (nodes i).roster) (j : Fin n) :
    (Function.update nodes i node j).roster = (nodes j).roster :=
  read_update BFTNodeStateSync.roster roster j

theorem ledger_update (ledger : node.stateLedger = (nodes i).stateLedger) (j : Fin n) :
    (Function.update nodes i node j).stateLedger = (nodes j).stateLedger :=
  read_update BFTNodeStateSync.stateLedger ledger j

/-- An entry after a commit is an old one, or the committed one. -/
theorem entry_commit {j : Fin n} {key value k v : String}
    (held : (Function.update nodes i ((nodes i).commit key value) j).stateLedger.get? k = some v) :
    (nodes j).stateLedger.get? k = some v ∨ j = i ∧ k = key ∧ v = value := by
  by_cases here : j = i
  · subst here
    rw [Function.update_self, BFTNodeStateSync.commit, PyDict.get?_setItem] at held
    by_cases same : k = key
    · rw [if_pos same] at held
      exact .inr ⟨rfl, same, (Option.some.inj held).symm⟩
    · rw [if_neg same] at held
      exact .inl held
  · rw [Function.update_of_ne here] at held
    exact .inl held

end Update

section SetRound

variable {net : MeshState n} {r : ℕ} {proposal : Proposal n} {round : Round} (P : Round → Prop)

theorem exists_of_setRound
    (after : ∃ q ∈ net.proposals.set r { proposal with round }, P q.round) :
    P round ∨ ∃ q ∈ net.proposals, P q.round := by
  obtain ⟨q, member, holds⟩ := after
  rcases List.mem_or_eq_of_mem_set member with before | rfl
  · exact .inr ⟨q, before, holds⟩
  · exact .inl holds

variable (here : net.proposals[r]? = some proposal)

include here

theorem exists_setRound (holds : P round) :
    ∃ q ∈ net.proposals.set r { proposal with round }, P q.round := by
  obtain ⟨bound, -⟩ := List.getElem?_eq_some_iff.mp here
  exact ⟨_, List.mem_set bound _, holds⟩

theorem setRound_of_exists (before : ∃ q ∈ net.proposals, P q.round) :
    P proposal.round ∨ ∃ q ∈ net.proposals.set r { proposal with round }, P q.round := by
  obtain ⟨q, member, holds⟩ := before
  obtain ⟨k, at_⟩ := List.mem_iff_getElem?.mp member
  by_cases same : r = k
  · subst same
    obtain rfl : proposal = q := Option.some.inj (here.symm.trans at_)
    exact .inl holds
  · refine .inr ⟨q, List.mem_iff_getElem?.mpr ⟨k, ?_⟩, holds⟩
    rw [List.getElem?_set_ne same, at_]

end SetRound

end Step

end CentaurApex.Mesh
