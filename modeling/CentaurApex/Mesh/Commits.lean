/-
# Mesh.Commits -- a commit reaches every node once

Nodes that all run the code, each connected with every other, on a network that delays and
reorders and loses nothing; any number of them propose at once.  What they cannot agree on
is an order (`crossing_commits_disagree`).  What was committed they have in common: a node
applies every commit once, its own and everybody's, or has it still coming to it once
(`commits_applied_once`), so ledgers differ only in the order of two commits of one key.
-/
import CentaurApex.Mesh.Agreement
import CentaurApex.Mesh.Quorum
import CentaurApex.Theory.Dissemination

namespace CentaurApex.Mesh

open CentaurApex.Theory
open CentaurApex.Theory.Python

set_option autoImplicit false

section Lists

variable {α : Type} {l : List α} {k : ℕ} {a : α}

/-- What is taken out of a list, before the rest of it. -/
theorem cons_eraseIdx_perm (here : l[k]? = some a) : (a :: l.eraseIdx k).Perm l := by
  obtain ⟨bound, rfl⟩ := List.getElem?_eq_some_iff.mp here
  exact List.getElem_cons_eraseIdx_perm bound

/-- What is put in the place of another. -/
theorem cons_set_perm (here : l[k]? = some a) (b : α) : (a :: l.set k b).Perm (b :: l) := by
  obtain ⟨bound, -⟩ := List.getElem?_eq_some_iff.mp here
  have placed := (List.set_perm_cons_eraseIdx bound b).cons a
  exact placed.trans ((List.Perm.swap b a _).trans ((cons_eraseIdx_perm here).cons b))

end Lists

/-- What the handler reads as a commit: the key, and the value. -/
def commitOf (strOf : Json → String) : Json → Option (String × String)
  | .obj message =>
      match get message "op" .null with
      | .str "commit" =>
          some (pyStr strOf (get message "key" (.str "")),
            pyStr strOf (get message "value" (.str "")))
      | _ => none
  | _ => none

theorem commitOf_commitPayload (strOf : Json → String) (nodeId key value : String) :
    commitOf strOf (commitPayload nodeId key value) = some (key, value) := rfl

/-- What a packet has for whoever listens at `uri` to apply. -/
def Packet.brings (strOf : Json → String) (uri : String) : Packet → List (String × String)
  | .oneWay uri' message => if uri' = uri then (commitOf strOf message).toList else []
  | _ => []

/-- What the round has still to send there. -/
def Round.owes (uri : String) (round : Round) : List (String × String) :=
  List.replicate (round.phase.uris.count uri) (round.key, round.value)

/-- The update that an action commits. -/
def committed {n : ℕ} (net : MeshState n) (action : MeshAction n) : Option (String × String) :=
  (committing net action).map fun proposal => (proposal.round.key, proposal.round.value)

/-- The commits of a run, as they are made. -/
def commitsOf {n : ℕ} (trace : List (MeshEvent n)) : List (String × String) :=
  trace.filterMap fun e => committed e.before e.input

section Coming

variable {n : ℕ} (mesh : Topology n)

/-- The commits that are on their way to a node: in messages, and in what is left of
broadcasts. -/
def comingTo (net : MeshState n) (i : Fin n) : List (String × String) :=
  net.packets.flatMap (Packet.brings mesh.strOf (mesh.uri i)) ++
    net.proposals.flatMap fun proposal => proposal.round.owes (mesh.uri i)

/-- The ledgers and the commit counts are those of what the nodes have applied. -/
structure Books (start : Fin n → ℕ) (nodes : Fin n → BFTNodeStateSync)
    (applied : Fin n → List (String × String)) : Prop where
  ledgers : ∀ i, (nodes i).stateLedger = PyDict.empty.setItems (applied i)
  counts : ∀ i, (nodes i).commitCount = start i + (applied i).length

variable {mesh} {net : MeshState n} {j : Fin n}

/-! ## What is coming after a step -/

@[simp] theorem comingTo_setNode {i : Fin n} {node : BFTNodeStateSync} :
    comingTo mesh (net.setNode i node) j = comingTo mesh net j := rfl

variable (mesh j) in
theorem comingTo_drop {p : ℕ} {packet : Packet} (here : net.packets[p]? = some packet) :
    (comingTo mesh net j).Perm
      (packet.brings mesh.strOf (mesh.uri j) ++ comingTo mesh (net.drop p) j) := by
  have taken := (cons_eraseIdx_perm here).symm.flatMap_right
    (Packet.brings mesh.strOf (mesh.uri j))
  rw [List.flatMap_cons] at taken
  have all := taken.append_right (net.proposals.flatMap fun q => q.round.owes (mesh.uri j))
  rwa [List.append_assoc] at all

theorem comingTo_send (packets : List Packet) :
    (comingTo mesh (net.send packets) j).Perm
      (packets.flatMap (Packet.brings mesh.strOf (mesh.uri j)) ++ comingTo mesh net j) := by
  unfold comingTo
  rw [MeshState.send_packets, MeshState.send_proposals, List.flatMap_append, List.append_assoc,
    ← List.append_assoc, ← List.append_assoc]
  exact List.perm_append_comm.append_right _

variable (mesh j) in
theorem comingTo_setRound {r : ℕ} {proposal : Proposal n} (round : Round)
    (here : net.proposals[r]? = some proposal) :
    (proposal.round.owes (mesh.uri j) ++ comingTo mesh (net.setRound r proposal round) j).Perm
      (round.owes (mesh.uri j) ++ comingTo mesh net j) := by
  let owes (q : Proposal n) := q.round.owes (mesh.uri j)
  have set_ := (cons_set_perm here { proposal with round }).flatMap_right owes
  rw [List.flatMap_cons, List.flatMap_cons] at set_
  refine List.perm_iff_count.mpr fun c => ?_
  have counts := set_.count_eq c
  simp only [comingTo, MeshState.setRound_packets, MeshState.setRound_proposals, List.count_append,
    owes] at counts ⊢
  omega

/-! ## Ledgers and counts -/

section Books

variable {start : Fin n → ℕ} {nodes : Fin n → BFTNodeStateSync}
  {applied : Fin n → List (String × String)} {pending : Fin n → List (String × String)}

theorem Books.same (books : Books start nodes applied) {i : Fin n} {node : BFTNodeStateSync}
    (ledger : node.stateLedger = (nodes i).stateLedger)
    (count : node.commitCount = (nodes i).commitCount) :
    Books start (Function.update nodes i node) applied where
  ledgers k := (read_update BFTNodeStateSync.stateLedger ledger k).trans (books.ledgers k)
  counts k := (read_update BFTNodeStateSync.commitCount count k).trans (books.counts k)

theorem Books.commit (books : Books start nodes applied) (i : Fin n) (key value : String) :
    Books start (Function.update nodes i ((nodes i).commit key value))
      ((Dissemination.mk applied pending).apply i (key, value)) := by
  constructor
  · intro k
    by_cases here : k = i
    · subst here
      rw [Function.update_self, Dissemination.apply_self, PyDict.setItems, List.foldl_concat]
      exact congrArg (PyDict.setItem key value) (books.ledgers k)
    · rw [Function.update_of_ne here, Dissemination.apply_of_ne _ here]
      exact books.ledgers k
  · intro k
    by_cases here : k = i
    · subst here
      rw [Function.update_self, Dissemination.apply_self, List.length_append]
      exact congrArg Nat.succ (books.counts k)
    · rw [Function.update_of_ne here, Dissemination.apply_of_ne _ here]
      exact books.counts k

end Books

/-- A round that does not commit leaves the count as it was. -/
theorem Round.advance_count {node : BFTNodeStateSync} {round : Round}
    (waits : ¬ round.Commits node) : (round.advance node).1.commitCount = node.commitCount := by
  obtain ⟨key, value, granted, phase⟩ := round
  cases phase with
  | asking rest =>
      cases rest with
      | nil =>
          have minority : ¬ (Round.mk key value granted (.asking [])).votes ≥ node.quorumFor :=
            fun quorum => waits ⟨rfl, quorum⟩
          rw [advance, if_neg minority]
      | cons ballot rest =>
          simp only [advance]
          split
          · rfl
          · split <;> rfl
  | sending uris =>
      cases uris with
      | nil => rfl
      | cons uri rest =>
          simp only [advance]
          split <;> rfl
  | _ => rfl

theorem Round.answered_count (node : BFTNodeStateSync) (round : Round) (response : Option Json) :
    (round.answered node response).1.commitCount = node.commitCount := by
  unfold Round.answered
  split
  · split <;> rfl
  · rfl

/-- A round that commits. -/
theorem Round.advance_commits {node : BFTNodeStateSync} {round : Round}
    (commits : round.Commits node) :
    round.advance node = (node.commit round.key round.value,
      { round with phase := .sending (node.peers.items.map Prod.snd) }, none) := by
  unfold Round.advance
  rw [commits.1]
  exact if_pos commits.2

/-! ## A step of the mesh -/

/-- A broadcast begins with one message to each other node. -/
theorem FullyConnected.nodup_uris {nodes : Fin n → BFTNodeStateSync}
    (connected : FullyConnected mesh nodes) (i : Fin n) :
    (Phase.sending ((nodes i).peers.items.map Prod.snd)).uris.Nodup := by
  rw [Phase.uris, List.filterMap_map, List.Nodup, List.pairwise_filterMap]
  have keys : (nodes i).peers.items.Pairwise fun item item' => item.1 ≠ item'.1 :=
    List.pairwise_map.mp (nodes i).peers.nodup
  refine keys.imp_of_mem fun {item item'} member member' apart uri live uri' live' same => apart ?_
  obtain ⟨peer, entry⟩ := item
  obtain ⟨peer', entry'⟩ := item'
  obtain ⟨k, -, rfl, rfl⟩ := (connected.peers i peer entry).mp member
  obtain ⟨k', -, rfl, rfl⟩ := (connected.peers i peer' entry').mp member'
  have at_ := Option.some.inj (eq_some_of_liveUri live)
  have at_' := Option.some.inj (eq_some_of_liveUri live')
  rw [mesh.uri_injective (at_.trans (same.trans at_'.symm))]

theorem owes_broadcast {nodes : Fin n → BFTNodeStateSync} (connected : FullyConnected mesh nodes)
    (i : Fin n) (round : Round) :
    Round.owes (mesh.uri j)
        { round with phase := .sending ((nodes i).peers.items.map Prod.snd) } =
      if j = i then [] else [(round.key, round.value)] := by
  unfold Round.owes
  split
  · rename_i here
    subst here
    have none_ : mesh.uri j ∉ (Phase.sending ((nodes j).peers.items.map Prod.snd)).uris := by
      intro member
      obtain ⟨k, other, same⟩ := (connected.mem_uris j _).mp member
      exact other (mesh.uri_injective same).symm
    rw [List.count_eq_zero_of_not_mem none_, List.replicate_zero]
  · rename_i other
    rw [List.count_eq_one_of_mem (connected.nodup_uris i)
      ((connected.mem_uris i _).mpr ⟨j, other, rfl⟩), List.replicate_one]

/-- A round that says the same of its broadcast owes the same. -/
theorem owes_congr {round round' : Round} {uri : String} (key_ : round'.key = round.key)
    (value_ : round'.value = round.value) (uris : round'.phase.uris = round.phase.uris) :
    round'.owes uri = round.owes uri := by
  unfold Round.owes
  rw [key_, value_, uris]

/-- The step spreads the commits, as far as the nodes have applied them before. -/
def Spreads (mesh : Topology n) (start : Fin n → ℕ) (applied : Fin n → List (String × String))
    (net : MeshState n) (commit : Option (String × String)) (net' : MeshState n) : Prop :=
  ∃ applied', (Dissemination.mk applied (comingTo mesh net)).Step commit
    ⟨applied', comingTo mesh net'⟩ ∧ Books start net'.nodes applied'

section Step

variable {net' : MeshState n} {start : Fin n → ℕ} {applied : Fin n → List (String × String)}

theorem Spreads.still (books : Books start net'.nodes applied)
    (same : ∀ j, (comingTo mesh net' j).Perm (comingTo mesh net j)) :
    Spreads mesh start applied net none net' :=
  ⟨applied, .stutter _ same, books⟩

variable {r : ℕ} {proposal : Proposal n}

/-- A round that commits has the commit on its way to every other node. -/
theorem comingTo_committed (connected : FullyConnected mesh net.nodes) (node : BFTNodeStateSync)
    (here : net.proposals[r]? = some proposal)
    (commits : proposal.round.Commits (net.nodes proposal.proposer)) :
    (comingTo mesh (((net.setNode proposal.proposer node).setRound r proposal
        { proposal.round with
          phase := .sending ((net.nodes proposal.proposer).peers.items.map Prod.snd) }).send
            []) j).Perm
      ((if j = proposal.proposer then [] else [(proposal.round.key, proposal.round.value)]) ++
        comingTo mesh net j) := by
  have nothing : proposal.round.owes (mesh.uri j) = [] := by
    rw [Round.owes, commits.1]
    rfl
  have at_ : (net.setNode proposal.proposer node).proposals[r]? = some proposal := here
  have set_ := comingTo_setRound mesh j { proposal.round with
    phase := .sending ((net.nodes proposal.proposer).peers.items.map Prod.snd) } at_
  rw [nothing, List.nil_append, owes_broadcast connected] at set_
  exact (comingTo_send []).trans set_

/-- A round that owes as much as before changes nothing of what is coming. -/
theorem comingTo_round {node : BFTNodeStateSync} {round : Round}
    (here : net.proposals[r]? = some proposal)
    (owes : round.owes (mesh.uri j) = proposal.round.owes (mesh.uri j)) :
    (comingTo mesh ((net.setNode proposal.proposer node).setRound r proposal round) j).Perm
      (comingTo mesh net j) := by
  have at_ : (net.setNode proposal.proposer node).proposals[r]? = some proposal := here
  have set_ := comingTo_setRound mesh j round at_
  rw [owes] at set_
  exact (List.perm_append_left_iff _).mp set_

/-- A commit that is sent was owed before. -/
theorem comingTo_sent {node : BFTNodeStateSync} {uri nodeId : String} {rest : List (Option String)}
    (here : net.proposals[r]? = some proposal) (live : uri ≠ "")
    (phase : proposal.round.phase = .sending (some uri :: rest)) :
    (([.oneWay uri (commitPayload nodeId proposal.round.key proposal.round.value)] :
        List Packet).flatMap (Packet.brings mesh.strOf (mesh.uri j)) ++
      comingTo mesh ((net.setNode proposal.proposer node).setRound r proposal
        { proposal.round with phase := .sending rest }) j).Perm (comingTo mesh net j) := by
  have at_ : (net.setNode proposal.proposer node).proposals[r]? = some proposal := here
  have set_ := comingTo_setRound mesh j { proposal.round with phase := .sending rest } at_
  have owed : proposal.round.owes (mesh.uri j) =
      (if uri = mesh.uri j then [(proposal.round.key, proposal.round.value)] else []) ++
        Round.owes (mesh.uri j) { proposal.round with phase := .sending rest } := by
    rw [Round.owes, Round.owes, phase, Phase.uris, List.filterMap_cons, liveUri_of_ne live]
    simp only [List.count_cons, beq_iff_eq, Phase.uris]
    split
    · rw [List.replicate_succ]
      rfl
    · rfl
  rw [owed, List.append_assoc] at set_
  rw [List.flatMap_singleton, Packet.brings, commitOf_commitPayload, Option.toList_some]
  refine List.perm_iff_count.mpr fun c => ?_
  have counts := set_.count_eq c
  simp only [List.count_append, comingTo_setNode] at counts ⊢
  omega

theorem spreads_proceed (upright : Upright mesh net) (books : Books start net.nodes applied)
    (here : net.proposals[r]? = some proposal) :
    Spreads mesh start applied net (committed net (.proceed r))
      (meshStep mesh net (.proceed r)).2 := by
  simp only [meshStep, here, committed]
  by_cases commits : proposal.round.Commits (net.nodes proposal.proposer)
  · rw [committing_proceed here commits, Round.advance_commits commits]
    have coming (k : Fin n) := comingTo_committed (j := k) upright.connected
      ((net.nodes proposal.proposer).commit proposal.round.key proposal.round.value) here commits
    refine ⟨_, .post proposal.proposer (proposal.round.key, proposal.round.value) _ ?_
      fun k other => ?_, books.commit proposal.proposer _ _⟩
    · have own := coming proposal.proposer
      rwa [if_pos rfl, List.nil_append] at own
    · have sent := coming k
      rwa [if_neg other, List.singleton_append] at sent
  · have silent : committing net (.proceed r) = none := by
      simp only [committing, here, Option.filter_some, decide_eq_false commits]
      rfl
    have count := Round.advance_count commits
    have advanced := Round.advance_advanced (net.nodes proposal.proposer) proposal.round
    generalize proposal.round.advance (net.nodes proposal.proposer) = result at count advanced ⊢
    obtain ⟨node, round, out⟩ := result
    rw [silent]
    cases advanced with
    | committed commits' => exact absurd commits' commits
    | asked peer uri rest phase =>
        refine .still (books.same rfl rfl) fun k => (comingTo_send _).trans ?_
        exact comingTo_round here (owes_congr rfl rfl (by rw [phase]; rfl))
    | sent uri rest live phase =>
        refine .still (books.same rfl rfl) fun k => (comingTo_send _).trans ?_
        exact comingTo_sent here live phase
    | moved _ phase roster ledger ballots uris =>
        refine .still (books.same ledger count) fun k => (comingTo_send _).trans ?_
        exact comingTo_round here (owes_congr rfl rfl uris)

/-- The packets that bring nothing: requests and replies. -/
theorem comingTo_silent {p : ℕ} {packet : Packet} (here : net.packets[p]? = some packet)
    (silent : packet.brings mesh.strOf (mesh.uri j) = []) :
    (comingTo mesh (net.drop p) j).Perm (comingTo mesh net j) := by
  have taken := comingTo_drop mesh j here
  rw [silent] at taken
  exact taken.symm

theorem brings_replies (p : ℕ) (peer uri : String) (response : Option Json) :
    (replies p peer response).flatMap (Packet.brings mesh.strOf uri) = [] := by
  cases response <;> rfl

theorem spreads_deliver (upright : Upright mesh net) (books : Books start net.nodes applied)
    (p : ℕ) : Spreads mesh start applied net none (meshStep mesh net (.deliver p)).2 := by
  have unchanged : Spreads mesh start applied net none net := .still books fun _ => .refl _
  cases here : net.packets[p]? with
  | none => simpa only [meshStep, here] using unchanged
  | some packet =>
      cases packet with
      | request r peer uri message =>
          cases found : mesh.node? uri with
          | none => simpa only [meshStep, here, found] using unchanged
          | some i =>
              obtain ⟨nodeId, key, value, rfl⟩ :=
                upright.requests r peer _ message (List.mem_of_getElem? here)
              simp only [meshStep, here, found, dispatch_voteRequest]
              refine .still (books.same rfl rfl) fun k => (comingTo_send _).trans ?_
              rw [brings_replies]
              exact comingTo_silent here rfl
      | reply r peer response =>
          simp only [meshStep, here]
          have dropped (k : Fin n) : (comingTo mesh (net.drop p) k).Perm (comingTo mesh net k) :=
            comingTo_silent here rfl
          split
          · rename_i awaits
            obtain ⟨proposal, waits, uri, rest, phase⟩ := MeshState.awaits_eq_some awaits
            have same : (net.drop p).proposals[r]? = some proposal := waits
            rw [MeshState.respond_eq same]
            obtain ⟨key_, value_, uris, ledger⟩ := (Round.answered_answered
              (net.nodes proposal.proposer) proposal.round (some response)).frame
            refine .still (books.same ledger (Round.answered_count _ _ _)) fun k => ?_
            exact (comingTo_round same (owes_congr key_ value_ uris)).trans (dropped k)
          · exact .still books dropped
      | oneWay uri message =>
          cases found : mesh.node? uri with
          | none => simpa only [meshStep, here, found] using unchanged
          | some i =>
              obtain rfl := mesh.uri_of_node? found
              obtain ⟨sender, k, key, value, other, at_, rfl⟩ :=
                upright.oneWays _ _ (List.mem_of_getElem? here)
              obtain rfl := mesh.uri_injective at_
              simp only [meshStep, here, found, dispatch_commit (isCommit_commitPayload _ _ _)
                (upright.connected.knows other)]
              have taken (k : Fin n) := comingTo_drop mesh k here
              simp only [Packet.brings, commitOf_commitPayload, Option.toList_some] at taken
              refine ⟨_, .deliver i (key, value) _ ?_ fun k apart => ?_, books.commit i key value⟩
              · have own := taken i
                rwa [if_pos rfl, List.singleton_append] at own
              · have others := taken k
                rw [if_neg fun same => apart (mesh.uri_injective same).symm,
                  List.nil_append] at others
                exact others.symm

theorem spreads_timeout (books : Books start net.nodes applied) (r : ℕ) :
    Spreads mesh start applied net none (meshStep mesh net (.timeout r)).2 := by
  cases awaits : net.awaits r with
  | none =>
      simp only [meshStep, awaits]
      exact .still books fun _ => .refl _
  | some peer =>
      obtain ⟨proposal, waits, _⟩ := MeshState.awaits_eq_some awaits
      simp only [meshStep, awaits, Option.isSome_some, if_true, MeshState.respond_eq waits]
      obtain ⟨key_, value_, uris, ledger⟩ := (Round.answered_answered
        (net.nodes proposal.proposer) proposal.round none).frame
      refine .still (books.same ledger (Round.answered_count _ _ _)) fun k => ?_
      exact comingTo_round waits (owes_congr key_ value_ uris)

/-- **A step of the mesh is a step of the dissemination.** -/
theorem spreads_step (upright : Upright mesh net) (books : Books start net.nodes applied)
    {action : MeshAction n} (reliable : action.Reliable) :
    Spreads mesh start applied net (committed net action) (meshStep mesh net action).2 := by
  have unchanged : Spreads mesh start applied net none net := .still books fun _ => .refl _
  cases action with
  | propose i key value =>
      simp only [meshStep, Round.start_attached (upright.connected.attached i)]
      refine .still (books.same rfl rfl) fun k => ?_
      simp only [comingTo, MeshState.setNode_packets, List.flatMap_append]
      rw [← List.append_assoc]
      exact (List.append_nil _) ▸ .refl _
  | proceed r =>
      cases here : net.proposals[r]? with
      | some proposal => exact spreads_proceed upright books here
      | none =>
          have silent : committed net (.proceed r) = none := by
            rw [committed, committing, here]
            rfl
          rw [silent]
          simpa only [meshStep, here] using unchanged
  | deliver p => exact spreads_deliver upright books p
  | timeout r => exact spreads_timeout books r
  | setPeerPolicy i peer policy =>
      by_cases known : (net.nodes i).peers.Contains peer
      · simp only [meshStep, BFTNodeStateSync.setPeerPolicy, if_pos known]
        exact .still (books.same rfl rfl) fun _ => .refl _
      · simp only [meshStep, BFTNodeStateSync.setPeerPolicy, if_neg known]
        exact unchanged
  | lose p => exact reliable.elim
  | answer p response => exact reliable.elim
  | inject uri message => exact reliable.elim

end Step

end Coming

/-! ## Runs -/

section Run

variable {n : ℕ} {mesh : Topology n} {net : MeshState n}

/-- What every reliable run keeps. -/
structure Disseminated (mesh : Topology n) (start : Fin n → ℕ) (past : List (MeshEvent n))
    (net : MeshState n) : Prop where
  upright : Upright mesh net
  spread : ∃ applied, Books start net.nodes applied ∧
    (Dissemination.mk applied (comingTo mesh net)).Accounts (commitsOf past)

theorem Started.coming (started : Started mesh net) (i : Fin n) : comingTo mesh net i = [] := by
  rw [comingTo, started.packets, started.proposals]
  rfl

theorem commitsOf_concat (past : List (MeshEvent n)) (e : MeshEvent n) :
    commitsOf (past ++ [e]) = commitsOf past ++ (committed e.before e.input).toList := by
  rw [commitsOf, List.filterMap_append, List.filterMap_cons, List.filterMap_nil]
  cases committed e.before e.input <;> rfl

theorem disseminated_of_run (started : Started mesh net) {actions : List (MeshAction n)}
    (reliable : ∀ a ∈ actions, a.Reliable) :
    Disseminated mesh (fun i => (net.nodes i).commitCount) ((meshMachine mesh).trace net actions)
      ((meshMachine mesh).run net actions) := by
  have run := (meshMachine mesh).history_invariant
    (P := fun past net' => (∀ e ∈ past, e.input.Reliable) →
      Disseminated mesh (fun i => (net.nodes i).commitCount) past net')
    (fun past s action before allowed => by
      obtain ⟨earlier, now⟩ := List.forall_mem_append.mp allowed
      have reliable : action.Reliable := now _ (List.mem_singleton.mpr rfl)
      obtain ⟨upright, applied, books, accounts⟩ := before earlier
      obtain ⟨applied', step, books'⟩ := spreads_step upright books reliable
      refine ⟨upright.moved reliable (meshStep_moved mesh s action), applied', books', ?_⟩
      rw [commitsOf_concat]
      exact step.accounts accounts)
    (s := net) (fun _ => ⟨started.upright, fun _ => [], ⟨fun i => started.ledgers i, fun _ => rfl⟩,
      fun i => List.perm_nil.mpr ((List.nil_append _).trans (started.coming i))⟩) actions
  refine run fun e member => ?_
  exact ((meshMachine mesh).trace_invariant_of (P := fun _ => True) (fun _ _ _ _ => trivial)
    (s := net) trivial reliable e member).2.1

/-- **Every commit is applied everywhere once**: however many nodes propose at once and in
whatever order the messages arrive, a node's ledger is what all commits of the run give it in
some order, each once, but for those that are still coming to it, each once.  So where no two
commits give a key two values, the ledger of a node that nothing is coming to is the commits of
the run. -/
theorem commits_applied_once (mesh : Topology n) (net : MeshState n) (started : Started mesh net)
    (actions : List (MeshAction n)) (reliable : ∀ a ∈ actions, a.Reliable) (i : Fin n) :
    let after := (meshMachine mesh).run net actions
    let commits := commitsOf ((meshMachine mesh).trace net actions)
    (∃ applied : List (String × String), (applied ++ comingTo mesh after i).Perm commits ∧
      (after.nodes i).stateLedger = PyDict.empty.setItems applied ∧
      (after.nodes i).commitCount = (net.nodes i).commitCount + applied.length) ∧
    (comingTo mesh after i = [] →
      (∀ c ∈ commits, ∀ c' ∈ commits, c.1 = c'.1 → c.2 = c'.2) → ∀ key value,
        (after.nodes i).stateLedger.get? key = some value ↔ (key, value) ∈ commits) := by
  intro after commits
  obtain ⟨-, applied, books, accounts⟩ := disseminated_of_run started reliable
  refine ⟨⟨applied i, accounts i, books.ledgers i, books.counts i⟩, fun rest agree key value => ?_⟩
  have all : (applied i).Perm commits := accounts.applied rest
  rw [books.ledgers, PyDict.get?_setItems_iff, all.mem_iff]
  intro c here c' here'
  exact agree c (all.mem_iff.mp here) c' (all.mem_iff.mp here')

/-- Two nodes propose at once, and each has the other's commit once. -/
theorem crossing_commits_applied :
    (((meshMachine Duo.mesh).run Duo.net (Duo.crossing 0 1)).nodes 0).commitCount = 2 := by
  obtain ⟨applied, all, -, count⟩ := (commits_applied_once Duo.mesh Duo.net Duo.started
    (Duo.crossing 0 1) (by decide) 0).1
  have rest : comingTo Duo.mesh ((meshMachine Duo.mesh).run Duo.net (Duo.crossing 0 1)) 0 = [] := by
    decide +kernel
  have commits : commitsOf ((meshMachine Duo.mesh).trace Duo.net (Duo.crossing 0 1)) =
      [("k", "x"), ("k", "y")] := by decide +kernel
  rw [rest, commits, List.append_nil] at all
  rw [count, all.length_eq]
  decide

end Run

end CentaurApex.Mesh
