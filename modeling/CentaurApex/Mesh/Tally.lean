/-
# Mesh.Tally -- what one round counts

A round that runs alone, on a node with a transport.  Every peer is accounted for once:
it votes for the update, is counted as Byzantine, or cannot be reached
(`tally_conserved`).  The quorum is a strict majority of the nodes, and the round commits
exactly where its votes are one (`round_outcome`).

A vote is counted for each name a peer is registered under, whoever answers at its URI.
`one_vote_iff`: that no endpoint is counted twice, nor the proposer a second time, is a
matter of the URIs the names were last given.
-/
import CentaurApex.Mesh.Facade
import Mathlib.Data.List.Induction

namespace CentaurApex.Mesh

open CentaurApex.Theory

set_option autoImplicit false

/-! ## The outcome of a round -/

section Outcome

variable (exchange : Exchange) (node : BFTNodeStateSync) (key value : String)

/-- The nodes of the cluster: the peers, and the node itself. -/
def BFTNodeStateSync.clusterSize : ℕ := node.peers.items.length + 1

/-- The votes for the update: the node's own, and those of the peers not marked faulty
that were reached and voted `True`. -/
def votesFor : ℕ := 1 + (supporters exchange node node.peers.items).length

/-- The peers not marked faulty that have no URI. -/
def unreachable : ℕ :=
  node.peers.items.countP fun ballot =>
    ¬ node.policies.get? ballot.1 = some .faulty ∧ liveUri ballot.2 = none

/-- The proposal once it has run to its end. -/
def finalWorker : Worker := (Worker.step exchange)^[node.steps] (.start node key value)

/-- A quorum is a strict majority of the nodes. -/
theorem quorumFor_le_iff (votes : ℕ) :
    node.quorumFor ≤ votes ↔ node.clusterSize < 2 * votes := by
  unfold BFTNodeStateSync.quorumFor BFTNodeStateSync.clusterSize
  omega

/-- **Every peer is counted once**: as a voter, as Byzantine, or as out of reach. -/
theorem tally_conserved :
    votesFor exchange node + suspects exchange node node.peers.items + unreachable node =
      node.clusterSize := by
  have each (ballots : List (String × Option String)) :
      (supporters exchange node ballots).length + suspects exchange node ballots +
        (ballots.countP fun ballot =>
          ¬ node.policies.get? ballot.1 = some .faulty ∧ liveUri ballot.2 = none) =
        ballots.length := by
    induction ballots with
    | nil => rfl
    | cons ballot ballots ih =>
        obtain ⟨peer, uri⟩ := ballot
        simp only [supporters, suspects, List.filter_cons, List.countP_cons] at ih ⊢
        by_cases faulty : node.policies.get? peer = some .faulty
        · simp [Asked, faulty] at ih ⊢
          omega
        · cases live : liveUri uri with
          | none =>
              simp [Asked, faulty, live] at ih ⊢
              omega
          | some at_ =>
              by_cases grant : (exchange.response peer).any grants = true
              · simp [Asked, faulty, live, grant] at ih ⊢
                omega
              · simp [Asked, faulty, live, grant] at ih ⊢
                omega
  have all := each node.peers.items
  unfold votesFor unreachable BFTNodeStateSync.clusterSize
  omega

/-- The round is over when its steps are done: with the votes counted, and committed or
rejected by them. -/
theorem finalWorker_eq (attached : node.attached = true) :
    (finalWorker exchange node key value).round.granted =
        supporters exchange node node.peers.items ∧
      if node.clusterSize < 2 * votesFor exchange node then
        (finalWorker exchange node key value).round.phase = .finished true ∧
          (finalWorker exchange node key value).node =
            (node.suspect (suspects exchange node node.peers.items)).commit key value
      else
        (finalWorker exchange node key value).round.phase = .finished false ∧
          (finalWorker exchange node key value).node =
            { node.suspect (suspects exchange node node.peers.items) with
              rejectedCount := node.rejectedCount + 1 } := by
  obtain ⟨k, w, reached, bound, phase, granted, -, counted, keyed, valued, -⟩ :=
    canvassed exchange key value attached
  have next : (Worker.step exchange)^[k + 1] (.start node key value) = w.step exchange := by
    rw [Function.iterate_succ_apply', reached]
  have votes : w.round.votes = votesFor exchange node := by
    rw [Round.votes, granted, votesFor]
  have quorum : w.node.quorumFor = node.quorumFor := by
    rw [counted, (suspect_books node _).quorumFor]
  split
  · rename_i majority
    have committed := step_commits exchange phase
      (by rwa [votes, quorum, quorumFor_le_iff])
    obtain ⟨n, bound', ended, kept, voters, -⟩ :=
      broadcast_ends exchange (w.node.peers.items.map Prod.snd) (w.step exchange)
        (by rw [committed])
    rw [← next, ← Function.iterate_add_apply] at ended kept voters
    have soon : n + (k + 1) ≤ node.steps := by
      rw [List.length_map, counted] at bound'
      change n ≤ node.peers.items.length + 1 at bound'
      unfold BFTNodeStateSync.steps
      omega
    rw [finalWorker, finished_later soon ended]
    refine ⟨?_, ended, ?_⟩
    · rw [voters, next, committed]
      exact granted
    · rw [kept, next, committed, counted, keyed, valued]
  · rename_i minority
    have rejected := step_rejects exchange phase
      (by rw [votes, quorum]; exact not_le.mp (mt (quorumFor_le_iff node _).mp minority))
    have ended : ((Worker.step exchange)^[k + 1] (.start node key value)).round.phase =
        .finished false := by rw [next, rejected]
    have soon : k + 1 ≤ node.steps := by
      unfold BFTNodeStateSync.steps
      omega
    rw [finalWorker, finished_later soon ended]
    refine ⟨?_, ended, ?_⟩
    · rw [next, rejected]
      exact granted
    · rw [next, rejected, counted]
      rfl

/-- **What a round does**: it commits exactly where the votes for it are a strict majority
of the nodes.  A commit writes its key and counts itself; a rejection counts itself and
leaves the ledger alone.  And every peer is accounted for. -/
theorem round_outcome (attached : node.attached = true) :
    ∃ w, finalWorker exchange node key value = w ∧
      w.round.votes = votesFor exchange node ∧
      w.round.phase = .finished (decide (node.clusterSize < 2 * votesFor exchange node)) ∧
      (w.round.phase = .finished true →
        (∀ other, w.node.stateLedger.get? other =
          if other = key then some value else node.stateLedger.get? other) ∧
        w.node.commitCount = node.commitCount + 1 ∧
        w.node.rejectedCount = node.rejectedCount) ∧
      (w.round.phase = .finished false →
        w.node.stateLedger = node.stateLedger ∧ w.node.commitCount = node.commitCount ∧
        w.node.rejectedCount = node.rejectedCount + 1) ∧
      ∃ growth, w.node.byzantineCount = node.byzantineCount + growth ∧
        w.round.votes + growth + unreachable node = node.clusterSize := by
  obtain ⟨granted, outcome⟩ := finalWorker_eq exchange node key value attached
  have votes : (finalWorker exchange node key value).round.votes = votesFor exchange node := by
    rw [Round.votes, granted, votesFor]
  refine ⟨_, rfl, votes, ?_⟩
  by_cases majority : node.clusterSize < 2 * votesFor exchange node
  · rw [if_pos majority] at outcome
    obtain ⟨phase, final⟩ := outcome
    rw [phase, final, decide_eq_true majority, votes]
    refine ⟨rfl, fun _ => ⟨fun other => ?_, rfl, rfl⟩, fun rejected => ?_, _, rfl,
      tally_conserved exchange node⟩
    · exact PyDict.get?_setItem key value _ other
    · cases rejected
  · rw [if_neg majority] at outcome
    obtain ⟨phase, final⟩ := outcome
    rw [phase, final, decide_eq_false majority, votes]
    refine ⟨rfl, fun committed => ?_, fun _ => ⟨rfl, rfl, rfl⟩, _, rfl,
      tally_conserved exchange node⟩
    cases committed

end Outcome

theorem instant_nonneg : (0 : ℚ) ≤ 0 := le_rfl

theorem instant_within : (0 : ℚ) ≤ 3 := by norm_num

/-- An attempt that takes no time. -/
def Elapsed.instant : Elapsed := ⟨0, instant_nonneg, instant_within⟩

namespace Pair

/-- A node with a transport and two peers at their URIs. -/
def node : BFTNodeStateSync :=
  ((BFTNodeStateSync.new "node-1" true).registerPeer "node-2" (some "ws://node-2")).registerPeer
    "node-3" (some "ws://node-3")

/-- The first peer votes for the update, the second does not answer. -/
def exchange : Exchange where
  response peer := if peer = "node-2" then some (voteResponse true none) else none
  answering _ := .instant
  sending _ := .instant

end Pair

/-- Satisfiable pole: two votes of three commit, and the silent peer is counted as
Byzantine. -/
theorem two_of_three_commit :
    votesFor Pair.exchange Pair.node = 2 ∧ Pair.node.clusterSize = 3 ∧
      ∃ w, finalWorker Pair.exchange Pair.node "key" "value" = w ∧
        w.round.phase = .finished true ∧ w.node.commitCount = 1 ∧ w.node.byzantineCount = 1 := by
  obtain ⟨w, final, votes, phase, commits, -, growth, counted, total⟩ :=
    round_outcome Pair.exchange Pair.node "key" "value" (by decide)
  have ended : w.round.phase = .finished true := phase.trans (by decide +kernel)
  have two : votesFor Pair.exchange Pair.node = 2 := by decide +kernel
  have size : Pair.node.clusterSize = 3 := by decide
  have none_ : unreachable Pair.node = 0 := by decide +kernel
  have fresh : Pair.node.byzantineCount = 0 := by decide
  have start : Pair.node.commitCount = 0 := by decide
  refine ⟨two, size, w, final, ended, ?_, ?_⟩
  · rw [(commits ended).2.1, start]
  · rw [votes, two, none_, size] at total
    omega

/-! ## One node, one vote -/

section Registration

/-- The node after a list of `register_peer` calls. -/
def registered (nodeId : String) (calls : List (String × Option String)) : BFTNodeStateSync :=
  calls.foldl (fun node call => node.registerPeer call.1 call.2) (.new nodeId true)

/-- The URI a name was last given. -/
def lastUri (calls : List (String × Option String)) (peer : String) : Option String :=
  ((calls.filter fun call => call.1 = peer).filterMap Prod.snd).getLast?

theorem lastUri_append (calls : List (String × Option String)) (call : String × Option String)
    (peer : String) :
    lastUri (calls ++ [call]) peer =
      if call.1 = peer then call.2.or (lastUri calls peer) else lastUri calls peer := by
  obtain ⟨name, uri⟩ := call
  by_cases here : name = peer
  · cases uri with
    | none => simp [lastUri, here]
    | some uri => simp [lastUri, here]
  · simp [lastUri, here]

theorem registerPeer_name (node : BFTNodeStateSync) (peer : String) (uri : Option String) :
    (node.registerPeer peer uri).nodeId = node.nodeId ∧
      (node.registerPeer peer uri).attached = node.attached := by
  unfold BFTNodeStateSync.registerPeer
  split
  · cases uri <;> exact ⟨rfl, rfl⟩
  · exact ⟨rfl, rfl⟩

/-- A name is given its URI, unless the call gives none and it has one. -/
theorem registerPeer_peers (node : BFTNodeStateSync) (peer : String) (uri : Option String)
    (other : String) :
    (node.registerPeer peer uri).peers.get? other =
      if other = peer then some (uri.or (node.peers.get? peer).join)
      else node.peers.get? other := by
  unfold BFTNodeStateSync.registerPeer
  by_cases known : node.peers.Contains peer
  · obtain ⟨old, read⟩ := PyDict.contains_iff.mp known
    rw [if_pos known]
    cases uri with
    | some uri =>
        rw [PyDict.get?_setItem]
        rfl
    | none =>
        by_cases here : other = peer
        · rw [if_pos here, here, read]
          rfl
        · rw [if_neg here]
  · have fresh : node.peers.get? peer = none := by
      by_contra read
      exact known (PyDict.contains_iff.mpr (Option.ne_none_iff_exists'.mp read))
    rw [if_neg known, PyDict.get?_setItem, fresh]
    simp

theorem registerPeer_policies (node : BFTNodeStateSync) (peer : String) (uri : Option String)
    {other : String} (honest : node.policies.get? other ≠ some .faulty) :
    (node.registerPeer peer uri).policies.get? other ≠ some .faulty := by
  unfold BFTNodeStateSync.registerPeer
  split
  · cases uri <;> exact honest
  · rw [PyDict.get?_setItem]
    split
    · simp
    · exact honest

/-- What a node knows is what it was told: each name with the URI it was last given, and
nobody faulty. -/
theorem registered_spec (nodeId : String) (calls : List (String × Option String)) :
    (registered nodeId calls).nodeId = nodeId ∧ (registered nodeId calls).attached = true ∧
      ∀ peer, ((registered nodeId calls).peers.get? peer).join = lastUri calls peer ∧
        (registered nodeId calls).policies.get? peer ≠ some .faulty := by
  induction calls using List.reverseRecOn with
  | nil => exact ⟨rfl, rfl, fun peer => ⟨rfl, by simp [registered, BFTNodeStateSync.new]⟩⟩
  | append_singleton calls call ih =>
      obtain ⟨name, attached, known⟩ := ih
      obtain ⟨peer, uri⟩ := call
      have last : registered nodeId (calls ++ [(peer, uri)]) =
          (registered nodeId calls).registerPeer peer uri := by
        simp only [registered, List.foldl_append, List.foldl_cons, List.foldl_nil]
      obtain ⟨sameName, sameAttached⟩ :=
        registerPeer_name (registered nodeId calls) peer uri
      rw [last]
      refine ⟨sameName.trans name, sameAttached.trans attached, fun other => ⟨?_, ?_⟩⟩
      · rw [registerPeer_peers, lastUri_append]
        by_cases here : other = peer
        · rw [if_pos here, if_pos here.symm, (known peer).1, here]
          rfl
        · rw [if_neg here, if_neg (Ne.symm here)]
          exact (known other).1
      · exact registerPeer_policies _ peer uri (known other).2

/-- The name was last given a URI that is one. -/
def HasUri (calls : List (String × Option String)) (peer : String) : Prop :=
  ∃ uri, uri ≠ "" ∧ lastUri calls peer = some uri

/-- The peers that vote for an update are the names with a URI whose endpoint grants it. -/
theorem mem_supporters (exchange : Exchange) (nodeId : String)
    (calls : List (String × Option String)) (peer : String) :
    peer ∈ supporters exchange (registered nodeId calls) (registered nodeId calls).peers.items ↔
      HasUri calls peer ∧ (exchange.response peer).any grants = true := by
  obtain ⟨-, -, known⟩ := registered_spec nodeId calls
  constructor
  · intro voter
    obtain ⟨⟨_, uri⟩, member, rfl⟩ := List.mem_map.mp voter
    obtain ⟨item, voted⟩ := List.mem_filter.mp member
    obtain ⟨⟨-, live⟩, grant⟩ := of_decide_eq_true voted
    obtain ⟨at_, live⟩ := Option.isSome_iff_exists.mp live
    obtain rfl := eq_some_of_liveUri live
    refine ⟨⟨at_, ne_of_liveUri live, ?_⟩, grant⟩
    rw [← (known _).1, PyDict.get?_of_mem item]
    rfl
  · rintro ⟨⟨uri, live, last⟩, grant⟩
    rw [← (known peer).1] at last
    have item := PyDict.mem_of_get? (Option.join_eq_some_iff.mp last)
    refine List.mem_map.mpr ⟨(peer, some uri), List.mem_filter.mpr ⟨item, ?_⟩, rfl⟩
    refine decide_eq_true ⟨⟨(known peer).2, ?_⟩, grant⟩
    rw [liveUri_of_ne live]
    rfl

/-- A name votes at most once. -/
theorem supporters_nodup (exchange : Exchange) (node : BFTNodeStateSync) :
    (supporters exchange node node.peers.items).Nodup :=
  node.peers.nodup.sublist (List.filter_sublist.map _)

/-- The votes of a round come from different endpoints, and none is the proposer's: not
under its own name, and not at the URL of its own server. -/
def OneVoteEach (serverUrl : String) (node : BFTNodeStateSync) (voters : List String) : Prop :=
  (voters.map fun peer => (node.peers.get? peer).join).Nodup ∧ node.nodeId ∉ voters ∧
    ∀ peer ∈ voters, (node.peers.get? peer).join ≠ some serverUrl

/-- The names in question were last given different URIs, the proposer's own name is not
one of them, and neither is the URL of its own server one of the URIs. -/
def Separate (nodeId serverUrl : String) (calls : List (String × Option String))
    (voting : String → Prop) : Prop :=
  (∀ i j, voting i → voting j → lastUri calls i = lastUri calls j → i = j) ∧
    ¬ voting nodeId ∧ ∀ i, voting i → lastUri calls i ≠ some serverUrl

theorem oneVoteEach_iff (exchange : Exchange) (nodeId serverUrl key value : String)
    (calls : List (String × Option String)) :
    OneVoteEach serverUrl (registered nodeId calls)
        (finalWorker exchange (registered nodeId calls) key value).round.granted ↔
      Separate nodeId serverUrl calls fun peer =>
        HasUri calls peer ∧ (exchange.response peer).any grants = true := by
  obtain ⟨name, attached, known⟩ := registered_spec nodeId calls
  rw [(finalWorker_eq exchange _ key value attached).1, OneVoteEach, Separate,
    List.nodup_map_iff_inj_on (supporters_nodup exchange _), name]
  simp only [mem_supporters, (known _).1]
  constructor
  · rintro ⟨different, rest⟩
    exact ⟨fun i j voting voting' => different i voting j voting', rest⟩
  · rintro ⟨different, rest⟩
    exact ⟨fun i voting j voting' => different i j voting voting', rest⟩

/-- Every endpoint votes for the update. -/
def unanimous : Exchange where
  response _ := some (voteResponse true none)
  answering _ := .instant
  sending _ := .instant

/-- **One node, one vote** exactly where the names that vote were last given different
URIs, and neither the proposer's own name nor its own URL is among them.  Whoever votes,
so it is exactly where that holds of all names with a URI. -/
theorem one_vote_iff (nodeId serverUrl key value : String)
    (calls : List (String × Option String)) :
    (∀ exchange,
      OneVoteEach serverUrl (registered nodeId calls)
          (finalWorker exchange (registered nodeId calls) key value).round.granted ↔
        Separate nodeId serverUrl calls fun peer =>
          HasUri calls peer ∧ (exchange.response peer).any grants = true) ∧
    ((∀ exchange,
      OneVoteEach serverUrl (registered nodeId calls)
        (finalWorker exchange (registered nodeId calls) key value).round.granted) ↔
      Separate nodeId serverUrl calls (HasUri calls)) := by
  refine ⟨fun exchange => oneVoteEach_iff exchange nodeId serverUrl key value calls, ?_⟩
  simp only [oneVoteEach_iff]
  constructor
  · intro separate
    obtain ⟨different, own, url⟩ := separate unanimous
    exact ⟨fun i j named named' => different i j ⟨named, rfl⟩ ⟨named', rfl⟩,
      fun named => own ⟨named, rfl⟩, fun i named => url i ⟨named, rfl⟩⟩
  · rintro ⟨different, own, url⟩ exchange
    exact ⟨fun i j voting voting' => different i j voting.1 voting'.1,
      fun voting => own voting.1, fun i voting => url i voting.1⟩

/-- Refuting pole: one endpoint under two names votes twice, and the two votes and the
proposer's make a quorum of three nodes. -/
theorem aliased_endpoint_votes_twice :
    ¬ ∀ (exchange : Exchange) (nodeId serverUrl key value : String)
      (calls : List (String × Option String)),
      OneVoteEach serverUrl (registered nodeId calls)
        (finalWorker exchange (registered nodeId calls) key value).round.granted := by
  intro each
  have once := (each unanimous "node-1" "ws://node-1" "key" "value"
    [("node-2", some "ws://node-2"), ("node-3", some "ws://node-2")]).1
  revert once
  decide +kernel

end Registration

end CentaurApex.Mesh
