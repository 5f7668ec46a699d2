/-
# Mesh.Facade -- a proposal made from inside a running event loop

There `propose_state_update` hands the round to a worker thread and waits for it, ten
seconds at most.  The worker is the round of `Mesh.Consensus`, run against a clock: an
answer takes its time, three seconds at most, and so does every message of a broadcast.
What a call returns is what the worker has when the wait is over
(`proposeStateUpdate`); the worker itself is not told.

* `canvass`, `broadcast_ends`: how long the two loops of a round take, and what they
  leave;
* `stays_rejected_iff`: a call that returns `False` leaves the ledger alone, and sends
  nothing, exactly if the votes are too few or the round is over in ten seconds.
-/
import CentaurApex.Mesh.Consensus
import Mathlib.Algebra.BigOperators.Group.List.Basic
import Mathlib.Algebra.Order.Field.Rat
import Mathlib.Tactic.Ring

namespace CentaurApex.Mesh

open CentaurApex.Theory

set_option autoImplicit false

/-- How long an attempt took, within its own limit of three seconds. -/
structure Elapsed where
  seconds : ℚ
  nonneg : 0 ≤ seconds
  within : seconds ≤ 3

/-- The other side of a round: what each peer answers, if it answers, and how long
everything takes. -/
structure Exchange where
  response : String → Option Json
  answering : String → Elapsed
  sending : String → Elapsed

/-- The round on its thread. -/
structure Worker where
  clock : ℚ
  node : BFTNodeStateSync
  round : Round
  /-- What was broadcast, and when. -/
  sent : List (ℚ × String × Json)

namespace Worker

variable (exchange : Exchange)

def start (node : BFTNodeStateSync) (key value : String) : Worker :=
  { clock := 0, node := (Round.start node key value).1, round := (Round.start node key value).2,
    sent := [] }

def step (w : Worker) : Worker :=
  match w.round.phase with
  | .waiting peer _ _ =>
      let (node, round) := w.round.answered w.node (exchange.response peer)
      { w with clock := w.clock + (exchange.answering peer).seconds, node, round }
  | _ =>
      match w.round.advance w.node with
      | (node, round, some (.sendMessage uri payload)) =>
          { clock := w.clock + (exchange.sending uri).seconds, node, round,
            sent := w.sent ++ [(w.clock, uri, payload)] }
      | (node, round, _) => { w with node, round }

end Worker

/-- A bound on the steps of a round. -/
def BFTNodeStateSync.steps (node : BFTNodeStateSync) : ℕ := 3 * node.peers.items.length + 3

/-- `propose_state_update` inside a running loop: `worker.join(timeout=10.0)`, and then
whatever the result is by now. -/
def proposeStateUpdate (exchange : Exchange) (node : BFTNodeStateSync) (key value : String) :
    Bool :=
  let w := (Worker.step exchange)^[node.steps] (.start node key value)
  match w.round.phase with
  | .finished ok => if w.clock ≤ 10 then ok else false
  | _ => false

/-! ## What a round costs -/

section Cost

variable (exchange : Exchange) (node : BFTNodeStateSync)

/-- The peer is asked for its vote. -/
def Asked (ballot : String × Option String) : Prop :=
  node.policies.get? ballot.1 ≠ some .faulty ∧ (liveUri ballot.2).isSome

instance (ballot : String × Option String) : Decidable (Asked node ballot) :=
  inferInstanceAs (Decidable (_ ∧ _))

/-- The peers that will have voted for the update. -/
def supporters (ballots : List (String × Option String)) : List String :=
  (ballots.filter fun ballot =>
    Asked node ballot ∧ (exchange.response ballot.1).any grants = true).map Prod.fst

/-- How many peers will have been counted as Byzantine. -/
def suspects (ballots : List (String × Option String)) : ℕ :=
  ballots.countP fun ballot => node.policies.get? ballot.1 = some .faulty ∨
    Asked node ballot ∧ ¬ (exchange.response ballot.1).any grants = true

def votingTime (ballots : List (String × Option String)) : ℚ :=
  (ballots.map fun ballot =>
    if Asked node ballot then (exchange.answering ballot.1).seconds else 0).sum

def sendingTime (uris : List (Option String)) : ℚ :=
  ((uris.filterMap liveUri).map fun uri => (exchange.sending uri).seconds).sum

/-- How long a round takes that commits. -/
def roundTime : ℚ :=
  if node.attached then
    votingTime exchange node node.peers.items + sendingTime exchange (node.peers.items.map Prod.snd)
  else 0

end Cost

/-! ## The loops of a round -/

section Loops

variable {exchange : Exchange} {node : BFTNodeStateSync} {w : Worker}

/-- The proposal has changed nothing of the node's ledger and sent nothing. -/
def Untouched (node : BFTNodeStateSync) (w : Worker) : Prop :=
  w.node.stateLedger = node.stateLedger ∧ w.node.commitCount = node.commitCount ∧ w.sent = []

/-- The node as it was, but for what it counts of its peers. -/
structure SameBooks (node node' : BFTNodeStateSync) : Prop where
  roster : node'.roster = node.roster
  policies : node'.policies = node.policies
  ledger : node'.stateLedger = node.stateLedger
  commits : node'.commitCount = node.commitCount

theorem SameBooks.refl (node : BFTNodeStateSync) : SameBooks node node := ⟨rfl, rfl, rfl, rfl⟩

theorem SameBooks.trans {node' node'' : BFTNodeStateSync} (first : SameBooks node node')
    (second : SameBooks node' node'') : SameBooks node node'' :=
  ⟨second.roster.trans first.roster, second.policies.trans first.policies,
    second.ledger.trans first.ledger, second.commits.trans first.commits⟩

theorem SameBooks.asked {node' : BFTNodeStateSync} (same : SameBooks node node')
    (ballot : String × Option String) : Asked node' ballot ↔ Asked node ballot := by
  unfold Asked
  rw [same.policies]

theorem SameBooks.votingTime {node' : BFTNodeStateSync} (same : SameBooks node node')
    (ballots : List (String × Option String)) :
    votingTime exchange node' ballots = votingTime exchange node ballots := by
  simp only [Mesh.votingTime, same.asked]

theorem SameBooks.supporters {node' : BFTNodeStateSync} (same : SameBooks node node')
    (ballots : List (String × Option String)) :
    supporters exchange node' ballots = supporters exchange node ballots := by
  simp only [Mesh.supporters, same.asked]

/-- The node with `n` more peers counted as Byzantine. -/
def BFTNodeStateSync.suspect (node : BFTNodeStateSync) (n : ℕ) : BFTNodeStateSync :=
  { node with byzantineCount := node.byzantineCount + n }

theorem suspect_suspect (m n : ℕ) : (node.suspect m).suspect n = node.suspect (m + n) := by
  simp only [BFTNodeStateSync.suspect, Nat.add_assoc]

theorem suspect_books (node : BFTNodeStateSync) (n : ℕ) : SameBooks node (node.suspect n) :=
  ⟨rfl, rfl, rfl, rfl⟩

theorem suspects_suspect (exchange : Exchange) (n : ℕ) (ballots : List (String × Option String)) :
    suspects exchange (node.suspect n) ballots = suspects exchange node ballots := rfl

/-- A peer that is not asked is passed over in one step. -/
theorem step_passed (exchange : Exchange) {w : Worker} {peer : String} {uri : Option String}
    {rest : List (String × Option String)}
    (phase : w.round.phase = .asking ((peer, uri) :: rest)) (passed : ¬ Asked w.node (peer, uri)) :
    w.step exchange =
      { w with
        node := w.node.suspect (if w.node.policies.get? peer = some .faulty then 1 else 0)
        round := { w.round with phase := .asking rest } } := by
  by_cases faulty : w.node.policies.get? peer = some .faulty
  · simp only [Worker.step, phase, Round.advance, if_pos faulty]
    rfl
  · have dead : liveUri uri = none := by
      by_contra live
      exact passed ⟨faulty, Option.isSome_iff_ne_none.mpr live⟩
    simp only [Worker.step, phase, Round.advance, if_neg faulty, dead]
    rfl

/-- A peer that is asked is waited for, and its vote counted if it grants it. -/
theorem step_asked (exchange : Exchange) {w : Worker} {peer : String} {uri : Option String}
    {rest : List (String × Option String)}
    (phase : w.round.phase = .asking ((peer, uri) :: rest)) (asked : Asked w.node (peer, uri)) :
    ∃ at_,
      w.step exchange = { w with round := { w.round with phase := .waiting peer at_ rest } } ∧
      (w.step exchange).step exchange =
        { w with
          clock := w.clock + (exchange.answering peer).seconds
          node := w.node.suspect (if (exchange.response peer).any grants = true then 0 else 1)
          round := { w.round with
            granted := w.round.granted ++
              if (exchange.response peer).any grants = true then [peer] else []
            phase := .asking rest } } := by
  obtain ⟨at_, live⟩ := Option.isSome_iff_exists.mp asked.2
  have first : w.step exchange =
      { w with round := { w.round with phase := .waiting peer at_ rest } } := by
    simp only [Worker.step, phase, Round.advance, if_neg asked.1, live]
  refine ⟨at_, first, ?_⟩
  rw [first]
  simp only [Worker.step, Round.answered]
  by_cases grant : (exchange.response peer).any grants = true
  · simp only [if_pos grant]
    rfl
  · simp only [if_neg grant, List.append_nil]
    rfl

/-- **The votes are collected**: after as many steps the round has heard its supporters
and counted its suspects, in the time the answers took, and nothing else has happened. -/
theorem canvass (exchange : Exchange) :
    ∀ (ballots : List (String × Option String)) (w : Worker),
    w.round.phase = .asking ballots → ∃ k,
      k ≤ 2 * ballots.length ∧
      (∀ j ≤ k, SameBooks w.node ((Worker.step exchange)^[j] w).node ∧
        ((Worker.step exchange)^[j] w).sent = w.sent) ∧
      (Worker.step exchange)^[k] w =
        { w with
          clock := w.clock + votingTime exchange w.node ballots
          node := w.node.suspect (suspects exchange w.node ballots)
          round := { w.round with
            granted := w.round.granted ++ supporters exchange w.node ballots
            phase := .asking [] } }
  | [], w, phase => by
      refine ⟨0, Nat.zero_le _, fun j before => ?_, ?_⟩
      · obtain rfl := Nat.le_zero.mp before
        exact ⟨.refl _, rfl⟩
      · simp [votingTime, supporters, suspects, BFTNodeStateSync.suspect, ← phase]
  | (peer, uri) :: rest, w, phase => by
      by_cases asked : Asked w.node (peer, uri)
      · obtain ⟨at_, first, second⟩ := step_asked exchange phase asked
        have same := suspect_books w.node
          (if (exchange.response peer).any grants = true then 0 else 1)
        obtain ⟨k, bound, quiet, done⟩ := canvass exchange rest
          ((w.step exchange).step exchange) (by rw [second])
        rw [second] at quiet done
        refine ⟨k + 2, ?_, fun j before => ?_, ?_⟩
        · rw [List.length_cons]
          omega
        · rcases j with _ | _ | j
          · exact ⟨.refl _, rfl⟩
          · rw [Function.iterate_one, first]
            exact ⟨.refl _, rfl⟩
          · rw [Function.iterate_succ_apply, Function.iterate_succ_apply, second]
            obtain ⟨kept, silent⟩ := quiet j (by omega)
            exact ⟨same.trans kept, silent⟩
        · rw [Function.iterate_succ_apply, Function.iterate_succ_apply, second, done]
          simp only [same.votingTime, same.supporters, suspects_suspect, suspect_suspect]
          by_cases grant : (exchange.response peer).any grants = true
          · simp [votingTime, supporters, suspects, asked, asked.1, grant, add_assoc]
          · simp [votingTime, supporters, suspects, asked, asked.1, grant, add_assoc, add_comm]
      · have first := step_passed exchange phase asked
        have same := suspect_books w.node
          (if w.node.policies.get? peer = some .faulty then 1 else 0)
        obtain ⟨k, bound, quiet, done⟩ := canvass exchange rest (w.step exchange) (by rw [first])
        rw [first] at quiet done
        refine ⟨k + 1, ?_, fun j before => ?_, ?_⟩
        · rw [List.length_cons]
          omega
        · cases j with
          | zero => exact ⟨.refl _, rfl⟩
          | succ j =>
              rw [Function.iterate_succ_apply, first]
              obtain ⟨kept, silent⟩ := quiet j (Nat.le_of_succ_le_succ before)
              exact ⟨same.trans kept, silent⟩
        · rw [Function.iterate_succ_apply, first, done]
          simp only [same.votingTime, same.supporters, suspects_suspect, suspect_suspect]
          by_cases faulty : w.node.policies.get? peer = some .faulty
          · simp [votingTime, supporters, suspects, asked, faulty, add_comm]
          · simp [votingTime, supporters, suspects, asked, faulty]

theorem SameBooks.quorumFor {node' : BFTNodeStateSync} (same : SameBooks node node') :
    node'.quorumFor = node.quorumFor := by
  have peers : node'.peers = node.peers := congrArg (fun r => r.2.2) same.roster
  rw [BFTNodeStateSync.quorumFor, BFTNodeStateSync.quorumFor, peers]

theorem step_rejects (exchange : Exchange) {w : Worker} (phase : w.round.phase = .asking [])
    (few : w.round.votes < w.node.quorumFor) :
    w.step exchange =
      { w with
        node := { w.node with rejectedCount := w.node.rejectedCount + 1 }
        round := { w.round with phase := .finished false } } := by
  simp only [Worker.step, Round.advance, phase, if_neg (not_le.mpr few)]

theorem step_commits (exchange : Exchange) {w : Worker} (phase : w.round.phase = .asking [])
    (quorum : w.node.quorumFor ≤ w.round.votes) :
    w.step exchange =
      { w with
        node := w.node.commit w.round.key w.round.value
        round := { w.round with phase := .sending (w.node.peers.items.map Prod.snd) } } := by
  simp only [Worker.step, Round.advance, phase, if_pos quorum]

/-- **The commit is broadcast**: after as many steps the round is over, in the time the
messages took, and neither the node nor who voted has changed. -/
theorem broadcast_ends (exchange : Exchange) : ∀ (uris : List (Option String)) (w : Worker),
    w.round.phase = .sending uris → ∃ k, k ≤ uris.length + 1 ∧
      ((Worker.step exchange)^[k] w).round.phase = .finished true ∧
      ((Worker.step exchange)^[k] w).node = w.node ∧
      ((Worker.step exchange)^[k] w).round.granted = w.round.granted ∧
      ((Worker.step exchange)^[k] w).clock = w.clock + sendingTime exchange uris
  | [], w, phase => by
      refine ⟨1, le_rfl, ?_⟩
      rw [Function.iterate_one]
      simp [Worker.step, Round.advance, phase, sendingTime]
  | uri :: rest, w, phase => by
      cases live : liveUri uri with
      | none =>
          have first : w.step exchange =
              { w with round := { w.round with phase := .sending rest } } := by
            simp only [Worker.step, Round.advance, phase, live]
          obtain ⟨k, bound, ended, kept, voters, clock⟩ :=
            broadcast_ends exchange rest (w.step exchange) (by rw [first])
          refine ⟨k + 1, by rw [List.length_cons]; omega, ended, kept.trans (by rw [first]),
            voters.trans (by rw [first]), ?_⟩
          rw [Function.iterate_succ_apply, clock, first]
          simp [sendingTime, live]
      | some at_ =>
          have first : w.step exchange =
              { w with
                clock := w.clock + (exchange.sending at_).seconds
                round := { w.round with phase := .sending rest }
                sent := w.sent ++ [(w.clock, at_,
                  commitPayload w.node.nodeId w.round.key w.round.value)] } := by
            simp only [Worker.step, Round.advance, phase, live]
          obtain ⟨k, bound, ended, kept, voters, clock⟩ :=
            broadcast_ends exchange rest (w.step exchange) (by rw [first])
          refine ⟨k + 1, by rw [List.length_cons]; omega, ended, kept.trans (by rw [first]),
            voters.trans (by rw [first]), ?_⟩
          rw [Function.iterate_succ_apply, clock, first]
          simp [sendingTime, live, add_assoc]

/-- A round that is over stays as it is. -/
theorem finished_stays {w : Worker} {ok : Bool} (phase : w.round.phase = .finished ok) (k : ℕ) :
    (Worker.step exchange)^[k] w = w := by
  have still : w.step exchange = w := by
    simp only [Worker.step, Round.advance, phase]
  exact Function.iterate_fixed still k

theorem finished_later {w : Worker} {ok : Bool} {k n : ℕ} (before : k ≤ n)
    (phase : ((Worker.step exchange)^[k] w).round.phase = .finished ok) :
    (Worker.step exchange)^[n] w = (Worker.step exchange)^[k] w := by
  obtain ⟨d, rfl⟩ := Nat.exists_eq_add_of_le' before
  rw [Function.iterate_add_apply, finished_stays phase]

/-- What a call returns, read off the end of its round. -/
theorem proposeStateUpdate_eq {node : BFTNodeStateSync} {key value : String} {ok : Bool} {k : ℕ}
    (before : k ≤ node.steps)
    (phase : ((Worker.step exchange)^[k] (.start node key value)).round.phase = .finished ok) :
    proposeStateUpdate exchange node key value =
      if ((Worker.step exchange)^[k] (.start node key value)).clock ≤ 10 then ok else false := by
  have ended := finished_later before phase
  simp only [proposeStateUpdate, ended, phase]

end Loops

/-! ## Calls -/

section Calls

variable (exchange : Exchange) (node : BFTNodeStateSync) (key value : String)

/-- If the call returns `False`, its proposal never touches the ledger and never sends
a commit, before the return or after. -/
def StaysRejected : Prop :=
  proposeStateUpdate exchange node key value = false →
    ∀ k, Untouched node ((Worker.step exchange)^[k] (.start node key value))

variable {exchange node key value}

theorem start_of_attached (attached : node.attached = true) :
    Worker.start node key value = ⟨0, node, ⟨key, value, [], .asking node.peers.items⟩, []⟩ := by
  simp only [Worker.start, Round.start_attached attached]

/-- The call once its votes are collected. -/
theorem canvassed (exchange : Exchange) (key value : String) (attached : node.attached = true) :
    ∃ k w, (Worker.step exchange)^[k] (.start node key value) = w ∧
      k ≤ 2 * node.peers.items.length ∧ w.round.phase = .asking [] ∧
      w.round.granted = supporters exchange node node.peers.items ∧
      w.clock = votingTime exchange node node.peers.items ∧
      w.node = node.suspect (suspects exchange node node.peers.items) ∧ w.round.key = key ∧
      w.round.value = value ∧
      ∀ j ≤ k, Untouched node ((Worker.step exchange)^[j] (.start node key value)) := by
  rw [start_of_attached attached]
  obtain ⟨k, bound, quiet, done⟩ := canvass exchange node.peers.items
    ⟨0, node, ⟨key, value, [], .asking node.peers.items⟩, []⟩ rfl
  refine ⟨k, _, done, bound, rfl, rfl, zero_add _, rfl, rfl, rfl, fun j during => ?_⟩
  obtain ⟨same, silent⟩ := quiet j during
  exact ⟨same.ledger, same.commits, silent⟩

/-- A round that raises no quorum rejects, and touches nothing. -/
theorem untouched_of_few (attached : node.attached = true)
    (few : 1 + (supporters exchange node node.peers.items).length < node.quorumFor) (j : ℕ) :
    Untouched node ((Worker.step exchange)^[j] (.start node key value)) := by
  obtain ⟨k, w, reached, -, phase, granted, -, counted, -, -, untouched⟩ :=
    canvassed exchange key value attached
  have books : SameBooks node w.node := counted ▸ suspect_books node _
  have votes : w.round.votes = 1 + (supporters exchange node node.peers.items).length := by
    rw [Round.votes, granted]
  rcases Nat.lt_or_ge k j with after | during
  · have rejected := step_rejects exchange phase (by rwa [votes, books.quorumFor])
    have next : (Worker.step exchange)^[k + 1] (.start node key value) = w.step exchange := by
      rw [Function.iterate_succ_apply', reached]
    have finish : ((Worker.step exchange)^[k + 1] (.start node key value)).round.phase =
        .finished false := by rw [next, rejected]
    have last := untouched k le_rfl
    rw [reached] at last
    rw [finished_later after finish, next, rejected]
    exact last
  · exact untouched j during

/-- A round that raises one commits, and is over when its answers and its messages have
taken their time. -/
theorem committed_of_many (exchange : Exchange) (key value : String)
    (attached : node.attached = true)
    (many : node.quorumFor ≤ 1 + (supporters exchange node node.peers.items).length) :
    proposeStateUpdate exchange node key value =
        (if roundTime exchange node ≤ 10 then true else false) ∧
      ∃ k, ((Worker.step exchange)^[k] (.start node key value)).node.commitCount =
        node.commitCount + 1 := by
  obtain ⟨k, w, reached, bound, phase, granted, time, counted, -, -, -⟩ :=
    canvassed exchange key value attached
  have books : SameBooks node w.node := counted ▸ suspect_books node _
  have votes : w.round.votes = 1 + (supporters exchange node node.peers.items).length := by
    rw [Round.votes, granted]
  have peers : w.node.peers = node.peers := congrArg (fun r => r.2.2) books.roster
  have committed := step_commits exchange phase (by rwa [votes, books.quorumFor])
  have next : (Worker.step exchange)^[k + 1] (.start node key value) = w.step exchange := by
    rw [Function.iterate_succ_apply', reached]
  obtain ⟨n, bound', ended, -, -, clock⟩ := broadcast_ends exchange
    (w.node.peers.items.map Prod.snd) (w.step exchange) (by rw [committed])
  rw [← next, ← Function.iterate_add_apply] at ended clock
  constructor
  · have soon : n + (k + 1) ≤ node.steps := by
      rw [List.length_map, peers] at bound'
      unfold BFTNodeStateSync.steps
      omega
    rw [proposeStateUpdate_eq soon ended, clock, next, committed, peers, roundTime,
      if_pos attached, ← time]
  · refine ⟨k + 1, ?_⟩
    rw [next, committed]
    exact congrArg (· + 1) books.commits

/-- Without a transport the simulated quorum accepts at once. -/
theorem proposeStateUpdate_unattached (exchange : Exchange) (key value : String)
    (unattached : ¬ node.attached = true) : proposeStateUpdate exchange node key value = true := by
  have quorum : 1 + node.peers.items.length ≥ node.quorumFor := by
    unfold BFTNodeStateSync.quorumFor
    omega
  have started : Worker.start node key value =
      ⟨0, node.commit key value, ⟨key, value, [], .finished true⟩, []⟩ := by
    simp only [Worker.start, Round.start, if_neg unattached, if_pos quorum]
  have finish : ((Worker.step exchange)^[0] (.start node key value)).round.phase =
      .finished true := by rw [Function.iterate_zero_apply, started]
  rw [proposeStateUpdate_eq (Nat.zero_le _) finish, Function.iterate_zero_apply, started]
  norm_num

/-- **A rejected update stays rejected** exactly if the votes are too few or the round is
over before the wait is. -/
theorem stays_rejected_iff (exchange : Exchange) (node : BFTNodeStateSync) (key value : String) :
    StaysRejected exchange node key value ↔
      1 + (supporters exchange node node.peers.items).length < node.quorumFor ∨
        roundTime exchange node ≤ 10 := by
  by_cases attached : node.attached = true
  · rcases Nat.lt_or_ge (1 + (supporters exchange node node.peers.items).length) node.quorumFor
      with few | many
    · exact ⟨fun _ => .inl few, fun _ _ => untouched_of_few attached few⟩
    · obtain ⟨returned, k, committed⟩ := committed_of_many exchange key value attached many
      by_cases soon : roundTime exchange node ≤ 10
      · rw [if_pos soon] at returned
        exact ⟨fun _ => .inr soon, fun _ rejected => by rw [returned] at rejected; cases rejected⟩
      · rw [if_neg soon] at returned
        refine ⟨fun stays => ?_, fun allowed => ?_⟩
        · have touched := (stays returned k).2.1
          omega
        · rcases allowed with few | soon'
          · exact absurd few (not_lt.mpr many)
          · exact absurd soon' soon
  · have returned := proposeStateUpdate_unattached exchange key value attached
    refine ⟨fun _ => .inr ?_, fun _ rejected => by rw [returned] at rejected; cases rejected⟩
    rw [roundTime, if_neg attached]
    norm_num

end Calls

/-! ### Poles -/

namespace Slow

/-- A node with a transport and five peers. -/
def node : BFTNodeStateSync :=
  ["b", "c", "d", "e", "f"].foldl (fun node peer => node.registerPeer peer (some ("ws://" ++ peer)))
    (BFTNodeStateSync.new "a" true)

/-- Every peer votes for the update, each after as many seconds. -/
def exchange (seconds : ℚ) (nonneg : 0 ≤ seconds) (within : seconds ≤ 3) : Exchange where
  response _ := some (voteResponse true none)
  answering _ := ⟨seconds, nonneg, within⟩
  sending _ := ⟨0, le_rfl, by norm_num⟩

end Slow

example : proposeStateUpdate (Slow.exchange 1 (by norm_num) (by norm_num)) Slow.node "k" "v" =
    true := by decide +kernel

/-- Refuting pole: five peers that take two seconds and a half each.  The call returns
`False` after ten seconds, and the update is committed after twelve and a half. -/
theorem slow_peers_commit :
    ¬ ∀ (exchange : Exchange) (node : BFTNodeStateSync) (key value : String),
      StaysRejected exchange node key value := by
  intro stays
  have rejected : proposeStateUpdate (Slow.exchange (5 / 2) (by norm_num) (by norm_num)) Slow.node
      "k" "v" = false := by decide +kernel
  have untouched := stays _ Slow.node "k" "v" rejected 11
  exact absurd untouched.2.1 (by decide +kernel)

end CentaurApex.Mesh
