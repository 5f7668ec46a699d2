/-
# Mesh.Interference -- what a peer marked faulty can do to a ledger

A node as one machine: messages arrive in any order, between the steps of the proposals
the node has begun, and each proposal waits for one answer at a time.

The policy is read where a vote is asked for and where a vote request is answered.  So
the votes and the vote requests of a peer marked faulty leave the node as it is, and runs
that differ in nothing else end alike (`faulty_votes_ignored`).  `apply_commit` does not
read it: every commit of such a peer enters the ledger (`faulty_commit_applied`).
-/
import CentaurApex.Mesh.Consensus
import CentaurApex.Theory.Machine

namespace CentaurApex.Mesh

open CentaurApex.Theory
open CentaurApex.Theory.Python

set_option autoImplicit false

/-- A node and the proposals it has begun. -/
structure Site where
  node : BFTNodeStateSync
  rounds : List Round

inductive SiteInput where
  /-- A message for the handler. -/
  | receive (message : Json)
  /-- A local proposal. -/
  | propose (key value : String)
  /-- Proposal `r` runs to its next await. -/
  | proceed (r : ℕ)
  /-- The answer of a peer to the vote request of proposal `r`, or none in time. -/
  | vote (r : ℕ) (peer : String) (response : Option Json)

/-! ## Steps -/

section Step

-- `strOf`: how a value that is no string is formatted by `str(value)`
variable (strOf : Json → String)

/-- The peer a round waits for. -/
def Round.awaits (round : Round) : Option String :=
  match round.phase with
  | .waiting peer _ _ => some peer
  | _ => none

def siteStep (site : Site) : SiteInput → Option Json × Site
  | .receive message =>
      let (answer, node) := dispatch strOf site.node message
      (answer, { site with node })
  | .propose key value =>
      let (node, round) := Round.start site.node key value
      (none, ⟨node, site.rounds ++ [round]⟩)
  | .proceed r =>
      match site.rounds[r]? with
      | some round =>
          let (node, round, _) := round.advance site.node
          (none, ⟨node, site.rounds.set r round⟩)
      | none => (none, site)
  | .vote r peer response =>
      match site.rounds[r]? with
      | some round =>
          if round.awaits = some peer then
            let (node, round) := round.answered site.node response
            (none, ⟨node, site.rounds.set r round⟩)
          else (none, site)
      | none => (none, site)

def siteMachine : Machine Site SiteInput (Option Json) := ⟨siteStep strOf⟩

/-- Who a message says it is from. -/
def claimedSender : Json → Option String
  | .obj message =>
      match get message "op" .null with
      | .str "vote_request" =>
          match get message "proposer" .null with
          | .str proposer => some proposer
          | _ => none
      | .str "commit" => some (pyStr strOf (get message "sender" (.str "")))
      | _ => none
  | _ => none

/-- The peer an input comes from. -/
def SiteInput.sender : SiteInput → Option String
  | .receive message => claimedSender strOf message
  | .vote _ peer _ => some peer
  | _ => none

/-- The input is a commit. -/
def SiteInput.isCommit : SiteInput → Bool
  | .receive (.obj message) =>
      match get message "op" .null with
      | .str "commit" => true
      | _ => false
  | _ => false

/-- The runs differ only in what `peer` sends. -/
def AgreeBut (peer : String) (is js : List SiteInput) : Prop :=
  is.filter (fun i => i.sender strOf ≠ some peer) = js.filter (fun i => i.sender strOf ≠ some peer)

/-- The runs differ only in what `peer` sends that is no commit. -/
def AgreeButVotes (peer : String) (is js : List SiteInput) : Prop :=
  is.filter (fun i => i.sender strOf ≠ some peer ∨ i.isCommit) =
    js.filter (fun i => i.sender strOf ≠ some peer ∨ i.isCommit)

end Step

/-! ## The policies of a running node -/

section Policies

variable {node : BFTNodeStateSync} {round : Round} {peer : String}

theorem start_policies (node : BFTNodeStateSync) (key value : String) :
    (Round.start node key value).1.policies = node.policies := by
  unfold Round.start
  split
  · rfl
  · split <;> rfl

theorem awaits_start (node : BFTNodeStateSync) (key value : String) :
    (Round.start node key value).2.awaits = none := by
  unfold Round.start
  split
  · rfl
  · split <;> rfl

/-- A step of a proposal changes no policy, and asks nobody marked faulty. -/
theorem advance_distrusts (node : BFTNodeStateSync) (round : Round) :
    (round.advance node).1.policies = node.policies ∧
      ∀ peer, (round.advance node).2.1.awaits = some peer →
        round.awaits = some peer ∨ node.policies.get? peer ≠ some .faulty := by
  obtain ⟨key, value, granted, phase⟩ := round
  cases phase with
  | asking rest =>
      cases rest with
      | nil =>
          simp only [Round.advance]
          split <;> exact ⟨rfl, fun peer waits => by cases waits⟩
      | cons ballot rest =>
          obtain ⟨asked, uri⟩ := ballot
          by_cases faulty : node.policies.get? asked = some .faulty
          · simp only [Round.advance, if_pos faulty]
            exact ⟨trivial, fun peer waits => by cases waits⟩
          · cases live : liveUri uri with
            | none =>
                simp only [Round.advance, if_neg faulty, live]
                exact ⟨trivial, fun peer waits => by cases waits⟩
            | some at_ =>
                simp only [Round.advance, if_neg faulty, live]
                refine ⟨trivial, fun peer waits => .inr ?_⟩
                obtain rfl := Option.some.inj waits
                exact faulty
  | sending uris =>
      cases uris with
      | nil => exact ⟨rfl, fun peer waits => by cases waits⟩
      | cons uri rest =>
          cases live : liveUri uri with
          | none =>
              simp only [Round.advance, live]
              exact ⟨trivial, fun peer waits => by cases waits⟩
          | some at_ =>
              simp only [Round.advance, live]
              exact ⟨trivial, fun peer waits => by cases waits⟩
  | waiting asked uri rest => exact ⟨rfl, fun peer waits => .inl waits⟩
  | finished committed => exact ⟨rfl, fun peer waits => by cases waits⟩

theorem answered_distrusts (node : BFTNodeStateSync) (round : Round) (response : Option Json) :
    (round.answered node response).1.policies = node.policies ∧
      (round.answered node response).2.awaits = none := by
  obtain ⟨key, value, granted, phase⟩ := round
  cases phase with
  | waiting asked uri rest =>
      simp only [Round.answered]
      split <;> exact ⟨rfl, rfl⟩
  | _ => exact ⟨rfl, rfl⟩

theorem dispatch_policies (strOf : Json → String) (node : BFTNodeStateSync) (message : Json) :
    (dispatch strOf node message).2.policies = node.policies := by
  rcases dispatch_cases strOf node message with same | ⟨_, _, _, -, -, committed⟩
  · rw [same]
  · rw [committed]
    rfl

end Policies

/-! ## Interference -/

section Interference

variable {strOf : Json → String} {peer : String}

/-- The node has the peer marked faulty, and no proposal waits for its vote. -/
structure Distrusts (peer : String) (site : Site) : Prop where
  faulty : site.node.policies.get? peer = some .faulty
  unasked : ∀ round ∈ site.rounds, round.awaits ≠ some peer

theorem Distrusts.set {site : Site} (distrusts : Distrusts peer site) (r : ℕ)
    {node : BFTNodeStateSync} {round : Round} (policies : node.policies = site.node.policies)
    (unasked : round.awaits ≠ some peer) :
    Distrusts peer ⟨node, site.rounds.set r round⟩ := by
  refine ⟨policies ▸ distrusts.faulty, fun other member => ?_⟩
  rcases List.mem_or_eq_of_mem_set member with old | rfl
  · exact distrusts.unasked other old
  · exact unasked

/-- Distrust is for good: no message and no step of a proposal ends it. -/
theorem siteStep_distrusts (site : Site) (input : SiteInput) (distrusts : Distrusts peer site) :
    Distrusts peer ((siteMachine strOf).step site input).2 := by
  cases input with
  | receive message =>
      exact ⟨(dispatch_policies strOf site.node message) ▸ distrusts.faulty, distrusts.unasked⟩
  | propose key value =>
      refine ⟨(start_policies site.node key value) ▸ distrusts.faulty, fun round member => ?_⟩
      change round ∈ site.rounds ++ [(Round.start site.node key value).2] at member
      rcases List.mem_append.mp member with old | new
      · exact distrusts.unasked round old
      · rw [List.mem_singleton.mp new, awaits_start]
        simp
  | proceed r =>
      simp only [siteMachine, siteStep]
      cases here : site.rounds[r]? with
      | none => exact distrusts
      | some round =>
          obtain ⟨policies, asks⟩ := advance_distrusts site.node round
          refine distrusts.set r policies fun waits => ?_
          rcases asks peer waits with already | trusted
          · exact distrusts.unasked round (List.mem_of_getElem? here) already
          · exact trusted distrusts.faulty
  | vote r voter response =>
      simp only [siteMachine, siteStep]
      cases here : site.rounds[r]? with
      | none => exact distrusts
      | some round =>
          by_cases waits : round.awaits = some voter
          · obtain ⟨policies, done⟩ := answered_distrusts site.node round response
            simp only [if_pos waits]
            exact distrusts.set r policies (by rw [done]; simp)
          · simp only [if_neg waits]
            exact distrusts

/-- A message that is no commit changes nothing. -/
theorem dispatch_of_not_commit {node : BFTNodeStateSync} {message : Json}
    (other : (SiteInput.receive message).isCommit = false) :
    (dispatch strOf node message).2 = node := by
  rcases dispatch_cases strOf node message with same | ⟨_, _, _, ⟨fields, rfl, op, -⟩, -⟩
  · exact same
  · simp [SiteInput.isCommit, op] at other

/-- What a distrusted peer sends changes nothing, unless it is a commit. -/
theorem siteStep_idle (site : Site) (input : SiteInput) (distrusts : Distrusts peer site)
    (dropped : decide (input.sender strOf ≠ some peer ∨ input.isCommit) = false) :
    ((siteMachine strOf).step site input).2 = site := by
  obtain ⟨own, other⟩ := not_or.mp (of_decide_eq_false dropped)
  have from_ : input.sender strOf = some peer := not_not.mp own
  cases input with
  | receive message =>
      have same : (dispatch strOf site.node message).2 = site.node :=
        dispatch_of_not_commit (Bool.not_eq_true _ ▸ other)
      simp only [siteMachine, siteStep, same]
  | propose key value => cases from_
  | proceed r => cases from_
  | vote r voter response =>
      obtain rfl := Option.some.inj from_
      simp only [siteMachine, siteStep]
      cases here : site.rounds[r]? with
      | none => rfl
      | some round =>
          simp only [if_neg (distrusts.unasked round (List.mem_of_getElem? here))]

/-- **A peer marked faulty does not interfere by its votes**: runs that differ only in what
it sends, its commits apart, end in the same ledger. -/
theorem faulty_votes_ignored (strOf : Json → String) (node : BFTNodeStateSync) (peer : String)
    (faulty : node.policies.get? peer = some .faulty) (is js : List SiteInput)
    (agree : AgreeButVotes strOf peer is js) :
    ((siteMachine strOf).run ⟨node, []⟩ is).node.stateLedger =
      ((siteMachine strOf).run ⟨node, []⟩ js).node.stateLedger := by
  have start : Distrusts peer ⟨node, []⟩ := ⟨faulty, fun round member => by cases member⟩
  rw [(siteMachine strOf).run_eq_of_filter_eq siteStep_distrusts siteStep_idle start agree]

/-- A commit of a registered peer enters the ledger, after any run and whatever its policy. -/
theorem faulty_commit_applied (strOf : Json → String) (site : Site) (is : List SiteInput)
    {message : Json} {key value : String} (commit : IsCommit strOf message peer key value)
    (known : ((siteMachine strOf).run site is).node.peers.Contains peer) :
    ((siteMachine strOf).run site (is ++ [.receive message])).node.stateLedger =
      ((siteMachine strOf).run site is).node.stateLedger.setItem key value := by
  rw [Machine.run_append]
  exact congrArg (fun sent => sent.2.stateLedger) (dispatch_commit commit known)

end Interference

/-! ### Poles -/

namespace Marked

/-- A node with two peers, before one of them is marked faulty. -/
def before : BFTNodeStateSync :=
  ((BFTNodeStateSync.new "a" true).registerPeer "b" (some "ws://b")).registerPeer "c" (some "ws://c")

/-- The node with `b` marked faulty. -/
def node : BFTNodeStateSync :=
  { before with policies := before.policies.setItem "b" .faulty }

example : before.setPeerPolicy "b" .faulty = .ok node := by decide

def strOf (_ : Json) : String := "?"

end Marked

/-- Satisfiable pole: a vote request of the peer marked faulty makes no difference to what
an honest one commits. -/
theorem marked_vote_request_ignored :
    ((siteMachine Marked.strOf).run ⟨Marked.node, []⟩
        [.receive (voteRequestPayload "b" "k" "v"),
          .receive (commitPayload "c" "k" "v")]).node.stateLedger =
      ((siteMachine Marked.strOf).run ⟨Marked.node, []⟩
        [.receive (commitPayload "c" "k" "v")]).node.stateLedger :=
  faulty_votes_ignored Marked.strOf Marked.node "b" (by decide) _ _ rfl

/-- Refuting pole: a commit of the peer marked faulty is in the ledger. -/
theorem marked_commit_applied :
    ¬ ∀ (strOf : Json → String) (node : BFTNodeStateSync) (peer : String),
      node.policies.get? peer = some .faulty → ∀ is js, AgreeBut strOf peer is js →
        ((siteMachine strOf).run ⟨node, []⟩ is).node.stateLedger =
          ((siteMachine strOf).run ⟨node, []⟩ js).node.stateLedger := by
  intro ignored
  have same := ignored Marked.strOf Marked.node "b" (by decide)
    [.receive (commitPayload "b" "k" "v")] [] rfl
  revert same
  decide +kernel

end CentaurApex.Mesh
