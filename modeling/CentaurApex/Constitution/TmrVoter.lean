/-
# Constitution.TmrVoter -- three replicas and one verdict

Three replicas judge the same proposal, and `reconcile` makes one verdict of theirs: the
common one if they are identical, else what at least two of them agree on in kind, with
the least of the approved notionals or the first of the reasons given.

`reconcile_eq`: the test for identical verdicts makes no difference, the result is that
of the majority.  So the order of the replicas shows in the reason alone
(`reconcile_order_iff`), and the notional is a fold from infinity that passes over NaN:
it is a notional that was approved, and finite, exactly when one is and none is
`-∞` (`reconcile_conservative_iff`).
-/
import CentaurApex.Constitution.Invariants
import Mathlib.Algebra.BigOperators.Fin

namespace CentaurApex.Constitution

open CentaurApex.Theory
open CentaurApex.Theory.ExtNum (fin)

set_option autoImplicit false

/-! ## Verdicts -/

inductive VerdictKind where
  | approved
  | rejected
  | emergencyLiquidationAll
  deriving DecidableEq, Repr

namespace ConstitutionVerdict

def kind : ConstitutionVerdict → VerdictKind
  | approved _ => .approved
  | rejected _ => .rejected
  | emergencyLiquidationAll => .emergencyLiquidationAll

/-- `PartialEq`, as derived: a NaN notional is not even itself. -/
def Identical : ConstitutionVerdict → ConstitutionVerdict → Prop
  | approved m, approved n => m = n ∧ ¬ m.IsNan
  | rejected a, rejected b => a = b
  | emergencyLiquidationAll, emergencyLiquidationAll => True
  | _, _ => False

instance : (v w : ConstitutionVerdict) → Decidable (Identical v w)
  | approved _, approved _ => inferInstanceAs (Decidable (_ ∧ _))
  | rejected _, rejected _ => inferInstanceAs (Decidable (_ = _))
  | emergencyLiquidationAll, emergencyLiquidationAll => isTrue trivial
  | approved _, rejected _ => isFalse id
  | approved _, emergencyLiquidationAll => isFalse id
  | rejected _, approved _ => isFalse id
  | rejected _, emergencyLiquidationAll => isFalse id
  | emergencyLiquidationAll, approved _ => isFalse id
  | emergencyLiquidationAll, rejected _ => isFalse id

theorem Identical.eq {v w : ConstitutionVerdict} (same : v.Identical w) : v = w := by
  cases v <;> cases w <;>
    first
    | exact congrArg approved same.1
    | exact congrArg rejected same
    | rfl
    | exact same.elim

theorem Identical.number {v : ConstitutionVerdict} (same : v.Identical v) :
    ∀ m, v = approved m → ¬ m.IsNan := by
  rintro m rfl
  exact same.2

def approvedNotional : ConstitutionVerdict → Option F64
  | approved adjustedNotional => some adjustedNotional
  | _ => none

def reasonCode : ConstitutionVerdict → Option RiskViolationCode
  | rejected reasonCode => some reasonCode
  | _ => none

theorem approvedNotional_eq_some {v : ConstitutionVerdict} {m : F64} :
    v.approvedNotional = some m ↔ v = approved m := by
  cases v <;> simp [approvedNotional]

theorem exists_of_kind_rejected {v : ConstitutionVerdict} (kind : v.kind = .rejected) :
    ∃ code, v = rejected code := by
  cases v with
  | rejected code => exact ⟨code, rfl⟩
  | approved => cases kind
  | emergencyLiquidationAll => cases kind

theorem reasonCode_eq_some {v : ConstitutionVerdict} {code : RiskViolationCode} :
    v.reasonCode = some code ↔ v = rejected code := by
  cases v <;> simp [reasonCode]

end ConstitutionVerdict

open ConstitutionVerdict

/-! ## The voter -/

/-- What the three replicas answered, slot by slot. -/
abbrev Verdicts : Type := Fin 3 → ConstitutionVerdict

structure TMRVerdict where
  unanimous : Bool
  majorityConsistent : Bool
  divergentReplicas : UInt8
  deriving DecidableEq, Repr

structure TripleModularRedundancyVoter where
  reconcileThreshold : UInt8

def TripleModularRedundancyVoter.default : TripleModularRedundancyVoter := ⟨2⟩

section Voter

variable (verdicts : Verdicts)

/-- How many replicas gave a verdict of this kind. -/
def votes (kind : VerdictKind) : Nat := (List.ofFn verdicts).countP fun v => v.kind = kind

def Unanimous : Prop :=
  (verdicts 0).Identical (verdicts 1) ∧ (verdicts 1).Identical (verdicts 2)

instance : Decidable (Unanimous verdicts) := inferInstanceAs (Decidable (_ ∧ _))

def voteOnVerdicies : TMRVerdict where
  unanimous := Unanimous verdicts
  majorityConsistent := 2 ≤ votes verdicts .approved ∨ 2 ≤ votes verdicts .rejected ∨
    2 ≤ votes verdicts .emergencyLiquidationAll
  divergentReplicas := .ofNat (3 - max (max (votes verdicts .approved) (votes verdicts .rejected))
    (votes verdicts .emergencyLiquidationAll))

/-- The notionals that were approved, in the order of the replicas. -/
def approvedNotionals : List F64 := (List.ofFn verdicts).filterMap approvedNotional

def minimumAdjusted : F64 := (approvedNotionals verdicts).foldl ExtNum.min .posInf

def firstReason : RiskViolationCode :=
  ((List.ofFn verdicts).findSome? reasonCode).getD .invalidNumericalState

def reconcile (voter : TripleModularRedundancyVoter) : ConstitutionVerdict :=
  let ballot := voteOnVerdicies verdicts
  if ballot.unanimous then verdicts 0
  else if ¬ ballot.majorityConsistent then .rejected .invalidNumericalState
  else if voter.reconcileThreshold.toNat ≤ votes verdicts .approved then
    .approved (minimumAdjusted verdicts)
  else if voter.reconcileThreshold.toNat ≤ votes verdicts .rejected then
    .rejected (firstReason verdicts)
  else if voter.reconcileThreshold.toNat ≤ votes verdicts .emergencyLiquidationAll then
    .emergencyLiquidationAll
  else .rejected .invalidNumericalState

end Voter

/-! ## What the majority decides -/

section Majority

variable {verdicts : Verdicts}

theorem mem_approvedNotionals {m : F64} :
    m ∈ approvedNotionals verdicts ↔ ∃ i, verdicts i = .approved m := by
  simp only [approvedNotionals, List.mem_filterMap, List.mem_ofFn', Set.mem_range,
    exists_exists_eq_and, approvedNotional_eq_some]

theorem Unanimous.all (unanimous : Unanimous verdicts) : verdicts = fun _ => verdicts 0 := by
  funext i
  have first := unanimous.1.eq
  have second := unanimous.2.eq
  obtain rfl | rfl | rfl : i = 0 ∨ i = 1 ∨ i = 2 := by omega
  · rfl
  · exact first.symm
  · exact (first.trans second).symm

/-- **The majority decides**: identical verdicts are reconciled like any others. -/
theorem reconcile_eq (verdicts : Verdicts) :
    reconcile verdicts .default =
      if 2 ≤ votes verdicts .approved then .approved (minimumAdjusted verdicts)
      else if 2 ≤ votes verdicts .rejected then .rejected (firstReason verdicts)
      else if 2 ≤ votes verdicts .emergencyLiquidationAll then .emergencyLiquidationAll
      else .rejected .invalidNumericalState := by
  have two : TripleModularRedundancyVoter.default.reconcileThreshold.toNat = 2 := rfl
  by_cases unanimous : Unanimous verdicts
  · have all := unanimous.all
    have left : reconcile verdicts .default = verdicts 0 := if_pos (decide_eq_true unanimous)
    rw [left]
    cases verdict : verdicts 0 with
    | approved m =>
        have number : ¬ m.IsNan := by
          have same := unanimous.1
          rw [← unanimous.1.eq] at same
          exact same.number m verdict
        have least : minimumAdjusted verdicts = m := by
          rw [all, verdict]
          cases m <;>
            first
            | exact absurd rfl number
            | simp [minimumAdjusted, approvedNotionals, approvedNotional, ExtNum.min]
        have count : votes verdicts .approved = 3 := by
          rw [all, verdict]
          rfl
        rw [count, if_pos (by decide), least]
    | rejected code =>
        rw [all, verdict]
        rfl
    | emergencyLiquidationAll =>
        rw [all, verdict]
        rfl
  · have skip : ¬ (voteOnVerdicies verdicts).unanimous = true := fun yes =>
      unanimous (of_decide_eq_true yes)
    rw [reconcile, if_neg skip, two]
    by_cases approved : 2 ≤ votes verdicts .approved
    · simp [voteOnVerdicies, approved]
    · by_cases rejected : 2 ≤ votes verdicts .rejected
      · simp [voteOnVerdicies, approved, rejected]
      · by_cases emergency : 2 ≤ votes verdicts .emergencyLiquidationAll
        · simp [voteOnVerdicies, approved, rejected, emergency]
        · simp [voteOnVerdicies, approved, rejected, emergency]

/-- Where at least two approve, the least notional is a notional that was approved unless
all are infinite or NaN, and no greater than any other. -/
theorem minimumAdjusted_spec (verdicts : Verdicts) :
    ¬ (minimumAdjusted verdicts).IsNan ∧
      (minimumAdjusted verdicts = .posInf ∨ ∃ i, verdicts i = .approved (minimumAdjusted verdicts)) ∧
      ∀ i m, verdicts i = .approved m → ¬ m.IsNan → minimumAdjusted verdicts ≤ m := by
  have infinity : ¬ (ExtNum.posInf : F64).IsNan := fun isNan => nomatch isNan
  obtain ⟨number, member, least⟩ := ExtNum.foldl_min_spec (approvedNotionals verdicts) infinity
  refine ⟨number, ?_, fun i m approved => least m ?_⟩
  · rcases List.mem_cons.mp member with first | later
    · exact .inl first
    · exact .inr (mem_approvedNotionals.mp later)
  · exact List.mem_cons_of_mem _ (mem_approvedNotionals.mpr ⟨i, approved⟩)

theorem votes_eq (verdicts : Verdicts) (kind : VerdictKind) :
    votes verdicts kind = (if (verdicts 0).kind = kind then 1 else 0) +
      (if (verdicts 1).kind = kind then 1 else 0) + if (verdicts 2).kind = kind then 1 else 0 := by
  show [verdicts 0, verdicts 1, verdicts 2].countP _ = _
  simp only [List.countP_cons, List.countP_nil, decide_eq_true_eq]
  omega

/-- Every replica gives a verdict of one kind. -/
theorem votes_add (verdicts : Verdicts) :
    votes verdicts .approved + votes verdicts .rejected + votes verdicts .emergencyLiquidationAll =
      3 := by
  rw [votes_eq, votes_eq, votes_eq]
  cases (verdicts 0).kind <;> cases (verdicts 1).kind <;> cases (verdicts 2).kind <;> rfl

/-- The notionals of some replicas are no smaller than the least of more of them. -/
theorem minimumAdjusted_le {verdicts' : Verdicts}
    (among : ∀ i m, verdicts' i = .approved m → ∃ j, verdicts j = .approved m) :
    minimumAdjusted verdicts ≤ minimumAdjusted verdicts' := by
  obtain ⟨number, -, least⟩ := minimumAdjusted_spec verdicts
  obtain ⟨number', member, -⟩ := minimumAdjusted_spec verdicts'
  rcases member with infinite | ⟨i, approved⟩
  · rw [infinite]
    exact ExtNum.le_posInf number
  · obtain ⟨j, approved⟩ := among i _ approved
    exact least j _ approved number'

theorem votes_eq_card (verdicts : Verdicts) (kind : VerdictKind) :
    votes verdicts kind = (Finset.univ.filter fun i => (verdicts i).kind = kind).card := by
  rw [Finset.card_filter, Fin.sum_univ_three, ← votes_eq]

theorem two_le_votes {kind : VerdictKind} :
    2 ≤ votes verdicts kind ↔
      ∃ i j, i ≠ j ∧ (verdicts i).kind = kind ∧ (verdicts j).kind = kind := by
  rw [votes_eq_card, Nat.succ_le_iff, Finset.one_lt_card]
  simp only [Finset.mem_filter, Finset.mem_univ, true_and]
  constructor
  · rintro ⟨i, first, j, second, apart⟩
    exact ⟨i, j, apart, first, second⟩
  · rintro ⟨i, j, apart, first, second⟩
    exact ⟨i, first, j, second, apart⟩

end Majority

/-! ## The order of the replicas -/

section Order

variable (verdicts : Verdicts) (σ : Equiv.Perm (Fin 3))

theorem votes_comp (kind : VerdictKind) : votes (verdicts ∘ σ) kind = votes verdicts kind :=
  (σ.ofFn_comp_perm verdicts).countP_eq _

theorem minimumAdjusted_comp : minimumAdjusted (verdicts ∘ σ) = minimumAdjusted verdicts := by
  refine ExtNum.le_antisymm (minimumAdjusted_le fun i m approved => ?_)
    (minimumAdjusted_le fun i m approved => ⟨σ i, approved⟩)
  exact ⟨σ.symm i, by rw [Function.comp_apply, σ.apply_symm_apply, approved]⟩

variable {verdicts}

/-- The first reason is one of those given. -/
theorem firstReason_spec {i : Fin 3} {code : RiskViolationCode}
    (rejected : verdicts i = .rejected code) :
    ∃ j, verdicts j = .rejected (firstReason verdicts) := by
  have some_ : ((List.ofFn verdicts).findSome? reasonCode).isSome := by
    rw [List.findSome?_isSome_iff]
    exact ⟨verdicts i, List.mem_ofFn.mpr ⟨i, rfl⟩, by rw [rejected]; rfl⟩
  obtain ⟨first, found⟩ := Option.isSome_iff_exists.mp some_
  obtain ⟨v, member, reason⟩ := List.exists_of_findSome?_eq_some found
  obtain ⟨j, rfl⟩ := List.mem_ofFn.mp member
  refine ⟨j, ?_⟩
  rw [firstReason, found]
  exact reasonCode_eq_some.mp reason

/-- The reason of the first replica comes first. -/
theorem firstReason_of_first {code : RiskViolationCode} (rejected : verdicts 0 = .rejected code) :
    firstReason verdicts = code := by
  rw [firstReason, List.ofFn_succ, List.findSome?_cons, rejected]
  rfl

/-- Two replicas that reject do so for the same reason. -/
def SameReasons (verdicts : Verdicts) : Prop :=
  ∀ i j a b, verdicts i = .rejected a → verdicts j = .rejected b → a = b

/-- **The order of the replicas shows in the reason alone.**  It does not show at all
exactly if no two of them reject for different reasons; and if two do, the reason given
is that of the first in order that rejects. -/
theorem reconcile_order_iff (verdicts : Verdicts) :
    ((∀ σ : Equiv.Perm (Fin 3), reconcile (verdicts ∘ σ) .default = reconcile verdicts .default) ↔
      SameReasons verdicts) ∧
    (¬ SameReasons verdicts → ∀ σ : Equiv.Perm (Fin 3),
      reconcile (verdicts ∘ σ) .default = .rejected (firstReason (verdicts ∘ σ))) := by
  have differ (other : ¬ SameReasons verdicts) (σ : Equiv.Perm (Fin 3)) :
      reconcile (verdicts ∘ σ) .default = .rejected (firstReason (verdicts ∘ σ)) := by
    simp only [SameReasons, not_forall] at other
    obtain ⟨i, j, a, b, first, second, ne⟩ := other
    have apart : i ≠ j := by
      rintro rfl
      exact ne (ConstitutionVerdict.rejected.inj (first.symm.trans second))
    have two : 2 ≤ votes verdicts .rejected :=
      two_le_votes.mpr ⟨i, j, apart, by rw [first]; rfl, by rw [second]; rfl⟩
    have three := votes_add verdicts
    rw [reconcile_eq, votes_comp, votes_comp, if_neg (by omega), if_pos two]
  refine ⟨⟨fun symmetric => ?_, fun same σ => ?_⟩, differ⟩
  · by_contra other
    have all := differ other
    simp only [SameReasons, not_forall] at other
    obtain ⟨i, j, a, b, first, second, ne⟩ := other
    -- whichever of the two is put first, its reason is given
    have given (k : Fin 3) {code : RiskViolationCode} (rejected : verdicts k = .rejected code) :
        reconcile verdicts .default = .rejected code := by
      rw [← symmetric (Equiv.swap 0 k), all (Equiv.swap 0 k)]
      refine congrArg _ (firstReason_of_first ?_)
      rw [Function.comp_apply, Equiv.swap_apply_left, rejected]
    exact ne (ConstitutionVerdict.rejected.inj ((given i first).symm.trans (given j second)))
  · rw [reconcile_eq, reconcile_eq, votes_comp, votes_comp, votes_comp, minimumAdjusted_comp]
    by_cases two : 2 ≤ votes verdicts .rejected
    · obtain ⟨i, j, -, kind, -⟩ := two_le_votes.mp two
      obtain ⟨code, rejected⟩ := exists_of_kind_rejected kind
      obtain ⟨k, here⟩ := firstReason_spec rejected
      have moved : (verdicts ∘ σ) (σ.symm i) = .rejected code := by
        rw [Function.comp_apply, σ.apply_symm_apply, rejected]
      obtain ⟨l, there⟩ := firstReason_spec moved
      rw [same _ _ _ _ there here]
    · rw [if_neg two, if_neg two]

end Order

/-- Refuting pole: two replicas reject for different reasons, and change places. -/
def disagreeing : Verdicts :=
  ![.rejected .globalLeverageCapExceeded, .rejected .assetConcentrationLimitExceeded,
    .approved (fin 1)]

theorem reason_depends_on_order :
    ¬ ∀ (verdicts : Verdicts) (σ : Equiv.Perm (Fin 3)),
      reconcile (verdicts ∘ σ) .default = reconcile verdicts .default := by
  intro symmetric
  have first : reconcile disagreeing .default = .rejected .globalLeverageCapExceeded := by decide
  have swapped : reconcile (disagreeing ∘ Equiv.swap 0 1) .default =
      .rejected .assetConcentrationLimitExceeded := by decide
  rw [symmetric, first] at swapped
  cases swapped

/-! ## What an approval stands for -/

/-- What a reconciled verdict is meant to be: an approval is backed by two replicas, of a
finite notional that one of them approved and none undercut; what two replicas agree on
in kind is of that kind; and where no two agree nothing is approved. -/
structure Conservative (verdicts : Verdicts) : Prop where
  approval : ∀ m, reconcile verdicts .default = .approved m →
    2 ≤ votes verdicts .approved ∧ m.IsFinite ∧ (∃ i, verdicts i = .approved m) ∧
      ∀ i n, verdicts i = .approved n → n.IsFinite → m ≤ n
  majority : ∀ kind, 2 ≤ votes verdicts kind → (reconcile verdicts .default).kind = kind
  noMajority : (∀ kind, votes verdicts kind < 2) →
    reconcile verdicts .default = .rejected .invalidNumericalState

section Conservative

variable {verdicts : Verdicts}

theorem reconcile_kind {kind : VerdictKind} (two : 2 ≤ votes verdicts kind) :
    (reconcile verdicts .default).kind = kind := by
  have three := votes_add verdicts
  rw [reconcile_eq]
  cases kind with
  | approved =>
      rw [if_pos two]
      rfl
  | rejected =>
      rw [if_neg (by omega), if_pos two]
      rfl
  | emergencyLiquidationAll =>
      rw [if_neg (by omega), if_neg (by omega), if_pos two]
      rfl

theorem reconcile_noMajority (few : ∀ kind, votes verdicts kind < 2) :
    reconcile verdicts .default = .rejected .invalidNumericalState := by
  rw [reconcile_eq, if_neg (not_le.mpr (few _)), if_neg (not_le.mpr (few _)),
    if_neg (not_le.mpr (few _))]

theorem reconcile_approved_iff {m : F64} :
    reconcile verdicts .default = .approved m ↔
      2 ≤ votes verdicts .approved ∧ m = minimumAdjusted verdicts := by
  rw [reconcile_eq]
  split_ifs with approved <;> simp [approved, eq_comm]

/-- **The reconciled verdict is conservative** exactly if fewer than two replicas
approve, or a finite notional is approved and `-∞` is not. -/
theorem reconcile_conservative_iff (verdicts : Verdicts) :
    Conservative verdicts ↔
      votes verdicts .approved < 2 ∨
        (∃ i q, verdicts i = .approved (fin q)) ∧ ∀ i, verdicts i ≠ .approved .negInf := by
  obtain ⟨number, member, least⟩ := minimumAdjusted_spec verdicts
  constructor
  · intro conservative
    by_cases two : 2 ≤ votes verdicts .approved
    · obtain ⟨-, finite, ⟨i, approved⟩, -⟩ :=
        conservative.approval _ (reconcile_approved_iff.mpr ⟨two, rfl⟩)
      obtain ⟨q, value⟩ := ExtNum.isFinite_iff.mp finite
      refine .inr ⟨⟨i, q, value ▸ approved⟩, fun j infinite => ?_⟩
      have le := least j _ infinite (fun isNan => nomatch isNan)
      rw [value] at le
      exact ExtNum.not_fin_le_negInf q le
    · exact .inl (not_le.mp two)
  · intro condition
    refine ⟨fun m approved => ?_, fun _ => reconcile_kind, reconcile_noMajority⟩
    obtain ⟨two, rfl⟩ := reconcile_approved_iff.mp approved
    obtain ⟨⟨i, q, some_⟩, none_⟩ := condition.resolve_left (not_lt.mpr two)
    have le := least i _ some_ (fun isNan => nomatch isNan)
    have finite : (minimumAdjusted verdicts).IsFinite := by
      cases value : minimumAdjusted verdicts with
      | fin r => trivial
      | nan => exact absurd value number
      | posInf =>
          rw [value] at le
          exact absurd le (ExtNum.not_posInf_le_fin q)
      | negInf =>
          rcases member with infinite | ⟨j, approved⟩
          · rw [value] at infinite
            cases infinite
          · exact absurd (value ▸ approved) (none_ j)
    refine ⟨two, finite, ?_, fun j n approved isFinite =>
      least j n approved (ExtNum.isFinite_iff_not.mp isFinite).1⟩
    rcases member with infinite | one
    · rw [infinite] at finite
      exact finite.elim
    · exact one

end Conservative

/-- Refuting pole: two faulty replicas approve NaN, and infinity is approved. -/
theorem nan_majority_approves_infinity :
    reconcile ![.approved .nan, .approved .nan, .rejected .invalidNumericalState] .default =
        .approved .posInf ∧
      ¬ Conservative ![.approved .nan, .approved .nan, .rejected .invalidNumericalState] := by
  have infinite : reconcile
      ![.approved .nan, .approved .nan, .rejected .invalidNumericalState] .default =
        .approved .posInf := by decide
  exact ⟨infinite, fun conservative => (conservative.approval _ infinite).2.1⟩

end CentaurApex.Constitution
