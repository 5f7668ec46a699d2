/-
# Constitution.Replicas -- three kernels and the voter

Three replicas judge the same proposals, and one of them may be faulty and answer anything.
What a sound kernel answers depends on its past in one thing only, the phase it is in
(`Alike`): not on its counters, its journal or its soft band.  So sound replicas answer a
whole run alike (`kernels_alike`), also one that was restarted while no other was locked.

`faulty_replica_masked`: the reconciled verdict is then theirs in kind.  Of an approval the
faulty replica can lower the notional, and nothing keeps what it names positive; of a
rejection it can choose the reason, from the first slot.

Refuting pole `faulty_replica_lowers`: three kernels, and a notional below zero.
-/
import CentaurApex.Constitution.TmrVoter
import CentaurApex.Constitution.StateMachine

namespace CentaurApex.Constitution

open CentaurApex.Theory
open CentaurApex.Theory.ExtNum (fin)

set_option autoImplicit false

/-! ## What answers depend on -/

/-- Two kernels with the same parameters in the same phase: both trading, or in the same
locked state. -/
structure Alike (k k' : ConstitutionKernel) : Prop where
  params : k.params = k'.params
  phase : k.state = k'.state ∨ k.state.Trading ∧ k'.state.Trading

theorem Alike.trading {k k' : ConstitutionKernel} (alike : Alike k k') :
    k.state.Trading ↔ k'.state.Trading := by
  rcases alike.phase with same | ⟨one, other⟩
  · rw [same]
  · exact iff_of_true one other

/-- A verdict of the gate leaves two trading kernels alike. -/
theorem Alike.settle {k k' : ConstitutionKernel} (alike : Alike k k') (one : k.state.Trading)
    (other : k'.state.Trading) (portfolio : PortfolioState) (v : ConstitutionVerdict) :
    Alike (k.settle portfolio v) (k'.settle portfolio v) := by
  cases v with
  | approved m =>
      refine ⟨?_, .inr ⟨trackSoftBand_trading one, trackSoftBand_trading other⟩⟩
      exact (trackSoftBand_params k portfolio).trans
        (alike.params.trans (trackSoftBand_params k' portfolio).symm)
  | rejected code => exact alike
  | emergencyLiquidationAll =>
      refine ⟨?_, .inl ?_⟩
      · exact (enterEmergency_params k).trans
          (alike.params.trans (enterEmergency_params k').symm)
      · exact (enterEmergency_moves one).2.trans (enterEmergency_moves other).2.symm

theorem Alike.processProposal {k k' : ConstitutionKernel} (alike : Alike k k')
    (portfolio : PortfolioState) (proposal : TradeProposal) :
    (k.processProposal portfolio proposal).1 = (k'.processProposal portfolio proposal).1 ∧
      Alike (k.processProposal portfolio proposal).2 (k'.processProposal portfolio proposal).2 := by
  have counted : Alike k.countProposal k'.countProposal := ⟨alike.params, alike.phase⟩
  by_cases one : k.state.Trading
  · have other := alike.trading.mp one
    rw [processProposal_trading one, processProposal_trading other, alike.params]
    exact ⟨rfl, counted.settle one other portfolio _⟩
  · have other : ¬ k'.state.Trading := fun trading => one (alike.trading.mpr trading)
    rw [processProposal_locked one, processProposal_locked other]
    exact ⟨rfl, counted⟩

/-- There is nothing to recover from while trading. -/
theorem attemptRecovery_trading {k : ConstitutionKernel} (trading : k.state.Trading)
    (valid : Bool) : k.attemptRecovery valid = (false, k) := by
  cases valid with
  | false => rfl
  | true =>
      rw [ConstitutionKernel.attemptRecovery]
      rcases trading with normal | soft
      · rw [normal]
        rfl
      · rw [soft]
        rfl

theorem Alike.attemptRecovery {k k' : ConstitutionKernel} (alike : Alike k k') (valid : Bool) :
    (k.attemptRecovery valid).1 = (k'.attemptRecovery valid).1 ∧
      Alike (k.attemptRecovery valid).2 (k'.attemptRecovery valid).2 := by
  rcases alike.phase with same | ⟨one, other⟩
  · have params := (step_params k (.attemptRecovery valid)).trans
      (alike.params.trans (step_params k' (.attemptRecovery valid)).symm)
    have answer : (k.attemptRecovery valid).1 = (k'.attemptRecovery valid).1 ∧
        (k.attemptRecovery valid).2.state = (k'.attemptRecovery valid).2.state := by
      cases valid with
      | false => exact ⟨rfl, same⟩
      | true =>
          simp only [ConstitutionKernel.attemptRecovery, Bool.not_true, Bool.false_eq_true,
            if_false]
          rw [← same]
          cases state : k.state <;> simp only [← same, state, and_self]
    exact ⟨answer.1, params, .inl answer.2⟩
  · rw [attemptRecovery_trading one, attemptRecovery_trading other]
    exact ⟨rfl, alike⟩

/-- **Kernels that are alike answer a whole run alike.** -/
theorem kernels_alike {k k' : ConstitutionKernel} (alike : Alike k k') (calls : List KernelCall) :
    (kernelMachine.trace k calls).map Event.reply = (kernelMachine.trace k' calls).map Event.reply ∧
      Alike (kernelMachine.run k calls) (kernelMachine.run k' calls) := by
  refine kernelMachine.lockstep (fun k k' call alike => ?_) alike calls
  cases call with
  | processProposal portfolio proposal =>
      obtain ⟨same, after⟩ := alike.processProposal portfolio proposal
      exact ⟨congrArg KernelReply.verdict same, after⟩
  | attemptRecovery valid =>
      obtain ⟨same, after⟩ := alike.attemptRecovery valid
      exact ⟨congrArg KernelReply.recovered same, after⟩

/-- What a kernel approves is finite and positive. -/
theorem approved_positive {k : ConstitutionKernel} {portfolio : PortfolioState}
    {proposal : TradeProposal} {m : F64}
    (approved : (k.processProposal portfolio proposal).1 = .approved m) :
    ∃ q : ℚ, m = fin q ∧ 0 < q := by
  by_cases trading : k.state.Trading
  · rw [processProposal_trading trading] at approved
    obtain ⟨valid, -, -, -, same⟩ := evaluate_approved_iff.mp approved
    obtain ⟨_, _, q, -, -, value, positive⟩ := not_invalidNumerical_iff.mp valid
    exact ⟨q, same.trans value, positive⟩
  · rw [processProposal_locked trading] at approved
    cases approved

/-! ## One faulty replica -/

/-- Two slots are left. -/
theorem others (faulty : Fin 3) : ∃ i j : Fin 3, i ≠ j ∧ i ≠ faulty ∧ j ≠ faulty := by
  decide +revert

section Masked

variable {verdicts : Verdicts} {faulty : Fin 3} {v : ConstitutionVerdict}
  (sound : ∀ i, i ≠ faulty → verdicts i = v)

include sound

theorem two_sound : 2 ≤ votes verdicts v.kind := by
  obtain ⟨i, j, apart, one, other⟩ := others faulty
  exact two_le_votes.mpr ⟨i, j, apart, by rw [sound i one], by rw [sound j other]⟩

/-- The least notional is the sound replicas', or one the faulty replica put below it. -/
theorem least_masked {q : ℚ} (approved : v = .approved (fin q)) :
    minimumAdjusted verdicts ≤ fin q ∧
      (minimumAdjusted verdicts = fin q ∨
        verdicts faulty = .approved (minimumAdjusted verdicts)) ∧
      (minimumAdjusted verdicts = fin q ↔
        ∀ f, verdicts faulty = .approved f → ¬ f.IsNan → fin q ≤ f) := by
  obtain ⟨number, member, least⟩ := minimumAdjusted_spec verdicts
  obtain ⟨i, -, -, one, -⟩ := others faulty
  have below := least i _ ((sound i one).trans approved) (fun isNan => nomatch isNan)
  have whose : minimumAdjusted verdicts = fin q ∨
      verdicts faulty = .approved (minimumAdjusted verdicts) := by
    rcases member with infinite | ⟨j, given⟩
    · rw [infinite] at below
      exact absurd below (ExtNum.not_posInf_le_fin q)
    · by_cases here : j = faulty
      · exact .inr (here ▸ given)
      · have same := given.symm.trans ((sound j here).trans approved)
        exact .inl (ConstitutionVerdict.approved.inj same)
  refine ⟨below, whose, fun same f given isNumber => ?_, fun none_ => ?_⟩
  · rw [← same]
    exact least faulty f given isNumber
  · rcases whose with same | given
    · exact same
    · exact ExtNum.le_antisymm below (none_ _ given number)

/-- The first reason is the sound replicas', unless the faulty one comes first with its own. -/
theorem firstReason_masked {code : RiskViolationCode} (rejected : v = .rejected code) :
    firstReason verdicts = code ∨
      faulty = 0 ∧ verdicts faulty = .rejected (firstReason verdicts) := by
  by_cases first : faulty = 0
  · subst first
    cases given : verdicts 0 with
    | rejected own => exact .inr ⟨rfl, by rw [firstReason_of_first given]⟩
    | _ =>
        have next : verdicts 1 = .rejected code := (sound 1 (by decide)).trans rejected
        left
        rw [firstReason, List.ofFn_succ, List.findSome?_cons, given, List.ofFn_succ,
          List.findSome?_cons]
        rw [show verdicts (Fin.succ 0) = .rejected code from next]
        rfl
  · exact .inl (firstReason_of_first ((sound 0 (Ne.symm first)).trans rejected))

end Masked

/-- **One faulty replica is masked.**  Two sound replicas that began alike have seen the same
calls, and judge a proposal; the third answers anything, in whichever slot.  Where they approve,
so does the reconciled verdict, of no more: of their notional, unless the faulty replica
approves a lower one, which is then taken whatever its sign.  Where they reject, it rejects, for
their reason, unless the faulty replica is the first and gives another.  And where they call an
emergency, it does. -/
theorem faulty_replica_masked (kernels : Fin 3 → ConstitutionKernel) (faulty : Fin 3)
    (alike : ∀ i j, i ≠ faulty → j ≠ faulty → Alike (kernels i) (kernels j))
    (calls : List KernelCall) (portfolio : PortfolioState) (proposal : TradeProposal)
    (verdicts : Verdicts)
    (sound : ∀ i, i ≠ faulty → verdicts i =
      ((kernelMachine.run (kernels i) calls).processProposal portfolio proposal).1)
    (i : Fin 3) (other : i ≠ faulty) :
    (∀ m, verdicts i = .approved m → ∃ n, reconcile verdicts .default = .approved n ∧ n ≤ m ∧
      (n = m ∨ verdicts faulty = .approved n) ∧
      (n = m ↔ ∀ f, verdicts faulty = .approved f → ¬ f.IsNan → m ≤ f)) ∧
    (∀ code, verdicts i = .rejected code → reconcile verdicts .default = .rejected code ∨
      faulty = 0 ∧ ∃ own, verdicts faulty = .rejected own ∧
        reconcile verdicts .default = .rejected own) ∧
    (verdicts i = .emergencyLiquidationAll →
      reconcile verdicts .default = .emergencyLiquidationAll) := by
  have same : ∀ j, j ≠ faulty → verdicts j = verdicts i := by
    intro j sound_j
    obtain ⟨-, after⟩ := kernels_alike (alike j i sound_j other) calls
    rw [sound j sound_j, sound i other]
    exact (after.processProposal portfolio proposal).1
  have two := two_sound same
  have three := votes_add verdicts
  refine ⟨fun m approved => ?_, fun code rejected => ?_, fun emergency => ?_⟩
  · obtain ⟨q, rfl, -⟩ := approved_positive ((sound i other).symm.trans approved)
    rw [approved] at two
    exact ⟨_, reconcile_approved_iff.mpr ⟨two, rfl⟩, least_masked same approved⟩
  · rw [rejected] at two
    change 2 ≤ votes verdicts .rejected at two
    have few : ¬ 2 ≤ votes verdicts .approved := by omega
    rw [reconcile_eq, if_neg few, if_pos two]
    rcases firstReason_masked same rejected with own | ⟨first, given⟩
    · exact .inl (congrArg _ own)
    · exact .inr ⟨first, _, given, rfl⟩
  · rw [emergency] at two
    have kind := reconcile_kind two
    cases verdict : reconcile verdicts .default with
    | emergencyLiquidationAll => rfl
    | _ =>
        rw [verdict] at kind
        cases kind

/-- Refuting pole: the last of three new kernels is faulty, and approves a notional below
zero. -/
def undercut : Verdicts := ![.approved (fin 100000), .approved (fin 100000), .approved (fin (-1))]

theorem faulty_replica_lowers : reconcile undercut .default = .approved (fin (-1)) := by
  have judged : ((ConstitutionKernel.new .default).processProposal
      (Sample.portfolio 1000000 1000000 []) (Sample.proposal .buy 100000)).1 =
      .approved (fin 100000) := by decide +kernel
  have sound : ∀ i : Fin 3, i ≠ 2 → undercut i = .approved (fin 100000) := by decide +kernel
  obtain ⟨approvals, -, -⟩ := faulty_replica_masked (fun _ => .new .default) 2
    (fun _ _ _ _ => ⟨rfl, .inl rfl⟩) [] _ _ undercut
    (fun i other => (sound i other).trans judged.symm) 0 (by decide)
  obtain ⟨n, reconciled, -, whose, kept⟩ := approvals (fin 100000) rfl
  have low : ¬ (fin 100000 : F64) ≤ fin (-1) := by decide +kernel
  rcases whose with same | given
  · exact absurd (kept.mp same (fin (-1)) rfl (fun isNan => nomatch isNan)) low
  · exact reconciled.trans given.symm

end CentaurApex.Constitution
