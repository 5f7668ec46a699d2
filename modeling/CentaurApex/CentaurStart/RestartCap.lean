/-
# CentaurStart.RestartCap -- how often a runner is invoked

A crash is counted when it is seen, whether or not the service is then restarted, and
`_start_service` and the retries set the count back to nothing.

* **At most eleven invocations, and none is declared dead before ten restarts** (`capped_of_kept`),
  in a run that sets no count back and restarts where it counts.

Refuting poles `cap_reset`: a service whose process ends at once is invoked for the twelfth time
in the twelfth round; and one is declared dead that was never restarted.
-/
import CentaurApex.CentaurStart.Services

namespace CentaurApex.CentaurStart

open CentaurApex.Theory

set_option autoImplicit false

/-- The runner of a service was invoked. -/
def Deed.invokes (name : String) : Deed → Bool
  | .invoked svc _ _ _ => decide (svc.name = name)
  | _ => false

namespace Orchestrator

variable (s : Orchestrator) (name : String)

def invocations : ℕ := s.deeds.countP (Deed.invokes name)

def restarts : ℕ := s.deeds.count (.restarted name)

/-- No runner was invoked more often than once and ten times again, and no service was declared
dead before it was restarted ten times. -/
def Capped : Prop :=
  ∀ name, s.invocations name ≤ 11 ∧ (.dead name ∈ s.deeds → 10 ≤ s.restarts name)

end Orchestrator

section Conditions

variable (w : World) (s : Orchestrator)

/-- An action starts a service whose crashes were counted, or whose runner was invoked before and
is invoked again. -/
def resets (a : Action) : Bool :=
  match a with
  | .checkRestart _ => false
  | _ => (called w s a).any fun call =>
      decide (s.count call.1.name ≠ 0) ||
        !(Orchestrator.adopts w call.1.name call.2.clock).1 &&
          decide (s.invocations call.1.name ≠ 0)

/-- An action counts one of the first ten crashes of a service, and does not restart it. -/
def neglects (a : Action) : Bool :=
  match a with
  | .checkRestart svc =>
      ((s.processes.get? svc.name).any fun proc => !(proc.poll w s.clock).1) &&
        decide (s.count svc.name < 10) && (called w s a).isNone
  | _ => false

end Conditions

/-- What the count of a service says while the run goes on. -/
structure Tallied (s : Orchestrator) (name : String) : Prop where
  invoked : s.invocations name ≤ 1 + min (s.count name) 10
  restarted : s.halted = false → min (s.count name) 10 ≤ s.restarts name
  dead : .dead name ∈ s.deeds → 10 ≤ s.restarts name

section Cap

variable {w : World} {s s₁ : Orchestrator} {svc : Service} {a : Action} {proc : Handle}
  {name : String}

theorem count_setCount (count : ℕ) :
    (s.setCount svc.name count).count name = if name = svc.name then count else s.count name := by
  unfold Orchestrator.count Orchestrator.setCount
  rw [PyDict.get?_setItem]
  split <;> rfl

/-- A start sets back the count of its own service only. -/
theorem count_startService (fresh : s.count svc.name = 0) :
    (s.startService w svc).2.count name = s.count name := by
  have set (s' : Orchestrator) (same : s'.restartCounts = s.restartCounts) :
      (s'.setCount svc.name 0).count name = s.count name := by
    rw [count_setCount]
    split
    · rename_i own
      rw [own, fresh]
    · rw [Orchestrator.count, same]
      rfl
  unfold Orchestrator.startService
  dsimp only
  split
  · exact set _ rfl
  · split <;> rename_i run <;> obtain ⟨_, rfl⟩ := Prod.mk.inj run
    · rfl
    · exact set _ rfl

/-- What is not restarted, is started with the counts of the state before. -/
theorem counts_called (notCheck : ∀ svc, a ≠ .checkRestart svc)
    (call : called w s a = some (svc, s₁)) : s₁.restartCounts = s.restartCounts := by
  rcases called_eq_some.mp call with ⟨_, rfl⟩ | ⟨s₀, check, _, rfl⟩
  · rfl
  · obtain ⟨t, _, rfl⟩ := later_of_check notCheck check
    rfl

/-- A crash counts for its own service. -/
theorem count_killFeed : ((s.crash w svc proc).killFeed w proc).count name =
    if name = svc.name then s.count svc.name + 1 else s.count name := by
  obtain ⟨t, children, _, _, eq⟩ := killFeed_eq w (s.crash w svc proc) proc
  rw [eq]
  exact count_setCount (s := s.later (proc.poll w s.clock).2) _

theorem count_restart : (s.restart w svc).count name = s.count name := by
  unfold Orchestrator.restart
  split <;> rename_i run <;> obtain ⟨_, rfl⟩ := Prod.mk.inj run <;> rfl

theorem invokes_self (processes : PyDict String Handle) (since till : ℕ) :
    (Deed.invoked svc processes since till).invokes name = decide (svc.name = name) := rfl

/-- An invocation counts for its own service. -/
theorem invocations_invoked {s' : Orchestrator} {processes : PyDict String Handle}
    {since till : ℕ} (deeds : s'.deeds = .invoked svc processes since till :: s.deeds) :
    s'.invocations name = s.invocations name + if svc.name = name then 1 else 0 := by
  rw [Orchestrator.invocations, deeds, List.countP_cons, invokes_self]
  simp only [decide_eq_true_eq]
  rfl

theorem restarts_invoked {s' : Orchestrator} {processes : PyDict String Handle} {since till : ℕ}
    (deeds : s'.deeds = .invoked svc processes since till :: s.deeds) :
    s'.restarts name = s.restarts name := by
  rw [Orchestrator.restarts, deeds, List.count_cons_of_ne (by simp)]
  rfl

/-- A service that is started for the first time, or adopted. -/
theorem tallied_start (tallied : Tallied s name) (running : s.halted = false)
    (fresh : s.count svc.name = 0)
    (first : (Orchestrator.adopts w svc.name s₁.clock).1 = false → s.invocations svc.name = 0)
    (recorded : s₁.deeds = s.deeds) {s' : Orchestrator} (counted : s'.count name = s.count name)
    (deeds : s'.deeds = (s₁.startService w svc).2.deeds) : Tallied s' name := by
  rw [deeds_startService, recorded] at deeds
  split at deeds
  · refine ⟨?_, fun _ => ?_, ?_⟩
    · rw [Orchestrator.invocations, deeds, counted]
      exact tallied.invoked
    · rw [Orchestrator.restarts, deeds, counted]
      exact tallied.restarted running
    · rw [Orchestrator.restarts, deeds]
      exact tallied.dead
  · rename_i spawned
    have never : s.invocations svc.name = 0 := first (Bool.eq_false_of_not_eq_true spawned)
    refine ⟨?_, fun _ => ?_, ?_⟩
    · rw [invocations_invoked deeds, counted]
      split
      · rename_i own
        subst own
        omega
      · exact tallied.invoked
    · rw [restarts_invoked deeds, counted]
      exact tallied.restarted running
    · rw [restarts_invoked deeds, deeds]
      intro member
      exact tallied.dead (by simpa using member)

/-- A crash that is counted among the first ten, and after which the runner is invoked. -/
theorem tallied_restart (tallied : Tallied s name) (running : s.halted = false)
    (few : s.count svc.name < 10) {s' : Orchestrator} {processes : PyDict String Handle}
    {since till : ℕ} (counted : s'.count name =
      if name = svc.name then s.count svc.name + 1 else s.count name)
    (deeds : (s'.deeds = .invoked svc processes since till :: s.deeds ∧ s'.halted = true) ∨
      s'.deeds = .restarted svc.name :: .invoked svc processes since till :: s.deeds) :
    Tallied s' name := by
  have more : (s.note (.invoked svc processes since till)).invocations name ≤
      1 + min (s'.count name) 10 := by
    have before := tallied.invoked
    rw [invocations_invoked (s := s) rfl, counted]
    by_cases own : name = svc.name
    · subst own
      rw [if_pos rfl, if_pos rfl]
      omega
    · rw [if_neg own, if_neg (Ne.symm own)]
      exact before
  have kept : (s.note (.invoked svc processes since till)).restarts name = s.restarts name :=
    restarts_invoked rfl
  rcases deeds with ⟨deeds, halted⟩ | deeds
  · refine ⟨?_, fun running => ?_, fun member => ?_⟩
    · rw [Orchestrator.invocations, deeds]
      exact more
    · cases running.symm.trans halted
    · rw [restarts_invoked deeds]
      exact tallied.dead (by simpa [deeds] using member)
  · have restarts : s'.restarts name =
        s.restarts name + if svc.name = name then 1 else 0 := by
      rw [Orchestrator.restarts, deeds, List.count_cons, ← kept]
      simp [Orchestrator.restarts, Orchestrator.note]
    refine ⟨?_, fun _ => ?_, fun member => ?_⟩
    · rw [Orchestrator.invocations, deeds, List.countP_cons_of_neg (by simp [Deed.invokes])]
      exact more
    · have before := tallied.restarted running
      rw [restarts, counted]
      by_cases own : name = svc.name
      · subst own
        rw [if_pos rfl, if_pos rfl]
        omega
      · rw [if_neg own, if_neg (Ne.symm own)]
        exact before
    · rw [restarts]
      exact Nat.le_add_right_of_le (tallied.dead (by simpa [deeds] using member))

/-- A service is declared dead after ten counted crashes. -/
theorem tallied_dead (tallied : Tallied s name) (running : s.halted = false)
    (many : 10 ≤ s.count svc.name) :
    Tallied ((s.crash w svc proc).note (.dead svc.name)) name := by
  have counted : ((s.crash w svc proc).note (.dead svc.name)).count name =
      if name = svc.name then s.count svc.name + 1 else s.count name :=
    count_setCount (s := s.later (proc.poll w s.clock).2) _
  have least : min (((s.crash w svc proc).note (.dead svc.name)).count name) 10 =
      min (s.count name) 10 := by
    rw [counted]
    split
    · rename_i own
      subst own
      omega
    · rfl
  have restarts : ((s.crash w svc proc).note (.dead svc.name)).restarts name =
      s.restarts name := List.count_cons_of_ne (by simp)
  refine ⟨?_, fun _ => ?_, fun member => ?_⟩
  · rw [least]
    exact tallied.invoked
  · rw [least, restarts]
    exact tallied.restarted running
  · rw [restarts]
    rcases List.mem_cons.mp member with new | old
    · obtain rfl := Deed.dead.inj new
      have before := tallied.restarted running
      omega
    · exact tallied.dead old

/-- **An action that sets no count back and restarts where it counts** keeps the tally. -/
theorem tallied_step (tallied : ∀ name, Tallied s name) (keeps : resets w s a = false)
    (restarts : neglects w s a = false) : ∀ name, Tallied (step w s a) name := by
  intro name
  cases ended : s.halted with
  | true =>
      rw [step, if_pos ended]
      exact tallied name
  | false =>
      generalize made : step w s a = s'
      have move : Move w s a s' := made ▸ move_step ended
      cases move with
      | idle =>
          obtain ⟨invoked, restarted, dead⟩ := tallied name
          exact ⟨invoked, fun _ => restarted ended, dead⟩
      | start svc s₁ counts halted notCheck call counted =>
          have kept : s.count svc.name = 0 ∧
              ((Orchestrator.adopts w svc.name s₁.clock).1 = false →
                s.invocations svc.name = 0) := by
            rw [resets] at keeps
            · rw [call] at keeps
              simpa using keeps
            · exact fun svc isCheck => notCheck svc isCheck
          have same : s₁.restartCounts = s.restartCounts := counts_called notCheck call
          have counts_eq : ∀ name, (s₁.startService w svc).2.count name = s.count name := by
            intro name
            rw [count_startService (by rw [Orchestrator.count, same]; exact kept.1),
              Orchestrator.count, same]
            rfl
          refine tallied_start (tallied name) ended kept.1 kept.2 (kept_called call).deeds ?_ rfl
          rcases counted with rfl | rfl
          · exact counts_eq name
          · refine (count_setCount (s := (s₁.startService w svc).2) 0).trans ?_
            split
            · rename_i own
              rw [own, kept.1]
            · exact counts_eq name
      | dead svc proc _ _ _ many => exact tallied_dead (tallied name) ended many
      | left svc proc t checked check tracked polled few uncalled _ =>
          subst check
          simp [neglects, tracked, polled, few, uncalled] at restarts
      | restart svc proc s₁ _ _ _ few call up =>
          obtain rfl : s₁ = (((s.crash w svc proc).killFeed w proc).canStart w svc).2 := by rw [up]
          have deeds := deeds_restart w svc
            (((s.crash w svc proc).killFeed w proc).canStart w svc).2
          rw [(kept_called call).deeds] at deeds
          exact tallied_restart (tallied name) ended few (count_restart.trans count_killFeed) deeds

end Cap

/-- **The restart cap**, in a run that sets no count back and restarts where it counts: no runner
is invoked more than eleven times, and a service is declared dead only after ten restarts. -/
theorem capped_of_kept (w : World) (table : List Service) (scans : ℕ → LogScan)
    (rounds done : ℕ)
    (kept : ∀ e ∈ history w table scans rounds done,
      resets w e.before e.input = false ∧ neglects w e.before e.input = false) :
    (reached w table scans rounds done).Capped := by
  have tallied : ∀ name, Tallied (reached w table scans rounds done) name := by
    apply (machine w).run_invariant_of_events (P := fun s => ∀ name, Tallied s name)
      (Q := fun e => resets w e.before e.input = false ∧ neglects w e.before e.input = false)
    · exact fun s a keeps tallied => tallied_step tallied keeps.1 keeps.2
    · exact fun name => ⟨Nat.zero_le _, fun _ => Nat.le_refl 0, fun member => by cases member⟩
    · exact kept
  intro name
  have invoked := (tallied name).invoked
  exact ⟨by omega, (tallied name).dead⟩

/-- Every child but the constitution ends at once. -/
def mortal : World :=
  ⟨fun child => if child = 2 then none else some (child + 1), fun t => decide (2 < t),
    fun _ => true⟩

/-- Up to the eleventh round the cap holds; by then the services were declared dead. -/
theorem eleven_rounds_capped :
    .dead "evolution" ∈ (reached mortal services (fun _ => cleanScan) 11 98).deeds ∧
      (reached mortal services (fun _ => cleanScan) 11 98).Capped :=
  ⟨by decide +kernel, capped_of_kept mortal services (fun _ => cleanScan) 11 98 (by decide +kernel)⟩

/-- The constitution falls silent, and `doomsday` ends. -/
def silent : World :=
  ⟨fun child => if child = 5 then some 20 else none, fun t => decide (2 < t ∧ t < 20),
    fun _ => true⟩

/-- The twelfth round invokes a runner for the twelfth time, after its service was declared dead;
and a service that could not be restarted is declared dead without a restart. -/
theorem cap_reset :
    ((reached mortal services (fun _ => cleanScan) 12 115).invocations "evolution" = 12 ∧
      ¬ (reached mortal services (fun _ => cleanScan) 12 115).Capped) ∧
    (.dead "doomsday" ∈ (reached silent services (fun _ => cleanScan) 11 100).deeds ∧
      ¬ (reached silent services (fun _ => cleanScan) 11 100).Capped) := by
  refine ⟨⟨by decide +kernel, fun capped => ?_⟩, by decide +kernel, fun capped => ?_⟩
  · exact absurd (capped "evolution").1 (by decide +kernel)
  · exact absurd ((capped "doomsday").2 (by decide +kernel)) (by decide +kernel)

end CentaurApex.CentaurStart
