/-
# CentaurStart.Ownership -- the children that the orchestrator can still reach

A child is reached through the handle of its service, and every start puts a new handle in the
place of the old one.  `_check_restart` kills the feed that belongs to the old handle; the other
paths do not look at it, and what a runner spawned before it raised is in no handle at all.

* **No child escapes** (`owned_of_kept`) from a run whose actions abandon none, and then
  `_stop_all` leaves no child alive.

Refuting pole `constitutiond_escapes`: an IPC error in the logs lets the orchestrator adopt the
process that it spawned.
-/
import CentaurApex.CentaurStart.Services

namespace CentaurApex.CentaurStart

open CentaurApex.Theory

set_option autoImplicit false

namespace Orchestrator

variable (w : World)

/-- Every living child is reachable from `self.processes`. -/
def Owned (s : Orchestrator) : Prop :=
  ∀ child ∈ s.children, w.aliveAt child s.clock = true →
    ∃ name proc, s.processes.get? name = some proc ∧ child ∈ proc.pids

/-- `_stop_all` leaves no child alive. -/
def Stoppable (s : Orchestrator) : Prop :=
  ∀ child ∈ (s.stopAll w).children, w.aliveAt child (s.stopAll w).clock = false

/-- The handle of a service leads to a child that is alive at a moment. -/
def holds (s : Orchestrator) (name : String) (t : ℕ) : Bool :=
  (s.processes.get? name).any fun proc =>
    proc.pids.any fun child => decide (child ∈ s.children) && w.aliveAt child t

/-- A runner raises and leaves a feed alive. -/
def strands (svc : Service) (t : ℕ) : Bool :=
  let launch := svc.runner.call w t
  launch.handle.isNone && launch.spawned.any fun child => w.aliveAt child launch.clock

/-- `_start_service` replaces a handle that leads to a living child, or its runner leaves one. -/
def loses (svc : Service) (s : Orchestrator) : Bool :=
  let adopted := adopts w svc.name s.clock
  if adopted.1 then s.holds w svc.name adopted.2
  else
    strands w svc adopted.2 ||
      (svc.runner.call w adopted.2).handle.isSome &&
        s.holds w svc.name (svc.runner.call w adopted.2).clock

end Orchestrator

open Orchestrator in
/-- An action loses a living child. -/
def abandons (w : World) (s : Orchestrator) (a : Action) : Bool :=
  (called w s a).any fun call =>
    match a with
    | .checkRestart _ => strands w call.1 call.2.clock
    | _ => call.2.loses w call.1

section Owned

variable {w : World} {s s₁ : Orchestrator} {svc : Service} {a : Action} {proc : Handle}
  {name : String} {t : ℕ}

/-- What a runner spawned is reachable from the handle that it returns. -/
theorem spawned_reachable (runner : Runner) (returned : (runner.call w t).handle = some proc) :
    ∀ child ∈ (runner.call w t).spawned, child ∈ proc.pids := by
  cases runner <;> simp only [Runner.call] at returned ⊢ <;> split at returned <;>
    try split at returned
  all_goals
    cases returned
  all_goals simp_all [Handle.pids]

theorem not_holds_iff : s.holds w name t = false ↔ ∀ proc, s.processes.get? name = some proc →
    ∀ child ∈ proc.pids, child ∈ s.children → w.aliveAt child t = false := by
  unfold Orchestrator.holds
  cases s.processes.get? name with
  | none => simp
  | some proc => simp

theorem Orchestrator.Owned.kept (owned : s.Owned w) (kept : Kept s s₁) : s₁.Owned w := by
  intro child member alive
  rw [kept.processes]
  exact owned child (kept.children member) (World.aliveAt_of_le kept.clock alive)

/-- A handle may be replaced when it leads to no living child. -/
theorem Orchestrator.Owned.replaced (owned : s.Owned w) {s' : Orchestrator} {spawned : List ℕ}
    (free : s.holds w name s'.clock = false) (later : s.clock ≤ s'.clock)
    (reachable : ∀ child ∈ spawned, child ∈ proc.pids)
    (processes : s'.processes = s.processes.setItem name proc)
    (children : s'.children = spawned ++ s.children) : s'.Owned w := by
  intro child member alive
  rw [children] at member
  rw [processes]
  rcases List.mem_append.mp member with new | old
  · exact ⟨name, proc, by rw [PyDict.get?_setItem, if_pos rfl], reachable child new⟩
  · obtain ⟨other, handle, tracked, reached⟩ :=
      owned child old (World.aliveAt_of_le later alive)
    by_cases same : other = name
    · subst same
      exact absurd alive (by simp [not_holds_iff.mp free handle tracked child reached old])
    · exact ⟨other, handle, by rw [PyDict.get?_setItem, if_neg same, tracked], reached⟩

/-- A runner that raised leaves what was owned, unless it left a feed alive. -/
theorem Orchestrator.Owned.raised (owned : s.Owned w)
    (dead : ∀ child ∈ (svc.runner.call w s.clock).spawned,
      w.aliveAt child (svc.runner.call w s.clock).clock = false) :
    (s.runner w svc).2.Owned w := by
  intro child member alive
  rcases List.mem_append.mp member with new | old
  · cases alive.symm.trans (dead child new)
  · exact owned child old (World.aliveAt_of_le (lt_call svc.runner s.clock).le alive)

theorem dead_of_not_strands (whole : Orchestrator.strands w svc t = false)
    (raised : (svc.runner.call w t).handle = none) :
    ∀ child ∈ (svc.runner.call w t).spawned,
      w.aliveAt child (svc.runner.call w t).clock = false := by
  simpa [Orchestrator.strands, raised] using whole

/-- `_start_service` keeps what is owned where it loses nothing. -/
theorem owned_startService (owned : s.Owned w) (keeps : s.loses w svc = false) :
    (s.startService w svc).2.Owned w := by
  have before : s.clock ≤ (Orchestrator.adopts w svc.name s.clock).2 := le_adopts svc.name s.clock
  unfold Orchestrator.loses at keeps
  unfold Orchestrator.startService
  dsimp only at keeps ⊢
  split
  · rename_i adopted
    rw [if_pos adopted] at keeps
    have nothing : ∀ child ∈ ([] : List ℕ), child ∈ Handle.adopted.pids := by simp
    exact owned.replaced keeps before nothing rfl rfl
  · rename_i free
    rw [if_neg free, Bool.or_eq_false_iff, Bool.and_eq_false_iff] at keeps
    obtain ⟨whole, free⟩ := keeps
    have waited : (s.later (Orchestrator.adopts w svc.name s.clock).2).Owned w :=
      owned.kept ⟨rfl, rfl, before, List.Subset.refl _⟩
    split <;> rename_i run <;> obtain ⟨returned, rfl⟩ := Prod.mk.inj run
    · exact waited.raised (dead_of_not_strands whole returned)
    · rename_i proc
      rcases free with raised | free
      · cases raised.symm.trans (congrArg Option.isSome returned)
      · exact waited.replaced free (lt_call svc.runner _).le
          (spawned_reachable svc.runner returned) rfl rfl

/-- A feed is terminated unless it has ended. -/
theorem feed_killed (proc : Handle) {feed : ℕ} (paired : proc.feed = some feed)
    (member : feed ∈ (s.killFeed w proc).children) : w.aliveAt feed s.clock = false := by
  simp only [Orchestrator.killFeed, paired] at member
  split at member
  · simp at member
  · rename_i ended
    have spawned : feed ∈ s.children := member
    simpa [Orchestrator.alive, spawned] using ended

/-- After a crash and the end of its feed, a handle leads to no living child. -/
theorem free_of_crash (tracked : s.processes.get? svc.name = some proc)
    (ended : (proc.poll w s.clock).1 = false) {t : ℕ}
    (later : ((s.crash w svc proc).killFeed w proc).clock ≤ t) :
    ((s.crash w svc proc).killFeed w proc).holds w svc.name t = false := by
  have polled : (proc.poll w s.clock).2 ≤ t :=
    (clock_killFeed (s := s.crash w svc proc) proc).trans later
  have before : s.clock ≤ t := (lt_poll proc s.clock).le.trans polled
  refine not_holds_iff.mpr fun proc' tracked' child reached member => ?_
  rw [kept_crash.processes] at tracked'
  obtain rfl := Option.some.inj (tracked.symm.trans tracked')
  refine Bool.eq_false_of_not_eq_true fun alive => ?_
  cases proc with
  | adopted => simp [Handle.pids] at reached
  | child pid feed =>
      rcases List.mem_cons.mp reached with rfl | paired
      · cases ended.symm.trans (World.aliveAt_of_le before alive)
      · obtain rfl := Option.mem_toList.mp paired
        cases (World.aliveAt_of_le polled alive).symm.trans (feed_killed _ rfl member)

/-- `_check_restart` keeps what is owned where its runner leaves no feed behind. -/
theorem owned_restart (owned : s.Owned w) (whole : Orchestrator.strands w svc s.clock = false)
    (free : s.holds w svc.name (svc.runner.call w s.clock).clock = false) :
    (s.restart w svc).Owned w := by
  unfold Orchestrator.restart
  split <;> rename_i run <;> obtain ⟨returned, rfl⟩ := Prod.mk.inj run
  · exact owned.raised (dead_of_not_strands whole returned)
  · exact owned.replaced free (lt_call svc.runner _).le
      (spawned_reachable svc.runner returned) rfl rfl

/-- **An action that abandons no child** keeps every living child reachable. -/
theorem owned_step (owned : s.Owned w) (keeps : abandons w s a = false) :
    (step w s a).Owned w := by
  cases ended : s.halted with
  | true => rwa [step, if_pos ended]
  | false =>
      generalize made : step w s a = s'
      have move : Move w s a s' := made ▸ move_step ended
      cases move with
      | idle t checked halted later =>
          exact owned.kept ⟨rfl, rfl, later, List.Subset.refl _⟩
      | start svc s₁ counts halted notCheck call _ =>
          have kept : s₁.loses w svc = false := by
            rw [abandons, call, Option.any_some] at keeps
            cases a with
            | checkRestart other => exact absurd rfl (notCheck other)
            | _ => exact keeps
          exact owned_startService (owned.kept (kept_called call)) kept
      | dead svc proc =>
          have crashed : (s.crash w svc proc).Owned w :=
            owned.kept ⟨rfl, rfl, (lt_poll proc s.clock).le, List.Subset.refl _⟩
          exact crashed
      | left svc proc t checked _ _ _ _ _ later =>
          have crashed : Kept s ((s.crash w svc proc).killFeed w proc) := kept_crash
          exact owned.kept
            ⟨crashed.processes, crashed.deeds, crashed.clock.trans later, crashed.children⟩
      | restart svc proc s₁ check tracked ended _ call up =>
          subst check
          rw [abandons, call, Option.any_some] at keeps
          refine owned_restart (owned.kept (kept_called call)) keeps ?_
          obtain rfl : s₁ = (((s.crash w svc proc).killFeed w proc).canStart w svc).2 := by rw [up]
          exact free_of_crash tracked ended
            ((le_dependenciesUp _ _ _).trans (lt_call svc.runner _).le)

end Owned

/-! ## `_stop_all` -/

section Stop

variable {w : World} {s : Orchestrator} {proc : Handle}

theorem children_terminate (proc : Handle) (s : Orchestrator) :
    (Orchestrator.stopAll.terminate proc s).children ⊆ s.children ∧
      s.clock ≤ (Orchestrator.stopAll.terminate proc s).clock := by
  cases proc with
  | adopted => exact ⟨List.Subset.refl _, Nat.le_refl _⟩
  | child pid feed => exact ⟨List.filter_subset_self _, Nat.le_succ s.clock⟩

/-- What a handle leads to has ended once it was told to stop. -/
theorem stopped_turn : ∀ child ∈ proc.pids,
    child ∈ (Orchestrator.stopAll.terminate proc (s.killFeed w proc)).children →
      w.aliveAt child (Orchestrator.stopAll.terminate proc (s.killFeed w proc)).clock = false := by
  intro child reached member
  cases proc with
  | adopted => simp [Handle.pids] at reached
  | child pid feed =>
      rcases List.mem_cons.mp reached with rfl | paired
      · simp [Orchestrator.stopAll.terminate] at member
      · have kept := (children_terminate _ _).1 member
        have ended := feed_killed (.child pid feed) (Option.mem_toList.mp paired) kept
        refine Bool.eq_false_of_not_eq_true fun alive => ?_
        have later := (clock_killFeed (.child pid feed)).trans
          (children_terminate (.child pid feed) (s.killFeed w (.child pid feed))).2
        cases ended.symm.trans (World.aliveAt_of_le later alive)

/-- After some handles were told to stop, nothing that they lead to is alive. -/
theorem stopped_items (items : List (String × Handle)) (s : Orchestrator) :
    let stopped := items.foldl
      (fun s item => Orchestrator.stopAll.terminate item.2 (s.killFeed w item.2)) s
    stopped.children ⊆ s.children ∧ s.clock ≤ stopped.clock ∧
      ∀ item ∈ items, ∀ child ∈ item.2.pids, child ∈ stopped.children →
        w.aliveAt child stopped.clock = false := by
  induction items generalizing s with
  | nil => exact ⟨List.Subset.refl _, Nat.le_refl _, by simp⟩
  | cons item items ih =>
      obtain ⟨kept, later, rest⟩ :=
        ih (Orchestrator.stopAll.terminate item.2 (s.killFeed w item.2))
      obtain ⟨t, children, le, sub, eq⟩ := killFeed_eq w s item.2
      have fewer : (s.killFeed w item.2).children ⊆ s.children := by
        rw [eq]
        exact sub
      refine ⟨List.Subset.trans kept (List.Subset.trans (children_terminate _ _).1 fewer),
        ((clock_killFeed item.2).trans (children_terminate _ _).2).trans later,
        fun other member child reached alive => ?_⟩
      rcases List.mem_cons.mp member with rfl | member
      · have ended := stopped_turn child reached (kept alive)
        refine Bool.eq_false_of_not_eq_true fun living => ?_
        cases ended.symm.trans (World.aliveAt_of_le later living)
      · exact rest other member child reached alive

/-- `_stop_all` terminates every child that is reachable. -/
theorem stoppable_of_owned (owned : s.Owned w) : s.Stoppable w := by
  intro child member
  obtain ⟨kept, later, stopped⟩ := stopped_items (w := w) s.processes.items s
  refine Bool.eq_false_of_not_eq_true fun alive => ?_
  obtain ⟨name, proc, tracked, reached⟩ :=
    owned child (kept member) (World.aliveAt_of_le later alive)
  cases alive.symm.trans (stopped _ (PyDict.mem_of_get? tracked) child reached member)

end Stop

/-- **No child escapes**: at every point of a run whose actions abandon none, every living child
is reachable from `self.processes`, and `_stop_all` leaves none alive. -/
theorem owned_of_kept (w : World) (table : List Service) (scans : ℕ → LogScan)
    (rounds done : ℕ)
    (kept : ∀ e ∈ history w table scans rounds done, abandons w e.before e.input = false) :
    (reached w table scans rounds done).Owned w ∧
      (reached w table scans rounds done).Stoppable w := by
  have owned : (reached w table scans rounds done).Owned w := by
    apply (machine w).run_invariant_of_events (P := fun s => s.Owned w)
      (Q := fun e => abandons w e.before e.input = false)
    · exact fun s a keeps owned => owned_step owned keeps
    · intro child member
      cases member
    · exact kept
  exact ⟨owned, stoppable_of_owned owned⟩

/-- The constitution answers late enough not to be adopted, and the trading daemon ends. -/
def endingDaemon : World :=
  ⟨fun child => if child = 8 then some 20 else none, fun t => decide (2 < t), fun _ => true⟩

/-- The trading daemon is restarted, with a new feed, after its old feed was terminated. -/
theorem daemon_kept :
    (reached endingDaemon services (fun _ => cleanScan) 1 18).Owned endingDaemon ∧
      (reached endingDaemon services (fun _ => cleanScan) 1 18).Stoppable endingDaemon :=
  owned_of_kept endingDaemon services (fun _ => cleanScan) 1 18 (by decide +kernel)

/-- Nothing ends, and the sixth round finds an IPC error in the logs. -/
def healthy : World := ⟨fun _ => none, fun t => decide (2 < t), fun _ => true⟩

def ipcError : LogScan := ⟨[⟨"ipc_protocol_error", false⟩], false⟩

/-- The process that was spawned for the constitution, 2, answers and is adopted in its own
place: it is not terminated any more. -/
theorem constitutiond_escapes :
    ¬ (reached healthy services (fun _ => ipcError) 6 67).Owned healthy ∧
      ¬ (reached healthy services (fun _ => ipcError) 6 67).Stoppable healthy := by
  constructor
  · intro owned
    obtain ⟨name, proc, tracked, led⟩ := owned 2 (by decide +kernel) (by decide +kernel)
    have lost : ∀ item ∈ (reached healthy services (fun _ => ipcError) 6 67).processes.items,
        2 ∉ item.2.pids := by decide +kernel
    exact lost _ (PyDict.mem_of_get? tracked) led
  · intro stoppable
    cases (stoppable 2 (by decide +kernel)).symm.trans
      (show healthy.aliveAt 2 _ = true from rfl)

end CentaurApex.CentaurStart
