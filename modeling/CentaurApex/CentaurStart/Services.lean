/-
# CentaurStart.Services -- the orchestrator, its services and one action after another

`centaur_start.py` starts the services of a table, each once its dependencies are up, and then
watches them in rounds: a process that ended is restarted, a scan of the logs may start the
constitution again, and every twelfth round what does not run is started anew.

The clock counts the questions that are put to the system: a probe, a poll and a `Popen` take
one moment each, and whatever happens between two of them happens between two moments.  A child
is named after the moment of its `Popen`.  A `World` says what the answers are.

* `called_eq_some`, `kept_called`: a service is started from the state before, after a check of
  its dependencies that succeeded;
* `move_step`: an action leaves all as it was, or starts a service, or counts a crash and
  declares the service dead, leaves it, or restarts it.
-/
import CentaurApex.Theory.Machine
import CentaurApex.Theory.PyDict

namespace CentaurApex.CentaurStart

open CentaurApex.Theory

set_option autoImplicit false

/-- A runner is one `Popen`, or one for a feed and one for the process that reads from it. -/
inductive Runner where
  | single
  | paired
  deriving DecidableEq

structure Service where
  name : String
  runner : Runner
  restart : Bool
  dependsOn : List String
  deriving DecidableEq

/-- `SERVICES` -/
def services : List Service :=
  [ ⟨"constitution", .single, true, []⟩,
    ⟨"doomsday", .single, true, ["constitution"]⟩,
    ⟨"trading-daemon", .paired, true, ["constitution", "doomsday"]⟩,
    ⟨"mesh-0", .single, true, ["constitution"]⟩,
    ⟨"mesh-1", .single, true, ["constitution", "mesh-0"]⟩,
    ⟨"mesh-2", .single, true, ["constitution", "mesh-0", "mesh-1"]⟩,
    ⟨"evolution", .single, true, ["constitution"]⟩,
    ⟨"compliance", .single, true, ["constitution"]⟩ ]

/-- What the orchestrator cannot know: when a child ends by itself, whether the constitution
answers a probe, and whether a `Popen`, with its log file, succeeds. -/
structure World where
  exits : ℕ → Option ℕ
  answers : ℕ → Bool
  spawns : ℕ → Bool

/-- A child process with its paired feed, or an `_AdoptedDaemon`. -/
inductive Handle where
  | child (pid : ℕ) (feed : Option ℕ)
  | adopted
  deriving DecidableEq

/-- `getattr(proc, "_feed", None)` -/
def Handle.feed : Handle → Option ℕ
  | .child _ feed => feed
  | .adopted => none

/-- The children that can be reached from a handle. -/
def Handle.pids : Handle → List ℕ
  | .child pid feed => pid :: feed.toList
  | .adopted => []

/-! ## Questions: each takes some moments -/

section World

variable (w : World)

/-- A child that has not ended by itself at a moment. -/
def World.aliveAt (child moment : ℕ) : Bool :=
  match w.exits child with
  | none => true
  | some ends => decide (moment < ends)

/-- `_wait_for_constitutiond(timeout)` from a moment on: the result, and the moment after it. -/
def waitForConstitutiond : ℕ → ℕ → Bool × ℕ
  | 0, t => (false, t)
  | timeout + 1, t => if w.answers t then (true, t + 1) else waitForConstitutiond timeout (t + 1)

/-- `poll() is None`.  No service is terminated before `_stop_all`. -/
def Handle.poll (h : Handle) (t : ℕ) : Bool × ℕ :=
  match h with
  | .child pid _ => (w.aliveAt pid t, t + 1)
  | .adopted => waitForConstitutiond w 2 t

/-- The loop of `_can_start`. -/
def dependenciesUp (processes : PyDict String Handle) : List String → ℕ → Bool × ℕ
  | [], t => (true, t)
  | dep :: deps, t =>
      if dep = "constitution" then waitForConstitutiond w 5 t
      else
        match processes.get? dep with
        | none => (false, t)
        | some proc =>
            let polled := proc.poll w t
            if polled.1 then dependenciesUp processes deps polled.2 else (false, polled.2)

/-- What a runner does: the handle it returns unless it raises, the children it spawned, and the
moment after it. -/
structure Launch where
  handle : Option Handle
  spawned : List ℕ
  clock : ℕ
  deriving DecidableEq

/-- `svc["runner"]()` from a moment on. -/
def Runner.call (t : ℕ) : Runner → Launch
  | .single =>
      if w.spawns t then ⟨some (.child t none), [t], t + 1⟩ else ⟨none, [], t + 1⟩
  | .paired =>
      if w.spawns t then
        if w.spawns (t + 1) then ⟨some (.child (t + 1) (some t)), [t + 1, t], t + 2⟩
        -- the feed runs, and nothing refers to it
        else ⟨none, [t], t + 2⟩
      else ⟨none, [], t + 1⟩

end World

/-- What was done, for the record.  A runner was invoked after a check of the dependencies that
lasted from one moment to another. -/
inductive Deed where
  | invoked (svc : Service) (processes : PyDict String Handle) (since till : ℕ)
  | restarted (name : String)
  | dead (name : String)
  deriving DecidableEq

structure Orchestrator where
  processes : PyDict String Handle
  restartCounts : PyDict String ℕ
  clock : ℕ
  /-- The children it spawned and did not terminate. -/
  children : List ℕ
  /-- When the last check of dependencies began and ended. -/
  checked : ℕ × ℕ
  /-- The latest deed first. -/
  deeds : List Deed
  /-- `run` has returned, or an exception has left it. -/
  halted : Bool
  deriving DecidableEq

/-- `Orchestrator()` -/
def boot : Orchestrator := ⟨.empty, .empty, 0, [], (0, 0), [], false⟩

namespace Orchestrator

variable (w : World) (svc : Service) (s : Orchestrator)

def later (t : ℕ) : Orchestrator := { s with clock := t }

def note (deed : Deed) : Orchestrator := { s with deeds := deed :: s.deeds }

def halt : Orchestrator := { s with halted := true }

/-- `self.restart_counts.get(name, 0)` -/
def count (name : String) : ℕ := (s.restartCounts.get? name).getD 0

def setCount (name : String) (count : ℕ) : Orchestrator :=
  { s with restartCounts := s.restartCounts.setItem name count }

def track (name : String) (proc : Handle) : Orchestrator :=
  { s with processes := s.processes.setItem name proc }

/-- A child of its own that runs now. -/
def alive (child : ℕ) : Bool := decide (child ∈ s.children) && w.aliveAt child s.clock

def canStart : Bool × Orchestrator :=
  let up := dependenciesUp w s.processes svc.dependsOn s.clock
  (up.1, { s with clock := up.2, checked := (s.clock, up.2) })

/-- `svc["runner"]()`, `none` where it raises. -/
def runner : Option Handle × Orchestrator :=
  let launch := svc.runner.call w s.clock
  (launch.handle,
    { s with
      clock := launch.clock
      children := launch.spawned ++ s.children
      deeds := .invoked svc s.processes s.checked.1 s.checked.2 :: s.deeds })

/-- `_adopt_existing_constitutiond`, which is asked for the constitution only. -/
def adopts (name : String) (t : ℕ) : Bool × ℕ :=
  if name = "constitution" then waitForConstitutiond w 2 t else (false, t)

def startService : Bool × Orchestrator :=
  let adopted := adopts w svc.name s.clock
  let s := s.later adopted.2
  if adopted.1 then (true, (s.track svc.name .adopted).setCount svc.name 0)
  else
    match s.runner w svc with
    | (none, s) => (false, s)
    | (some proc, s) => (true, (s.track svc.name proc).setCount svc.name 0)

/-- `_kill_feed(proc)` -/
def killFeed (proc : Handle) : Orchestrator :=
  match proc.feed with
  | none => s
  | some feed =>
      let alive := s.alive w feed
      let s := s.later (s.clock + 1)
      if alive then { s with children := s.children.filter (· ≠ feed) } else s

/-- A crash is counted. -/
def crash (proc : Handle) : Orchestrator :=
  (s.later (proc.poll w s.clock).2).setCount svc.name (s.count svc.name + 1)

/-- The runner is invoked again; what it raises leaves `run`. -/
def restart : Orchestrator :=
  match s.runner w svc with
  | (none, s) => s.halt
  | (some proc, s) => (s.track svc.name proc).note (.restarted svc.name)

def checkRestart (proc : Handle) : Orchestrator :=
  let polled := proc.poll w s.clock
  if polled.1 then s.later polled.2
  else
    let s := s.crash w svc proc
    if 10 < s.count svc.name then s.note (.dead svc.name)
    else
      let s := s.killFeed w proc
      if svc.restart then
        match s.canStart w svc with
        | (false, s) => s
        | (true, s) => s.restart w svc
      else s

/-- `if self._can_start(svc): self._start_service(svc)` -/
def launch : Orchestrator :=
  match s.canStart w svc with
  | (false, s) => s
  | (true, s) => (s.startService w svc).2

/-- One turn of the loop of `_retry_skipped_services`. -/
def retry : Orchestrator :=
  match s.processes.get? svc.name with
  | none => again s
  | some proc =>
      let polled := proc.poll w s.clock
      let s := s.later polled.2
      if polled.1 then s else again s
where
  again (s : Orchestrator) : Orchestrator :=
    match s.canStart w svc with
    | (false, s) => s
    | (true, s) => (s.startService w svc).2.setCount svc.name 0

/-- The polls of `_print_status` and of `_health_report`. -/
def report : Orchestrator :=
  s.later (s.processes.items.foldl (fun t item => (item.2.poll w t).2) s.clock)

/-- `_stop_all`; the child and the feed of every handle are signalled until they end. -/
def stopAll : Orchestrator :=
  s.processes.items.foldl (fun s item => terminate item.2 (s.killFeed w item.2)) s
where
  terminate (proc : Handle) (s : Orchestrator) : Orchestrator :=
    match proc with
    | .child pid _ => { s.later (s.clock + 1) with children := s.children.filter (· ≠ pid) }
    | .adopted => s

end Orchestrator

/-! ## The run: one action after another -/

inductive Action where
  | startFirst (svc : Service)
  | awaitHealth
  | launch (svc : Service)
  | report
  | checkRestart (svc : Service)
  | heal (svc : Service)
  | retry (svc : Service)
  | abort
  deriving DecidableEq

open Orchestrator in
def act (w : World) (s : Orchestrator) : Action → Orchestrator
  | .startFirst svc =>
      match s.startService w svc with
      | (true, s) => s
      | (false, s) => s.halt
  | .awaitHealth =>
      match waitForConstitutiond w 30 s.clock with
      | (true, t) => s.later t
      | (false, t) => (s.later t).halt
  | .launch svc => s.launch w svc
  | .report => s.report w
  | .checkRestart svc =>
      match s.processes.get? svc.name with
      | none => s
      | some proc => s.checkRestart w svc proc
  | .heal svc => if svc.name = "constitution" then s.launch w svc else s
  | .retry svc => s.retry w svc
  | .abort => s.halt

/-- Nothing happens any more once the run has ended. -/
def step (w : World) (s : Orchestrator) (a : Action) : Orchestrator :=
  if s.halted then s else act w s a

def machine (w : World) : Machine Orchestrator Action Unit := ⟨fun s a => ((), step w s a)⟩

/-- An error that the scan of the logs found, and whether a patch was staged for it. -/
structure LogError where
  pattern : String
  staged : Bool
  deriving DecidableEq

/-- What one scan went through, and whether it then raised. -/
structure LogScan where
  errors : List LogError
  raises : Bool
  deriving DecidableEq

def cleanScan : LogScan := ⟨[], false⟩

/-- `_scan_and_heal` -/
def scanAndHeal (table : List Service) (scan : LogScan) : List Action :=
  (scan.errors.take 5).flatMap (fun err =>
    if ¬ err.staged ∧ err.pattern = "ipc_protocol_error" then table.map .heal else []) ++
  if scan.raises then [.abort] else []

/-- One round of the monitoring loop of `run`. -/
def round (table : List Service) (scans : ℕ → LogScan) (tick : ℕ) : List Action :=
  table.map .checkRestart ++
  (if tick % 6 = 0 then .report :: scanAndHeal table (scans tick) else []) ++
  if tick % 12 = 0 then table.tail.map .retry else []

/-- `run`, told to stop after some rounds; an empty table has no first service. -/
def schedule (table : List Service) (scans : ℕ → LogScan) (rounds : ℕ) : List Action :=
  match table with
  | [] => [.abort]
  | first :: rest =>
      .startFirst first :: .awaitHealth :: rest.map .launch ++ .report ::
        (List.range rounds).flatMap fun k => round table scans (k + 1)

section Run

variable (w : World) (table : List Service) (scans : ℕ → LogScan) (rounds done : ℕ)

/-- The actions of a run that are done at some point of it. -/
def actions : List Action := (schedule table scans rounds).take done

/-- The orchestrator at some point of a run. -/
def reached : Orchestrator := (machine w).run boot (actions table scans rounds done)

/-- What led there. -/
def history : List (Event Orchestrator Action Unit) :=
  (machine w).trace boot (actions table scans rounds done)

end Run

/-! ## What an action asks and starts -/

section Called

variable (w : World) (s : Orchestrator)

/-- The check of dependencies that an action makes: of which service, and in what state. -/
def dependencyCheck : Action → Option (Service × Orchestrator)
  | .launch svc => some (svc, s)
  | .heal svc => if svc.name = "constitution" then some (svc, s) else none
  | .retry svc =>
      match s.processes.get? svc.name with
      | none => some (svc, s)
      | some proc =>
          if (proc.poll w s.clock).1 then none
          else some (svc, s.later (proc.poll w s.clock).2)
  | .checkRestart svc =>
      match s.processes.get? svc.name with
      | none => none
      | some proc =>
          if (proc.poll w s.clock).1 ∨ 10 < s.count svc.name + 1 ∨ svc.restart = false then none
          else some (svc, (s.crash w svc proc).killFeed w proc)
  | _ => none

/-- The service that an action starts or restarts, and the state in which it does. -/
def called : Action → Option (Service × Orchestrator)
  | .startFirst svc => some (svc, s)
  | a =>
      (dependencyCheck w s a).bind fun check =>
        if (check.2.canStart w check.1).1 then some (check.1, (check.2.canStart w check.1).2)
        else none

end Called

/-! ## Time does not run backwards -/

section Clock

variable {w : World} {s : Orchestrator}

theorem lt_waitForConstitutiond {timeout t : ℕ} (positive : 0 < timeout) :
    t < (waitForConstitutiond w timeout t).2 := by
  induction timeout generalizing t with
  | zero => exact absurd positive (Nat.lt_irrefl 0)
  | succ timeout ih =>
      unfold waitForConstitutiond
      split
      · exact Nat.lt_succ_self t
      · rcases Nat.eq_zero_or_pos timeout with rfl | more
        · exact Nat.lt_succ_self t
        · exact (Nat.lt_succ_self t).trans (ih more)

theorem lt_poll (proc : Handle) (t : ℕ) : t < (proc.poll w t).2 := by
  cases proc with
  | child pid feed => exact Nat.lt_succ_self t
  | adopted => exact lt_waitForConstitutiond (by decide)

theorem le_dependenciesUp (processes : PyDict String Handle) (deps : List String) (t : ℕ) :
    t ≤ (dependenciesUp w processes deps t).2 := by
  induction deps generalizing t with
  | nil => exact Nat.le_refl t
  | cons dep deps ih =>
      unfold dependenciesUp
      split
      · exact (lt_waitForConstitutiond (by decide)).le
      · split
        · exact Nat.le_refl t
        · rename_i proc _
          dsimp only
          split
          · exact (lt_poll proc t).le.trans (ih _)
          · exact (lt_poll proc t).le

theorem le_adopts (name : String) (t : ℕ) : t ≤ (Orchestrator.adopts w name t).2 := by
  unfold Orchestrator.adopts
  split
  · exact (lt_waitForConstitutiond (by decide)).le
  · exact Nat.le_refl t

theorem lt_call (runner : Runner) (t : ℕ) : t < (runner.call w t).clock := by
  cases runner <;> simp only [Runner.call] <;> split <;> try split
  all_goals simp

theorem le_report : s.clock ≤ (s.report w).clock := by
  have from_ (items : List (String × Handle)) (t : ℕ) :
      t ≤ items.foldl (fun t item => (item.2.poll w t).2) t := by
    induction items generalizing t with
    | nil => exact Nat.le_refl t
    | cons item items ih => exact (lt_poll item.2 t).le.trans (ih _)
  exact from_ s.processes.items s.clock

/-- A child that is alive was alive before. -/
theorem World.aliveAt_of_le {child earlier moment : ℕ} (le : earlier ≤ moment)
    (alive : w.aliveAt child moment = true) : w.aliveAt child earlier = true := by
  unfold World.aliveAt at alive ⊢
  split
  · rfl
  · rename_i ends exit
    rw [exit] at alive
    exact decide_eq_true (le.trans_lt (of_decide_eq_true alive))

theorem clock_killFeed (proc : Handle) : s.clock ≤ (s.killFeed w proc).clock := by
  unfold Orchestrator.killFeed
  split
  · exact Nat.le_refl _
  · dsimp only
    split <;> exact Nat.le_succ s.clock

end Clock

/-! ## What one action can do -/

section Move

variable {w : World} {s s₀ s₁ : Orchestrator} {a : Action} {svc : Service} {proc : Handle}

/-- Killing a feed changes neither what is tracked nor what is counted. -/
theorem killFeed_eq (w : World) (s : Orchestrator) (proc : Handle) :
    ∃ t children, s.clock ≤ t ∧ children ⊆ s.children ∧
      s.killFeed w proc = { s with clock := t, children := children } := by
  unfold Orchestrator.killFeed
  split
  · exact ⟨s.clock, s.children, Nat.le_refl _, List.Subset.refl _, rfl⟩
  · dsimp only
    split
    · exact ⟨_, _, Nat.le_succ s.clock, List.filter_subset_self _, rfl⟩
    · exact ⟨_, _, Nat.le_succ s.clock, List.Subset.refl _, rfl⟩

/-- A service is started from a state whose check of dependencies succeeded, the first one from
the state before. -/
theorem called_eq_some : called w s a = some (svc, s₁) ↔ (a = .startFirst svc ∧ s₁ = s) ∨
    ∃ s₀, dependencyCheck w s a = some (svc, s₀) ∧ (s₀.canStart w svc).1 = true ∧
      s₁ = (s₀.canStart w svc).2 := by
  have admitted : ((dependencyCheck w s a).bind fun check =>
      if (check.2.canStart w check.1).1 then some (check.1, (check.2.canStart w check.1).2)
      else none) = some (svc, s₁) ↔
      ∃ s₀, dependencyCheck w s a = some (svc, s₀) ∧ (s₀.canStart w svc).1 = true ∧
        s₁ = (s₀.canStart w svc).2 := by
    rw [Option.bind_eq_some_iff]
    constructor
    · rintro ⟨⟨svc', s₀⟩, check, call⟩
      split at call
      · rename_i up
        obtain ⟨rfl, rfl⟩ := Prod.mk.inj (Option.some.inj call)
        exact ⟨s₀, check, up, rfl⟩
      · cases call
    · rintro ⟨s₀, check, up, rfl⟩
      exact ⟨(svc, s₀), check, if_pos up⟩
  cases a with
  | startFirst first =>
      constructor
      · intro call
        obtain ⟨rfl, rfl⟩ := Prod.mk.inj (Option.some.inj call)
        exact Or.inl ⟨rfl, rfl⟩
      · rintro (⟨same, rfl⟩ | ⟨_, check, _⟩)
        · rw [Action.startFirst.inj same]
          rfl
        · cases check
  | _ => simpa only [called, reduceCtorEq, false_and, false_or] using admitted

/-- The state in which an action checks dependencies. -/
theorem dependencyCheck_eq (check : dependencyCheck w s a = some (svc, s₀)) :
    (∃ t, s.clock ≤ t ∧ s₀ = s.later t) ∨
      ∃ proc, a = .checkRestart svc ∧ s.processes.get? svc.name = some proc ∧
        (proc.poll w s.clock).1 = false ∧ s.count svc.name + 1 ≤ 10 ∧
        s₀ = (s.crash w svc proc).killFeed w proc := by
  cases a with
  | launch service =>
      obtain ⟨rfl, rfl⟩ := Prod.mk.inj (Option.some.inj check)
      exact Or.inl ⟨s.clock, Nat.le_refl _, rfl⟩
  | heal service =>
      simp only [dependencyCheck] at check
      split at check
      · obtain ⟨rfl, rfl⟩ := Prod.mk.inj (Option.some.inj check)
        exact Or.inl ⟨s.clock, Nat.le_refl _, rfl⟩
      · cases check
  | retry service =>
      simp only [dependencyCheck] at check
      split at check
      · obtain ⟨rfl, rfl⟩ := Prod.mk.inj (Option.some.inj check)
        exact Or.inl ⟨s.clock, Nat.le_refl _, rfl⟩
      · rename_i proc _
        split at check
        · cases check
        · obtain ⟨rfl, rfl⟩ := Prod.mk.inj (Option.some.inj check)
          exact Or.inl ⟨_, (lt_poll proc s.clock).le, rfl⟩
  | checkRestart service =>
      simp only [dependencyCheck] at check
      split at check
      · cases check
      · rename_i proc tracked
        split at check
        · cases check
        · rename_i crashed
          obtain ⟨rfl, rfl⟩ := Prod.mk.inj (Option.some.inj check)
          obtain ⟨ended, counted, _⟩ := by simpa only [not_or] using crashed
          exact Or.inr ⟨proc, rfl, tracked, Bool.eq_false_of_not_eq_true ended,
            Nat.le_of_not_lt counted, rfl⟩
  | _ => cases check

/-- What is not restarted, is checked in the state before. -/
theorem later_of_check (notCheck : ∀ svc, a ≠ .checkRestart svc)
    (check : dependencyCheck w s a = some (svc, s₀)) : ∃ t, s.clock ≤ t ∧ s₀ = s.later t := by
  rcases dependencyCheck_eq check with later | ⟨_, isCheck, _⟩
  · exact later
  · exact absurd isCheck (notCheck svc)

/-- Time went by, and children may have been terminated. -/
structure Kept (s s₁ : Orchestrator) : Prop where
  processes : s₁.processes = s.processes
  deeds : s₁.deeds = s.deeds
  clock : s.clock ≤ s₁.clock
  children : s₁.children ⊆ s.children

theorem kept_crash : Kept s ((s.crash w svc proc).killFeed w proc) := by
  obtain ⟨t, children, le, sub, eq⟩ := killFeed_eq w (s.crash w svc proc) proc
  rw [eq]
  exact ⟨rfl, rfl, (lt_poll proc s.clock).le.trans le, sub⟩

/-- What is started, is started from the state before. -/
theorem kept_called (call : called w s a = some (svc, s₁)) : Kept s s₁ := by
  rcases called_eq_some.mp call with ⟨_, rfl⟩ | ⟨s₀, check, _, rfl⟩
  · exact ⟨rfl, rfl, Nat.le_refl _, List.Subset.refl _⟩
  · have kept : Kept s s₀ := by
      rcases dependencyCheck_eq check with ⟨t, le, rfl⟩ | ⟨proc, _, _, _, _, rfl⟩
      · exact ⟨rfl, rfl, le, List.Subset.refl _⟩
      · exact kept_crash
    exact ⟨kept.processes, kept.deeds, kept.clock.trans (le_dependenciesUp _ _ _), kept.children⟩

/-- Starting a service invokes its runner, after the last check, unless a daemon is adopted. -/
theorem deeds_startService : (s.startService w svc).2.deeds =
    if (Orchestrator.adopts w svc.name s.clock).1 then s.deeds
    else .invoked svc s.processes s.checked.1 s.checked.2 :: s.deeds := by
  unfold Orchestrator.startService
  dsimp only
  split
  · rfl
  · split <;> rename_i run <;> obtain ⟨_, rfl⟩ := Prod.mk.inj run <;> rfl

/-- A restart that was not completed ends the run. -/
theorem deeds_restart (w : World) (svc : Service) (s : Orchestrator) :
    ((s.restart w svc).deeds = .invoked svc s.processes s.checked.1 s.checked.2 :: s.deeds ∧
      (s.restart w svc).halted = true) ∨
    (s.restart w svc).deeds = .restarted svc.name ::
      .invoked svc s.processes s.checked.1 s.checked.2 :: s.deeds := by
  unfold Orchestrator.restart
  split <;> rename_i run <;> obtain ⟨_, rfl⟩ := Prod.mk.inj run
  · exact Or.inl ⟨rfl, rfl⟩
  · exact Or.inr rfl

/-- What an action can make of a state. -/
inductive Move (w : World) (s : Orchestrator) (a : Action) : Orchestrator → Prop
  | idle (t : ℕ) (checked : ℕ × ℕ) (halted : Bool) (later : s.clock ≤ t) :
      Move w s a { s with clock := t, checked := checked, halted := halted }
  | start (svc : Service) (s₁ : Orchestrator) (counts : PyDict String ℕ) (halted : Bool)
      (notCheck : ∀ svc, a ≠ .checkRestart svc) (call : called w s a = some (svc, s₁))
      (counted : counts = (s₁.startService w svc).2.restartCounts ∨
        counts = (s₁.startService w svc).2.restartCounts.setItem svc.name 0) :
      Move w s a { (s₁.startService w svc).2 with restartCounts := counts, halted := halted }
  | dead (svc : Service) (proc : Handle) (check : a = .checkRestart svc)
      (tracked : s.processes.get? svc.name = some proc)
      (ended : (proc.poll w s.clock).1 = false) (many : 10 ≤ s.count svc.name) :
      Move w s a ((s.crash w svc proc).note (.dead svc.name))
  | left (svc : Service) (proc : Handle) (t : ℕ) (checked : ℕ × ℕ) (check : a = .checkRestart svc)
      (tracked : s.processes.get? svc.name = some proc)
      (ended : (proc.poll w s.clock).1 = false) (few : s.count svc.name < 10)
      (uncalled : called w s a = none)
      (later : ((s.crash w svc proc).killFeed w proc).clock ≤ t) :
      Move w s a { (s.crash w svc proc).killFeed w proc with clock := t, checked := checked }
  | restart (svc : Service) (proc : Handle) (s₁ : Orchestrator) (check : a = .checkRestart svc)
      (tracked : s.processes.get? svc.name = some proc)
      (ended : (proc.poll w s.clock).1 = false) (few : s.count svc.name < 10)
      (call : called w s a = some (svc, s₁))
      (up : ((s.crash w svc proc).killFeed w proc).canStart w svc = (true, s₁)) :
      Move w s a (s₁.restart w svc)

/-- Where the check of dependencies fails, nothing is started. -/
theorem called_of_down (check : dependencyCheck w s a = some (svc, s₀))
    (down : (s₀.canStart w svc).1 = false) : called w s a = none := by
  refine Option.eq_none_iff_forall_ne_some.mpr fun ⟨svc', s₁⟩ call => ?_
  rcases called_eq_some.mp call with ⟨rfl, _⟩ | ⟨s', check', up, _⟩
  · cases check
  · obtain ⟨rfl, rfl⟩ := Prod.mk.inj (Option.some.inj (check.symm.trans check'))
    exact Bool.false_ne_true (down.symm.trans up)

/-- Where it succeeds, the service is. -/
theorem called_of_up (check : dependencyCheck w s a = some (svc, s₀))
    (up : (s₀.canStart w svc).1 = true) :
    called w s a = some (svc, (s₀.canStart w svc).2) :=
  called_eq_some.mpr (Or.inr ⟨s₀, check, up, rfl⟩)

/-- A check of dependencies takes time, and nothing else. -/
theorem move_checked (notCheck : ∀ svc, a ≠ .checkRestart svc)
    (check : dependencyCheck w s a = some (svc, s₀)) : Move w s a (s₀.canStart w svc).2 := by
  obtain ⟨t, le, rfl⟩ := later_of_check notCheck check
  exact .idle _ _ s.halted (le.trans (le_dependenciesUp _ _ _))

/-- An action that starts a service once its dependencies are up. -/
theorem move_launch (notCheck : ∀ svc, a ≠ .checkRestart svc)
    (check : dependencyCheck w s a = some (svc, s₀)) : Move w s a (s₀.launch w svc) := by
  unfold Orchestrator.launch
  split
  · rename_i s' answer
    obtain rfl : s' = (s₀.canStart w svc).2 := by rw [answer]
    exact move_checked notCheck check
  · rename_i s' answer
    have call := called_of_up check (by rw [answer])
    rw [answer] at call
    exact .start svc s' _ _ notCheck call (Or.inl rfl)

theorem move_again (check : dependencyCheck w s (.retry svc) = some (svc, s₀)) :
    Move w s (.retry svc) (Orchestrator.retry.again w svc s₀) := by
  unfold Orchestrator.retry.again
  split
  · rename_i s' answer
    obtain rfl : s' = (s₀.canStart w svc).2 := by rw [answer]
    exact move_checked (by simp) check
  · rename_i s' answer
    have call := called_of_up check (by rw [answer])
    rw [answer] at call
    exact .start svc s' _ _ (by simp) call (Or.inr rfl)

theorem count_crash : (s.crash w svc proc).count svc.name = s.count svc.name + 1 := by
  simp [Orchestrator.crash, Orchestrator.setCount, Orchestrator.count]

/-- A service whose process has ended. -/
theorem move_crash (tracked : s.processes.get? svc.name = some proc)
    (ended : (proc.poll w s.clock).1 = false) :
    Move w s (.checkRestart svc) (s.checkRestart w svc proc) := by
  unfold Orchestrator.checkRestart
  dsimp only
  rw [if_neg (by simp [ended]), count_crash]
  split
  · rename_i many
    exact .dead svc proc rfl tracked ended (Nat.le_of_lt_succ many)
  · rename_i counted
    have few : s.count svc.name < 10 := by omega
    split
    · rename_i restarts
      have check : dependencyCheck w s (.checkRestart svc) =
          some (svc, (s.crash w svc proc).killFeed w proc) := by
        simp only [dependencyCheck, tracked]
        rw [if_neg (by simp [ended, counted, restarts])]
      split
      · rename_i s' answer
        have down := called_of_down check (by rw [answer])
        obtain rfl : s' = (((s.crash w svc proc).killFeed w proc).canStart w svc).2 := by
          rw [answer]
        exact .left svc proc _ _ rfl tracked ended few down (le_dependenciesUp _ _ _)
      · rename_i s' answer
        have call := called_of_up check (by rw [answer])
        rw [answer] at call
        exact .restart svc proc s' rfl tracked ended few call answer
    · rename_i stays
      have uncalled : called w s (.checkRestart svc) = none := by
        simp only [called, dependencyCheck, tracked]
        rw [if_pos (Or.inr (Or.inr (Bool.eq_false_of_not_eq_true stays)))]
        rfl
      exact .left svc proc _ _ rfl tracked ended few uncalled (Nat.le_refl _)

/-- What an action does is one of the moves. -/
theorem move_step (running : s.halted = false) : Move w s a (step w s a) := by
  have acts : step w s a = act w s a := if_neg (by simp [running])
  rw [acts]
  cases a with
  | startFirst service =>
      have call : called w s (.startFirst service) = some (service, s) := rfl
      simp only [act]
      split <;> rename_i s' answer <;>
        obtain rfl : s' = (s.startService w service).2 := by rw [answer]
      · exact .start service s _ _ (by simp) call (Or.inl rfl)
      · exact .start service s _ true (by simp) call (Or.inl rfl)
  | awaitHealth =>
      have later : s.clock ≤ (waitForConstitutiond w 30 s.clock).2 :=
        (lt_waitForConstitutiond (by decide)).le
      simp only [act]
      split <;> rename_i t answer <;> rw [answer] at later
      · exact .idle t s.checked s.halted later
      · exact .idle t s.checked true later
  | launch service => exact move_launch (by simp) rfl
  | report => exact .idle _ s.checked s.halted le_report
  | checkRestart service =>
      simp only [act]
      split
      · exact .idle s.clock s.checked s.halted (Nat.le_refl _)
      · rename_i proc tracked
        cases polled : (proc.poll w s.clock).1 with
        | true =>
            unfold Orchestrator.checkRestart
            dsimp only
            rw [if_pos polled]
            exact .idle _ s.checked s.halted (lt_poll proc s.clock).le
        | false => exact move_crash tracked polled
  | heal service =>
      simp only [act]
      split
      · rename_i named
        exact move_launch (by simp) (if_pos named)
      · exact .idle s.clock s.checked s.halted (Nat.le_refl _)
  | retry service =>
      simp only [act, Orchestrator.retry]
      split
      · rename_i untracked
        exact move_again (by simp only [dependencyCheck, untracked])
      · rename_i proc tracked
        split
        · exact .idle _ s.checked s.halted (lt_poll proc s.clock).le
        · rename_i ended
          exact move_again (by simp only [dependencyCheck, tracked, if_neg ended])
  | abort => exact .idle s.clock s.checked true (Nat.le_refl _)

end Move

end CentaurApex.CentaurStart
