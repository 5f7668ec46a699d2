/-
# CentaurStart.Dependencies -- services start on live dependencies, up to the constitution

`_can_start` asks for one dependency after another, and for the constitution it returns what the
probes say: what the table lists after it is never looked at.

* **`_can_start` is right exactly when** (`dependencies_iff`) it is not the case that all before
  the constitution is up, the constitution answers, and a dependency after it is down; and if no
  check of a run is such a case, every runner was invoked on live dependencies.

Satisfiable pole `doomsday_supported`: a round of the first two services.  Refuting pole
`neighbour_down`: `mesh-1` starts although `mesh-0` did not.
-/
import CentaurApex.CentaurStart.Services

namespace CentaurApex.CentaurStart

open CentaurApex.Theory

set_option autoImplicit false

section Running

variable (w : World) (processes : PyDict String Handle)

/-- What a handle stands for runs at a moment. -/
def Handle.Up (moment : ℕ) : Handle → Prop
  | .child pid _ => w.aliveAt pid moment = true
  | .adopted => w.answers moment = true

/-- A dependency runs at some moment of a check that lasts from `since` to `till`. -/
def Running (since till : ℕ) (dep : String) : Prop :=
  ∃ moment, since ≤ moment ∧ moment < till ∧
    if dep = "constitution" then w.answers moment = true
    else ∃ proc, processes.get? dep = some proc ∧ proc.Up w moment

/-- The dependencies are tracked and poll as running, one after another. -/
def PolledUp : List String → ℕ → ℕ → Prop
  | [], t, t' => t' = t
  | dep :: deps, t, t' =>
      ∃ proc, processes.get? dep = some proc ∧ (proc.poll w t).1 = true ∧
        PolledUp deps (proc.poll w t).2 t'

/-- Among the next five probes, the one after `k` others is the first that is answered. -/
def AnswersAfter (t k : ℕ) : Prop :=
  k < 5 ∧ w.answers (t + k) = true ∧ ∀ j < k, w.answers (t + j) = false

/-- All up to the constitution is up, and something that is listed after it is down. -/
def Overlooks (deps : List String) (t : ℕ) : Prop :=
  ∃ earlier later t' k, deps = earlier ++ "constitution" :: later ∧ "constitution" ∉ earlier ∧
    PolledUp w processes earlier t t' ∧ AnswersAfter w t' k ∧
    ∃ dep ∈ later, ¬ Running w processes t (t' + k + 1) dep

end Running

/-- `_can_start(svc)` says yes only if every dependency runs. -/
def Orchestrator.Truthful (w : World) (svc : Service) (s : Orchestrator) : Prop :=
  (s.canStart w svc).1 = true →
    ∀ dep ∈ svc.dependsOn, Running w s.processes s.clock (s.canStart w svc).2.clock dep

/-- Every runner was invoked while the dependencies of its service were running. -/
def Orchestrator.Supported (w : World) (s : Orchestrator) : Prop :=
  ∀ svc processes since till, Deed.invoked svc processes since till ∈ s.deeds →
    ∀ dep ∈ svc.dependsOn, Running w processes since till dep

/-- The service that starts first depends on nothing, and the check that an action makes
overlooks nothing. -/
def Oversees (w : World) (s : Orchestrator) (a : Action) : Prop :=
  (∀ svc, a = .startFirst svc → svc.dependsOn = []) ∧
    ∀ svc s₀, dependencyCheck w s a = some (svc, s₀) →
      ¬ Overlooks w s₀.processes svc.dependsOn s₀.clock

section Check

variable {w : World} {processes : PyDict String Handle} {s : Orchestrator} {svc : Service}

/-- The wait ends with the first probe that is answered. -/
theorem waitForConstitutiond_eq {timeout t t' : ℕ} :
    waitForConstitutiond w timeout t = (true, t') ↔ ∃ k < timeout, w.answers (t + k) = true ∧
      (∀ j < k, w.answers (t + j) = false) ∧ t' = t + k + 1 := by
  induction timeout generalizing t with
  | zero => simp [waitForConstitutiond]
  | succ timeout ih =>
      unfold waitForConstitutiond
      split
      · rename_i answered
        constructor
        · intro ends
          exact ⟨0, Nat.succ_pos _, answered, by simp, (Prod.mk.inj ends).2.symm⟩
        · rintro ⟨k, _, _, first, rfl⟩
          rcases Nat.eq_zero_or_pos k with rfl | positive
          · rfl
          · exact absurd answered (by simp [show w.answers t = false from first 0 positive])
      · rename_i silent
        rw [ih]
        constructor
        · rintro ⟨k, lt, answered, first, rfl⟩
          refine ⟨k + 1, Nat.succ_lt_succ lt, ?_, fun j before => ?_, by omega⟩
          · rwa [show t + (k + 1) = t + 1 + k by omega]
          · rcases j with _ | j
            · exact Bool.eq_false_of_not_eq_true silent
            · rw [show t + (j + 1) = t + 1 + j by omega]
              exact first j (Nat.lt_of_succ_lt_succ before)
        · rintro ⟨k, lt, answered, first, rfl⟩
          rcases k with _ | k
          · exact absurd answered silent
          · refine ⟨k, Nat.lt_of_succ_lt_succ lt, ?_, fun j before => ?_, by omega⟩
            · rwa [show t + 1 + k = t + (k + 1) by omega]
            · rw [show t + 1 + j = t + (j + 1) by omega]
              exact first (j + 1) (Nat.succ_lt_succ before)

theorem waitForConstitutiond_of_true {timeout t : ℕ}
    (answered : (waitForConstitutiond w timeout t).1 = true) :
    ∃ k < timeout, w.answers (t + k) = true ∧ (∀ j < k, w.answers (t + j) = false) ∧
      (waitForConstitutiond w timeout t).2 = t + k + 1 := by
  have eq : waitForConstitutiond w timeout t = (true, (waitForConstitutiond w timeout t).2) :=
    Prod.ext answered rfl
  exact waitForConstitutiond_eq.mp eq

theorem up_of_poll {proc : Handle} {t : ℕ} (polled : (proc.poll w t).1 = true) :
    ∃ moment, t ≤ moment ∧ moment < (proc.poll w t).2 ∧ proc.Up w moment := by
  cases proc with
  | child pid feed => exact ⟨t, Nat.le_refl t, Nat.lt_succ_self t, polled⟩
  | adopted =>
      obtain ⟨k, _, answered, _, ends⟩ := waitForConstitutiond_of_true polled
      exact ⟨t + k, Nat.le_add_right t k, Nat.lt_of_lt_of_eq (Nat.lt_succ_self _) ends.symm,
        answered⟩

theorem Running.mono {since since' till till' : ℕ} {dep : String} (earlier : since' ≤ since)
    (later : till ≤ till') (running : Running w processes since till dep) :
    Running w processes since' till' dep := by
  obtain ⟨moment, after, before, up⟩ := running
  exact ⟨moment, earlier.trans after, before.trans_le later, up⟩

theorem PolledUp.le {deps : List String} {t t' : ℕ} (polled : PolledUp w processes deps t t') :
    t ≤ t' := by
  induction deps generalizing t with
  | nil => exact (show t' = t from polled).ge
  | cons dep deps ih =>
      obtain ⟨proc, _, _, rest⟩ := polled
      exact (lt_poll proc t).le.trans (ih rest)

/-- What polls as running is running. -/
theorem PolledUp.running {deps : List String} {t t' : ℕ} (others : "constitution" ∉ deps)
    (polled : PolledUp w processes deps t t') :
    ∀ dep ∈ deps, Running w processes t t' dep := by
  induction deps generalizing t with
  | nil => simp
  | cons dep deps ih =>
      obtain ⟨proc, tracked, up, rest⟩ := polled
      obtain ⟨other, others⟩ := List.ne_and_not_mem_of_not_mem_cons others
      intro dep' member
      rcases List.mem_cons.mp member with rfl | later
      · obtain ⟨moment, after, before, runs⟩ := up_of_poll up
        exact ⟨moment, after, before.trans_le rest.le, by
          rw [if_neg other.symm]
          exact ⟨proc, tracked, runs⟩⟩
      · exact (ih others rest dep' later).mono (lt_poll proc t).le (Nat.le_refl _)

/-- Dependencies that poll as running are passed over. -/
theorem PolledUp.pass {earlier : List String} {t t' : ℕ} (others : "constitution" ∉ earlier)
    (polled : PolledUp w processes earlier t t') (later : List String) :
    dependenciesUp w processes (earlier ++ later) t = dependenciesUp w processes later t' := by
  induction earlier generalizing t with
  | nil =>
      obtain rfl : t' = t := polled
      rfl
  | cons dep deps ih =>
      obtain ⟨proc, tracked, up, rest⟩ := polled
      obtain ⟨other, others⟩ := List.ne_and_not_mem_of_not_mem_cons others
      rw [List.cons_append, dependenciesUp, if_neg other.symm, tracked]
      dsimp only
      rw [if_pos up, ih others rest]

/-- What a check says yes to polled as running. -/
theorem polledUp_of_dependenciesUp {earlier later : List String} {t : ℕ}
    (others : "constitution" ∉ earlier)
    (up : (dependenciesUp w processes (earlier ++ later) t).1 = true) :
    ∃ t', PolledUp w processes earlier t t' := by
  induction earlier generalizing t with
  | nil => exact ⟨t, rfl⟩
  | cons dep deps ih =>
      obtain ⟨other, others⟩ := List.ne_and_not_mem_of_not_mem_cons others
      rw [List.cons_append, dependenciesUp, if_neg other.symm] at up
      split at up
      · cases up
      · rename_i proc tracked
        dsimp only at up
        split at up
        · rename_i polled
          obtain ⟨t', rest⟩ := ih others up
          exact ⟨t', proc, tracked, polled, rest⟩
        · cases up

/-- A check that says yes and overlooks nothing has seen every dependency run. -/
theorem running_of_up {deps : List String} {t : ℕ} (sees : ¬ Overlooks w processes deps t)
    (up : (dependenciesUp w processes deps t).1 = true) :
    ∀ dep ∈ deps, Running w processes t (dependenciesUp w processes deps t).2 dep := by
  by_cases listed : "constitution" ∈ deps
  · obtain ⟨earlier, later, rfl, others⟩ := List.eq_append_cons_of_mem listed
    obtain ⟨t', polled⟩ := polledUp_of_dependenciesUp others up
    rw [polled.pass others, dependenciesUp, if_pos rfl] at up ⊢
    obtain ⟨k, lt, answered, first, ends⟩ := waitForConstitutiond_of_true up
    rw [ends]
    intro dep member
    rcases List.mem_append.mp member with before | after
    · exact (polled.running others dep before).mono (Nat.le_refl t) (by omega)
    · rcases List.mem_cons.mp after with rfl | after
      · exact ⟨t' + k, polled.le.trans (Nat.le_add_right t' k), Nat.lt_succ_self _, by
          rwa [if_pos rfl]⟩
      · by_contra down
        exact sees ⟨earlier, later, t', k, rfl, others, polled, ⟨lt, answered, first⟩, dep, after,
          down⟩
  · rw [← List.append_nil deps] at up
    obtain ⟨t', polled⟩ := polledUp_of_dependenciesUp listed up
    have ends : dependenciesUp w processes deps t = (true, t') := by
      rw [← List.append_nil deps, polled.pass listed]
      rfl
    rw [ends]
    exact polled.running listed

theorem truthful_iff : s.Truthful w svc ↔ ¬ Overlooks w s.processes svc.dependsOn s.clock := by
  constructor
  · rintro truthful ⟨earlier, later, t', k, deps, others, polled, ⟨lt, answered, first⟩, dep,
      after, down⟩
    have up : dependenciesUp w s.processes svc.dependsOn s.clock = (true, t' + k + 1) := by
      rw [deps, polled.pass others, dependenciesUp, if_pos rfl]
      exact waitForConstitutiond_eq.mpr ⟨k, lt, answered, first, rfl⟩
    have runs := truthful (congrArg Prod.fst up) dep
      (by rw [deps]; exact List.mem_append_right _ (List.mem_cons_of_mem _ after))
    rw [show (s.canStart w svc).2.clock = t' + k + 1 from congrArg Prod.snd up] at runs
    exact down runs
  · intro sees up
    exact running_of_up sees up

end Check

section Record

variable {w : World} {s s₁ : Orchestrator} {svc : Service} {a : Action}

/-- Where nothing is overlooked, a service is started on live dependencies. -/
theorem called_running (sees : Oversees w s a) (call : called w s a = some (svc, s₁)) :
    ∀ dep ∈ svc.dependsOn, Running w s₁.processes s₁.checked.1 s₁.checked.2 dep := by
  rcases called_eq_some.mp call with ⟨first, _⟩ | ⟨s₀, check, up, rfl⟩
  · rw [sees.1 svc first]
    simp
  · exact running_of_up (sees.2 svc s₀ check) up

/-- An action that overlooks nothing invokes runners on live dependencies only. -/
theorem supported_step (sees : Oversees w s a) (supported : s.Supported w) :
    (step w s a).Supported w := by
  cases ended : s.halted with
  | true => rwa [step, if_pos ended]
  | false =>
      have started {svc : Service} {s₁ : Orchestrator} (call : called w s a = some (svc, s₁))
          {svc' : Service} {processes : PyDict String Handle} {since till : ℕ}
          (member : Deed.invoked svc' processes since till ∈
            .invoked svc s₁.processes s₁.checked.1 s₁.checked.2 :: s₁.deeds) :
          ∀ dep ∈ svc'.dependsOn, Running w processes since till dep := by
        rcases List.mem_cons.mp member with new | old
        · obtain ⟨rfl, rfl, rfl, rfl⟩ := Deed.invoked.inj new
          exact called_running sees call
        · rw [(kept_called call).deeds] at old
          exact supported _ _ _ _ old
      generalize made : step w s a = s'
      have move : Move w s a s' := made ▸ move_step ended
      intro svc' processes since till member
      cases move with
      | idle => exact supported _ _ _ _ member
      | start svc s₁ counts halted _ call _ =>
          refine started call ?_
          have recorded := member
          rw [deeds_startService] at recorded
          split at recorded
          · exact List.mem_cons_of_mem _ recorded
          · exact recorded
      | dead svc proc =>
          rcases List.mem_cons.mp member with new | old
          · cases new
          · exact supported _ _ _ _ old
      | left svc proc =>
          exact supported _ _ _ _ ((kept_crash (w := w) (s := s)).deeds ▸ member)
      | restart svc proc s₁ _ _ _ _ call _ =>
          rcases deeds_restart w svc s₁ with ⟨eq, _⟩ | eq <;>
            rw [eq] at member
          · exact started call member
          · rcases List.mem_cons.mp member with new | old
            · cases new
            · exact started call old

end Record

/-- **`_can_start` says yes on live dependencies only, exactly when** it overlooks nothing; **and
no runner of a run** in which no check overlooks anything was invoked while a dependency was
down. -/
theorem dependencies_iff (w : World) :
    (∀ (svc : Service) (s : Orchestrator),
      s.Truthful w svc ↔ ¬ Overlooks w s.processes svc.dependsOn s.clock) ∧
    ∀ (table : List Service) (scans : ℕ → LogScan) (rounds done : ℕ),
      (∀ e ∈ history w table scans rounds done, Oversees w e.before e.input) →
        (reached w table scans rounds done).Supported w := by
  refine ⟨fun svc s => truthful_iff, fun table scans rounds done sees => ?_⟩
  apply (machine w).run_invariant_of_events (P := fun s => s.Supported w)
    (Q := fun e => Oversees w e.before e.input)
  · exact fun s a oversees => supported_step oversees
  · intro svc processes since till member
    cases member
  · exact sees

/-- A list that nothing follows the constitution in is looked at to its end. -/
theorem not_overlooks {w : World} {processes : PyDict String Handle} {deps : List String} {t : ℕ}
    (last : deps = [] ∨ deps = ["constitution"]) : ¬ Overlooks w processes deps t := by
  rintro ⟨earlier, later, _, _, split, _, _, _, dep, after, _⟩
  have counted := congrArg List.length split
  rw [List.length_append, List.length_cons] at counted
  have many := List.length_pos_of_mem after
  rcases last with rfl | rfl <;>
  · simp only [List.length_nil, List.length_singleton] at counted
    omega

theorem oversees_of_last {w : World} {s : Orchestrator} {a : Action}
    (first : ∀ svc, a = .startFirst svc → svc.dependsOn = [])
    (last : ∀ svc s₀, dependencyCheck w s a = some (svc, s₀) →
      svc.dependsOn = [] ∨ svc.dependsOn = ["constitution"]) : Oversees w s a :=
  ⟨first, fun svc s₀ check => not_overlooks (last svc s₀ check)⟩

theorem dependencyCheck_checkRestart {w : World} {s s₀ : Orchestrator} {svc svc' : Service}
    (check : dependencyCheck w s (.checkRestart svc) = some (svc', s₀)) : svc' = svc := by
  unfold dependencyCheck at check
  dsimp only at check
  split at check
  · cases check
  · split at check
    · cases check
    · cases check
      rfl

/-- The constitution answers late enough not to be adopted, and every `Popen` succeeds. -/
def allUp : World := ⟨fun _ => none, fun t => decide (2 < t), fun _ => true⟩

def constitutionOnly : Service := ⟨"constitution", .single, true, []⟩

/-- `doomsday`, which depends on the constitution -/
def doomsday : Service := ⟨"doomsday", .single, true, ["constitution"]⟩

/-- The run of the two until the switch has been looked at. -/
theorem firstTwo_actions : actions [constitutionOnly, doomsday] (fun _ => cleanScan) 1 6 =
    [.startFirst constitutionOnly, .awaitHealth, .launch doomsday, .report,
      .checkRestart constitutionOnly, .checkRestart doomsday] := rfl

theorem firstTwo_oversees (s : Orchestrator) :
    ∀ a ∈ actions [constitutionOnly, doomsday] (fun _ => cleanScan) 1 6, Oversees allUp s a := by
  have restart {svc : Service} (last : svc.dependsOn = [] ∨ svc.dependsOn = ["constitution"]) :
      Oversees allUp s (.checkRestart svc) :=
    oversees_of_last (by rintro _ ⟨⟩) fun _ _ check => dependencyCheck_checkRestart check ▸ last
  rw [firstTwo_actions]
  simp only [List.forall_mem_cons, List.not_mem_nil, false_implies, implies_true, and_true]
  refine ⟨?start, ?wait, ?launch, ?report, restart (.inl rfl), restart (.inr rfl)⟩
  case start => exact oversees_of_last (by rintro _ ⟨⟩; rfl) (by rintro _ _ ⟨⟩)
  case wait => exact oversees_of_last (by rintro _ ⟨⟩) (by rintro _ _ ⟨⟩)
  case launch => exact oversees_of_last (by rintro _ ⟨⟩) (by rintro _ _ ⟨⟩; exact .inr rfl)
  case report => exact oversees_of_last (by rintro _ ⟨⟩) (by rintro _ _ ⟨⟩)

/-- Satisfiable pole: in a round of these two no check overlooks anything, and the switch was
started while the constitution ran. -/
theorem doomsday_supported :
    Deed.invoked doomsday
        (reached allUp [constitutionOnly, doomsday] (fun _ => cleanScan) 1 2).processes 4 5 ∈
      (reached allUp [constitutionOnly, doomsday] (fun _ => cleanScan) 1 6).deeds ∧
    (reached allUp [constitutionOnly, doomsday] (fun _ => cleanScan) 1 6).Supported allUp := by
  refine ⟨by decide +kernel, (dependencies_iff allUp).2 _ _ _ _ fun e member => ?_⟩
  obtain ⟨-, sees, -⟩ := (machine allUp).trace_invariant_of (P := fun _ => True)
    (Q := fun a => ∀ s, Oversees allUp s a) (fun _ _ _ _ => trivial) trivial
    (fun a listed s => firstTwo_oversees s a listed) e member
  exact sees e.before

/-- The constitution answers late enough not to be adopted, and the `Popen` of `mesh-0` fails. -/
def noNeighbour : World := ⟨fun _ => none, fun t => decide (2 < t), fun t => decide (t ≠ 10)⟩

/-- `mesh-1`, which depends on the constitution and on `mesh-0` -/
def meshOne : Service := ⟨"mesh-1", .single, true, ["constitution", "mesh-0"]⟩

/-- `mesh-0` did not start, `_can_start` says yes to `mesh-1`, and its runner is invoked. -/
theorem neighbour_down :
    ¬ (reached noNeighbour services (fun _ => cleanScan) 0 5).Truthful noNeighbour meshOne ∧
    ¬ (reached noNeighbour services (fun _ => cleanScan) 0 6).Supported noNeighbour := by
  have untracked (since till : ℕ) (processes : PyDict String Handle)
      (absent : processes.get? "mesh-0" = none) :
      ¬ Running noNeighbour processes since till "mesh-0" := by
    rintro ⟨moment, _, _, up⟩
    rw [if_neg (by decide)] at up
    obtain ⟨proc, tracked, _⟩ := up
    cases absent.symm.trans tracked
  constructor
  · intro truthful
    exact untracked _ _ _ (by decide +kernel) (truthful (by decide +kernel) "mesh-0" (by decide))
  · intro supported
    have invoked : Deed.invoked meshOne
        (reached noNeighbour services (fun _ => cleanScan) 0 5).processes 11 12 ∈
        (reached noNeighbour services (fun _ => cleanScan) 0 6).deeds := by decide +kernel
    exact untracked _ _ _ (by decide +kernel) (supported _ _ _ _ invoked "mesh-0" (by decide))

end CentaurApex.CentaurStart
