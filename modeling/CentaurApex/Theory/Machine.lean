/-
# Theory.Machine -- deterministic machines with replies, and their runs

A stateful component seen from outside is a `step` from a state and an input to
a reply and the next state.  Everything said about whole runs of such a
component is said here once:

* `run_invariant`, `trace_invariant`: what every step keeps, every run keeps;
  `history_invariant` lets it speak of the events so far as well;
* `run_eq_of_filter_eq`: inputs that change nothing can be left out of a run;
* `lockstep`: states that answer alike, and stay so, answer a whole run alike;
* `run_project`: what can be seen of a machine and is a machine itself, runs with it;
* `run_gains`: two runs come together by what their steps gain;
* `changes` observes a run through `obs` and lists the pairs (before, after) of
  the steps that moved the observation.  It is a path from the first observation
  to the last (`path_changes`), whatever the machine;
* `credit_le`: if a step may lower a rank by at most one, and only when it pays,
  a run from rank `n` to rank `0` paid at least `n` times;
* `length_le_rank`: if every step lowers a rank, a run ends.
-/
import Mathlib.Data.List.Chain
import Mathlib.Tactic.Linarith

namespace CentaurApex.Theory

set_option autoImplicit false

/-- One step of a run: where it started, what it was asked, what it replied. -/
structure Event (σ ι ο : Type) where
  before : σ
  input : ι
  reply : ο
  after : σ

structure Machine (σ ι ο : Type) where
  step : σ → ι → ο × σ

/-! ## Paths: edges that chain from one end to the other -/

section Path

variable {τ : Type}

/-- The edges `es` lead from `a` to `b`, each starting where the last ended. -/
def Path : τ → List (τ × τ) → τ → Prop
  | a, [], b => a = b
  | a, e :: es, b => e.1 = a ∧ Path e.2 es b

theorem Path.append {b c : τ} {fs : List (τ × τ)} (second : Path b fs c) :
    ∀ {es : List (τ × τ)} {a : τ}, Path a es b → Path a (es ++ fs) c
  | [], _, rfl => second
  | _ :: _, _, ⟨start, rest⟩ => ⟨start, Path.append second rest⟩

/-- Consecutive edges of a path chain. -/
theorem Path.chain {b : τ} : ∀ {es : List (τ × τ)} {a : τ}, Path a es b →
    es.IsChain fun e f => e.2 = f.1
  | [], _, _ => .nil
  | [_], _, _ => .singleton _
  | _ :: _ :: _, _, ⟨_, next, rest⟩ => .cons_cons next.symm (Path.chain ⟨next, rest⟩)

/-- The last edge of a path ends at its end. -/
theorem Path.getLast {b : τ} : ∀ {es : List (τ × τ)} {a : τ}, Path a es b →
    ∀ e, es.getLast? = some e → e.2 = b
  | [], _, _, e, last => by simp at last
  | [f], _, ⟨_, finish⟩, e, last => by
      obtain rfl : f = e := by simpa using last
      exact finish
  | _ :: f :: es, _, ⟨_, rest⟩, e, last => Path.getLast rest e (by simpa using last)

end Path

namespace Machine

variable {σ ι ο τ : Type} (M : Machine σ ι ο)

def event (s : σ) (i : ι) : Event σ ι ο :=
  { before := s, input := i, reply := (M.step s i).1, after := (M.step s i).2 }

/-- The state after a list of inputs. -/
def run (s : σ) : List ι → σ
  | [] => s
  | i :: is => run (M.step s i).2 is

/-- The events of a run, in order. -/
def trace (s : σ) : List ι → List (Event σ ι ο)
  | [] => []
  | i :: is => M.event s i :: trace (M.step s i).2 is

/-- `s` can be reached from `s₀`. -/
def Reachable (s₀ s : σ) : Prop := ∃ is, M.run s₀ is = s

theorem trace_append (s : σ) (is js : List ι) :
    M.trace s (is ++ js) = M.trace s is ++ M.trace (M.run s is) js := by
  induction is generalizing s with
  | nil => rfl
  | cons i is ih => simp only [List.cons_append, trace, run, ih]

theorem run_append (s : σ) (is js : List ι) : M.run s (is ++ js) = M.run (M.run s is) js := by
  induction is generalizing s with
  | nil => rfl
  | cons i is ih => simp only [List.cons_append, run, ih]

/-- A split of a trace is a split of the inputs. -/
theorem trace_eq_append {s : σ} {is : List ι} {pre post : List (Event σ ι ο)}
    (split : M.trace s is = pre ++ post) :
    ∃ is₁ is₂, is = is₁ ++ is₂ ∧ M.trace s is₁ = pre ∧ M.trace (M.run s is₁) is₂ = post := by
  induction pre generalizing s is with
  | nil => exact ⟨[], is, rfl, rfl, split⟩
  | cons e pre ih =>
      cases is with
      | nil => simp [trace] at split
      | cons i is =>
          simp only [trace, List.cons_append, List.cons.injEq] at split
          obtain ⟨is₁, is₂, rfl, first, second⟩ := ih split.2
          exact ⟨i :: is₁, is₂, rfl, by rw [trace, split.1, first], second⟩

/-- The event at the head of a trace is the step of its own state and input. -/
theorem trace_eq_cons {s : σ} {is : List ι} {e : Event σ ι ο} {post : List (Event σ ι ο)}
    (split : M.trace s is = e :: post) :
    e = M.event s e.input ∧ ∃ is', is = e.input :: is' ∧ M.trace e.after is' = post := by
  cases is with
  | nil => simp [trace] at split
  | cons i is =>
      simp only [trace, List.cons.injEq] at split
      obtain ⟨rfl, rest⟩ := split
      exact ⟨rfl, is, rfl, rest⟩

/-! ## Invariants -/

section Invariant

variable {P : σ → Prop} (keeps : ∀ s i, P s → P (M.step s i).2)

include keeps

/-- **What every step keeps, every run keeps.** -/
theorem run_invariant {s : σ} (start : P s) (is : List ι) : P (M.run s is) := by
  induction is generalizing s with
  | nil => exact start
  | cons i is ih => exact ih (keeps s i start)

/-- Inputs that change nothing where the invariant holds can be left out of a run. -/
theorem run_filter {keep : ι → Bool} (idle : ∀ s i, P s → keep i = false → (M.step s i).2 = s)
    {s : σ} (start : P s) (is : List ι) : M.run s (is.filter keep) = M.run s is := by
  induction is generalizing s with
  | nil => rfl
  | cons i is ih =>
      cases kept : keep i with
      | true =>
          rw [List.filter_cons_of_pos kept]
          exact ih (keeps s i start)
      | false =>
          rw [List.filter_cons_of_neg (by simp [kept]), run, idle s i start kept]
          exact ih start

/-- **Runs that agree on the inputs that matter** end in the same state. -/
theorem run_eq_of_filter_eq {keep : ι → Bool}
    (idle : ∀ s i, P s → keep i = false → (M.step s i).2 = s) {s : σ} (start : P s)
    {is js : List ι} (same : is.filter keep = js.filter keep) : M.run s is = M.run s js := by
  rw [← M.run_filter keeps idle start is, same, M.run_filter keeps idle start js]

end Invariant

section InputInvariant

variable {P : σ → Prop} {Q : ι → Prop} (keeps : ∀ s i, Q i → P s → P (M.step s i).2)

include keeps

/-- What a step keeps on the inputs that satisfy `Q`, a run of such inputs keeps. -/
theorem run_invariant_of {s : σ} (start : P s) {is : List ι} (inputs : ∀ i ∈ is, Q i) :
    P (M.run s is) := by
  induction is generalizing s with
  | nil => exact start
  | cons i is ih =>
      obtain ⟨first, rest⟩ := List.forall_mem_cons.mp inputs
      exact ih (keeps s i first start) rest

/-- What a step keeps on the inputs that satisfy `Q`, a run of such inputs keeps;
and every event of it is a step from a state satisfying the invariant. -/
theorem trace_invariant_of {s : σ} (start : P s) {is : List ι} (inputs : ∀ i ∈ is, Q i) :
    ∀ e ∈ M.trace s is, P e.before ∧ Q e.input ∧ e = M.event e.before e.input := by
  induction is generalizing s with
  | nil => simp [trace]
  | cons i is ih =>
      obtain ⟨first, rest⟩ := List.forall_mem_cons.mp inputs
      intro e member
      rcases List.mem_cons.mp member with rfl | later
      · exact ⟨start, first, rfl⟩
      · exact ih (keeps s i first start) rest e later

end InputInvariant

section EventInvariant

variable {P : σ → Prop} {Q : Event σ ι ο → Prop}
  (keeps : ∀ s i, Q (M.event s i) → P s → P (M.step s i).2)

include keeps

/-- What a step keeps where its event satisfies `Q`, a run of such events keeps. -/
theorem run_invariant_of_events {s : σ} (start : P s) {is : List ι}
    (events : ∀ e ∈ M.trace s is, Q e) : P (M.run s is) := by
  induction is generalizing s with
  | nil => exact start
  | cons i is ih =>
      obtain ⟨first, rest⟩ := List.forall_mem_cons.mp events
      exact ih (keeps s i first start) rest

end EventInvariant

/-- Every event of a run is a step from a state satisfying the invariant. -/
theorem trace_invariant {P : σ → Prop} (keeps : ∀ s i, P s → P (M.step s i).2) {s : σ}
    (start : P s) (is : List ι) :
    ∀ e ∈ M.trace s is, P e.before ∧ e = M.event e.before e.input := by
  intro e member
  obtain ⟨before, _, eq⟩ := M.trace_invariant_of (P := P) (Q := fun _ => True)
    (fun s i _ => keeps s i) start (fun _ _ => trivial) e member
  exact ⟨before, eq⟩

/-! ## Two runs -/

/-- **Runs in step**: from states that are related, where related states answer every input alike
and stay related, the same inputs get the same answers. -/
theorem lockstep {R : σ → σ → Prop}
    (step : ∀ s t i, R s t → (M.step s i).1 = (M.step t i).1 ∧ R (M.step s i).2 (M.step t i).2)
    {s t : σ} (related : R s t) (is : List ι) :
    (M.trace s is).map Event.reply = (M.trace t is).map Event.reply ∧
      R (M.run s is) (M.run t is) := by
  induction is generalizing s t with
  | nil => exact ⟨rfl, related⟩
  | cons i is ih =>
      obtain ⟨same, next⟩ := step s t i related
      obtain ⟨replies, after⟩ := ih next
      exact ⟨congrArg₂ List.cons same replies, after⟩

section Projection

variable {σ' ι' ο' κ : Type} (N : Machine σ' ι' ο') (see : σ → σ') (ask : ι → ι') (hear : ο → κ)
  (hear' : ο' → κ)

/-- **A view of a machine runs with it**: where each step is, in what can be seen of it, a step of
a second machine, the runs are runs of that machine. -/
theorem run_project {P : σ → Prop} (keeps : ∀ s i, P s → P (M.step s i).2)
    (step : ∀ s i, P s → hear (M.step s i).1 = hear' (N.step (see s) (ask i)).1 ∧
      see (M.step s i).2 = (N.step (see s) (ask i)).2)
    {s : σ} (start : P s) (is : List ι) :
    (M.trace s is).map (fun e => hear e.reply) =
        (N.trace (see s) (is.map ask)).map (fun e => hear' e.reply) ∧
      see (M.run s is) = N.run (see s) (is.map ask) := by
  induction is generalizing s with
  | nil => exact ⟨rfl, rfl⟩
  | cons i is ih =>
      obtain ⟨heard, seen⟩ := step s i start
      obtain ⟨replies, after⟩ := ih (keeps s i start)
      rw [seen] at replies after
      exact ⟨congrArg₂ List.cons heard replies, after⟩

end Projection

section Merging

variable {R : ℕ → σ → σ → Prop} (gain : ο → ℕ)

/-- **Runs that come together**: a relation that gains on every step, by what the reply says,
has gained the sum of it at the end of a run. -/
theorem run_gains
    (step : ∀ n s t i, R n s t → R (n + gain (M.step s i).1) (M.step s i).2 (M.step t i).2)
    {n : ℕ} {s t : σ} (related : R n s t) (is : List ι) :
    R (n + ((M.trace s is).map fun e => gain e.reply).sum) (M.run s is) (M.run t is) := by
  induction is generalizing n s t with
  | nil => exact related
  | cons i is ih =>
      rw [trace, List.map_cons, List.sum_cons, ← add_assoc]
      exact ih (step n s t i related)

end Merging

/-! ## Histories -/

/-- **What every step keeps of a state and the events before it, every run keeps.** -/
theorem history_invariant {P : List (Event σ ι ο) → σ → Prop}
    (keeps : ∀ past s i, P past s → P (past ++ [M.event s i]) (M.step s i).2) {s : σ}
    (start : P [] s) (is : List ι) : P (M.trace s is) (M.run s is) := by
  have from_ : ∀ (is : List ι) (past : List (Event σ ι ο)) (s : σ), P past s →
      P (past ++ M.trace s is) (M.run s is) := by
    intro is
    induction is with
    | nil =>
        intro past s holds
        rw [trace, List.append_nil]
        exact holds
    | cons i is ih =>
        intro past s holds
        have rest := ih _ _ (keeps past s i holds)
        rwa [List.append_assoc, List.singleton_append] at rest
  exact from_ is [] s start

/-- Every event of a run is a step from the state its past leads to. -/
theorem history_split {P : List (Event σ ι ο) → σ → Prop}
    (keeps : ∀ past s i, P past s → P (past ++ [M.event s i]) (M.step s i).2) {s : σ}
    (start : P [] s) {is : List ι} {past later : List (Event σ ι ο)} {e : Event σ ι ο}
    (split : M.trace s is = past ++ e :: later) :
    P past e.before ∧ e = M.event e.before e.input := by
  obtain ⟨first, rest, rfl, before, after⟩ := M.trace_eq_append split
  obtain ⟨step, _⟩ := M.trace_eq_cons after
  have holds := M.history_invariant keeps start first
  have same : e.before = M.run s first := by rw [step]; rfl
  rw [before] at holds
  rw [same]
  exact ⟨holds, step⟩

/-! ## Observed changes -/

section Changes

variable [DecidableEq τ] (obs : σ → τ)

/-- The move of the observation in one step, if it moved. -/
def change (s s' : σ) : List (τ × τ) :=
  if obs s = obs s' then [] else [(obs s, obs s')]

/-- The moves of the observation along a run, in order. -/
def changes (s : σ) : List ι → List (τ × τ)
  | [] => []
  | i :: is => change obs s (M.step s i).2 ++ changes (M.step s i).2 is

theorem path_change (s s' : σ) : Path (obs s) (change obs s s') (obs s') := by
  unfold change
  split
  · assumption
  · exact ⟨rfl, rfl⟩

/-- **The changes of a run lead from its first observation to its last.** -/
theorem path_changes (s : σ) (is : List ι) :
    Path (obs s) (M.changes obs s is) (obs (M.run s is)) := by
  induction is generalizing s with
  | nil => rfl
  | cons i is ih => exact Path.append (ih _) (path_change obs s _)

/-- What holds of every move of a step holds of every change of a run. -/
theorem forall_changes {P : τ × τ → Prop}
    (moved : ∀ s i, obs s ≠ obs (M.step s i).2 → P (obs s, obs (M.step s i).2))
    (s : σ) (is : List ι) : ∀ e ∈ M.changes obs s is, P e := by
  induction is generalizing s with
  | nil => simp [changes]
  | cons i is ih =>
      intro e member
      rcases List.mem_append.mp member with here | later
      · unfold change at here
        split at here
        · simp at here
        · rename_i ne
          rw [List.mem_singleton.mp here]
          exact moved s i ne
      · exact ih _ e later

end Changes

/-! ## Credit -/

/-- **Credit**: a rank that a step lowers by at most one, and only when it pays,
is covered at the end of a run by the payments made along it. -/
theorem credit_le (rank : σ → Nat) (pays : Event σ ι ο → Bool)
    (step_le : ∀ s i, rank s ≤ rank (M.step s i).2 + if pays (M.event s i) then 1 else 0)
    (s : σ) (is : List ι) :
    rank s ≤ rank (M.run s is) + (M.trace s is).countP pays := by
  induction is generalizing s with
  | nil => simp [run]
  | cons i is ih =>
      have first := step_le s i
      have rest := ih (M.step s i).2
      rw [trace, run, List.countP_cons]
      omega

/-- **Rank**: a run whose every step lowers a rank is no longer than the rank it starts from. -/
theorem length_le_rank (rank : σ → Nat) {s : σ} {is : List ι}
    (lowers : ∀ e ∈ M.trace s is, rank e.after < rank e.before) : is.length ≤ rank s := by
  induction is generalizing s with
  | nil => exact Nat.zero_le _
  | cons i is ih =>
      obtain ⟨first, rest⟩ := List.forall_mem_cons.mp lowers
      exact Nat.lt_of_le_of_lt (ih rest) first

end Machine

end CentaurApex.Theory
