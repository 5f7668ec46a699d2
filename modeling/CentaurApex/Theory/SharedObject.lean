/-
# Theory.SharedObject -- threads that share one object under a lock

An object is a `Machine`.  Any number of threads share it: a thread goes its own way on
what the outside gives it (`own`), and now and then has a question for the object
(`asks`), for which it takes the lock, asks, and goes on with the answer (`told`).  The
outside chooses who moves: every list of `Act`s is a schedule.

Two facts take such a system apart.

* `object_run`: the object and the answers are those of one sequential
  run, over the questions in the order the lock was given;
* `threads_run`: a thread is where it would be had it run alone, on what it was given
  and the answers it was told (`Thread.alone`), and has asked what it would have asked.

`asker_served` is progress: a thread that asks is answered after at most three acts of
the lock, whatever the other threads wait for.
-/
import Mathlib.Logic.Function.Basic
import CentaurApex.Theory.Machine

namespace CentaurApex.Theory

set_option autoImplicit false

/-- One thread: its own steps, the question it has, and what it makes of the answer. -/
structure Thread (τ α ι ο : Type) where
  own : τ → α → τ
  asks : τ → Option ι
  told : τ → ο → τ

/-- A call on the object: who made it, what was asked, what was answered. -/
structure Asked (κ ι ο : Type) where
  caller : κ
  asked : ι
  told : ο

/-- The object, the thread that holds the lock, and the threads. -/
structure Shared (κ σ τ : Type) where
  object : σ
  holder : Option κ
  threads : κ → τ

inductive Act (κ α : Type) where
  | own (k : κ) (a : α)
  | lock (k : κ)
  | call (k : κ)
  deriving DecidableEq, Repr

namespace Act

variable {κ α : Type}

/-- An act of the lock: nothing from outside. -/
def isLocking : Act κ α → Bool
  | own _ _ => false
  | _ => true

end Act

section Shared

variable {κ σ τ α ι ο : Type} [DecidableEq κ]
  (object : Machine σ ι ο) (thread : Thread τ α ι ο)

/-- The lock is taken by a thread that asks, when it is free; its holder asks and gives
it back. -/
def sharing : Machine (Shared κ σ τ) (Act κ α) (Option (Asked κ ι ο)) where
  step s
    | .own k a =>
        (none, { s with threads := Function.update s.threads k (thread.own (s.threads k) a) })
    | .lock k =>
        if s.holder = none ∧ (thread.asks (s.threads k)).isSome then
          (none, { s with holder := some k })
        else (none, s)
    | .call k =>
        match s.holder == some k, thread.asks (s.threads k) with
        | true, some asked =>
            let answer := object.step s.object asked
            (some ⟨k, asked, answer.1⟩,
              { object := answer.2
                holder := none
                threads := Function.update s.threads k (thread.told (s.threads k) answer.1) })
        | _, _ => (none, s)

/-- A step of the system as it happened. -/
abbrev SharedEvent (κ σ τ α ι ο : Type) : Type :=
  Event (Shared κ σ τ) (Act κ α) (Option (Asked κ ι ο))

/-- The calls of a run, in order. -/
def calls (events : List (SharedEvent κ σ τ α ι ο)) : List (Asked κ ι ο) :=
  events.flatMap fun e => e.reply.toList

/-- The calls of one thread. -/
def callsOf (k : κ) (history : List (Asked κ ι ο)) : List (Asked κ ι ο) :=
  history.filter fun call => call.caller = k

/-! ## One step -/

/-- What a step can do: a thread's own step, a call, or nothing that a thread or the
object can tell. -/
theorem sharing_cases (s : Shared κ σ τ) (act : Act κ α) :
    (∃ k a, act = .own k a ∧ (sharing object thread).step s act =
        (none, { s with threads := Function.update s.threads k (thread.own (s.threads k) a) })) ∨
    (∃ k asked, act = .call k ∧ s.holder = some k ∧ thread.asks (s.threads k) = some asked ∧
      (sharing object thread).step s act = (some ⟨k, asked, (object.step s.object asked).1⟩,
        { object := (object.step s.object asked).2
          holder := none
          threads := Function.update s.threads k
            (thread.told (s.threads k) (object.step s.object asked).1) })) ∨
    (act.isLocking = true ∧
      ∃ holder, (sharing object thread).step s act = (none, { s with holder })) := by
  cases act with
  | own k a => exact .inl ⟨k, a, rfl, rfl⟩
  | lock k =>
      right; right
      refine ⟨rfl, ?_⟩
      simp only [sharing]
      split
      · exact ⟨some k, rfl⟩
      · exact ⟨s.holder, rfl⟩
  | call k =>
      right
      simp only [sharing]
      split
      · rename_i asked holds asking
        exact .inl ⟨k, asked, rfl, by simpa using holds, asking, rfl⟩
      · exact .inr ⟨rfl, s.holder, rfl⟩

/-! ## The object -/

/-- A step moves the object by the call it makes, if it makes one. -/
theorem object_step (s : Shared κ σ τ) (act : Act κ α) :
    ((sharing object thread).step s act).2.object = object.run s.object
        (((sharing object thread).step s act).1.toList.map Asked.asked) ∧
      ((sharing object thread).step s act).1.toList.map Asked.told = (object.trace s.object
        (((sharing object thread).step s act).1.toList.map Asked.asked)).map Event.reply := by
  rcases sharing_cases object thread s act with
    ⟨k, a, _, step⟩ | ⟨k, asked, _, _, _, step⟩ | ⟨_, holder, step⟩ <;>
  · rw [step]
    exact ⟨rfl, rfl⟩

/-- **One order of calls**: the object is where the calls, in the order of the lock, take
it; and every answer is the one the object gives in that order. -/
theorem object_run (acts : List (Act κ α)) (s : Shared κ σ τ) :
    ((sharing object thread).run s acts).object = object.run s.object
        ((calls ((sharing object thread).trace s acts)).map Asked.asked) ∧
      (calls ((sharing object thread).trace s acts)).map Asked.told = (object.trace s.object
        ((calls ((sharing object thread).trace s acts)).map Asked.asked)).map Event.reply := by
  induction acts generalizing s with
  | nil => exact ⟨rfl, rfl⟩
  | cons act acts ih =>
      obtain ⟨moved, answered⟩ := object_step object thread s act
      obtain ⟨after, answers⟩ := ih ((sharing object thread).step s act).2
      rw [moved] at after answers
      simp only [calls, Machine.run, Machine.trace, Machine.event, List.flatMap_cons,
        List.map_append, object.run_append, object.trace_append] at after answers ⊢
      exact ⟨after, by rw [answered, answers]⟩

/-! ## A thread on its own -/

/-- A thread that runs alone, on what it is given and the answers to what it asks. -/
def Thread.alone : Machine τ (α ⊕ ο) (Option (ι × ο)) where
  step t
    | .inl a => (none, thread.own t a)
    | .inr answer =>
        match thread.asks t with
        | some asked => (some (asked, answer), thread.told t answer)
        | none => (none, t)

/-- The questions of a run on its own, each with its answer. -/
def exchanges (events : List (Event τ (α ⊕ ο) (Option (ι × ο)))) : List (ι × ο) :=
  events.flatMap fun e => e.reply.toList

def Asked.exchange (call : Asked κ ι ο) : ι × ο := (call.asked, call.told)

/-- What one thread sees of a step. -/
def SharedEvent.seenBy (k : κ) (e : SharedEvent κ σ τ α ι ο) : List (α ⊕ ο) :=
  match e.input, e.reply with
  | .own j a, _ => if j = k then [.inl a] else []
  | _, some call => if call.caller = k then [.inr call.told] else []
  | _, none => []

/-- What one thread sees of a run. -/
def seenBy (k : κ) (events : List (SharedEvent κ σ τ α ι ο)) : List (α ⊕ ο) :=
  events.flatMap (SharedEvent.seenBy k)

/-- Of a step, a thread sees its own step or the answer to its own call, and nothing of
what the others do. -/
theorem thread_step (k : κ) (s : Shared κ σ τ) (act : Act κ α) :
    let e : SharedEvent κ σ τ α ι ο := (sharing object thread).event s act
    e.after.threads k = thread.alone.run (s.threads k) (e.seenBy k) ∧
      (callsOf k e.reply.toList).map Asked.exchange =
        exchanges (thread.alone.trace (s.threads k) (e.seenBy k)) := by
  dsimp only [Machine.event]
  rcases sharing_cases object thread s act with
    ⟨j, a, rfl, step⟩ | ⟨j, asked, rfl, _, asking, step⟩ | ⟨locks, holder, step⟩
  · rw [step]
    by_cases same : j = k
    · subst same
      simp [SharedEvent.seenBy, callsOf, exchanges, Machine.run, Machine.trace, Machine.event,
        Thread.alone]
    · simp [SharedEvent.seenBy, callsOf, exchanges, Machine.run, Machine.trace, same,
        Function.update_of_ne (Ne.symm same)]
  · rw [step]
    by_cases same : j = k
    · subst same
      simp [SharedEvent.seenBy, callsOf, exchanges, Asked.exchange, Machine.run, Machine.trace,
        Machine.event, Thread.alone, asking]
    · simp [SharedEvent.seenBy, callsOf, exchanges, Machine.run, Machine.trace, same,
        Function.update_of_ne (Ne.symm same)]
  · rw [step]
    cases act with
    | own j a => cases locks
    | lock j => exact ⟨rfl, rfl⟩
    | call j => exact ⟨rfl, rfl⟩

/-- **A thread cannot tell that it is not alone**: where it is, and what it has asked, it
owes to what it was given and the answers it was told. -/
theorem threads_run (k : κ) (acts : List (Act κ α)) (s : Shared κ σ τ) :
    let events := (sharing object thread).trace s acts
    ((sharing object thread).run s acts).threads k =
        thread.alone.run (s.threads k) (seenBy k events) ∧
      (callsOf k (calls events)).map Asked.exchange =
        exchanges (thread.alone.trace (s.threads k) (seenBy k events)) := by
  induction acts generalizing s with
  | nil => exact ⟨rfl, rfl⟩
  | cons act acts ih =>
      obtain ⟨here, asked⟩ := thread_step object thread k s act
      obtain ⟨there, askedThere⟩ := ih ((sharing object thread).step s act).2
      dsimp only [Machine.event] at here asked
      rw [here] at there askedThere
      simp only [calls, callsOf, seenBy, exchanges, Machine.run, Machine.trace, Machine.event,
        List.flatMap_cons, List.filter_append, List.map_append, thread.alone.run_append,
        thread.alone.trace_append, List.flatMap_append] at there asked askedThere ⊢
      exact ⟨there, by rw [asked, askedThere]⟩

/-! ## Progress -/

/-- Only a thread that asks holds the lock. -/
def HolderAsks (s : Shared κ σ τ) : Prop :=
  ∀ k, s.holder = some k → (thread.asks (s.threads k)).isSome

/-- A thread that waits for the lock keeps its question. -/
def Thread.Waits : Prop :=
  ∀ t a, (thread.asks t).isSome → thread.asks (thread.own t a) = thread.asks t

variable {thread}

theorem holderAsks_step (waits : thread.Waits) (s : Shared κ σ τ) (act : Act κ α)
    (asks : HolderAsks thread s) : HolderAsks thread ((sharing object thread).step s act).2 := by
  intro k holds
  cases act with
  | own j a =>
      have before := asks k holds
      simp only [sharing]
      by_cases same : k = j
      · subst same
        rw [Function.update_self, waits _ _ before]
        exact before
      · rw [Function.update_of_ne same]
        exact before
  | lock j =>
      simp only [sharing] at holds ⊢
      split at holds
      · rename_i free
        rw [if_pos free]
        obtain rfl := Option.some.inj holds
        exact free.2
      · rename_i taken
        rw [if_neg taken]
        exact asks k holds
  | call j =>
      rcases sharing_cases object thread s (.call j) with
        ⟨_, _, other, _⟩ | ⟨_, _, _, _, _, step⟩ | ⟨_, holder, step⟩
      · cases other
      · rw [step] at holds
        cases holds
      · simp only [sharing] at holds ⊢
        split at holds
        · cases holds
        · exact asks k holds

theorem holderAsks_run (waits : thread.Waits) {s : Shared κ σ τ} (asks : HolderAsks thread s)
    (acts : List (Act κ α)) : HolderAsks thread ((sharing object thread).run s acts) :=
  (sharing object thread).run_invariant (holderAsks_step object waits) asks acts

/-- The step of a call that can be made. -/
theorem call_step {s : Shared κ σ τ} {k : κ} {asked : ι} (holds : s.holder = some k)
    (asking : thread.asks (s.threads k) = some asked) :
    (sharing object thread).step s (.call k) = (some ⟨k, asked, (object.step s.object asked).1⟩,
      { object := (object.step s.object asked).2
        holder := none
        threads := Function.update s.threads k
          (thread.told (s.threads k) (object.step s.object asked).1) }) := by
  simp only [sharing, holds, asking, beq_self_eq_true]

/-- With the lock free, a thread that asks is answered in two acts of its own. -/
theorem lock_call {s : Shared κ σ τ} {k : κ} {asked : ι} (free : s.holder = none)
    (asking : thread.asks (s.threads k) = some asked) :
    (calls ((sharing object thread).trace s [.lock k, .call k])).getLast? =
      some ⟨k, asked, (object.step s.object asked).1⟩ := by
  have locked : (sharing object thread).step s (.lock k) = (none, { s with holder := some k }) := by
    simp only [sharing, free, asking, Option.isSome_some, and_self, if_true]
  simp only [Machine.trace, Machine.event, locked, calls, List.flatMap_cons, List.flatMap_nil,
    Option.toList_none, List.nil_append, List.append_nil]
  have answered := call_step (s := { s with holder := some k }) object rfl asking
  exact congrArg (fun step => step.1.toList.getLast?) answered

/-- **Nobody waits for another's input**: whatever the threads wait for outside, one that
asks is answered after at most three acts of the lock. -/
theorem asker_served {s : Shared κ σ τ} (asks : HolderAsks thread s) {k : κ} {asked : ι}
    (asking : thread.asks (s.threads k) = some asked) :
    ∃ acts : List (Act κ α), acts.length ≤ 3 ∧ (∀ act ∈ acts, act.isLocking = true) ∧
      ∃ answer, (calls ((sharing object thread).trace s acts)).getLast? =
        some ⟨k, asked, answer⟩ := by
  cases held : s.holder with
  | none =>
      exact ⟨[.lock k, .call k], by simp, by simp [Act.isLocking], _,
        lock_call object held asking⟩
  | some j =>
      obtain ⟨theirs, asking'⟩ := Option.isSome_iff_exists.mp (asks j held)
      by_cases same : j = k
      · subst same
        refine ⟨[.call j], by simp, by simp [Act.isLocking], (object.step s.object asked).1, ?_⟩
        simp only [Machine.trace, Machine.event, calls, List.flatMap_cons, List.flatMap_nil]
        rw [call_step object held asking]
        rfl
      · -- the holder makes its call first
        have step := call_step object held asking'
        have still : thread.asks (((sharing (α := α) object thread).step s (.call j)).2.threads k) =
            some asked := by
          rw [step]
          exact (congrArg thread.asks (Function.update_of_ne (Ne.symm same) _ _)).trans asking
        have free : ((sharing (α := α) object thread).step s (.call j)).2.holder = none := by
          rw [step]
        have rest := lock_call object free still
        refine ⟨[.call j, .lock k, .call k], by simp, by simp [Act.isLocking],
          (object.step ((sharing (α := α) object thread).step s (.call j)).2.object asked).1, ?_⟩
        rw [calls] at rest
        rw [Machine.trace, calls, List.flatMap_cons, List.getLast?_append, rest]
        rfl

end Shared

end CentaurApex.Theory
