/-
# Theory.Files -- files that are written, and writes that fail

A file system (`Files`) has bytes under some paths.  A write replaces the bytes of a file, an
append goes on after them; either may raise, before the file is opened or with a part of the
bytes written (`WriteOutcome`).  What raises leaves the files as they are at that moment: nothing
is undone unless a handler does it.

* `bind_ok_iff`, `catching_ok_iff`: what returns, returned at every step, or was handled.
* `write_ok_iff`, `append_ok_iff`: what a write that returns has done.
-/
import Mathlib.Data.Nat.Notation
import Mathlib.Logic.Function.Basic

namespace CentaurApex.Theory

set_option autoImplicit false

/-- The bytes under each path. -/
def Files (π : Type) : Type := π → Option (List UInt8)

/-- How a write ends. -/
inductive WriteOutcome (ε : Type) where
  | done
  /-- raises before the file is opened, or after so many bytes -/
  | raised (opened : Option ℕ) (e : ε)
  deriving DecidableEq

/-- What works on files, and may raise. -/
def FileM (π ε α : Type) : Type := Files π → Except ε α × Files π

namespace FileM

variable {π ε α β : Type}

instance : Monad (FileM π ε) where
  pure a := fun files => (.ok a, files)
  bind x f := fun files =>
    match x files with
    | (.ok a, files) => f a files
    | (.error e, files) => (.error e, files)

def raise (e : ε) : FileM π ε α := fun files => (.error e, files)

/-- The bytes of a file, if it is there. -/
def lookup (path : π) : FileM π ε (Option (List UInt8)) := fun files => (.ok (files path), files)

/-- `try: x except: handler` -/
def catching (x : FileM π ε α) (handler : ε → FileM π ε α) : FileM π ε α := fun files =>
  match x files with
  | (.ok a, files) => (.ok a, files)
  | (.error e, files) => handler e files

section Write

variable [DecidableEq π]

def put (path : π) (bytes : List UInt8) (files : Files π) : Files π :=
  Function.update files path (some bytes)

/-- The bytes are written over those of the file. -/
def write (path : π) (bytes : List UInt8) : WriteOutcome ε → FileM π ε Unit
  | .done => fun files => (.ok (), put path bytes files)
  | .raised none e => raise e
  | .raised (some n) e => fun files => (.error e, put path (bytes.take n) files)

/-- The bytes are written after those of the file. -/
def append (path : π) (bytes : List UInt8) (outcome : WriteOutcome ε) : FileM π ε Unit :=
  fun files =>
  match outcome with
  | .done => (.ok (), put path ((files path).getD [] ++ bytes) files)
  | .raised none e => (.error e, files)
  | .raised (some n) e => (.error e, put path ((files path).getD [] ++ bytes.take n) files)

end Write

/-! ## What returns -/

variable {files after : Files π}

@[simp] theorem pure_ok_iff {a b : α} :
    (pure a : FileM π ε α) files = (.ok b, after) ↔ a = b ∧ files = after := by
  constructor
  · intro same
    obtain ⟨value, rfl⟩ := Prod.mk.inj same
    exact ⟨Except.ok.inj value, rfl⟩
  · rintro ⟨rfl, rfl⟩
    rfl

@[simp] theorem raise_ok_iff {e : ε} {a : α} :
    (raise e : FileM π ε α) files = (.ok a, after) ↔ False := by
  constructor
  · intro same
    cases same
  · exact False.elim

@[simp] theorem lookup_bind (path : π) (f : Option (List UInt8) → FileM π ε β) :
    (lookup path >>= f) files = f (files path) files := rfl

theorem bind_ok_iff {x : FileM π ε α} {f : α → FileM π ε β} {b : β} :
    (x >>= f) files = (.ok b, after) ↔
      ∃ a between, x files = (.ok a, between) ∧ f a between = (.ok b, after) := by
  show (match x files with
    | (.ok a, files) => f a files
    | (.error e, files) => (.error e, files)) = _ ↔ _
  rcases x files with ⟨e | a, between⟩
  · simp
  · constructor
    · intro returns
      exact ⟨a, between, rfl, returns⟩
    · rintro ⟨_, _, same, returns⟩
      obtain ⟨value, rfl⟩ := Prod.mk.inj same
      obtain rfl := Except.ok.inj value
      exact returns

/-- What returns under a handler returned, or raised and was handled. -/
theorem catching_ok_iff {x : FileM π ε α} {handler : ε → FileM π ε α} {a : α} :
    catching x handler files = (.ok a, after) ↔
      x files = (.ok a, after) ∨
        ∃ e between, x files = (.error e, between) ∧ handler e between = (.ok a, after) := by
  unfold catching
  rcases x files with ⟨e | b, between⟩
  · constructor
    · intro handled
      exact .inr ⟨e, between, rfl, handled⟩
    · rintro (same | ⟨_, _, same, handled⟩)
      · cases same
      · obtain ⟨raised, rfl⟩ := Prod.mk.inj same
        obtain rfl := Except.error.inj raised
        exact handled
  · simp

/-- What raises does not return. -/
theorem exists_error_iff {x : FileM π ε α} :
    (∃ e between, x files = (.error e, between)) ↔ ∀ a between, x files ≠ (.ok a, between) := by
  rcases x files with ⟨e | a, between⟩
  · simp
  · simp

section Write

variable [DecidableEq π] {path : π} {bytes : List UInt8} {outcome : WriteOutcome ε} {u : Unit}

@[simp] theorem put_same : put path bytes files path = some bytes := Function.update_self ..

@[simp] theorem put_of_ne {other : π} (different : other ≠ path) :
    put path bytes files other = files other := Function.update_of_ne different ..

@[simp] theorem put_put {bytes' : List UInt8} :
    put path bytes (put path bytes' files) = put path bytes files := Function.update_idem ..

@[simp] theorem write_ok_iff :
    write path bytes outcome files = (.ok u, after) ↔
      outcome = .done ∧ after = put path bytes files := by
  rcases outcome with _ | ⟨_ | n, e⟩ <;> simp [write, raise, eq_comm]

@[simp] theorem append_ok_iff :
    append path bytes outcome files = (.ok u, after) ↔
      outcome = .done ∧ after = put path ((files path).getD [] ++ bytes) files := by
  rcases outcome with _ | ⟨_ | n, e⟩ <;> simp [append, eq_comm]

end Write

end FileM

end CentaurApex.Theory
