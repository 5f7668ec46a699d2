/-
# Evolution.Staging -- patches that are staged one after another

`stagePatch` writes a patch under a name that is made of its id, and the id is the digest of the
content alone.  The file says for which target the content is; the name does not.

* **No patch is lost, exactly when** (`neverLost_iff`) no two calls stage one content for two
  targets.

Refuting pole `target_overwritten`: one content for `a.py`, then for `b.py`.
-/
import CentaurApex.Evolution.Patches

namespace CentaurApex.Evolution

open CentaurApex.Theory
open CentaurApex.Theory.FileM (put)

set_option autoImplicit false

/-- The arguments of `stage_patch`. -/
structure StageCall where
  target : Text
  content : Text
  reason : Text
  deriving DecidableEq

/-- `f"patch_{patch_id}.diff"` -/
def patchFile (patchId : Text) : Text := "patch_".toList ++ patchId ++ ".diff".toList

section Stage

variable (linesep : Linesep) (sha256 : List UInt8 → List UInt8)

namespace StageCall

variable (call : StageCall)

def staged : StagedPatch := stagePatch sha256 call.target call.content call.reason

def patchId : Text := (call.staged sha256).patchId

/-- What is written of a patch. -/
def bytes : List UInt8 :=
  encode linesep ((call.staged sha256).metadata ++ (call.staged sha256).content)

/-- Two calls stage one content for one target. -/
def Same (other : StageCall) : Prop := call.target = other.target ∧ call.content = other.content

end StageCall

/-- The patches directory after a call; files are under their names. -/
def stage (directory : Files Text) (call : StageCall) : Files Text :=
  put (patchFile (call.patchId sha256)) (call.bytes linesep sha256) directory

/-- The patches directory after some calls. -/
def stageAll (directory : Files Text) (calls : List StageCall) : Files Text :=
  calls.foldl (stage linesep sha256) directory

/-- A file of the directory records the target and the content, for some reason. -/
def Records (directory : Files Text) (target content : Text) : Prop :=
  ∃ name reason, directory name = some (StageCall.bytes linesep sha256 ⟨target, content, reason⟩)

/-- A call that differs from those after it is recorded at the end, and calls that differ return
different ids. -/
def NeverLost (directory : Files Text) (calls : List StageCall) : Prop :=
  (∀ earlier call later, calls = earlier ++ call :: later → (∀ other ∈ later, ¬ call.Same other) →
    Records linesep sha256 (stageAll linesep sha256 directory calls) call.target call.content) ∧
  ∀ a ∈ calls, ∀ b ∈ calls, ¬ a.Same b → a.patchId sha256 ≠ b.patchId sha256

variable {linesep sha256}

theorem patchFile_injective {a b : Text} (same : patchFile a = patchFile b) : a = b := by
  unfold patchFile at same
  exact List.append_cancel_left (List.append_cancel_right same)

/-- The id is the digest of the content. -/
theorem patchId_eq (call : StageCall) :
    call.patchId sha256 = shortDigest (sha256 (utf8 call.content)) := rfl

/-- A call writes its own file only. -/
theorem stage_of_ne {directory : Files Text} {call : StageCall} {patchId : Text}
    (different : call.patchId sha256 ≠ patchId) :
    stage linesep sha256 directory call (patchFile patchId) = directory (patchFile patchId) :=
  FileM.put_of_ne fun same => different (patchFile_injective same).symm

/-- A file stays as long as no call has its id. -/
theorem stageAll_of_ne {calls : List StageCall} {patchId : Text}
    (different : ∀ call ∈ calls, call.patchId sha256 ≠ patchId) (directory : Files Text) :
    stageAll linesep sha256 directory calls (patchFile patchId) = directory (patchFile patchId) := by
  induction calls generalizing directory with
  | nil => rfl
  | cons call calls ih =>
      obtain ⟨first, different⟩ := List.forall_mem_cons.mp different
      exact (ih different _).trans (stage_of_ne first)

/-- The last call with an id leaves its file. -/
theorem stageAll_last {earlier later : List StageCall} {call : StageCall}
    (different : ∀ other ∈ later, other.patchId sha256 ≠ call.patchId sha256)
    (directory : Files Text) :
    stageAll linesep sha256 directory (earlier ++ call :: later)
        (patchFile (call.patchId sha256)) = some (call.bytes linesep sha256) := by
  rw [stageAll, List.foldl_append, List.foldl_cons]
  exact (stageAll_of_ne different _).trans FileM.put_same

/-- **No patch is lost exactly when** no two calls stage one content for two targets, as long as
the digests tell the contents apart. -/
theorem neverLost_iff (linesep : Linesep) (sha256 : List UInt8 → List UInt8)
    (directory : Files Text) (calls : List StageCall)
    (injective : ∀ a ∈ calls, ∀ b ∈ calls, shortDigest (sha256 (utf8 a.content)) =
      shortDigest (sha256 (utf8 b.content)) → a.content = b.content) :
    NeverLost linesep sha256 directory calls ↔
      ∀ a ∈ calls, ∀ b ∈ calls, a.content = b.content → a.target = b.target := by
  constructor
  · intro kept a memberA b memberB content
    by_contra target
    refine kept.2 a memberA b memberB (fun same => target same.1) ?_
    rw [patchId_eq, patchId_eq, content]
  · intro one
    have apart (a b : StageCall) (memberA : a ∈ calls) (memberB : b ∈ calls)
        (different : ¬ a.Same b) : a.patchId sha256 ≠ b.patchId sha256 := by
      intro same
      have content := injective a memberA b memberB same
      exact different ⟨one a memberA b memberB content, content⟩
    refine ⟨fun earlier call later split last => ?_, fun a memberA b memberB => ?_⟩
    · have ids (other : StageCall) (member : other ∈ later) :
          other.patchId sha256 ≠ call.patchId sha256 := by
        refine (apart call other ?_ ?_ (last other member)).symm
        · rw [split]
          exact List.mem_append_right _ List.mem_cons_self
        · rw [split]
          exact List.mem_append_right _ (List.mem_cons_of_mem _ member)
      exact ⟨patchFile (call.patchId sha256), call.reason, split ▸ stageAll_last ids directory⟩
    · exact apart a b memberA memberB

end Stage

/-- The digests of `code_a`, of `code_b` and, for all else, of `pass`. -/
def threeDigests (bytes : List UInt8) : List UInt8 :=
  if bytes = utf8 "code_a".toList then
    [35, 242, 70, 59, 96, 19, 60, 185, 175, 135, 137, 117, 193, 82, 218, 92, 210, 111, 196, 108,
      172, 134, 254, 169, 40, 149, 164, 174, 168, 228, 175, 26]
  else if bytes = utf8 "code_b".toList then
    [220, 12, 98, 178, 194, 8, 0, 187, 66, 193, 25, 164, 51, 71, 99, 142, 140, 253, 53, 205, 170,
      29, 168, 189, 103, 121, 27, 148, 151, 102, 15, 108]
  else
    [215, 79, 240, 238, 141, 163, 185, 128, 107, 24, 200, 119, 219, 242, 155, 189, 229, 11, 91,
      216, 228, 218, 215, 163, 167, 37, 0, 15, 235, 130, 232, 241]

/-- Two contents for one file. -/
theorem two_contents_kept :
    NeverLost .lf threeDigests (fun _ => none) [⟨"f.rs".toList, "code_a".toList, "reason".toList⟩,
      ⟨"f.rs".toList, "code_b".toList, "reason".toList⟩] := by
  refine (neverLost_iff .lf threeDigests _ _ ?_).mpr ?_
  · decide +kernel
  · decide

/-- Refuting pole: what is staged for `a.py` is staged for `b.py`, under the same id. -/
theorem target_overwritten :
    ¬ ∀ (linesep : Linesep) (sha256 : List UInt8 → List UInt8) (directory : Files Text)
      (calls : List StageCall),
      (∀ a ∈ calls, ∀ b ∈ calls, shortDigest (sha256 (utf8 a.content)) =
        shortDigest (sha256 (utf8 b.content)) → a.content = b.content) →
      NeverLost linesep sha256 directory calls := by
  intro always
  have kept := always .lf threeDigests (fun _ => none)
    [⟨"a.py".toList, "pass".toList, []⟩, ⟨"b.py".toList, "pass".toList, []⟩] (by decide)
  exact kept.2 _ List.mem_cons_self _ (List.mem_cons_of_mem _ List.mem_cons_self)
    (fun same => absurd same.1 (by decide)) rfl

end CentaurApex.Evolution
