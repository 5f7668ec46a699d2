/-
# Evolution.Patches -- a patch that is applied, or rolled back

`applyPatch` reads its target as text, writes the patch over it, and writes the old text again
if the patch does not stand: it fails validation, or something raises.  Files are read and
written in text mode.  Reading makes any end of a line a `\n`, writing makes any `\n` the end of
a line of the system (`Linesep`); what is written back is therefore what was read, and not always
what was there.

* **A text survives, exactly when** its lines end as those of the system do (`text_survives_iff`).
* **A call is atomic, exactly when** (`atomic_iff`) the target is not the healing log itself,
  whose entry follows; if it rolls back, the lines of the target end as those of the system do;
  and if it applies, the system has no end of a line but `\n`, or the patch is one line.

Refuting pole `carriage_return_lost`: a file with a carriage return, and a patch that fails.
-/
import CentaurApex.Evolution.LogScan
import CentaurApex.Theory.Files
import CentaurApex.Theory.JsonDumps

namespace CentaurApex.Evolution

open CentaurApex.Theory
open CentaurApex.Theory.FileM (write append lookup raise catching put)

set_option autoImplicit false

/-! ## Text mode -/

/-- `os.linesep` -/
inductive Linesep where
  | lf
  | crlf
  deriving DecidableEq

def Linesep.text : Linesep → Text
  | lf => ['\n']
  | crlf => ['\r', '\n']

/-- How newlines are written. -/
def translate (linesep : Linesep) (text : Text) : Text :=
  text.flatMap fun c => if c = '\n' then linesep.text else [c]

/-- The bytes that `write_text` writes. -/
def encode (linesep : Linesep) (text : Text) : List UInt8 := utf8 (translate linesep text)

/-- What the message of a `UnicodeDecodeError` starts with. -/
def decodeError : Text := "'utf-8' codec can't decode".toList

/-- What the message of a `FileNotFoundError` starts with. -/
def notFoundError : Text := "[Errno 2] No such file or directory".toList

/-- `read_text`, unless opening the file raises. -/
def readText (path : Text) : Option Text → FileM Text Text Text
  | some e => raise e
  | none => do
      match ← lookup path with
      | none => raise notFoundError
      | some bytes =>
          match JsonTree.fromUtf8 bytes with
          | none => raise decodeError
          | some text => pure (universalNewlines text)

/-- `write_text` -/
def writeText (linesep : Linesep) (path text : Text) (outcome : WriteOutcome Text) :
    FileM Text Text Unit :=
  write path (encode linesep text) outcome

/-! ## The healing log -/

/-- `time.time()`, as it is printed. -/
structure Clock where
  text : Text
  plain : ∀ c ∈ text, IsPlainChar c

/-- `json.dumps(entry)` -/
def HealingEntry.json (entry : HealingEntry) (clock : Clock) : Text :=
  JsonTree.write JsonTree.asciiEscaping [' '] <| .obj
    [(.ofString "timestamp", .number clock.text), (.ofString "file", .str (.ofChars entry.file)),
      (.ofString "action", .str (.ofChars entry.action)),
      (.ofString "detail", .str (.ofChars entry.detail))]

/-- An entry is one line. -/
theorem HealingEntry.json_oneLine (entry : HealingEntry) (clock : Clock) :
    OneLine (entry.json clock) := by
  have printable : ∀ c ∈ entry.json clock, IsPrintable c := by
    have string (s : PyStr) := iff_true_intro (printable_writeString s)
    have time : (∀ c ∈ clock.text, IsPrintable c) ↔ True :=
      iff_true_intro fun c member => printable_of_plain (clock.plain c member)
    simp only [json, JsonTree.write, JsonTree.writeFields, JsonTree.row, List.forall_mem_cons,
      List.forall_mem_append, List.not_mem_nil, false_implies, implies_true, string, time]
    decide
  constructor
  · intro newline
    exact absurd (printable _ newline) (by decide)
  · intro return_
    exact absurd (printable _ return_) (by decide)

/-- The time of an entry of the healing log, and how writing it ends. -/
structure LogOutcome where
  clock : Clock
  outcome : WriteOutcome Text

/-! ## Applying a patch -/

/-- How `subprocess.run` ends. -/
inductive Exit where
  | code (returncode : ℤ)
  | raised
  deriving DecidableEq

/-- `_run_validation`: the file compiles, and every test that is found passes; none is found if
the search raises. -/
def runValidation (compile : Exit) (tests : Option (List Exit)) : Bool :=
  if compile = .code 0 then
    match tests with
    | some exits => exits.all (· = .code 0)
    | none => false
  else false

/-- Where the names in a workspace lead. -/
structure Layout where
  /-- the file that a path below the root is -/
  file : Text → Text
  /-- `str(workspace_root / name)` -/
  path : Text → Text

namespace Layout

variable (layout : Layout)

def healingLog : Text := layout.file "logs/healing.jsonl".toList

-- `sha256`: the digest of some bytes
def backup (sha256 : List UInt8 → List UInt8) (filePath : Text) : Text :=
  layout.file ("evolution/patches/backup_".toList ++
    (shortDigest (sha256 (utf8 (layout.path filePath)))).take 8 ++ ".bak".toList)

end Layout

/-- How the steps of a call end, those it takes. -/
structure Outcomes where
  skipped : LogOutcome
  read : Option Text
  backup : WriteOutcome Text
  write : WriteOutcome Text
  compile : Exit
  tests : Option (List Exit)
  restore : WriteOutcome Text
  rolledBack : LogOutcome
  applied : LogOutcome
  restoreAgain : WriteOutcome Text
  rolledBackAgain : LogOutcome

section Apply

variable (layout : Layout) (linesep : Linesep) (sha256 : List UInt8 → List UInt8)

/-- `_log_healing` -/
def logHealing (file action detail : Text) (log : LogOutcome) : FileM Text Text Unit :=
  append layout.healingLog
    (encode linesep (HealingEntry.json ⟨file, action, detail⟩ log.clock ++ ['\n'])) log.outcome

variable (filePath patchContent : Text) (runTests : Bool) (o : Outcomes)

/-- The body of the `try` of `apply_patch`. -/
def attempt (original : Text) : FileM Text Text Bool := do
  writeText linesep (layout.file filePath) patchContent o.write
  if runTests ∧ ¬ runValidation o.compile o.tests then
    writeText linesep (layout.file filePath) original o.restore
    logHealing layout linesep filePath "ROLLBACK".toList "Tests failed after patch".toList
      o.rolledBack
    pure false
  else
    logHealing layout linesep filePath "APPLIED".toList "Patch applied successfully".toList
      o.applied
    pure true

/-- The handler. -/
def rollBack (original e : Text) : FileM Text Text Bool := do
  writeText linesep (layout.file filePath) original o.restoreAgain
  logHealing layout linesep filePath "ROLLBACK".toList ("Exception: ".toList ++ e)
    o.rolledBackAgain
  pure false

/-- `apply_patch` -/
def applyPatch : FileM Text Text Bool := do
  match ← lookup (layout.file filePath) with
  | none =>
      logHealing layout linesep filePath "SKIP".toList "File not found".toList o.skipped
      pure false
  | some _ =>
      let original ← readText (layout.file filePath) o.read
      writeText linesep (layout.backup sha256 filePath) original o.backup
      catching (attempt layout linesep filePath patchContent runTests o original)
        (rollBack layout linesep filePath o original)

end Apply

/-! ## What text mode keeps -/

/-- The text is a sequence of lines that end as those of the system do. -/
def EndsAsSystem (linesep : Linesep) (text : Text) : Prop :=
  ∃ lines : List Text, (∀ line ∈ lines, OneLine line) ∧ text = linesep.text.intercalate lines

section TextMode

variable {linesep : Linesep} {text : Text}

theorem utf8_append (front back : Text) : utf8 (front ++ back) = utf8 front ++ utf8 back :=
  List.flatMap_append

theorem utf8_injective {a b : Text} (same : utf8 a = utf8 b) : a = b := by
  have read := congrArg JsonTree.fromUtf8 same
  rw [JsonTree.fromUtf8_utf8, JsonTree.fromUtf8_utf8] at read
  exact Option.some.inj read

theorem translate_append (front back : Text) :
    translate linesep (front ++ back) = translate linesep front ++ translate linesep back :=
  List.flatMap_append

/-- Nothing changes where newlines are written as they are. -/
theorem translate_lf (text : Text) : translate .lf text = text := by
  induction text with
  | nil => rfl
  | cons c text ih =>
      rw [translate, List.flatMap_cons, ← translate, ih]
      split
      · rename_i newline
        rw [newline]
        rfl
      · rfl

theorem translate_of_not_mem (absent : '\n' ∉ text) : translate linesep text = text := by
  induction text with
  | nil => rfl
  | cons c text ih =>
      obtain ⟨other, absent⟩ := not_or.mp (mt List.mem_cons.mpr absent)
      rw [translate, List.flatMap_cons, ← translate, ih absent, if_neg fun same => other same.symm]
      rfl

theorem length_le_translate (text : Text) : text.length ≤ (translate linesep text).length := by
  induction text with
  | nil => exact le_rfl
  | cons c text ih =>
      rw [translate, List.flatMap_cons, ← translate, List.length_append, List.length_cons]
      have one : 1 ≤ (if c = '\n' then linesep.text else [c]).length := by
        split
        · cases linesep <;> decide
        · exact le_rfl
      omega

theorem length_lt_translate (newline : '\n' ∈ text) :
    text.length < (translate .crlf text).length := by
  obtain ⟨front, back, rfl⟩ := List.append_of_mem newline
  have first : front.length ≤ (translate .crlf front).length := length_le_translate front
  have second : back.length ≤ (translate .crlf back).length := length_le_translate back
  have two : translate .crlf ('\n' :: back) = '\r' :: '\n' :: translate .crlf back := rfl
  rw [translate_append, two]
  simp only [List.length_append, List.length_cons]
  omega

/-- A text is written as it is, exactly when no newline of it changes. -/
theorem translate_eq_self_iff : translate linesep text = text ↔ linesep = .lf ∨ '\n' ∉ text := by
  constructor
  · intro same
    cases linesep with
    | lf => exact .inl rfl
    | crlf =>
        refine .inr fun newline => ?_
        have longer := length_lt_translate newline
        rw [same] at longer
        exact lt_irrefl _ longer
  · rintro (rfl | absent)
    · exact translate_lf text
    · exact translate_of_not_mem absent

theorem not_mem_universalNewlines (text : Text) : '\r' ∉ universalNewlines text := by
  fun_induction universalNewlines text with
  | case1 rest ih => simpa using ih
  | case2 rest _ ih => simpa using ih
  | case3 c rest _ other ih =>
      exact mt List.mem_cons.mp (not_or.mpr ⟨fun same => other same.symm, ih⟩)
  | case4 => exact List.not_mem_nil

/-- A text without carriage returns is a sequence of lines. -/
theorem exists_lines (absent : '\r' ∉ text) :
    ∃ lines : List Text, lines ≠ [] ∧ (∀ line ∈ lines, OneLine line) ∧
      text = ['\n'].intercalate lines := by
  induction text with
  | nil =>
      refine ⟨[[]], List.cons_ne_nil _ _, ?_, rfl⟩
      exact List.forall_mem_singleton.mpr ⟨List.not_mem_nil, List.not_mem_nil⟩
  | cons c text ih =>
      obtain ⟨other, absent⟩ := not_or.mp (mt List.mem_cons.mpr absent)
      obtain ⟨lines, some_, plain, rfl⟩ := ih absent
      by_cases newline : c = '\n'
      · subst newline
        refine ⟨[] :: lines, List.cons_ne_nil _ _, List.forall_mem_cons.mpr ⟨?_, plain⟩, ?_⟩
        · exact ⟨List.not_mem_nil, List.not_mem_nil⟩
        · rw [List.intercalate_cons_of_ne_nil some_]
          rfl
      · obtain ⟨line, lines, rfl⟩ := List.exists_cons_of_ne_nil some_
        obtain ⟨first, plain⟩ := List.forall_mem_cons.mp plain
        refine ⟨(c :: line) :: lines, List.cons_ne_nil _ _,
          List.forall_mem_cons.mpr ⟨⟨?_, ?_⟩, plain⟩, ?_⟩
        · exact mt List.mem_cons.mp (not_or.mpr ⟨Ne.symm newline, first.1⟩)
        · exact mt List.mem_cons.mp (not_or.mpr ⟨other, first.2⟩)
        · cases lines with
          | nil => rfl
          | cons => rfl

theorem translate_intercalate {lines : List Text} (plain : ∀ line ∈ lines, OneLine line) :
    translate linesep (['\n'].intercalate lines) = linesep.text.intercalate lines := by
  induction lines with
  | nil => rfl
  | cons line lines ih =>
      obtain ⟨first, plain⟩ := List.forall_mem_cons.mp plain
      cases lines with
      | nil =>
          rw [List.intercalate_singleton, List.intercalate_singleton]
          exact translate_of_not_mem first.1
      | cons next lines =>
          have newline : translate linesep ['\n'] = linesep.text := by cases linesep <;> rfl
          rw [List.intercalate_cons_cons, List.intercalate_cons_cons, translate_append,
            translate_append, ih plain, translate_of_not_mem first.1, newline]

theorem universalNewlines_intercalate {lines : List Text}
    (plain : ∀ line ∈ lines, OneLine line) :
    universalNewlines (linesep.text.intercalate lines) = ['\n'].intercalate lines := by
  induction lines with
  | nil => rfl
  | cons line lines ih =>
      obtain ⟨first, plain⟩ := List.forall_mem_cons.mp plain
      cases lines with
      | nil =>
          have unchanged := universalNewlines_append first.2 []
          rw [universalNewlines, List.append_nil] at unchanged
          rw [List.intercalate_singleton, List.intercalate_singleton]
          exact unchanged
      | cons next lines =>
          have newline (rest : Text) :
              universalNewlines (linesep.text ++ rest) = '\n' :: universalNewlines rest := by
            cases linesep with
            | lf => rw [Linesep.text, List.singleton_append, universalNewlines] <;> simp
            | crlf => rw [Linesep.text]; rfl
          rw [List.intercalate_cons_cons, List.intercalate_cons_cons, List.append_assoc,
            universalNewlines_append first.2, newline, ih plain, List.append_assoc]
          rfl

/-- **What is read and written again is what was there, exactly when** its lines end as those of
the system do. -/
theorem text_survives_iff :
    translate linesep (universalNewlines text) = text ↔ EndsAsSystem linesep text := by
  constructor
  · intro same
    obtain ⟨lines, -, plain, read⟩ := exists_lines (not_mem_universalNewlines text)
    refine ⟨lines, plain, ?_⟩
    rw [← same, read, translate_intercalate plain]
  · rintro ⟨lines, plain, rfl⟩
    rw [universalNewlines_intercalate plain, translate_intercalate plain]

theorem length_le_crlf (text : Text) :
    text.length ≤ (translate .crlf (universalNewlines text)).length := by
  fun_induction universalNewlines text with
  | case1 rest ih =>
      show rest.length + 2 ≤ (translate .crlf (universalNewlines rest)).length + 2
      omega
  | case2 rest _ ih =>
      show rest.length + 1 ≤ (translate .crlf (universalNewlines rest)).length + 2
      omega
  | case3 c rest _ _ ih =>
      have one : [c].length ≤ (translate .crlf [c]).length := length_le_translate [c]
      have split : translate .crlf (c :: universalNewlines rest) =
          translate .crlf [c] ++ translate .crlf (universalNewlines rest) := translate_append [c] _
      rw [split, List.length_append, List.length_cons]
      rw [List.length_singleton] at one
      omega
  | case4 => exact le_rfl

/-- An entry after a text leaves another text. -/
theorem entry_after_patch {line : Text} (some_ : line ≠ []) (patch : Text) :
    translate linesep patch ++ translate linesep line ≠ patch := by
  intro same
  have size := congrArg List.length same
  have first : patch.length ≤ (translate linesep patch).length := length_le_translate patch
  have second : line.length ≤ (translate linesep line).length := length_le_translate line
  have pos := List.length_pos_iff.mpr some_
  rw [List.length_append] at size
  omega

theorem entry_after_restored {line : Text} (some_ : line ≠ []) (plain : '\r' ∉ line)
    (text : Text) :
    translate linesep (universalNewlines text) ++ translate linesep line ≠ text := by
  intro same
  have size := congrArg List.length same
  have pos := List.length_pos_iff.mpr some_
  rw [List.length_append] at size
  cases linesep with
  | lf =>
      rw [translate_lf, translate_lf] at same size
      have absent : '\r' ∉ text := by
        rw [← same]
        exact mt List.mem_append.mp (not_or.mpr ⟨not_mem_universalNewlines text, plain⟩)
      have unchanged := universalNewlines_append absent []
      rw [universalNewlines, List.append_nil] at unchanged
      rw [unchanged] at size
      omega
  | crlf =>
      have first := length_le_crlf text
      have second : line.length ≤ (translate .crlf line).length := length_le_translate line
      omega

end TextMode

/-! ## How a call ends -/

namespace Outcomes

variable (o : Outcomes) (runTests : Bool)

/-- The patch is validated, and does not pass. -/
def Rejects : Prop := runTests = true ∧ ¬ runValidation o.compile o.tests = true

/-- Nothing raises before the handler. -/
def Returns : Prop :=
  o.write = .done ∧
    (o.Rejects runTests → o.restore = .done ∧ o.rolledBack.outcome = .done) ∧
    (¬ o.Rejects runTests → o.applied.outcome = .done)

/-- The patch is written, stands, and is entered in the log. -/
def Applies : Prop :=
  o.read = none ∧ o.backup = .done ∧ o.Returns runTests ∧ ¬ o.Rejects runTests

/-- The patch fails, or something raises, and the old text is written again. -/
def RollsBack : Prop :=
  o.read = none ∧ o.backup = .done ∧ (o.Returns runTests ∧ o.Rejects runTests ∨
    ¬ o.Returns runTests ∧ o.restoreAgain = .done ∧ o.rolledBackAgain.outcome = .done)

end Outcomes

section Calls

variable (layout : Layout) (linesep : Linesep) (sha256 : List UInt8 → List UInt8)

/-- The files with one more entry in the healing log. -/
def entered (entry : HealingEntry) (clock : Clock) (files : Files Text) : Files Text :=
  put layout.healingLog
    ((files layout.healingLog).getD [] ++ encode linesep (entry.json clock ++ ['\n'])) files

variable {layout linesep sha256}

theorem logHealing_ok_iff {file action detail : Text} {log : LogOutcome}
    {files after : Files Text} {u : Unit} :
    logHealing layout linesep file action detail log files = (.ok u, after) ↔
      log.outcome = .done ∧
        after = entered layout linesep ⟨file, action, detail⟩ log.clock files :=
  FileM.append_ok_iff

variable {filePath patchContent : Text} {runTests : Bool} {o : Outcomes}

theorem attempt_ok_iff {original : Text} {files after : Files Text} {b : Bool} :
    attempt layout linesep filePath patchContent runTests o original files = (.ok b, after) ↔
      o.Returns runTests ∧
        (o.Rejects runTests ∧ b = false ∧ after = entered layout linesep
            ⟨filePath, "ROLLBACK".toList, "Tests failed after patch".toList⟩ o.rolledBack.clock
              (put (layout.file filePath) (encode linesep original) files) ∨
          ¬ o.Rejects runTests ∧ b = true ∧ after = entered layout linesep
            ⟨filePath, "APPLIED".toList, "Patch applied successfully".toList⟩ o.applied.clock
              (put (layout.file filePath) (encode linesep patchContent) files)) := by
  unfold attempt
  rw [FileM.bind_ok_iff]
  by_cases rejects : runTests = true ∧ ¬ runValidation o.compile o.tests = true
  · have rejects' : o.Rejects runTests := rejects
    simp only [if_pos rejects, FileM.bind_ok_iff, writeText, FileM.write_ok_iff,
      logHealing_ok_iff, FileM.pure_ok_iff, Outcomes.Returns, rejects', true_and, not_true,
      false_and, or_false, false_implies, and_true, true_implies]
    constructor
    · rintro ⟨-, _, ⟨written, rfl⟩, -, _, ⟨restored, rfl⟩, -, _, ⟨logged, rfl⟩, rfl, rfl⟩
      exact ⟨⟨written, restored, logged⟩, rfl, by rw [FileM.put_put]⟩
    · rintro ⟨⟨written, restored, logged⟩, rfl, rfl⟩
      exact ⟨(), _, ⟨written, rfl⟩, (), _, ⟨restored, rfl⟩, (), _, ⟨logged, rfl⟩, rfl,
        by rw [FileM.put_put]⟩
  · have stands : ¬ o.Rejects runTests := rejects
    simp only [if_neg rejects, FileM.bind_ok_iff, writeText, FileM.write_ok_iff,
      logHealing_ok_iff, FileM.pure_ok_iff, Outcomes.Returns, stands, true_and, not_false_eq_true,
      false_and, false_or, false_implies, true_implies]
    constructor
    · rintro ⟨-, _, ⟨written, rfl⟩, -, _, ⟨logged, rfl⟩, rfl, rfl⟩
      exact ⟨⟨written, logged⟩, rfl, rfl⟩
    · rintro ⟨⟨written, logged⟩, rfl, rfl⟩
      exact ⟨(), _, ⟨written, rfl⟩, (), _, ⟨logged, rfl⟩, rfl, rfl⟩

theorem rollBack_ok_iff {original e : Text} {files after : Files Text} {b : Bool} :
    rollBack layout linesep filePath o original e files = (.ok b, after) ↔
      o.restoreAgain = .done ∧ o.rolledBackAgain.outcome = .done ∧ b = false ∧
        after = entered layout linesep
          ⟨filePath, "ROLLBACK".toList, "Exception: ".toList ++ e⟩ o.rolledBackAgain.clock
            (put (layout.file filePath) (encode linesep original) files) := by
  simp only [rollBack, FileM.bind_ok_iff, writeText, FileM.write_ok_iff, logHealing_ok_iff,
    FileM.pure_ok_iff]
  constructor
  · rintro ⟨-, _, ⟨restored, rfl⟩, -, _, ⟨logged, rfl⟩, rfl, rfl⟩
    exact ⟨restored, logged, rfl, rfl⟩
  · rintro ⟨restored, logged, rfl, rfl⟩
    exact ⟨(), _, ⟨restored, rfl⟩, (), _, ⟨logged, rfl⟩, rfl, rfl⟩

variable {text : Text} {files after : Files Text}

theorem readText_ok_iff {path : Text} {outcome : Option Text} {read : Text}
    (there : files path = some (utf8 text)) :
    readText path outcome files = (.ok read, after) ↔
      outcome = none ∧ read = universalNewlines text ∧ after = files := by
  cases outcome with
  | some e => simp [readText]
  | none =>
      simp only [readText, FileM.lookup_bind, there, JsonTree.fromUtf8_utf8, FileM.pure_ok_iff,
        true_and]
      exact and_congr eq_comm eq_comm

/-- A call on a text file gets to its `try` if the file is read and the backup is written. -/
theorem applyPatch_ok_iff (there : files (layout.file filePath) = some (utf8 text)) {b : Bool} :
    applyPatch layout linesep sha256 filePath patchContent runTests o files = (.ok b, after) ↔
      o.read = none ∧ o.backup = .done ∧
        catching
          (attempt layout linesep filePath patchContent runTests o (universalNewlines text))
          (rollBack layout linesep filePath o (universalNewlines text))
          (put (layout.backup sha256 filePath) (encode linesep (universalNewlines text)) files) =
            (.ok b, after) := by
  simp only [applyPatch, FileM.lookup_bind, there, FileM.bind_ok_iff, readText_ok_iff there,
    writeText, FileM.write_ok_iff]
  constructor
  · rintro ⟨_, _, ⟨read, rfl, rfl⟩, -, _, ⟨backed, rfl⟩, returns⟩
    exact ⟨read, backed, returns⟩
  · rintro ⟨read, backed, returns⟩
    exact ⟨_, _, ⟨read, rfl, rfl⟩, (), _, ⟨backed, rfl⟩, returns⟩

/-- What the target holds after an entry. -/
theorem entered_apply {path : Text} {bytes : List UInt8} {entry : HealingEntry} {clock : Clock}
    (there : files path = some bytes) :
    entered layout linesep entry clock files path = some (if path = layout.healingLog then
      bytes ++ encode linesep (entry.json clock ++ ['\n']) else bytes) := by
  unfold entered
  split
  · rename_i same
    rw [same, FileM.put_same, ← same, there]
    rfl
  · rename_i different
    rw [FileM.put_of_ne different, there]

theorem attempt_raises_iff {original : Text} :
    (∃ e between, attempt layout linesep filePath patchContent runTests o original files =
      (.error e, between)) ↔ ¬ o.Returns runTests := by
  rw [FileM.exists_error_iff]
  constructor
  · intro none_ returns
    by_cases rejects : o.Rejects runTests
    · exact none_ false _ (attempt_ok_iff.mpr ⟨returns, .inl ⟨rejects, rfl, rfl⟩⟩)
    · exact none_ true _ (attempt_ok_iff.mpr ⟨returns, .inr ⟨rejects, rfl, rfl⟩⟩)
  · intro raises b between returned
    exact raises (attempt_ok_iff.mp returned).1

/-- A call that returns `True` leaves the patch. -/
theorem returns_true_iff (there : files (layout.file filePath) = some (utf8 text)) :
    applyPatch layout linesep sha256 filePath patchContent runTests o files = (.ok true, after) ↔
      o.Applies runTests ∧ after = entered layout linesep
        ⟨filePath, "APPLIED".toList, "Patch applied successfully".toList⟩ o.applied.clock
          (put (layout.file filePath) (encode linesep patchContent)
            (put (layout.backup sha256 filePath) (encode linesep (universalNewlines text))
              files)) := by
  rw [applyPatch_ok_iff there, FileM.catching_ok_iff, attempt_ok_iff]
  constructor
  · rintro ⟨read, backed, ⟨returns, ⟨-, wrong, -⟩ | ⟨stands, -, rfl⟩⟩ | ⟨e, between, -, handled⟩⟩
    · cases wrong
    · exact ⟨⟨read, backed, returns, stands⟩, rfl⟩
    · obtain ⟨-, -, wrong, -⟩ := rollBack_ok_iff.mp handled
      cases wrong
  · rintro ⟨⟨read, backed, returns, stands⟩, rfl⟩
    exact ⟨read, backed, .inl ⟨returns, .inr ⟨stands, rfl, rfl⟩⟩⟩

/-- A call that returns `False` leaves the old text, as it was read. -/
theorem returns_false (there : files (layout.file filePath) = some (utf8 text))
    (returned : applyPatch layout linesep sha256 filePath patchContent runTests o files =
      (.ok false, after)) :
    o.RollsBack runTests ∧ ∃ entry clock between, after = entered layout linesep entry clock
      (put (layout.file filePath) (encode linesep (universalNewlines text)) between) := by
  rw [applyPatch_ok_iff there, FileM.catching_ok_iff, attempt_ok_iff] at returned
  obtain ⟨read, backed, ⟨returns, ⟨rejects, -, rfl⟩ | ⟨-, wrong, -⟩⟩ |
    ⟨e, between, raised, handled⟩⟩ := returned
  · exact ⟨⟨read, backed, .inl ⟨returns, rejects⟩⟩, _, _, _, rfl⟩
  · cases wrong
  · obtain ⟨restored, logged, -, rfl⟩ := rollBack_ok_iff.mp handled
    have raises := attempt_raises_iff.mp ⟨e, between, raised⟩
    exact ⟨⟨read, backed, .inr ⟨raises, restored, logged⟩⟩, _, _, _, rfl⟩

theorem returns_false_of_rollsBack (there : files (layout.file filePath) = some (utf8 text))
    (rollsBack : o.RollsBack runTests) :
    ∃ after, applyPatch layout linesep sha256 filePath patchContent runTests o files =
      (.ok false, after) := by
  obtain ⟨read, backed, ⟨returns, rejects⟩ | ⟨raises, restored, logged⟩⟩ := rollsBack
  · exact ⟨_, (applyPatch_ok_iff there).mpr ⟨read, backed, FileM.catching_ok_iff.mpr
      (.inl (attempt_ok_iff.mpr ⟨returns, .inl ⟨rejects, rfl, rfl⟩⟩))⟩⟩
  · obtain ⟨e, between, raised⟩ := attempt_raises_iff.mpr raises
    exact ⟨_, (applyPatch_ok_iff there).mpr ⟨read, backed, FileM.catching_ok_iff.mpr
      (.inr ⟨e, between, raised, rollBack_ok_iff.mpr ⟨restored, logged, rfl, rfl⟩⟩)⟩⟩

/-! ## Atomic calls -/

variable (layout linesep sha256 filePath patchContent runTests o files) in
/-- If the call returns `False`, the target is as it was; if it returns `True`, it is the patch. -/
def Atomic : Prop :=
  ∀ b after,
    applyPatch layout linesep sha256 filePath patchContent runTests o files = (.ok b, after) →
      after (layout.file filePath) =
        if b then some (utf8 patchContent) else files (layout.file filePath)

/-- A text that is written and followed by an entry is the text `t`, if the entry goes to another
file and the text is written as `t`. -/
theorem entered_put_iff {path written t : Text} {entry : HealingEntry} {clock : Clock}
    (longer : translate linesep written ++ translate linesep (entry.json clock ++ ['\n']) ≠ t) :
    entered layout linesep entry clock (put path (encode linesep written) files) path =
        some (utf8 t) ↔
      path ≠ layout.healingLog ∧ translate linesep written = t := by
  rw [entered_apply FileM.put_same, Option.some.injEq]
  split
  · rename_i same
    constructor
    · intro bytes
      rw [encode, encode, ← utf8_append] at bytes
      exact absurd (utf8_injective bytes) longer
    · rintro ⟨different, -⟩
      exact absurd same different
  · rename_i different
    constructor
    · intro bytes
      exact ⟨different, utf8_injective bytes⟩
    · rintro ⟨-, rfl⟩
      rfl

theorem entered_patch_iff {path : Text} {entry : HealingEntry} {clock : Clock} :
    entered layout linesep entry clock (put path (encode linesep patchContent) files) path =
        some (utf8 patchContent) ↔
      path ≠ layout.healingLog ∧ (linesep = .lf ∨ '\n' ∉ patchContent) := by
  rw [← translate_eq_self_iff]
  exact entered_put_iff (entry_after_patch (by simp) patchContent)

theorem entered_restored_iff {path : Text} {entry : HealingEntry} {clock : Clock} :
    entered layout linesep entry clock
        (put path (encode linesep (universalNewlines text)) files) path = some (utf8 text) ↔
      path ≠ layout.healingLog ∧ EndsAsSystem linesep text := by
  rw [← text_survives_iff]
  refine entered_put_iff (entry_after_restored (by simp) ?_ text)
  exact mt List.mem_append.mp (not_or.mpr ⟨(entry.json_oneLine clock).2, by decide⟩)

/-- If a call is atomic and rolls back, the target keeps its ends of lines. -/
theorem Atomic.rolledBack (there : files (layout.file filePath) = some (utf8 text))
    (atomic : Atomic layout linesep sha256 filePath patchContent runTests o files)
    (rollsBack : o.RollsBack runTests) :
    layout.file filePath ≠ layout.healingLog ∧ EndsAsSystem linesep text := by
  obtain ⟨after, returned⟩ : ∃ after, applyPatch layout linesep sha256 filePath patchContent
    runTests o files = (.ok false, after) := returns_false_of_rollsBack there rollsBack
  have left := atomic false after returned
  obtain ⟨-, entry, clock, between, rfl⟩ := returns_false there returned
  rw [if_neg (by decide), there] at left
  exact entered_restored_iff.mp left

/-- **A call is atomic exactly when** the target is not the healing log and, if it applies, no
newline of the patch changes, and if it rolls back, the lines of the target end as those of the
system do. -/
theorem atomic_iff (layout : Layout) (linesep : Linesep) (sha256 : List UInt8 → List UInt8)
    (filePath patchContent : Text) (runTests : Bool) (o : Outcomes) (files : Files Text)
    (text : Text) (there : files (layout.file filePath) = some (utf8 text)) :
    Atomic layout linesep sha256 filePath patchContent runTests o files ↔
      (o.Applies runTests → layout.file filePath ≠ layout.healingLog ∧
        (linesep = .lf ∨ '\n' ∉ patchContent)) ∧
      (o.RollsBack runTests → layout.file filePath ≠ layout.healingLog ∧
        EndsAsSystem linesep text) := by
  constructor
  · intro atomic
    refine ⟨fun applies => ?_, atomic.rolledBack there⟩
    have left := atomic true _ ((returns_true_iff there).mpr ⟨applies, rfl⟩)
    exact entered_patch_iff.mp left
  · rintro ⟨applied, rolledBack⟩ b after returned
    cases b with
    | true =>
        obtain ⟨applies, rfl⟩ := (returns_true_iff there).mp returned
        exact entered_patch_iff.mpr (applied applies)
    | false =>
        obtain ⟨rollsBack, entry, clock, between, rfl⟩ := returns_false there returned
        rw [if_neg (by decide), there]
        exact entered_restored_iff.mpr (rolledBack rollsBack)

end Calls

/-! ## One file -/

/-- A workspace in the current directory. -/
def here : Layout := ⟨id, id⟩

/-- An entry that is written, at the first second. -/
def loggedEntry : LogOutcome where
  clock :=
    { text := ['1', '.', '0']
      plain := List.forall_mem_cons.mpr ⟨by decide, List.forall_mem_cons.mpr
        ⟨by decide, List.forall_mem_singleton.mpr (by decide)⟩⟩ }
  outcome := .done

/-- Nothing raises; the compiler ends with a code. -/
def compiled (returncode : ℤ) : Outcomes :=
  ⟨loggedEntry, none, .done, .done, .code returncode, some [], .done, loggedEntry, loggedEntry,
    .done, loggedEntry⟩

/-- One file, `a.py`. -/
def oneFile (text : Text) : Files Text :=
  put "a.py".toList (utf8 text) fun _ => none

/-- The digest of `a.py`. -/
def nameDigest (_ : List UInt8) : List UInt8 :=
  [240, 222, 9, 58, 140, 36, 246, 163, 237, 28, 113, 162, 238, 219, 141, 41, 203, 104, 218, 162,
    129, 177, 221, 35, 35, 182, 125, 117, 206, 63, 184, 0]

/-- A line that ends in `\n` is patched by another, and the patch passes. -/
theorem one_line_atomic :
    Atomic here .lf nameDigest "a.py".toList "b = 2\n".toList true (compiled 0)
      (oneFile "a = 1\n".toList) := by
  refine (atomic_iff here .lf nameDigest _ _ true (compiled 0) _ "a = 1\n".toList FileM.put_same).mpr
    ⟨fun _ => ⟨by decide, .inl rfl⟩, fun rollsBack => ?_⟩
  obtain ⟨-, -, ⟨-, -, fails⟩ | ⟨raises, -⟩⟩ := rollsBack
  · exact absurd rfl fails
  · exact absurd ⟨rfl, fun _ => ⟨rfl, rfl⟩, fun _ => rfl⟩ raises

/-- Refuting pole: the patch fails, and of `\r\n` only `\n` comes back. -/
theorem carriage_return_lost :
    ¬ ∀ (layout : Layout) (linesep : Linesep) (sha256 : List UInt8 → List UInt8)
      (filePath patchContent : Text) (runTests : Bool) (o : Outcomes) (files : Files Text)
      (text : Text), files (layout.file filePath) = some (utf8 text) →
        Atomic layout linesep sha256 filePath patchContent runTests o files := by
  intro always
  have atomic := always here .lf nameDigest "a.py".toList "b =\n".toList true (compiled 1)
    (oneFile "a = 1\r\n".toList) "a = 1\r\n".toList FileM.put_same
  have rollsBack : (compiled 1).RollsBack true :=
    ⟨rfl, rfl, .inl ⟨⟨rfl, fun _ => ⟨rfl, rfl⟩, fun _ => rfl⟩, rfl, by decide⟩⟩
  have kept := text_survives_iff.mpr (atomic.rolledBack FileM.put_same rollsBack).2
  exact absurd kept (by decide)

end CentaurApex.Evolution
