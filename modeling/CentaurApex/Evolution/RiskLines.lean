/-
# Evolution.RiskLines -- whether a line about a risk violation leads to a patch

A report that is labelled a risk violation is never patched.  But the label is that of the
first pattern that matches the line, and four patterns come before the one for risk
violations.  `risk_never_patched_iff` says which lines with the words of a risk violation
lead to no patch all the same.
-/
import CentaurApex.Evolution.CodeAgent

namespace CentaurApex.Evolution

open CentaurApex.Theory

set_option autoImplicit false

/-! ## What a scan reports -/

section Scan

variable {mktime : Text → Epoch} {cutoff : ExtNum ℚ} {line : Text}

/-- The line has a timestamp, and it is older than the window of the scan (or no time). -/
def Outdated (mktime : Text → Epoch) (cutoff : ExtNum ℚ) (line : Text) : Prop :=
  ∃ ts, (lineTsRe.match? id line).bind Match.group = some ts ∧
    ∀ epoch, tsToEpoch mktime ts = some epoch → epoch < cutoff

theorem judge_hit_iff {label : ErrorLabel} :
    judge line = .hit label ↔ ¬ SelfMarked line ∧ firstLabel line = some label := by
  unfold judge
  by_cases marked : SelfMarked line
  · simp [marked]
  · cases found : firstLabel line with
    | none => simp [marked]
    | some first => simp [marked]

/-- **A line is reported** if it is recent, bears no mark of the agent's, and a pattern
matches it; the first that does gives the label. -/
theorem scanLine_hit_iff {label : ErrorLabel} :
    scanLine mktime cutoff line = .hit label ↔
      ¬ Outdated mktime cutoff line ∧ ¬ SelfMarked line ∧ firstLabel line = some label := by
  unfold scanLine Outdated
  cases stamp : (lineTsRe.match? id line).bind Match.group with
  | none => simp [judge_hit_iff]
  | some ts =>
      cases time : tsToEpoch mktime ts with
      | none => simp [time]
      | some epoch =>
          by_cases old : epoch < cutoff
          · simp [time, old]
          · simp [time, old, judge_hit_iff]

theorem scanLines_sound {log : LogFile} : ∀ {lines : List Text},
    ∀ e ∈ scanLines mktime cutoff log lines, ∃ line ∈ lines, ∃ label,
      scanLine mktime cutoff line = .hit label ∧ e = log.error label line
  | [], e, member => by cases member
  | line :: rest, e, member => by
      have later (member : e ∈ scanLines mktime cutoff log rest) :
          ∃ line' ∈ line :: rest, ∃ label,
            scanLine mktime cutoff line' = .hit label ∧ e = log.error label line' := by
        obtain ⟨line', there, reported⟩ := scanLines_sound e member
        exact ⟨line', List.mem_cons_of_mem _ there, reported⟩
      unfold scanLines at member
      cases result : scanLine mktime cutoff line with
      | passed =>
          rw [result] at member
          exact later member
      | hit label =>
          rw [result] at member
          rcases List.mem_cons.mp member with rfl | after
          · exact ⟨line, List.mem_cons_self, label, result, rfl⟩
          · exact later after
      | raised =>
          rw [result] at member
          cases member

/-- **Every report is of a line**, of a log that was looked at. -/
theorem scanLogsForErrors_sound {logs : List LogFile} {e : DetectedError}
    (reported : e ∈ scanLogsForErrors mktime cutoff (some logs)) :
    ∃ log ∈ logs, ∃ line ∈ log.lines, ∃ label,
      scanLine mktime cutoff line = .hit label ∧ e = log.error label line := by
  obtain ⟨log, member, here⟩ := List.mem_flatMap.mp reported
  refine ⟨log, member, ?_⟩
  unfold scanFile at here
  split at here
  · cases here
  · split at here
    · cases here
    · exact scanLines_sound e here

end Scan

/-! ## Risk violations -/

section Risk

/-- The line has one of the words of a risk violation. -/
def RiskMarked (line : Text) : Prop :=
  "MaxDrawdown".toList <:+: line ∨ "EmergencyHalt".toList <:+: line ∨
    "liquidation".toList <:+: line

instance (line : Text) : Decidable (RiskMarked line) := inferInstanceAs (Decidable (_ ∨ _))

variable {line : Text}

theorem RiskMarked.search (risky : RiskMarked line) : risk.Search line := by
  rw [ErrorPattern.search_iff]
  have plain (w : Text) (found : w <:+: line) : w.map risk.fold <:+: line.map risk.fold := by
    change w.map id <:+: line.map id
    rwa [List.map_id, List.map_id]
  rcases risky with found | found | found
  · exact ⟨_, List.mem_cons_self, plain _ found⟩
  · exact ⟨_, List.mem_cons_of_mem _ List.mem_cons_self, plain _ found⟩
  · exact ⟨_, List.mem_cons_of_mem _ (List.mem_cons_of_mem _ List.mem_cons_self), plain _ found⟩

/-- The patterns that are tried before the one for risk violations. -/
def earlierPatterns : List ErrorPattern := [traceback, exceptions, generic, protocol]

theorem earlier_labels : ∀ pattern ∈ earlierPatterns,
    pattern.label ≠ .riskViolation ∧ pattern.label ≠ .portConflict := by decide

/-- A line with the words of a risk violation gets its label, or an earlier one. -/
theorem firstLabel_of_risk (risky : RiskMarked line) :
    ∃ label, firstLabel line = some label ∧ label ≠ .portConflict ∧
      (label = .riskViolation ↔ ∀ pattern ∈ earlierPatterns, ¬ pattern.Search line) := by
  have split : errorPatterns = earlierPatterns ++ [risk, port] := rfl
  rw [firstLabel, split, List.find?_append]
  cases found : earlierPatterns.find? fun pattern => pattern.Search line with
  | none =>
      have later : [risk, port].find? (fun pattern => pattern.Search line) = some risk :=
        List.find?_cons_of_pos (decide_eq_true risky.search)
      refine ⟨.riskViolation, by rw [later]; rfl, by decide, ⟨fun _ pattern member matched => ?_,
        fun _ => rfl⟩⟩
      exact List.find?_eq_none.mp found pattern member (decide_eq_true matched)
  | some pattern =>
      have member := List.mem_of_find?_eq_some found
      obtain ⟨notRisk, notPort⟩ := earlier_labels pattern member
      have matched := List.find?_some found
      refine ⟨pattern.label, rfl, notPort, ⟨fun same => absurd same notRisk, fun unmatched => ?_⟩⟩
      exact absurd (of_decide_eq_true matched) (unmatched pattern member)

end Risk

/-! ## Patches -/

section Patch

/-- The line that a report carries says that an import failed, and not of what. -/
def NamelessImport (line : Text) : Prop :=
  "ImportError".toList <:+: (strip line).take 200 ∧
    searchGroup noModuleRe ((strip line).take 200) = none

/-- A program that the generic fix rewrites. -/
def runnable : Text := "def main():\n    pass\n".toList

theorem label_text_ne (label : ErrorLabel) :
    label.text ≠ "ImportError" ∧ label.text ≠ "NameError" := by
  cases label <;> decide

/-- Without a name to import, nothing is fixed. -/
theorem repair_of_nameless {label : ErrorLabel} {line content : Text}
    (failed : "ImportError".toList <:+: line) (nameless : searchGroup noModuleRe line = none) :
    repair label line content = content := by
  simp only [repair, if_pos (Or.inr failed), nameless]

/-- Every other report can be about a file that is changed. -/
theorem repair_runnable {label : ErrorLabel} {line : Text} (port : label ≠ .portConflict)
    (named : "ImportError".toList <:+: line → searchGroup noModuleRe line ≠ none) :
    repair label line runnable ≠ runnable := by
  obtain ⟨noImport, noName⟩ := label_text_ne label
  by_cases failed : "ImportError".toList <:+: line
  · obtain ⟨mod, group⟩ := Option.ne_none_iff_exists'.mp (named failed)
    simp only [repair, if_pos (Or.inr failed), group]
    intro same
    have lengths := congrArg List.length same
    simp only [List.length_append, List.length_cons] at lengths
    omega
  · rw [repair, if_neg (not_or.mpr ⟨noImport, failed⟩), if_neg noName, if_neg port]
    decide +kernel

/-- **A patch is staged** for a report that is not labelled a risk violation, where the file
it is about can be read, lies in the workspace, and is changed by the fix. -/
theorem proposeFix_staged {sha256 : List UInt8 → List UInt8} {workspace : Workspace}
    {error : DetectedError} {fileToFix : Option Text} :
    (proposeFix sha256 workspace error fileToFix).staged.isSome ↔
      error.pattern ≠ .riskViolation ∧ ∃ name content filePath,
        targetName error fileToFix = some name ∧
        workspace.entry name = .file content (some filePath) ∧
        repair error.pattern error.line content ≠ content := by
  unfold proposeFix
  by_cases risky : error.pattern = .riskViolation
  · simp [risky, skip]
  · cases target : targetName error fileToFix with
    | none => simp [risky, skip]
    | some name =>
        cases entry : workspace.entry name with
        | missing => simp [risky, entry, skip]
        | unreadable => simp [risky, entry]
        | file content relative =>
            by_cases changed : repair error.pattern error.line content = content
            · simp [risky, entry, changed, skip]
            · cases relative with
              | none => simp [risky, entry, changed]
              | some filePath => simp [risky, entry, changed]

variable (sha256 : List UInt8 → List UInt8) (mktime : Text → Epoch) (cutoff : ExtNum ℚ)
  (log : LogFile) (line : Text)

/-- No call of `propose_fix` on a report of the line stages a patch. -/
def NeverPatched : Prop :=
  ∀ label, scanLine mktime cutoff line = .hit label → ∀ workspace fileToFix,
    (proposeFix sha256 workspace (log.error label line) fileToFix).staged = none

/-- **A line with the words of a risk violation is never patched** exactly if it is not
reported, being outdated or one of the agent's own, or no earlier pattern matches it, or
it tells of a failed import without a name. -/
theorem risk_never_patched_iff (risky : RiskMarked line) :
    NeverPatched sha256 mktime cutoff log line ↔
      Outdated mktime cutoff line ∨ SelfMarked line ∨
        (∀ pattern ∈ earlierPatterns, ¬ pattern.Search line) ∨ NamelessImport line := by
  obtain ⟨label, labelled, port, labelled_iff⟩ := firstLabel_of_risk risky
  constructor
  · intro never
    by_contra allowed
    obtain ⟨recent, allowed⟩ := not_or.mp allowed
    obtain ⟨unmarked, allowed⟩ := not_or.mp allowed
    obtain ⟨earlier, named⟩ := not_or.mp allowed
    have unstaged := never label (scanLine_hit_iff.mpr ⟨recent, unmarked, labelled⟩)
      ⟨id, fun name => .file runnable (some name)⟩ (some "main.py".toList)
    have staged : (proposeFix sha256 ⟨id, fun name => .file runnable (some name)⟩
        (log.error label line) (some "main.py".toList)).staged.isSome := by
      refine proposeFix_staged.mpr ⟨fun same => earlier (labelled_iff.mp same),
        "main.py".toList, runnable, "main.py".toList, rfl, rfl, ?_⟩
      exact repair_runnable port fun failed none_ => named ⟨failed, none_⟩
    rw [unstaged] at staged
    cases staged
  · intro allowed label' hit workspace fileToFix
    obtain ⟨recent, unmarked, same⟩ := scanLine_hit_iff.mp hit
    obtain rfl := Option.some.inj (labelled.symm.trans same)
    by_contra staged
    obtain ⟨other, name, content, filePath, -, -, changed⟩ :=
      proposeFix_staged.mp (Option.isSome_iff_ne_none.mpr staged)
    rcases allowed with old | marked | first | ⟨failed, nameless⟩
    · exact recent old
    · exact unmarked marked
    · exact other (labelled_iff.mpr first)
    · exact changed (repair_of_nameless failed nameless)

end Patch

/-! ### Poles -/

namespace Sample

/-- A clock of one time zone or another; nothing here depends on it. -/
def mktime (_ : Text) : Epoch := .seconds 0

def sha256 (_ : List UInt8) : List UInt8 := [0xAB, 0xCD, 0xEF, 0x01, 0x23, 0x45]

def log : LogFile := ⟨"trading-daemon.log".toList, 0, none⟩

end Sample

/-- Satisfiable pole: a line that only reports the halt. -/
theorem halt_never_patched :
    NeverPatched Sample.sha256 Sample.mktime 0 Sample.log "EmergencyHalt: equity gone".toList :=
  (risk_never_patched_iff Sample.sha256 Sample.mktime 0 Sample.log _ (by decide +kernel)).mpr
    (.inr (.inr (.inl (by decide +kernel))))

/-- Refuting pole: an exception about the halt, in a file that can be fixed. -/
theorem halted_file_patched :
    ¬ ∀ (sha256 : List UInt8 → List UInt8) (mktime : Text → Epoch) (cutoff : ExtNum ℚ)
      (log : LogFile) (line : Text), RiskMarked line →
        NeverPatched sha256 mktime cutoff log line := by
  intro never
  have unstaged := never Sample.sha256 Sample.mktime 0 Sample.log
    "ValueError in foo.py: EmergencyHalt".toList (by decide +kernel) .pythonException
    (by decide +kernel) ⟨id, fun name => .file runnable (some name)⟩ none
  revert unstaged
  decide +kernel

end CentaurApex.Evolution
