/-
# Evolution.LogScan -- the orchestrator's scan, and what it writes in the log it scans

`_scan_and_heal` reports in `centaur.log` what the agent found in the logs, what became of
it, and the last entries of the healing log.  `centaur.log` is one of the logs that the
next scan reads: a line of the report that looks like an error is reported in its turn.
The lines that bear a mark of the agent's are left out, and most of the others look like
no error; `self_quiet_iff` says when all of them are harmless.
-/
import CentaurApex.Evolution.RiskLines

namespace CentaurApex.Evolution

open CentaurApex.Theory

set_option autoImplicit false

/-! ## The report -/

inductive Level where
  | info
  | warning
  deriving DecidableEq, Repr

def Level.text : Level → Text
  | info => "INFO".toList
  | warning => "WARNING".toList

structure LogRecord where
  level : Level
  message : Text
  deriving DecidableEq

/-- What a call of `propose_fix` finds, and whether the constitution can be started then. -/
structure Surroundings where
  workspace : Workspace
  canStart : Bool

section Report

variable (sha256 : List UInt8 → List UInt8)

def labelRecord (err : DetectedError) : LogRecord :=
  ⟨.warning, "  [".toList ++ err.pattern.text.toList ++ "] ".toList ++ err.file⟩

def healRecord (patchId : Text) : LogRecord :=
  ⟨.info, "  [HEAL]     Staged patch[".toList ++ patchId ++ "] for self-repair".toList⟩

def riskRecord : LogRecord :=
  ⟨.info, "  [SKIP]     Risk violation requires quorum approval (I7)".toList⟩

def ipcRecord : LogRecord :=
  ⟨.warning, "  [SKIP]     IPC error — restarting relevant service".toList⟩

def restartRecord : LogRecord := ⟨.info, "  [RESTART] constitution".toList⟩

def noFixRecord : LogRecord := ⟨.info, "  [SKIP]     No auto-fix pattern matched".toList⟩

/-- The body of the loop over the errors: what it writes, and whether it is left by an
exception. -/
def healError (around : Surroundings) (err : DetectedError) : List LogRecord × Bool :=
  match (proposeFix sha256 around.workspace err none).result with
  | .error () => ([labelRecord err], true)
  | .ok (some (c :: patchId)) => ([labelRecord err, healRecord (c :: patchId)], false)
  | .ok _ =>
      if err.pattern = .riskViolation then ([labelRecord err, riskRecord], false)
      else if err.pattern = .ipcProtocolError then
        ([labelRecord err, ipcRecord] ++ if around.canStart then [restartRecord] else [], false)
      else ([labelRecord err, noFixRecord], false)

def healErrors : (ℕ → Surroundings) → List DetectedError → List LogRecord × Bool
  | _, [] => ([], false)
  | around, err :: rest =>
      match healError sha256 (around 0) err with
      | (records, true) => (records, true)
      | (records, false) =>
          let (later, raised) := healErrors (fun k => around (k + 1)) rest
          (records ++ later, raised)

def entryRecord (entry : HealingEntry) : LogRecord :=
  ⟨.info, "    [".toList ++ entry.action ++ "] ".toList ++ entry.file ++ ": ".toList ++
    entry.detail.take 60⟩

/-- `{count}` -/
def countText (count : ℕ) : Text := Nat.toDigits 10 count

def historyRecords (history : List HealingEntry) : List LogRecord :=
  if history = [] then []
  else ⟨.info, "  Healing history: ".toList ++ countText history.length ++ " entries".toList⟩ ::
    (history.rtake 3).map entryRecord

def cleanRecord : LogRecord := ⟨.info, "── Log Scan: clean (0 errors in last 5min) ──".toList⟩

def countRecord (count : ℕ) : LogRecord :=
  ⟨.warning, "── Log Scan: ".toList ++ countText count ++
    " error(s) detected in last 5min ──".toList⟩

/-- `_scan_and_heal`, from the errors that were found and the healing log as it is read at
the end. -/
def scanAndHeal (around : ℕ → Surroundings) (errors : List DetectedError)
    (history : List HealingEntry) : List LogRecord :=
  if errors = [] then [cleanRecord]
  else
    match healErrors sha256 around (errors.take 5) with
    | (records, true) => countRecord errors.length :: records
    | (records, false) => countRecord errors.length :: records ++ historyRecords history

end Report

/-! ## The lines of the log -/

/-- The letters of a time. -/
def stampLetters : Text := ['0', '1', '2', '3', '4', '5', '6', '7', '8', '9', '-', ':', 'T']

/-- The time of a record, as it is written before it. -/
structure Stamp where
  text : Text
  only : ∀ c ∈ text, c ∈ stampLetters

/-- The logger and the level of a record. -/
def headerText (level : Level) : Text := " [Orchestrator] ".toList ++ level.text ++ ": ".toList

/-- What comes before a message. -/
def header (stamp : Stamp) (level : Level) : Text := stamp.text ++ headerText level

/-- How a text file is read: any end of a line is `\n`. -/
def universalNewlines : Text → Text
  | '\r' :: '\n' :: rest => '\n' :: universalNewlines rest
  | '\r' :: rest => '\n' :: universalNewlines rest
  | c :: rest => c :: universalNewlines rest
  | [] => []

/-- The lines in which a text is read back. -/
def linesOf (text : Text) : List Text := (universalNewlines text).splitOn '\n'

def writtenLines (stamp : Stamp) (record : LogRecord) : List Text :=
  linesOf (header stamp record.level ++ record.message)

/-- The line as it may be read: at the ends of a log it is stripped. -/
def readings (line : Text) : List Text :=
  [line, line.dropWhile isSpace, line.rdropWhile isSpace, strip line]

/-- No line that is written is reported by a scan. -/
def SelfQuiet (errors : List DetectedError) (history : List HealingEntry) : Prop :=
  ∀ sha256 around, ∀ record ∈ scanAndHeal sha256 around errors history, ∀ stamp,
    ∀ line ∈ writtenLines stamp record, ∀ reading ∈ readings line, ∀ mktime cutoff label,
      scanLine mktime cutoff reading ≠ .hit label

/-- The logs of the services, and the orchestrator's own. -/
def serviceLogs : List Text :=
  ["centaur.log".toList, "constitutiond.log".toList, "trading-daemon.log".toList,
    "doomsday.log".toList, "mesh-mesh-0.log".toList, "mesh-mesh-1.log".toList,
    "mesh-mesh-2.log".toList, "evolution.log".toList, "compliance.log".toList]

/-! ## Harmless lines -/

section Harmless

/-- No pattern matches the line. -/
def Clean (line : Text) : Prop := firstLabel line = none

instance (line : Text) : Decidable (Clean line) := inferInstanceAs (Decidable (_ = none))

/-- The line is the agent's own, or looks like no error. -/
def Harmless (line : Text) : Prop := SelfMarked line ∨ Clean line

instance (line : Text) : Decidable (Harmless line) := inferInstanceAs (Decidable (_ ∨ _))

variable {line a b : Text} {c : Char}

theorem clean_iff : Clean line ↔ ∀ pattern ∈ errorPatterns, ∀ w ∈ pattern.words,
    ¬ w.map pattern.fold <:+: line.map pattern.fold := by
  unfold Clean firstLabel
  rw [Option.map_eq_none_iff, List.find?_eq_none]
  simp only [decide_eq_true_eq, ErrorPattern.search_iff, not_exists, not_and]

/-- A harmless line is never reported, and any other is, unless it is too old. -/
theorem harmless_iff : Harmless line ↔
    ∀ mktime cutoff label, scanLine mktime cutoff line ≠ .hit label := by
  constructor
  · intro harmless mktime cutoff label hit
    obtain ⟨-, unmarked, found⟩ := scanLine_hit_iff.mp hit
    rcases harmless with marked | clean
    · exact unmarked marked
    · cases clean.symm.trans found
  · intro quiet
    by_contra harmful
    obtain ⟨unmarked, dirty⟩ := not_or.mp harmful
    obtain ⟨label, found⟩ := Option.ne_none_iff_exists'.mp dirty
    refine quiet (fun _ => .seconds 0) 0 label (scanLine_hit_iff.mpr ⟨?_, unmarked, found⟩)
    rintro ⟨ts, -, old⟩
    exact absurd (old 0 rfl) (by decide)

/-! ### Words and marks -/

/-- The letters of a digest. -/
def hexLetters : Text :=
  ['0', '1', '2', '3', '4', '5', '6', '7', '8', '9', 'a', 'b', 'c', 'd', 'e', 'f']

/-- The word neither begins nor ends with white space. -/
def Edged (w : Text) : Prop :=
  w ≠ [] ∧ w.head?.all (fun c => !isSpace c) = true ∧ w.getLast?.all (fun c => !isSpace c) = true

instance (w : Text) : Decidable (Edged w) := inferInstanceAs (Decidable (_ ∧ _ ∧ _))

/-- The word has a letter that is not one of these. -/
def Leaves (alphabet w : Text) : Prop := ∃ d ∈ w, d ∉ alphabet

instance (alphabet w : Text) : Decidable (Leaves alphabet w) :=
  List.decidableBEx (· ∉ alphabet) w

/-- No word has a bracket or a gap, and none begins or ends with white space; each has a
letter that is in no time, and one that is in no digest. -/
theorem words_spec : ∀ pattern ∈ errorPatterns, ∀ w ∈ pattern.words,
    (pattern.fold '[' ∉ w.map pattern.fold ∧ pattern.fold ']' ∉ w.map pattern.fold) ∧
    ¬ [pattern.fold ' ', pattern.fold ' '] <:+: w.map pattern.fold ∧
    Edged (w.map pattern.fold) ∧
    Leaves ((stampLetters ++ [' ']).map pattern.fold) (w.map pattern.fold) ∧
    Leaves (hexLetters.map pattern.fold) (w.map pattern.fold) := by decide +kernel

/-- No mark has a gap, and each has a letter that no header has. -/
theorem markers_spec : ∀ marker ∈ selfMarkers, ¬ [' ', ' '] <:+: marker ∧
    Edged (marker.map id) ∧
    Leaves (stampLetters ++ headerText .info ++ headerText .warning) marker := by decide +kernel

/-! ### Pieces of a line -/

/-- A line is clean if its pieces are, and no word crosses from one to the other. -/
theorem clean_pieces {whole : Text}
    (cut : ∀ pattern ∈ errorPatterns, ∀ w ∈ pattern.words,
      (w.map pattern.fold <:+: whole.map pattern.fold ↔
        w.map pattern.fold <:+: a.map pattern.fold ∨
          w.map pattern.fold <:+: b.map pattern.fold)) :
    Clean whole ↔ Clean a ∧ Clean b := by
  simp only [clean_iff]
  constructor
  · intro clean
    exact ⟨fun pattern member w word left =>
        clean pattern member w word ((cut pattern member w word).mpr (.inl left)),
      fun pattern member w word right =>
        clean pattern member w word ((cut pattern member w word).mpr (.inr right))⟩
  · rintro ⟨left, right⟩ pattern member w word found
    rcases (cut pattern member w word).mp found with before | behind
    · exact left pattern member w word before
    · exact right pattern member w word behind

/-- No pattern matches across a bracket. -/
theorem clean_bracket (bracket : c = '[' ∨ c = ']') :
    Clean (a ++ c :: b) ↔ Clean a ∧ Clean b := by
  refine clean_pieces fun pattern member w word => ?_
  obtain ⟨⟨left, right⟩, -⟩ := words_spec pattern member w word
  rw [List.map_append, List.map_cons]
  refine infix_append_sep ?_
  rcases bracket with rfl | rfl
  · exact left
  · exact right

/-- Nor across a gap of two blanks. -/
theorem clean_gap : Clean ((a ++ [' ']) ++ ' ' :: b) ↔ Clean (a ++ [' ']) ∧ Clean (' ' :: b) := by
  refine clean_pieces fun pattern member w word => ?_
  obtain ⟨-, apart, -⟩ := words_spec pattern member w word
  simp only [List.map_append, List.map_cons, List.map_nil]
  exact infix_append_pair apart

/-- A line is clean if every word has a letter that the line has not. -/
theorem clean_of_letters (alphabet : Text) (only : ∀ c ∈ line, c ∈ alphabet)
    (leaves : ∀ pattern ∈ errorPatterns, ∀ w ∈ pattern.words,
      Leaves (alphabet.map pattern.fold) (w.map pattern.fold)) : Clean line := by
  refine clean_iff.mpr fun pattern member w word => ?_
  obtain ⟨d, letter, absent⟩ := leaves pattern member w word
  refine not_infix_of_letter letter fun there => absent ?_
  obtain ⟨c, here, rfl⟩ := List.mem_map.mp there
  exact List.mem_map_of_mem (only c here)

/-! ### The ends of a line -/

theorem foldCase_of_isSpace (space : isSpace c = true) : foldCase c = c := by
  have all : ∀ n ∈ spaces, foldCase (Char.ofNat n) = Char.ofNat n := by decide
  rw [← Char.ofNat_toNat c]
  exact all _ (of_decide_eq_true space)

theorem ErrorPattern.fold_of_isSpace (pattern : ErrorPattern) (space : isSpace c = true) :
    pattern.fold c = c := by
  unfold ErrorPattern.fold
  split
  · exact foldCase_of_isSpace space
  · rfl

/-- White space at the ends of a line makes no difference to the words in it. -/
theorem infix_reading {f : Char → Char} (plain : ∀ c, isSpace c = true → f c = c) {w : Text}
    (edged : Edged w) {reading : Text} (member : reading ∈ readings line) :
    w <:+: reading.map f ↔ w <:+: line.map f := by
  obtain ⟨some_, head, last⟩ := edged
  have front (l : Text) : w <:+: (l.dropWhile isSpace).map f ↔ w <:+: l.map f := by
    refine infix_dropWhile f (fun c space begins => ?_) some_ l
    rw [← begins, plain c space] at head
    simp [space] at head
  have back (l : Text) : w <:+: (l.rdropWhile isSpace).map f ↔ w <:+: l.map f := by
    refine infix_rdropWhile f (fun c space ends => ?_) some_ l
    rw [← ends, plain c space] at last
    simp [space] at last
  simp only [readings, List.mem_cons, List.not_mem_nil, or_false] at member
  rcases member with rfl | rfl | rfl | rfl
  · rfl
  · exact front line
  · exact back line
  · exact (back _).trans (front line)

theorem harmless_reading {reading : Text} (member : reading ∈ readings line) :
    Harmless reading ↔ Harmless line := by
  have marked : SelfMarked reading ↔ SelfMarked line := by
    refine exists_congr fun marker => and_congr_right fun known => ?_
    have same := infix_reading (f := id) (fun _ _ => rfl) (markers_spec marker known).2.1 member
    rwa [List.map_id, List.map_id, List.map_id] at same
  have clean : Clean reading ↔ Clean line := by
    simp only [clean_iff]
    refine forall₄_congr fun pattern known w word => not_congr ?_
    obtain ⟨-, -, edged, -⟩ := words_spec pattern known w word
    exact infix_reading (fun _ => pattern.fold_of_isSpace) edged member
  exact or_congr marked clean

end Harmless

/-! ## Fixed pieces -/

section Pieces

/-- The pieces of the records between the brackets, as far as they are the same in every
report. -/
def pieces : List Text :=
  ["  ".toList, "HEAL".toList, "     Staged patch".toList, " for self-repair".toList,
    "RESTART".toList, " constitution".toList]

/-- What a header has behind its bracket. -/
def headerTail (level : Level) : Text := "Orchestrator] ".toList ++ level.text ++ ": ".toList

/-- The text looks like no error.  The letters are compared as numbers, which is faster. -/
def NoWord (pattern : ErrorPattern) (w text : Text) : Prop :=
  ¬ (w.map pattern.fold).map Char.toNat <:+: (text.map pattern.fold).map Char.toNat

instance (pattern : ErrorPattern) (w text : Text) : Decidable (NoWord pattern w text) :=
  inferInstanceAs (Decidable (¬ _))

/-- The words are the outer loop, so that each is read once for all the pieces. -/
theorem pieces_noWord : ∀ pattern ∈ errorPatterns, ∀ w ∈ pattern.words,
    (∀ piece ∈ pieces, NoWord pattern w piece) ∧
    (∀ level ∈ [Level.info, .warning], NoWord pattern w (headerTail level)) ∧
    (∀ file ∈ serviceLogs, NoWord pattern w (' ' :: file)) ∧
    ∀ label ∈ [ErrorLabel.pythonTraceback, .pythonException, .riskViolation, .portConflict],
      NoWord pattern w label.text.toList := by
  decide +kernel

theorem clean_of_noWord {text : Text}
    (free : ∀ pattern ∈ errorPatterns, ∀ w ∈ pattern.words, NoWord pattern w text) : Clean text :=
  clean_iff.mpr fun pattern known w word found => free pattern known w word (found.map Char.toNat)

theorem pieces_clean : pieces.Forall Clean :=
  List.forall_iff_forall_mem.mpr fun piece member =>
    clean_of_noWord fun pattern known w word => (pieces_noWord pattern known w word).1 piece member

theorem clean_level (level : Level) : Clean (headerTail level) :=
  clean_of_noWord fun pattern known w word =>
    (pieces_noWord pattern known w word).2.1 level (by cases level <;> decide)

theorem clean_of_serviceLog {file : Text} (member : file ∈ serviceLogs) : Clean (' ' :: file) :=
  clean_of_noWord fun pattern known w word =>
    (pieces_noWord pattern known w word).2.2.1 file member

/-- Two labels look like errors themselves. -/
theorem dirty_labels : ∀ label ∈ [ErrorLabel.genericError, .ipcProtocolError],
    "Error".toList.map foldCase <:+: label.text.toList.map foldCase := by decide +kernel

theorem clean_label_iff (label : ErrorLabel) :
    Clean label.text.toList ↔ label ≠ .genericError ∧ label ≠ .ipcProtocolError := by
  by_cases other : label ≠ .genericError ∧ label ≠ .ipcProtocolError
  · refine iff_of_true (clean_of_noWord fun pattern known w word => ?_) other
    refine (pieces_noWord pattern known w word).2.2.2 label ?_
    revert other
    cases label <;> decide
  · refine iff_of_false (fun clean => ?_) other
    have dirty : label ∈ [ErrorLabel.genericError, .ipcProtocolError] := by
      revert other
      cases label <;> decide
    exact clean_iff.mp clean generic (.tail _ (.tail _ (.head _))) "Error".toList
      (.tail _ (.head _)) (dirty_labels label dirty)

end Pieces

/-! ## Written lines -/

section Written

variable {stamp : Stamp} {level : Level}

theorem universalNewlines_append {front : Text} (free : '\r' ∉ front) (text : Text) :
    universalNewlines (front ++ text) = front ++ universalNewlines text := by
  induction front with
  | nil => rfl
  | cons c front ih =>
      obtain ⟨other, free⟩ := not_or.mp (mt List.mem_cons.mpr free)
      rw [List.cons_append, universalNewlines, ih free, List.cons_append]
      · rintro rest rfl
        exact absurd rfl other
      · rintro rfl
        exact absurd rfl other

/-- Text without an end of a line stays in front of the first line. -/
theorem linesOf_append {front : Text} (newline : '\n' ∉ front) (return_ : '\r' ∉ front)
    (text : Text) : linesOf (front ++ text) = (linesOf text).modifyHead (front ++ ·) := by
  rw [linesOf, universalNewlines_append return_, splitOn_append newline, linesOf]

theorem linesOf_of_not_mem {text : Text} (newline : '\n' ∉ text) (return_ : '\r' ∉ text) :
    linesOf text = [text] := by
  have unchanged := universalNewlines_append return_ []
  rw [universalNewlines, List.append_nil] at unchanged
  rw [linesOf, unchanged, splitOn_of_not_mem newline]

/-- The letters of a header. -/
def headerLetters : Text := stampLetters ++ headerText .info ++ headerText .warning

theorem header_only : ∀ c ∈ header stamp level, c ∈ headerLetters := by
  intro c member
  rcases List.mem_append.mp member with time | text
  · exact List.mem_append_left _ (List.mem_append_left _ (stamp.only c time))
  · cases level with
    | info => exact List.mem_append_left _ (List.mem_append_right _ text)
    | warning => exact List.mem_append_right _ text

/-- A text on one line. -/
def OneLine (text : Text) : Prop := '\n' ∉ text ∧ '\r' ∉ text

instance (text : Text) : Decidable (OneLine text) := inferInstanceAs (Decidable (_ ∧ _))

theorem headerLetters_oneLine : OneLine headerLetters := by decide +kernel

theorem header_oneLine : OneLine (header stamp level) :=
  ⟨fun there => headerLetters_oneLine.1 (header_only _ there),
    fun there => headerLetters_oneLine.2 (header_only _ there)⟩

theorem header_clean : Clean (header stamp level) := by
  have timed : Clean (stamp.text ++ [' ']) := by
    refine clean_of_letters (stampLetters ++ [' ']) (fun c member => ?_)
      fun pattern known w word => (words_spec pattern known w word).2.2.2.1
    rcases List.mem_append.mp member with time | blank
    · exact List.mem_append_left _ (stamp.only c time)
    · exact List.mem_append_right _ blank
  have cut : " [Orchestrator] ".toList = [' '] ++ '[' :: "Orchestrator] ".toList := by simp
  have split : header stamp level =
      (stamp.text ++ [' ']) ++ '[' :: ("Orchestrator] ".toList ++ level.text ++ ": ".toList) := by
    unfold header headerText
    rw [cut]
    simp only [List.append_assoc, List.cons_append, List.nil_append]
  rw [split, clean_bracket (.inl rfl)]
  exact ⟨timed, clean_level level⟩

theorem header_unmarked {marker : Text} (known : marker ∈ selfMarkers) :
    ¬ marker <:+: header stamp level := by
  obtain ⟨-, -, d, letter, absent⟩ := markers_spec marker known
  exact not_infix_of_letter letter fun there => absent (header_only d there)

variable (stamp level) in
theorem header_ends : ∃ front, header stamp level = front ++ [' '] := by
  have ends : ": ".toList = [':'] ++ [' '] := by simp
  refine ⟨stamp.text ++ (" [Orchestrator] ".toList ++ level.text ++ [':']), ?_⟩
  unfold header headerText
  rw [ends]
  simp only [List.append_assoc]

/-- The header adds nothing to an indented line. -/
theorem harmless_header {text : Text} :
    Harmless (header stamp level ++ ' ' :: text) ↔ Harmless (' ' :: text) := by
  obtain ⟨front, ends⟩ := header_ends stamp level
  have marked : SelfMarked (header stamp level ++ ' ' :: text) ↔ SelfMarked (' ' :: text) := by
    refine exists_congr fun marker => and_congr_right fun known => ?_
    rw [ends, infix_append_pair (markers_spec marker known).1, ← ends]
    exact or_iff_right (header_unmarked known)
  have clean : Clean (header stamp level ++ ' ' :: text) ↔ Clean (' ' :: text) := by
    rw [ends, clean_gap, ← ends]
    exact and_iff_right header_clean
  exact or_congr marked clean

/-- Every line in which the record is written is harmless. -/
def QuietRecord (record : LogRecord) : Prop :=
  ∀ stamp, ∀ line ∈ writtenLines stamp record, Harmless line

/-- **A report is quiet** if its records are. -/
theorem selfQuiet_iff {errors : List DetectedError} {history : List HealingEntry} :
    SelfQuiet errors history ↔
      ∀ sha256 around, ∀ record ∈ scanAndHeal sha256 around errors history, QuietRecord record := by
  constructor
  · intro quiet sha256 around record said stamp line written
    exact harmless_iff.mpr (quiet sha256 around record said stamp line written line
      List.mem_cons_self)
  · intro quiet sha256 around record said stamp line written reading read
    have harmless := quiet sha256 around record said stamp line written
    exact harmless_iff.mp ((harmless_reading read).mpr harmless)

theorem sample_only : ∀ c ∈ "2026-01-01T00:00:00".toList, c ∈ stampLetters := by
  have sub : "2026-01-01T00:00:00".toList ⊆ stampLetters := by decide
  exact fun _ member => sub member

/-- Some time or other. -/
def Stamp.sample : Stamp := ⟨"2026-01-01T00:00:00".toList, sample_only⟩

/-- An indented record is quiet if the lines of its message are harmless. -/
theorem quietRecord_iff {text : Text} :
    QuietRecord ⟨level, ' ' :: text⟩ ↔ ∀ line ∈ linesOf (' ' :: text), Harmless line := by
  have newline : '\n' ∉ [' '] := by decide
  have blank : linesOf (' ' :: text) = (linesOf text).modifyHead ([' '] ++ ·) :=
    linesOf_append newline (by decide) text
  have written (stamp : Stamp) : writtenLines stamp ⟨level, ' ' :: text⟩ =
      (linesOf (' ' :: text)).modifyHead (header stamp level ++ ·) :=
    linesOf_append header_oneLine.1 header_oneLine.2 _
  unfold QuietRecord
  simp only [written, blank]
  cases linesOf text with
  | nil => simp
  | cons first rest =>
      simp only [List.modifyHead_cons, List.forall_mem_cons]
      change (∀ stamp, Harmless (header stamp level ++ ' ' :: first) ∧ _) ↔
        Harmless (' ' :: first) ∧ _
      simp only [harmless_header]
      exact ⟨fun quiet => quiet .sample, fun quiet _ => quiet⟩

theorem OneLine.append {a b : Text} (left : OneLine a) (right : OneLine b) : OneLine (a ++ b) :=
  ⟨fun there => (List.mem_append.mp there).elim left.1 right.1,
    fun there => (List.mem_append.mp there).elim left.2 right.2⟩

theorem OneLine.linesOf {text : Text} (line : OneLine text) : linesOf text = [text] :=
  linesOf_of_not_mem line.1 line.2

/-- A record of one line that bears a mark is quiet. -/
theorem quiet_of_marked {text : Text} (line : OneLine text) (marked : SelfMarked text) :
    QuietRecord ⟨level, text⟩ := by
  intro stamp read member
  have whole : OneLine (header stamp level ++ text) := OneLine.append header_oneLine line
  rw [writtenLines, whole.linesOf] at member
  obtain rfl := List.mem_singleton.mp member
  obtain ⟨marker, known, found⟩ := marked
  exact .inl ⟨marker, known, List.infix_append_of_infix_right found⟩

/-- An indented record of one line is quiet if its message is harmless. -/
theorem quiet_of_harmless {text : Text} (line : OneLine text) (indented : text.head? = some ' ') :
    QuietRecord ⟨level, text⟩ ↔ Harmless text := by
  obtain ⟨rest, rfl⟩ := List.head?_eq_some_iff.mp indented
  rw [quietRecord_iff, line.linesOf, List.forall_mem_singleton]

end Written

/-! ## Records -/

section Records

variable {err : DetectedError}

theorem countText_oneLine (count : ℕ) : OneLine (countText count) := by
  have digit {c : Char} (there : c ∈ countText count) : c.isDigit = true :=
    Nat.isDigit_of_mem_toDigits (by decide) (by decide) there
  exact ⟨fun there => absurd (digit there) (by decide),
    fun there => absurd (digit there) (by decide)⟩

/-- A mark of a text is a mark of a longer one. -/
theorem SelfMarked.append {text : Text} (marked : SelfMarked text) (rest : Text) :
    SelfMarked (text ++ rest) := by
  obtain ⟨marker, known, found⟩ := marked
  exact ⟨marker, known, List.infix_append_of_infix_left found⟩

/-- A record of a marked text and a count is quiet. -/
theorem quiet_of_count {level : Level} {front back : Text} (count : ℕ) (marked : SelfMarked front)
    (lines : OneLine front ∧ OneLine back) :
    QuietRecord ⟨level, front ++ countText count ++ back⟩ := by
  refine quiet_of_marked ((lines.1.append (countText_oneLine count)).append lines.2) ?_
  rw [List.append_assoc]
  exact marked.append _

/-- The records that are the same in every report. -/
def fixedRecords : List LogRecord := [riskRecord, ipcRecord, restartRecord, noFixRecord]

/-- All of them but the restart bear a mark. -/
theorem marked_spec : ∀ record ∈ [riskRecord, ipcRecord, noFixRecord, cleanRecord],
    OneLine record.message ∧ SelfMarked record.message := by decide +kernel

theorem quiet_marked {record : LogRecord}
    (marked : record ∈ [riskRecord, ipcRecord, noFixRecord, cleanRecord]) : QuietRecord record :=
  quiet_of_marked (marked_spec record marked).1 (marked_spec record marked).2

theorem quiet_restartRecord : QuietRecord restartRecord := by
  have split : restartRecord =
      ⟨.info, "  ".toList ++ '[' :: ("RESTART".toList ++ ']' :: " constitution".toList)⟩ := by
    simp [restartRecord]
  rw [split]
  obtain ⟨blank, -, -, -, restart, constitution⟩ := pieces_clean
  refine (quiet_of_harmless (by decide) rfl).mpr (.inr ?_)
  rw [clean_bracket (.inl rfl), clean_bracket (.inr rfl)]
  exact ⟨blank, restart, constitution⟩

theorem quiet_fixed {record : LogRecord} (fixed : record ∈ fixedRecords) : QuietRecord record := by
  simp only [fixedRecords, List.mem_cons, List.not_mem_nil, or_false] at fixed
  rcases fixed with rfl | rfl | rfl | rfl
  · exact quiet_marked (by simp)
  · exact quiet_marked (by simp)
  · exact quiet_restartRecord
  · exact quiet_marked (by simp)

/-- The texts around the two counts of a report. -/
theorem counted_spec : ∀ texts ∈
    [("── Log Scan: ".toList, " error(s) detected in last 5min ──".toList),
      ("  Healing history: ".toList, " entries".toList)],
    OneLine texts.1 ∧ OneLine texts.2 ∧ SelfMarked texts.1 := by decide +kernel

theorem quiet_countRecord (count : ℕ) : QuietRecord (countRecord count) := by
  obtain ⟨front, back, marked⟩ := counted_spec _ (.head _)
  exact quiet_of_count count marked ⟨front, back⟩

theorem quiet_historyCount (count : ℕ) :
    QuietRecord ⟨.info, "  Healing history: ".toList ++ countText count ++ " entries".toList⟩ := by
  obtain ⟨front, back, marked⟩ := counted_spec _ (.tail _ (.head _))
  exact quiet_of_count count marked ⟨front, back⟩

/-! ### Labels -/

theorem serviceLogs_spec : ∀ file ∈ serviceLogs, OneLine file ∧
    ¬ SelfMarked ("  [ipc_protocol_error] ".toList ++ file) := by decide +kernel

theorem labels_oneLine (label : ErrorLabel) : OneLine label.text.toList := by
  cases label <;> decide

theorem bracketed (label : Text) (file : Text) :
    "  [".toList ++ label ++ "] ".toList ++ file =
      "  ".toList ++ '[' :: (label ++ ']' :: (' ' :: file)) := by
  have opened : "  [".toList = "  ".toList ++ ['['] := by simp
  have closed : "] ".toList = [']', ' '] := by simp
  rw [opened, closed]
  simp only [List.append_assoc, List.cons_append, List.nil_append]

/-- The line that names an error is quiet, unless it names an error of the protocol. -/
theorem quiet_labelRecord (named : err.file ∈ serviceLogs) :
    QuietRecord (labelRecord err) ↔ err.pattern ≠ .ipcProtocolError := by
  obtain ⟨fileLine, unmarked⟩ := serviceLogs_spec err.file named
  have labelLine := labels_oneLine err.pattern
  have line : OneLine (labelRecord err).message :=
    ((OneLine.append (by decide) labelLine).append (by decide)).append fileLine
  have pieces : Clean (labelRecord err).message ↔ Clean err.pattern.text.toList := by
    obtain ⟨blank, -⟩ := pieces_clean
    rw [labelRecord, bracketed, clean_bracket (.inl rfl), clean_bracket (.inr rfl)]
    exact ⟨fun clean => clean.2.1, fun clean => ⟨blank, clean, clean_of_serviceLog named⟩⟩
  have indented : (labelRecord err).message.head? = some ' ' := by
    rw [labelRecord, bracketed]
    rfl
  refine (quiet_of_harmless line indented).trans ?_
  rw [Harmless, pieces, clean_label_iff]
  constructor
  · rintro (marked | ⟨-, other⟩) protocol
    · have same : "  [ipc_protocol_error] ".toList =
          "  [".toList ++ ErrorLabel.ipcProtocolError.text.toList ++ "] ".toList := by
        simp [ErrorLabel.text]
      rw [labelRecord, protocol, ← same] at marked
      exact unmarked marked
    · exact other protocol
  · intro other
    by_cases generic : err.pattern = .genericError
    · have marked : SelfMarked
          ("  [".toList ++ ErrorLabel.genericError.text.toList ++ "] ".toList) :=
        ⟨"[generic_error]".toList, .tail _ (.head _), [' ', ' '], [' '], by decide⟩
      rw [labelRecord, generic]
      exact .inl (marked.append _)
    · exact .inr ⟨generic, other⟩

/-! ### Patches -/

theorem digitChar_mem {n : ℕ} (small : n < 16) : Nat.digitChar n ∈ hexLetters := by
  have all : ∀ n : Fin 16, Nat.digitChar n.val ∈ hexLetters := by decide
  exact all ⟨n, small⟩

theorem shortDigest_only (digest : List UInt8) :
    ∀ c ∈ shortDigest digest, c ∈ hexLetters := by
  intro c member
  obtain ⟨b, -, digit⟩ := List.mem_flatMap.mp (List.mem_of_mem_take member)
  rcases List.mem_cons.mp digit with rfl | low
  · exact digitChar_mem (Nat.mod_lt _ (by decide))
  · rw [List.mem_singleton.mp low]
    exact digitChar_mem (Nat.mod_lt _ (by decide))

/-- The line that reports a patch is quiet, whatever its id. -/
theorem quiet_healRecord (digest : List UInt8) : QuietRecord (healRecord (shortDigest digest)) := by
  have hex := shortDigest_only digest
  have idLine : OneLine (shortDigest digest) :=
    ⟨fun there => absurd (hex _ there) (by decide),
      fun there => absurd (hex _ there) (by decide)⟩
  have idClean : Clean (shortDigest digest) :=
    clean_of_letters _ hex fun pattern known w word => (words_spec pattern known w word).2.2.2.2
  have front : "  [HEAL]     Staged patch[".toList =
      "  ".toList ++ '[' :: ("HEAL".toList ++ ']' :: ("     Staged patch".toList ++ ['['])) := by
    simp
  have closed : "] for self-repair".toList = ']' :: " for self-repair".toList := by simp
  have line : OneLine (healRecord (shortDigest digest)).message :=
    (OneLine.append (by decide) idLine).append (by decide)
  have pieces : (healRecord (shortDigest digest)).message =
      "  ".toList ++ '[' :: ("HEAL".toList ++ ']' :: ("     Staged patch".toList ++ '[' ::
        (shortDigest digest ++ ']' :: " for self-repair".toList))) := by
    rw [healRecord, front, closed]
    simp only [List.append_assoc, List.cons_append, List.nil_append]
  obtain ⟨blank, heal, staged, selfRepair, -⟩ := pieces_clean
  refine (quiet_of_harmless line (by rw [pieces]; rfl)).mpr (.inr ?_)
  rw [pieces, clean_bracket (.inl rfl), clean_bracket (.inr rfl), clean_bracket (.inl rfl),
    clean_bracket (.inr rfl)]
  exact ⟨blank, heal, staged, idClean, selfRepair⟩

end Records

/-! ## Reports -/

section Reports

variable {sha256 : List UInt8 → List UInt8} {err : DetectedError} {record : LogRecord}

/-- A patch has the id of a digest. -/
theorem proposeFix_id {workspace : Workspace} {fileToFix : Option Text} {patchId : Text}
    (ok : (proposeFix sha256 workspace err fileToFix).result = .ok (some patchId)) :
    ∃ digest, patchId = shortDigest digest := by
  unfold proposeFix at ok
  by_cases risky : err.pattern = .riskViolation
  · simp [risky, skip] at ok
  · cases target : targetName err fileToFix with
    | none => simp [risky, target, skip] at ok
    | some name =>
        cases entry : workspace.entry name with
        | missing => simp [risky, target, entry, skip] at ok
        | unreadable => simp [risky, target, entry] at ok
        | file content relative =>
            by_cases changed : repair err.pattern err.line content = content
            · simp [risky, target, entry, changed, skip] at ok
            · cases relative with
              | none => simp [risky, target, entry, changed] at ok
              | some filePath =>
                  simp only [risky, target, entry, changed, if_false, ne_eq, not_false_eq_true,
                    if_true, Except.ok.injEq, Option.some.injEq] at ok
                  exact ⟨_, ok.symm⟩

/-- What is written of an error: its label, and a report of a patch or a fixed record. -/
theorem healError_records {around : Surroundings}
    (said : record ∈ (healError sha256 around err).1) :
    record = labelRecord err ∨ (∃ digest, record = healRecord (shortDigest digest)) ∨
      record ∈ fixedRecords := by
  have labelled {records : List LogRecord} (fixed : ∀ r ∈ records, r ∈ fixedRecords)
      (said : record ∈ labelRecord err :: records) :
      record = labelRecord err ∨ (∃ digest, record = healRecord (shortDigest digest)) ∨
        record ∈ fixedRecords :=
    (List.mem_cons.mp said).imp_right fun other => .inr (fixed record other)
  unfold healError at said
  split at said
  · exact labelled (by simp) said
  · rename_i c patchId ok
    obtain ⟨digest, same⟩ := proposeFix_id ok
    rcases List.mem_cons.mp said with label | heal
    · exact .inl label
    · exact .inr (.inl ⟨digest, by rw [List.mem_singleton.mp heal, same]⟩)
  · split at said
    · exact labelled (by simp [fixedRecords]) said
    · split at said
      · refine labelled ?_ said
        split <;> simp [fixedRecords]
      · exact labelled (by simp [fixedRecords]) said

theorem healErrors_records : ∀ {errors : List DetectedError} {around : ℕ → Surroundings},
    record ∈ (healErrors sha256 around errors).1 →
    (∃ err ∈ errors, record = labelRecord err) ∨
      (∃ digest, record = healRecord (shortDigest digest)) ∨ record ∈ fixedRecords
  | [], _, said => by cases said
  | err :: rest, around, said => by
      have first (here : record ∈ (healError sha256 (around 0) err).1) :
          (∃ e ∈ err :: rest, record = labelRecord e) ∨
            (∃ digest, record = healRecord (shortDigest digest)) ∨ record ∈ fixedRecords :=
        (healError_records here).imp_left fun label => ⟨err, List.mem_cons_self, label⟩
      unfold healErrors at said
      cases result : healError sha256 (around 0) err with
      | mk records raised =>
          rw [result] at said first
          cases raised with
          | true => exact first said
          | false =>
              rcases List.mem_append.mp said with here | later
              · exact first here
              · refine (healErrors_records later).imp_left ?_
                rintro ⟨e, member, label⟩
                exact ⟨e, List.mem_cons_of_mem _ member, label⟩

/-- A workspace without files: nothing is patched, and nothing raises. -/
def bare (_ : ℕ) : Surroundings := ⟨⟨id, fun _ => .missing⟩, false⟩

variable (sha256) in
theorem healError_bare (n : ℕ) (err : DetectedError) :
    (healError sha256 (bare n) err).2 = false ∧
      labelRecord err ∈ (healError sha256 (bare n) err).1 := by
  have none_ : (proposeFix sha256 (bare n).workspace err none).result = .ok none := by
    unfold proposeFix
    split
    · rfl
    · split <;> rfl
  unfold healError
  rw [none_]
  dsimp only
  split
  · exact ⟨rfl, List.mem_cons_self⟩
  · split
    · exact ⟨rfl, List.mem_cons_self⟩
    · exact ⟨rfl, List.mem_cons_self⟩

variable (sha256) in
/-- There every error is named. -/
theorem healErrors_bare (errors : List DetectedError) :
    (healErrors sha256 bare errors).2 = false ∧
      ∀ err ∈ errors, labelRecord err ∈ (healErrors sha256 bare errors).1 := by
  induction errors with
  | nil => exact ⟨rfl, fun err member => by cases member⟩
  | cons first rest ih =>
      obtain ⟨later, others⟩ := ih
      obtain ⟨finished, said⟩ := healError_bare sha256 0 first
      unfold healErrors
      cases result : healError sha256 (bare 0) first with
      | mk records raised =>
          rw [result] at finished said
          obtain rfl : raised = false := finished
          refine ⟨later, fun err member => ?_⟩
          rcases List.mem_cons.mp member with rfl | there
          · exact List.mem_append_left _ said
          · exact List.mem_append_right _ (others err there)

end Reports

/-! ## Feeding on itself -/

section Quiet

variable {errors : List DetectedError} {history : List HealingEntry}

/-- The lines in which an entry of the healing log is reported. -/
def entryLines (entry : HealingEntry) : List Text := linesOf (entryRecord entry).message

theorem quiet_entryRecord (entry : HealingEntry) :
    QuietRecord (entryRecord entry) ↔ ∀ line ∈ entryLines entry, Harmless line := by
  have opened : "    [".toList = ' ' :: [' ', ' ', ' ', '['] := by simp
  have indented : (entryRecord entry).message =
      ' ' :: ([' ', ' ', ' ', '['] ++ entry.action ++ "] ".toList ++ entry.file ++ ": ".toList ++
        entry.detail.take 60) := by
    rw [entryRecord, opened]
    rfl
  have record : entryRecord entry = ⟨.info, (entryRecord entry).message⟩ := rfl
  rw [entryLines, record, indented]
  exact quietRecord_iff

theorem quiet_historyRecords {record : LogRecord}
    (harmless : ∀ entry ∈ history.rtake 3, ∀ line ∈ entryLines entry, Harmless line)
    (said : record ∈ historyRecords history) : QuietRecord record := by
  unfold historyRecords at said
  split at said
  · cases said
  · rcases List.mem_cons.mp said with rfl | listed
    · exact quiet_historyCount _
    · obtain ⟨entry, member, rfl⟩ := List.mem_map.mp listed
      exact (quiet_entryRecord entry).mpr (harmless entry member)

/-- **The scan does not feed on itself** exactly if nothing was found, or none of the first
five errors is one of the protocol and the last three entries of the healing log are
reported in harmless lines. -/
theorem self_quiet_iff (errors : List DetectedError) (history : List HealingEntry)
    (named : ∀ err ∈ errors, err.file ∈ serviceLogs) :
    SelfQuiet errors history ↔
      errors = [] ∨ (∀ err ∈ errors.take 5, err.pattern ≠ .ipcProtocolError) ∧
        ∀ entry ∈ history.rtake 3, ∀ line ∈ entryLines entry, Harmless line := by
  have known {err : DetectedError} (member : err ∈ errors.take 5) : err.file ∈ serviceLogs :=
    named err (List.mem_of_mem_take member)
  rw [selfQuiet_iff]
  constructor
  · intro quiet
    refine or_iff_not_imp_left.mpr fun found => ?_
    obtain ⟨finished, said⟩ := healErrors_bare (fun _ => []) (errors.take 5)
    have report : scanAndHeal (fun _ => []) bare errors history =
        countRecord errors.length :: (healErrors (fun _ => []) bare (errors.take 5)).1 ++
          historyRecords history := by
      unfold scanAndHeal
      rw [if_neg found]
      cases result : healErrors (fun _ => []) bare (errors.take 5) with
      | mk records raised =>
          rw [result] at finished
          obtain rfl : raised = false := finished
          rfl
    have quiet := quiet (fun _ => []) bare
    rw [report] at quiet
    refine ⟨fun err member => ?_, fun entry member => ?_⟩
    · exact (quiet_labelRecord (known member)).mp
        (quiet _ (List.mem_append_left _ (List.mem_cons_of_mem _ (said err member))))
    · refine (quiet_entryRecord entry).mp (quiet _ (List.mem_append_right _ ?_))
      have some_ : history ≠ [] := by
        rintro rfl
        simp at member
      rw [historyRecords, if_neg some_]
      exact List.mem_cons_of_mem _ (List.mem_map_of_mem member)
  · rintro allowed sha256 around record said
    unfold scanAndHeal at said
    split at said
    · rw [List.mem_singleton.mp said]
      exact quiet_marked (by simp)
    · rename_i found
      obtain ⟨labels, entries⟩ := allowed.resolve_left found
      have healed (here : record ∈ (healErrors sha256 around (errors.take 5)).1) :
          QuietRecord record := by
        rcases healErrors_records here with ⟨err, member, rfl⟩ | ⟨digest, rfl⟩ | fixed
        · exact (quiet_labelRecord (known member)).mpr (labels err member)
        · exact quiet_healRecord digest
        · exact quiet_fixed fixed
      have counted := quiet_countRecord errors.length
      split at said
      · rename_i records result
        rw [result] at healed
        rcases List.mem_cons.mp said with rfl | here
        · exact counted
        · exact healed here
      · rename_i records result
        rw [result] at healed
        rcases List.mem_append.mp said with here | later
        · rcases List.mem_cons.mp here with rfl | here
          · exact counted
          · exact healed here
        · exact quiet_historyRecords entries later

end Quiet

/-! ### Poles -/

namespace Sample

/-- An exception in a service, and a message of the protocol that was refused. -/
def exception : DetectedError :=
  ⟨"trading-daemon.log".toList, .pythonException, "KeyError: 'BTC-PERP'".toList, 0⟩

def refusal : DetectedError :=
  ⟨"constitutiond.log".toList, .ipcProtocolError, "MalformedEnvelope".toList, 0⟩

/-- What the agent writes of a fix that it could not try. -/
def skipped : HealingEntry := ⟨"unknown".toList, "SKIP".toList, "Target file not found".toList⟩

end Sample

/-- Satisfiable pole: an exception that names no file. -/
theorem exception_quiet : SelfQuiet [Sample.exception] [Sample.skipped] :=
  (self_quiet_iff [Sample.exception] [Sample.skipped] (by decide +kernel)).mpr
    (.inr ⟨by decide +kernel, by decide +kernel⟩)

/-- Refuting pole: the report of a refused message is reported as an error by the next scan. -/
theorem refusal_fed_back :
    ¬ ∀ (errors : List DetectedError) (history : List HealingEntry),
      (∀ err ∈ errors, err.file ∈ serviceLogs) → SelfQuiet errors history := by
  intro quiet
  refine quiet [Sample.refusal] [] (by decide +kernel) (fun _ => []) bare
    (labelRecord Sample.refusal) (by decide +kernel) .sample
    (header .sample .warning ++ (labelRecord Sample.refusal).message) (by decide +kernel)
    (header .sample .warning ++ (labelRecord Sample.refusal).message) List.mem_cons_self
    (fun _ => .seconds 0) 0 .genericError ?_
  decide +kernel

end CentaurApex.Evolution
