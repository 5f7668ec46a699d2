/-
# Evolution.CodeAgent -- what the evolution agent reads in the logs, and what it patches

`scanLogsForErrors` reads the last lines of every log and reports those that look like
errors: a line that is recent enough, bears no mark of the agent's own reports, and is
matched by one of the error patterns, of which the first to match gives it its label.
`proposeFix` takes such a report, finds the file it is about, and stages a patch of it --
unless the report is labelled a risk violation, which is for people to decide.

Texts are lists of characters, as `read_text` returns them.  What the file system holds
(`Workspace`, `LogFile`), how a timestamp becomes seconds, and SHA-256 are given from
outside.
-/
import CentaurApex.Theory.ExtNum
import CentaurApex.Theory.JsonText
import CentaurApex.Theory.Regex

namespace CentaurApex.Evolution

open CentaurApex.Theory

set_option autoImplicit false

abbrev Text : Type := List Char

/-! ## Python's characters -/

/-- The code points of white space. -/
def spaces : List ℕ :=
  [0x9, 0xA, 0xB, 0xC, 0xD, 0x1C, 0x1D, 0x1E, 0x1F, 0x20, 0x85, 0xA0, 0x1680, 0x2000, 0x2001,
    0x2002, 0x2003, 0x2004, 0x2005, 0x2006, 0x2007, 0x2008, 0x2009, 0x200A, 0x2028, 0x2029,
    0x202F, 0x205F, 0x3000]

/-- `str.isspace` -/
def isSpace (c : Char) : Bool := c.toNat ∈ spaces

/-- `str.strip()` -/
def strip (text : Text) : Text := (text.dropWhile isSpace).rdropWhile isSpace

/-- The zeros of Unicode's decimal digits; each is followed by its nine. -/
def decimalZeros : List ℕ :=
  [0x30, 0x660, 0x6F0, 0x7C0, 0x966, 0x9E6, 0xA66, 0xAE6, 0xB66, 0xBE6, 0xC66, 0xCE6, 0xD66,
    0xDE6, 0xE50, 0xED0, 0xF20, 0x1040, 0x1090, 0x17E0, 0x1810, 0x1946, 0x19D0, 0x1A80, 0x1A90,
    0x1B50, 0x1BB0, 0x1C40, 0x1C50, 0xA620, 0xA8D0, 0xA900, 0xA9D0, 0xA9F0, 0xAA50, 0xABF0,
    0xFF10, 0x104A0, 0x10D30, 0x11066, 0x110F0, 0x11136, 0x111D0, 0x112F0, 0x11450, 0x114D0,
    0x11650, 0x116C0, 0x11730, 0x118E0, 0x11950, 0x11C50, 0x11D50, 0x11DA0, 0x16A60, 0x16AC0,
    0x16B50, 0x1D7CE, 0x1D7D8, 0x1D7E2, 0x1D7EC, 0x1D7F6, 0x1E140, 0x1E2F0, 0x1E950, 0x1FBF0]

/-- The value of a decimal digit. -/
def digitValue (c : Char) : Option ℕ :=
  (decimalZeros.find? fun nought => nought ≤ c.toNat ∧ c.toNat < nought + 10).map (c.toNat - ·)

/-- `\d` -/
def isDigit (c : Char) : Bool := (digitValue c).isSome

/-- `int(digits)` -/
def intOf (digits : Text) : ℕ := digits.foldl (fun n c => 10 * n + (digitValue c).getD 0) 0

/-- The letters that `re.IGNORECASE` takes for the same: their lower case, with the dotted
capital and the dotless `i`, the long `s` and the Kelvin sign. -/
def foldCase (c : Char) : Char :=
  match c.toNat with
  | 0x130 | 0x131 => 'i'
  | 0x17F => 's'
  | 0x212A => 'k'
  | _ => c.toLower

/-! ## Patterns -/

inductive ErrorLabel where
  | pythonTraceback
  | pythonException
  | genericError
  | ipcProtocolError
  | riskViolation
  | portConflict
  deriving DecidableEq, Repr

def ErrorLabel.text : ErrorLabel → String
  | pythonTraceback => "python_traceback"
  | pythonException => "python_exception"
  | genericError => "generic_error"
  | ipcProtocolError => "ipc_protocol_error"
  | riskViolation => "risk_violation"
  | portConflict => "port_conflict"

/-- A compiled pattern that lists words, and the label it gives. -/
structure ErrorPattern where
  first : Text
  rest : List Text
  ignoreCase : Bool
  label : ErrorLabel

namespace ErrorPattern

variable (pattern : ErrorPattern)

def fold : Char → Char := if pattern.ignoreCase then foldCase else id

def words : List Text := pattern.first :: pattern.rest

/-- `pattern.search(line)` finds something. -/
def Search (line : Text) : Prop :=
  ((Regex.words pattern.first pattern.rest).search pattern.fold line).isSome = true

instance (line : Text) : Decidable (pattern.Search line) := inferInstanceAs (Decidable (_ = true))

theorem search_iff {line : Text} :
    pattern.Search line ↔ ∃ w ∈ pattern.words, w.map pattern.fold <:+: line.map pattern.fold :=
  Regex.found_words

end ErrorPattern

def traceback : ErrorPattern :=
  ⟨"Traceback (most recent call last)".toList, [], false, .pythonTraceback⟩

def exceptions : ErrorPattern :=
  ⟨"SyntaxError".toList, ["TypeError".toList, "AttributeError".toList, "ValueError".toList,
    "KeyError".toList, "ImportError".toList, "NameError".toList, "RuntimeError".toList,
    "PermissionError".toList, "TimeoutError".toList, "ConnectionRefusedError".toList,
    "ConnectionResetError".toList, "FileNotFoundError".toList, "ZeroDivisionError".toList],
    false, .pythonException⟩

def generic : ErrorPattern :=
  ⟨"Failed".toList, ["Error".toList, "Panic".toList, "panic".toList, "CRITICAL".toList,
    "FATAL".toList], true, .genericError⟩

def protocol : ErrorPattern :=
  ⟨"MalformedEnvelope".toList, ["MalformedFrame".toList, "oversized_frame".toList,
    "version_mismatch".toList], false, .ipcProtocolError⟩

def risk : ErrorPattern :=
  ⟨"MaxDrawdown".toList, ["EmergencyHalt".toList, "liquidation".toList], false, .riskViolation⟩

def port : ErrorPattern :=
  ⟨"bind".toList, ["address already in use".toList, "EADDRINUSE".toList], false, .portConflict⟩

def errorPatterns : List ErrorPattern := [traceback, exceptions, generic, protocol, risk, port]

def selfMarkers : List Text :=
  ["Log Scan:".toList, "[generic_error]".toList, "[SKIP]".toList, "Healing history:".toList,
    "Cannot infer target file from:".toList]

/-- The line is one of the agent's own reports. -/
def SelfMarked (line : Text) : Prop := ∃ marker ∈ selfMarkers, marker <:+: line

instance (line : Text) : Decidable (SelfMarked line) :=
  inferInstanceAs (Decidable (∃ marker ∈ selfMarkers, _))

/-- The label of the first pattern that matches. -/
def firstLabel (line : Text) : Option ErrorLabel :=
  (errorPatterns.find? fun pattern => pattern.Search line).map ErrorPattern.label

/-! ## Scanning -/

/-- What `time.mktime(time.strptime(ts, ...))` does with a timestamp. -/
inductive Epoch where
  | seconds (t : ExtNum ℚ)
  | valueError
  | raises

/-- `_ts_to_epoch`, unless another exception leaves it. -/
def tsToEpoch (mktime : Text → Epoch) (ts : Text) : Option (ExtNum ℚ) :=
  match mktime ts with
  | .seconds t => some t
  | .valueError => some .posInf
  | .raises => none

def digits (n : ℕ) : Regex Char := .many isDigit n (some n)

/-- `_LINE_TS_RE` -/
def lineTsRe : Regex Char :=
  .group <| .seq (digits 4) <| .seq (.text ['-']) <| .seq (digits 2) <| .seq (.text ['-']) <|
    .seq (digits 2) <| .seq (.text ['T']) <| .seq (digits 2) <| .seq (.text [':']) <|
      .seq (digits 2) <| .seq (.text [':']) (digits 2)

inductive LineResult where
  | passed
  | hit (label : ErrorLabel)
  | raised
  deriving DecidableEq

/-- The line is no report of the agent's, and a pattern matches. -/
def judge (line : Text) : LineResult :=
  if SelfMarked line then .passed
  else match firstLabel line with
    | some label => .hit label
    | none => .passed

section Scan

variable (mktime : Text → Epoch) (cutoff : ExtNum ℚ)

/-- The body of the loop over the lines of a log. -/
def scanLine (line : Text) : LineResult :=
  match (lineTsRe.match? id line).bind Match.group with
  | some ts =>
      match tsToEpoch mktime ts with
      | some epoch => if epoch < cutoff then .passed else judge line
      | none => .raised
  | none => judge line

structure DetectedError where
  file : Text
  pattern : ErrorLabel
  line : Text
  timestamp : ExtNum ℚ
  deriving DecidableEq

/-- A log as the scan finds it; without a content where it cannot be read. -/
structure LogFile where
  name : Text
  mtime : ExtNum ℚ
  content : Option Text

/-- What is reported of a line. -/
def LogFile.error (log : LogFile) (label : ErrorLabel) (line : Text) : DetectedError :=
  ⟨log.name, label, (strip line).take 200, log.mtime⟩

/-- The loop over the lines; an exception ends it, and the log. -/
def scanLines (log : LogFile) : List Text → List DetectedError
  | [] => []
  | line :: rest =>
      match scanLine mktime cutoff line with
      | .passed => scanLines log rest
      | .hit label => log.error label line :: scanLines log rest
      | .raised => []

/-- The lines of a log that are looked at. -/
def LogFile.lines (log : LogFile) : List Text :=
  match log.content with
  | some content =>
      if content = [] then []
      else ((strip content).splitOn '\n').rtake 1000
  | none => []

def scanFile (log : LogFile) : List DetectedError :=
  if ".rotated.log".toList <:+ log.name then []
  else if log.mtime < cutoff then []
  else scanLines mktime cutoff log log.lines

/-- The logs of a directory, if there is one. -/
def scanLogsForErrors (logs : Option (List LogFile)) : List DetectedError :=
  (logs.getD []).flatMap (scanFile mktime cutoff)

end Scan

/-! ## Fixing -/

/-- A file that a path names: whether it is there, and can be read; with its content, and its
path relative to the workspace, if it is below it. -/
inductive SourceFile where
  | missing
  | unreadable
  | file (content : Text) (relative : Option Text)

structure Workspace where
  /-- `str(workspace_root / name)` -/
  path : Text → Text
  entry : Text → SourceFile

structure HealingEntry where
  file : Text
  action : Text
  detail : Text
  deriving DecidableEq

structure StagedPatch where
  patchId : Text
  metadata : Text
  content : Text
  deriving DecidableEq

/-- What a call of `propose_fix` comes to: its result, if it returns, the patch it wrote,
and the entries it made in the healing log. -/
structure FixOutcome where
  result : Except Unit (Option Text)
  staged : Option StagedPatch
  healing : List HealingEntry

def lowerHex (n : ℕ) : Char := Nat.digitChar (n % 16)

/-- `hexdigest()[:12]` -/
def shortDigest (digest : List UInt8) : Text :=
  (digest.flatMap fun b => [lowerHex (b.toNat / 16), lowerHex b.toNat]).take 12

/-- `([a-zA-Z_][a-zA-Z0-9_/]*\.py)` -/
def pyFileRe : Regex Char :=
  .group <| .seq (.many (fun c => c.isAlpha || c = '_') 1 (some 1)) <|
    .seq (.many (fun c => c.isAlphanum || c = '_' || c = '/') 0 none) (.text ".py".toList)

/-- The text of a quoted name: `'([^']+)'` -/
def quoted : Regex Char :=
  .seq (.text ['\'']) <| .seq (.group (.many (· ≠ '\'') 1 none)) (.text ['\''])

def noModuleRe : Regex Char := .seq (.text "No module named ".toList) quoted

def notDefinedRe : Regex Char :=
  .seq (.text "name ".toList) <| .seq quoted (.text " is not defined".toList)

/-- `(\d{4,5})` -/
def portRe : Regex Char := .group (.many isDigit 4 (some 5))

/-- What a pattern's group holds where the line first matches it. -/
def searchGroup (re : Regex Char) (line : Text) : Option Text :=
  (re.search id line).bind Match.group

/-- `main()`, tried three times. -/
def retryWrapper : Text :=
  ("for attempt in range(3):\n" ++
    "    try:\n" ++
    "        main()\n" ++
    "        break\n" ++
    "    except Exception:\n" ++
    "        import time; time.sleep(2)\n").toList

/-- `f":{port}"` -/
def portText (port : ℕ) : Text := ':' :: Nat.toDigits 10 port

/-- The content of a file after the fix for an error. -/
def repair (pattern : ErrorLabel) (line content : Text) : Text :=
  if pattern.text = "ImportError" ∨ "ImportError".toList <:+: line then
    match searchGroup noModuleRe line with
    | some mod => "import ".toList ++ mod ++ '\n' :: content
    | none => content
  else if pattern.text = "NameError" then
    match searchGroup notDefinedRe line with
    | some var => var ++ " = None  # auto-init\n".toList ++ content
    | none => content
  else if pattern = .portConflict then
    match searchGroup portRe line with
    | some text =>
        let port := intOf text + 1
        if portText (port - 1) <:+: content then
          replaceFirst (portText (port - 1)) (portText port) content
        else content
    | none => content
  else if ¬ "try:".toList <:+: content.take 200 ∧ "def main".toList <:+: content then
    replaceFirst "main()".toList retryWrapper content
  else content

section Fix

-- `sha256`: the digest of some bytes
variable (sha256 : List UInt8 → List UInt8)

/-- `stage_patch`: the patch that is written, under the id of its content. -/
def stagePatch (filePath proposedContent reason : Text) : StagedPatch :=
  ⟨shortDigest (sha256 (utf8 proposedContent)),
    "# REASON: ".toList ++ reason ++ "\n# TARGET: ".toList ++ filePath ++ "\n\n".toList,
    proposedContent⟩

/-- The file to fix: the one that is given, or the first that the line names. -/
def targetName (error : DetectedError) : Option Text → Option Text
  | some (c :: name) => some (c :: name)
  | _ => searchGroup pyFileRe error.line

/-- `propose_fix` gives up, and says why in the healing log. -/
def skip (file detail : Text) : FixOutcome := ⟨.ok none, none, [⟨file, "SKIP".toList, detail⟩]⟩

def proposeFix (workspace : Workspace) (error : DetectedError) (fileToFix : Option Text) :
    FixOutcome :=
  if error.pattern = .riskViolation then
    skip "unknown".toList
      ("Risk violation — requires human quorum: ".toList ++ error.line.take 80)
  else match targetName error fileToFix with
    | none =>
        skip "unknown".toList ("Cannot infer target file from: ".toList ++ error.line.take 80)
    | some name =>
        match workspace.entry name with
        | .missing => skip (workspace.path name) "Target file not found".toList
        | .unreadable => ⟨.error (), none, []⟩
        | .file original relative =>
            let content := repair error.pattern error.line original
            if content ≠ original then
              match relative with
              | none => ⟨.error (), none, []⟩
              | some filePath =>
                  let patch := stagePatch sha256 filePath content
                    ("Auto-fix for ".toList ++ error.pattern.text.toList ++ ": ".toList ++
                      error.line.take 80)
                  ⟨.ok (some patch.patchId), some patch, []⟩
            else
              skip (workspace.path name)
                ("No auto-fix pattern matched for ".toList ++ error.pattern.text.toList)

end Fix

end CentaurApex.Evolution
