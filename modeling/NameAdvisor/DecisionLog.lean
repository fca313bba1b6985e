import NameAdvisor.FileContext
import NameAdvisor.FileSystem.Basic
import NameAdvisor.Time.Timestamp

/-!
# The log of decisions

Decisions are added to the first file of a list that can be opened.  An empty file first gets a title.

## Main definitions

* `Decision`: a choice of a name, with what was known about it.
* `Decision.entry`: its section of the log.
* `DecisionLog.record`: adding a section.
-/

namespace NameAdvisor

/-- A choice of a name. -/
structure Decision where
  time : Timestamp
  file : Path
  identifier : Identifier
  fileContext : FileContext
  /-- The names that were offered, in order. -/
  suggestions : List String
  /-- The name that was chosen; the present one if it was kept. -/
  selected : String
  deriving Inhabited

namespace Decision

/-- The name of the file, or its whole path if that does not end in a name. -/
def fileName (d : Decision) : String :=
  d.file.fileName?.getD d.file.text

def lineText (d : Decision) : String :=
  match d.identifier.line with
  | some n => toString n
  | none => "N/A"

/-- `s` between backticks. -/
def code (s : String) : String :=
  "`" ++ s ++ "`"

/-- The lines of a section, without their line breaks. -/
def lines (d : Decision) : List String :=
  ["## " ++ d.time.text ++ " - " ++ d.fileName,
    "- **File**: " ++ code d.file.text,
    "- **Kind**: " ++ d.identifier.kind.name,
    "- **Line**: " ++ d.lineText,
    "- **Original**: " ++ code d.identifier.name,
    "- **Domain**: " ++ d.fileContext.domain.name,
    "- **Suggestions**: " ++ ", ".intercalate (d.suggestions.map code),
    "- **Selected**: " ++ code d.selected,
    ""]

/-- The section of the log for a decision: a heading, a list and an empty line. -/
def entry (d : Decision) : String :=
  String.join (d.lines.map (· ++ "\n"))

end Decision

/-- The files that may hold the log, in the order in which they are tried. -/
structure DecisionLog where
  candidates : List Path
  deriving DecidableEq, Repr, Inhabited

namespace DecisionLog

def fileName : Path := ⟨"namer-suggester.log"⟩

def header : String := "# Name suggestion log\n\n"

/-- A log of which no file can be opened, with the files that were tried. -/
structure Unwritable where
  tried : List Path
  deriving DecidableEq, Repr

def Unwritable.message (u : Unwritable) : String :=
  "no writable log location (tried " ++ ", ".intercalate (u.tried.map Path.text) ++ ")"

/-- Adds `text` to the first of `candidates` that can be opened: that file, and the changed file system. -/
def appendTo (fs : FileSystem) (text : String) : List Path → Option (Path × FileSystem)
  | [] => none
  | p :: rest =>
    match fs.append p (Utf8.encode header) (Utf8.encode text) with
    | .ok fs => some (p, fs)
    | .error _ => appendTo fs text rest

/-- Adds a decision to the log: the file that took it, and the changed file system. -/
def record (log : DecisionLog) (fs : FileSystem) (d : Decision) : Except Unwritable Path × FileSystem :=
  match appendTo fs d.entry log.candidates with
  | some (p, fs) => (.ok p, fs)
  | none => (.error ⟨log.candidates⟩, fs)

end DecisionLog

end NameAdvisor
