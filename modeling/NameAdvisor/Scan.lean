import NameAdvisor.Advisor
import NameAdvisor.Json.Printer
import NameAdvisor.Source.Analysis

/-!
# Scans

A scan reports on every identifier of some files, in the order of the files and of their declarations.

## Main definitions

* `Finding`: an identifier and the report on it.
* `FileScan`: the findings in a file.
* `Scan.run`: the findings in some files, and the advisor after them.
* `Scan.text`, `Scan.lines`: a scan as text, and as one JSON object per finding.
-/

namespace NameAdvisor

/-- An identifier and the report on it. -/
structure Finding where
  identifier : Identifier
  report : Report
  deriving DecidableEq, Repr, Inhabited

/-- The findings in a file. -/
structure FileScan where
  file : Path
  domain : Domain
  findings : List Finding
  deriving DecidableEq, Repr, Inhabited

/-- The numbers of files that could be analysed and of identifiers in them. -/
structure ScanTotals where
  files : Nat
  identifiers : Nat
  deriving DecidableEq, Repr, Inhabited

namespace Finding

def rightAligned (width : Nat) (s : String) : String :=
  String.ofList (List.replicate (width - s.toList.length) ' ') ++ s

def lineText (f : Finding) : String :=
  match f.identifier.line with
  | some n => toString n
  | none => "?"

def text (f : Finding) : String :=
  "  " ++ rightAligned 4 f.lineText ++ "  " ++ f.identifier.kind.name ++ " " ++ f.identifier.name ++ ": " ++
    ", ".intercalate f.report.suggestions ++ "  (" ++ f.report.provider.getD "rules" ++ ")\n"

def toJson (file : Path) (f : Finding) : Json :=
  .object ([("file", .string file.text), ("name", .string f.identifier.name), ("kind", f.identifier.kind.toJson),
    ("line", match f.identifier.line with
      | some n => .nat n
      | none => .null)] ++ f.report.members)

end Finding

namespace FileScan

/-- The findings in a file as text, under a line for the file; nothing if there are none. -/
def text (s : FileScan) : String :=
  if s.findings.isEmpty then ""
  else s.file.text ++ " [" ++ s.domain.name ++ "]\n" ++ String.join (s.findings.map Finding.text)

/-- The findings in a file as lines of JSON. -/
def lines (s : FileScan) : List String :=
  s.findings.map fun f => (f.toJson s.file).compact

end FileScan

namespace Scan

variable {π : Type} [NameSource π]

/-- The findings for some identifiers of a file, and the advisor after them. -/
def findings (context : FileContext) (a : Advisor π) : List Identifier → List Finding × Advisor π
  | [] => ([], a)
  | i :: rest =>
    let (report, a) := a.resolve i.name i.kind i.sourceContext context
    let (found, a) := findings context a rest
    (⟨i, report⟩ :: found, a)

/-- The findings in some files, and the advisor after them.  Files that cannot be analysed are left out. -/
def run (fs : FileSystem) (a : Advisor π) : List Path → List FileScan × Advisor π
  | [] => ([], a)
  | p :: rest =>
    match Analysis.ofFile fs p with
    | .error _ => run fs a rest
    | .ok analysis =>
      let (found, a) := findings analysis.fileContext a analysis.identifiers
      let (scans, a) := run fs a rest
      (⟨p, analysis.fileContext.domain, found⟩ :: scans, a)

def text (scans : List FileScan) : String :=
  String.join (scans.map FileScan.text)

/-- A scan as lines of JSON, one for each finding. -/
def lines (scans : List FileScan) : List String :=
  scans.flatMap FileScan.lines

def render (asJson : Bool) (scans : List FileScan) : String :=
  if asJson then String.join ((lines scans).map (· ++ "\n")) else text scans

/-- How much a scan covers. -/
def totals (scans : List FileScan) : ScanTotals where
  files := scans.length
  identifiers := (scans.flatMap (·.findings)).length

end Scan

end NameAdvisor
