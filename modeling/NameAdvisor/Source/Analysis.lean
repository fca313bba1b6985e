import NameAdvisor.FileSystem.Basic
import NameAdvisor.Source.Context
import NameAdvisor.Source.Declarations

/-!
# Analysis of source files

## Main definitions

* `Analysis`: the identifiers of a file and their common context.
* `Analysis.ofSource`: the analysis of a text.
* `Analysis.ofFile`: the analysis of a file, by its extension.
-/

namespace NameAdvisor

/-- The identifiers of a file, in order, and their common context. -/
structure Analysis where
  identifiers : List Identifier
  fileContext : FileContext
  deriving DecidableEq, Repr, Inhabited

/-- Why a file cannot be analysed. -/
inductive AnalysisError where
  /-- The file cannot be read. -/
  | access (file : Path) (error : FileSystem.Error)
  /-- The file is not a source file. -/
  | unsupported (file : Path)
  deriving DecidableEq, Repr

def AnalysisError.message : AnalysisError → String
  | access file error => "failed to read " ++ file.text ++ ": " ++ error.message
  | unsupported file => "unsupported source file: " ++ file.text

namespace Analysis

def toJson (a : Analysis) : Json :=
  .object [("identifiers", .array (a.identifiers.map Identifier.toJson)), ("fileContext", a.fileContext.toJson)]

/-- The analysis of a text. -/
def ofSource (language : SourceLanguage) (source : String) : Analysis :=
  let chars := source.toList
  { identifiers := Declaration.inTree chars (Tree.ofSource language chars)
    fileContext := FileContext.ofSource chars }

def ofFile (fs : FileSystem) (p : Path) : Except AnalysisError Analysis :=
  match SourceLanguage.ofPath? p with
  | none => .error (.unsupported p)
  | some language =>
    match fs.readText p with
    | .error e => .error (.access p e)
    | .ok source => .ok (ofSource language source)

end Analysis

end NameAdvisor
