import NameAdvisor.Review.Session
import NameAdvisor.Proofs.Advice.Report

/-!
# The course of a review

A review seen as loops within loops: over the files, over the identifiers of each, and over the replies to the menu
of an identifier until one of them chooses something.  Each loop carries on the lines that are still to be read.

## Main definitions

* `Review.Visit`: an identifier that was presented, with the replies to its menu.
* `Review.Course`: how far a review has come.
* `Review.Course.ofFiles`: the course of a review of some files, with the lines of an input.
-/

namespace NameAdvisor.Review

/-- An identifier that was presented, with the replies to its menu. -/
structure Visit where
  menu : Menu
  /-- The replies that chose nothing, in order. -/
  refused : List String
  /-- The reply that chose something, and its choice; nothing if the input ended before. -/
  reply : Option (String × Choice)

namespace Visit

def lines (v : Visit) : List String :=
  v.refused ++ (v.reply.map (·.1)).toList

/-- The name that was chosen, unless the review ended here. -/
def selected? (v : Visit) : Option String :=
  v.reply.bind (v.menu.chosen ·.2)

/-- What is handed to the log, unless the review ended here. -/
def decision? (now : Timestamp) (v : Visit) : Option Decision :=
  v.selected?.map (⟨now, v.menu.file, v.menu.identifier, v.menu.context, v.menu.suggestions, ·⟩)

/-- Whether the reply is one of the numbers of the suggestions. -/
def selects (v : Visit) : Bool :=
  match v.reply with
  | some (_, .select _) => true
  | _ => false

def quits (v : Visit) : Bool :=
  match v.reply with
  | some (_, .quit) => true
  | _ => false

/-- The identifier, with its file and what is known of that. -/
def place (v : Visit) : Path × FileContext × Identifier :=
  (v.menu.file, v.menu.context, v.menu.identifier)

end Visit

/-- How far a review has come. -/
structure Course (π : Type) where
  advisor : Advisor π
  fileSystem : FileSystem
  /-- The lines that were not read. -/
  unread : List String
  /-- The files that could be analysed, in order. -/
  opened : List (Path × Analysis) := []
  visits : List Visit := []
  output : String := ""
  /-- Whether a reply or the end of the input has ended the review. -/
  finished : Bool := false

namespace Course

variable {π : Type}

def say (c : Course π) (text : String) : Course π :=
  { c with output := c.output ++ text }

@[simp] theorem advisor_say (c : Course π) (text : String) : (c.say text).advisor = c.advisor := rfl
@[simp] theorem fileSystem_say (c : Course π) (text : String) : (c.say text).fileSystem = c.fileSystem := rfl
@[simp] theorem unread_say (c : Course π) (text : String) : (c.say text).unread = c.unread := rfl
@[simp] theorem opened_say (c : Course π) (text : String) : (c.say text).opened = c.opened := rfl
@[simp] theorem visits_say (c : Course π) (text : String) : (c.say text).visits = c.visits := rfl
@[simp] theorem output_say (c : Course π) (text : String) : (c.say text).output = c.output ++ text := rfl
@[simp] theorem finished_say (c : Course π) (text : String) : (c.say text).finished = c.finished := rfl

theorem say_say (c : Course π) (text text' : String) : (c.say text).say text' = c.say (text ++ text') := by
  simp [say, String.append_assoc]

variable [NameSource π] (now : Timestamp) (log : DecisionLog)

/-- The course after the last reply to a menu, with the lines after that reply. -/
def settle (c : Course π) (v : Visit) (rest : List String) : Course π :=
  let c := { c with unread := rest, visits := c.visits ++ [v] }
  match v.decision? now with
  | none => { c with finished := true }
  | some d =>
    let (logged, fileSystem) := log.record c.fileSystem d
    let warning := match logged with
      | .ok _ => ""
      | .error _ => v.menu.notLogged
    { c with fileSystem }.say (v.menu.confirmation d.selected ++ warning)

/-- What is said of a reply that chooses nothing. -/
def complaint (line : String) : String :=
  "  invalid choice: " ++ Text.trim line ++ "\n"

/-- The replies to a menu: those that choose nothing are refused, and the menu waits for another. -/
def ask (c : Course π) (m : Menu) (refused : List String) : List String → Course π
  | [] => settle now log (c.say m.prompt) ⟨m, refused, none⟩ []
  | line :: rest =>
    match Choice.read line m.suggestions.length with
    | some choice => settle now log (c.say m.prompt) ⟨m, refused, some (line, choice)⟩ rest
    | none => ask (c.say (m.prompt ++ complaint line)) m (refused ++ [line]) rest

/-- The menu of an identifier, and the advisor after it. -/
def menuOf (a : Advisor π) (file : Path) (context : FileContext) (i : Identifier) : Menu × Advisor π :=
  let (report, advisor) := a.resolve i.name i.kind i.sourceContext context
  (⟨file, context, i, report.suggestions, []⟩, advisor)

/-- The course after an identifier of a file. -/
def visit (file : Path) (context : FileContext) (c : Course π) (i : Identifier) : Course π :=
  if c.finished then c
  else
    let (m, advisor) := menuOf c.advisor file context i
    ask now log ({ c with advisor }.say m.text) m [] c.unread

/-- What is said of a file that cannot be analysed. -/
def skipped (p : Path) (e : AnalysisError) : String :=
  "\nFile: " ++ p.text ++ "\n" ++ ("  skipped: " ++ e.message ++ "\n")

/-- What is said of a file that can be analysed, before its identifiers. -/
def introduction (p : Path) (a : Analysis) : String :=
  "\nFile: " ++ p.text ++ "\n" ++
    if a.identifiers.isEmpty then "  No identifiers to review in this file.\n" else fileSummary a

/-- The course after a file was opened. -/
def openFile (c : Course π) (p : Path) (a : Analysis) : Course π :=
  { c with opened := c.opened ++ [(p, a)] }.say (introduction p a)

/-- The course after a file. -/
def file (c : Course π) (p : Path) : Course π :=
  if c.finished then c
  else
    match Analysis.ofFile c.fileSystem p with
    | .error e => c.say (skipped p e)
    | .ok a => a.identifiers.foldl (visit now log p a.fileContext) (c.openFile p a)

/-- The course of a review before its first file. -/
def initial (advisor : Advisor π) (fileSystem : FileSystem) (files : List Path) (lines : List String) : Course π where
  advisor := advisor
  fileSystem := fileSystem
  unread := lines
  output := "Found " ++ toString files.length ++ " files to analyze.\n"

/-- The course of a review of some files, with the lines of an input. -/
def ofFiles (advisor : Advisor π) (fileSystem : FileSystem) (files : List Path) (lines : List String) : Course π :=
  files.foldl (file now log) (initial advisor fileSystem files lines)

/-- What the review has covered. -/
def stats (c : Course π) : ReviewStats where
  files := c.opened.length
  identifiers := (c.opened.flatMap (·.2.identifiers)).length
  renamed := c.visits.countP (·.selects)

end Course

end NameAdvisor.Review
