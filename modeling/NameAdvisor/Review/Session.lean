import NameAdvisor.DecisionLog
import NameAdvisor.Review.Choice
import NameAdvisor.Scan

/-!
# Reviews

A review presents the identifiers of some files one by one, each with a menu of names, and waits for a reply.  A
reply chooses a name, ends the review, or is refused and asked for again.

## Main definitions

* `Menu`: an identifier that a reply is waited for.
* `Review`: what has been done so far and what is being asked.
* `Review.start`: a review of some files, up to its first menu.
* `Review.reply`, `Review.finish`: a review after a reply, and at the end of the input.
* `Review.converse`: a review with all lines of an input.
-/

namespace NameAdvisor

/-- How much a review has covered. -/
structure ReviewStats where
  /-- The files that could be analysed. -/
  files : Nat := 0
  /-- The identifiers in them. -/
  identifiers : Nat := 0
  /-- The identifiers that got a new name. -/
  renamed : Nat := 0
  deriving DecidableEq, Repr, Inhabited

def ReviewStats.summary (s : ReviewStats) : String :=
  "\nSummary\n  files analyzed:      " ++ toString s.files ++ "\n  identifiers found:   " ++
    toString s.identifiers ++ "\n  identifiers renamed: " ++ toString s.renamed ++ "\n"

/-- An identifier that a reply is waited for. -/
structure Menu where
  file : Path
  context : FileContext
  identifier : Identifier
  /-- The names to choose from. -/
  suggestions : List String
  /-- The identifiers of the file that come after it. -/
  later : List Identifier
  deriving Inhabited

namespace Menu

def numbered (start : Nat) : List String → String
  | [] => ""
  | name :: names => "  " ++ toString start ++ ") " ++ name ++ "\n" ++ numbered (start + 1) names

def lineText (m : Menu) : String :=
  match m.identifier.line with
  | some n => toString n
  | none => "N/A"

def text (m : Menu) : String :=
  "\n" ++ m.identifier.kind.name ++ " `" ++ m.identifier.name ++ "` (line " ++ m.lineText ++ ")\n  0) " ++
    m.identifier.name ++ " (keep)\n" ++ numbered 1 m.suggestions

/-- What asks for a reply. -/
def prompt (m : Menu) : String :=
  "choice [0-" ++ toString m.suggestions.length ++ ", q]: "

/-- The name that a choice stands for; nothing for the end of the review. -/
def chosen (m : Menu) : Choice → Option String
  | .keep => some m.identifier.name
  | .select n => m.suggestions[n]?
  | .quit => none

def confirmation (m : Menu) (selected : String) : String :=
  if selected = m.identifier.name then "  -> kept `" ++ selected ++ "`\n" else "  -> renamed to `" ++ selected ++ "`\n"

/-- The line that says that a choice could not be logged. -/
def notLogged (m : Menu) : String :=
  "  could not save decision: `" ++ m.identifier.name ++ "` -> " ++ ", ".intercalate m.suggestions ++ "\n"

end Menu

/-- A review that goes on, or is over: what it has changed and counted, and what it asks. -/
structure Review (π : Type) where
  advisor : Advisor π
  fileSystem : FileSystem
  log : DecisionLog
  /-- The files that come after the present one. -/
  queue : List Path
  stats : ReviewStats := {}
  /-- What is being asked; nothing once the review is over. -/
  menu : Option Menu := none

namespace Review

variable {π : Type} [NameSource π]

/-- The review at its end, with the text that closes it. -/
def finish (r : Review π) : String × Review π :=
  (r.stats.summary, { r with menu := none })

/-- Presents an identifier. -/
def present (r : Review π) (file : Path) (context : FileContext) (i : Identifier) (later : List Identifier) :
    String × Review π :=
  let (report, advisor) := r.advisor.resolve i.name i.kind i.sourceContext context
  let menu : Menu := ⟨file, context, i, report.suggestions, later⟩
  (menu.text, { r with advisor, menu := some menu })

def fileSummary (a : Analysis) : String :=
  let imports := a.fileContext.imports
  "  " ++ toString a.identifiers.length ++ " identifiers, domain: " ++ a.fileContext.domain.name ++ "\n" ++
    (if imports.isEmpty then ""
    else "  imports: " ++ ", ".intercalate (imports.take 3) ++ (if 3 < imports.length then ", ..." else "") ++ "\n")

/-- Goes on with the next of `files` that has identifiers, or ends the review. -/
def openNext (r : Review π) : List Path → String × Review π
  | [] => finish { r with queue := [] }
  | p :: rest =>
    let title := "\nFile: " ++ p.text ++ "\n"
    match Analysis.ofFile r.fileSystem p with
    | .error e =>
      let (text, r) := openNext r rest
      (title ++ "  skipped: " ++ e.message ++ "\n" ++ text, r)
    | .ok a =>
      let r := { r with stats := { r.stats with files := r.stats.files + 1 } }
      match a.identifiers with
      | [] =>
        let (text, r) := openNext r rest
        (title ++ "  No identifiers to review in this file.\n" ++ text, r)
      | i :: later =>
        let stats := { r.stats with identifiers := r.stats.identifiers + a.identifiers.length }
        let (text, r) := present { r with stats, queue := rest } p a.fileContext i later
        (title ++ fileSummary a ++ text, r)

/-- A review of `files`, up to its first menu. -/
def start (advisor : Advisor π) (fileSystem : FileSystem) (log : DecisionLog) (files : List Path) :
    String × Review π :=
  let (text, r) := openNext { advisor, fileSystem, log, queue := files } files
  ("Found " ++ toString files.length ++ " files to analyze.\n" ++ text, r)

/-- Takes a name for the identifier of a menu, logs that, and goes on.  The time `now` is given once for a review and
stands in all its decisions; a clock that is read for each of them would give later ones a later time. -/
def take (now : Timestamp) (r : Review π) (m : Menu) (selected : String) : String × Review π :=
  let decision : Decision := ⟨now, m.file, m.identifier, m.context, m.suggestions, selected⟩
  let (logged, fileSystem) := r.log.record r.fileSystem decision
  let warning := match logged with
    | .ok _ => ""
    | .error _ => m.notLogged
  let renamed := if selected = m.identifier.name then r.stats.renamed else r.stats.renamed + 1
  let r := { r with fileSystem, stats := { r.stats with renamed } }
  let (text, r) := match m.later with
    | i :: later => present r m.file m.context i later
    | [] => openNext r r.queue
  (m.confirmation selected ++ warning ++ text, r)

/-- The review after a reply to a menu: a reply that chooses nothing leaves it as it is. -/
def reply (now : Timestamp) (r : Review π) (m : Menu) (line : String) : String × Review π :=
  match Choice.read line m.suggestions.length with
  | none => ("  invalid choice: " ++ Text.trim line ++ "\n", r)
  | some choice =>
    match m.chosen choice with
    | some selected => take now r m selected
    | none => finish r

/-- The review after a line of input to a menu; a line that is not text breaks it off. -/
def hear (now : Timestamp) (r : Review π) (m : Menu) (line : ByteArray) :
    Except (Option Utf8.Fault) (String × Review π) :=
  match Utf8.decode line with
  | some s => .ok (reply now r m s)
  | none => .error (Utf8.fault? line)

/-- What an input makes of a review: everything that is written, the review, the lines that were not read, and
whether a line that is not text broke it off. -/
structure Transcript (π : Type) where
  output : String
  review : Review π
  unread : List ByteArray
  brokenOff : Option (Option Utf8.Fault) := none

/-- A review with the lines of an input, up to its end, the end of the input or a line that is not text. -/
def converse (now : Timestamp) (r : Review π) (lines : List ByteArray) : Transcript π :=
  match r.menu, lines with
  | none, _ => { output := "", review := r, unread := lines }
  | some m, [] =>
    let (text, r) := finish r
    { output := m.prompt ++ text, review := r, unread := [] }
  | some m, line :: rest =>
    match hear now r m line with
    | .error fault => { output := m.prompt, review := r, unread := rest, brokenOff := some fault }
    | .ok (text, r) =>
      let t := converse now r rest
      { t with output := m.prompt ++ text ++ t.output }

/-- Above this many files a review asks before it starts. -/
def largeRun : Nat := 20

/-- What asks whether to review many files. -/
def confirmationPrompt (count : Nat) : String :=
  "Found " ++ toString count ++ " files. Continue? [Y/n] "

/-- Whether a reply confirms a large review: an empty one does. -/
def confirms (line : String) : Bool :=
  let reply := Text.trim line
  reply.isEmpty || Text.eqIgnoringAsciiCase reply "y" || Text.eqIgnoringAsciiCase reply "yes"

end Review

/-- The lines of an input, each with its line break; the last may lack it. -/
def inputLines (bytes : ByteArray) : List ByteArray :=
  split [] bytes.data.toList
where
  /-- The lines of `rest` after the bytes `line`, which are in reverse. -/
  split (line : List UInt8) : List UInt8 → List ByteArray
    | [] => if line.isEmpty then [] else [⟨line.reverse.toArray⟩]
    | b :: rest =>
      if b = 10 then ⟨(b :: line).reverse.toArray⟩ :: split [] rest else split (b :: line) rest

end NameAdvisor
