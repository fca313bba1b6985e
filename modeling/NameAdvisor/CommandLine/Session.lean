import NameAdvisor.CommandLine.Arguments
import NameAdvisor.Project
import NameAdvisor.Provider.Backend
import NameAdvisor.Review.Session
import NameAdvisor.Settings.File

/-!
# A run of the program

A run is over at once, or it waits for lines of input.

## Main definitions

* `World`: the files, the environment, and what backends use.
* `Session`: a run that is over, or waits for a line.
* `Session.start`: a run up to the first line that it needs.
* `Session.reply`, `Session.run`: a run after a line, and with all lines of an input.
-/

namespace NameAdvisor

/-- What a run of the program finds. -/
structure World where
  fileSystem : FileSystem := {}
  environment : Environment := fun _ => none
  surroundings : Surroundings := {}

namespace World

def home (w : World) : Path :=
  ⟨(w.environment "HOME").getD "/tmp"⟩

def projectSettings : Path := ⟨".ai-config.json"⟩

def userSettings (w : World) : Path :=
  w.home.join ⟨".namer-suggester-ai-config.json"⟩

/-- The files of its own that a run can look at, wherever it is told to look for sources. -/
def ownFiles (w : World) : List Path :=
  [projectSettings, w.userSettings, DecisionLog.fileName, w.home.join DecisionLog.fileName]

/-- The environment variables that a run can look at. -/
def variableNames : List String :=
  "HOME" :: Settings.variableNames

def settings (w : World) : LoadedSettings :=
  Settings.load w.fileSystem [projectSettings, w.userSettings] w.environment

/-- The log of decisions: in the working directory, else in the user's. -/
def log (w : World) : DecisionLog :=
  ⟨[DecisionLog.fileName, w.home.join DecisionLog.fileName]⟩

/-- The advisor for a run, with another policy if one was asked for. -/
def advisor (w : World) (policy : Option ProviderPolicy) : Advisor Backend :=
  let s := w.settings.settings
  Advisor.ofSettings { s with provider := policy.getD s.provider } w.surroundings

end World

/-- How a run ends. -/
inductive Outcome where
  | success
  /-- The command failed, for this reason. -/
  | failure (message : String)
  /-- The arguments make no sense. -/
  | usage
  deriving DecidableEq, Repr

def Outcome.status : Outcome → Nat
  | success => 0
  | failure _ => 1
  | usage => 2

/-- A run of the program. -/
inductive Session where
  | ended (outcome : Outcome) (fileSystem : FileSystem)
  /-- It waits for a line that confirms a large review of `files`. -/
  | confirming (files : List Path) (advisor : Advisor Backend) (log : DecisionLog) (fileSystem : FileSystem)
  /-- It waits for a reply to a menu. -/
  | reviewing (review : Review Backend) (menu : Menu)

namespace Session

def version : String := "namer 0.1.0\n"

def help : String :=
  "Suggest better identifier names for JS/TS code\n\nUsage: namer [OPTIONS] <COMMAND>\n\nCommands:\n" ++
    "  scan     Print suggestions for every identifier under PATH\n" ++
    "  review   Walk identifiers interactively and log each decision\n" ++
    "  config   Inspect or write AI provider configuration\n" ++
    "  project  Detect language and framework of a project\n" ++
    "  help     Print this message or the help of the given subcommand(s)\n"

/-- A run in which a review has come so far. -/
def ofReview (r : Review Backend) : Session :=
  match r.menu with
  | some m => reviewing r m
  | none => ended .success r.fileSystem

def startReview (advisor : Advisor Backend) (log : DecisionLog) (fs : FileSystem) (files : List Path) :
    String × Session :=
  let (text, r) := Review.start advisor fs log files
  (text, ofReview r)

/-- Carries out a command up to the first line of input that it needs. -/
def carryOut (w : World) : Command → String × Session
  | .scan path policy maxDepth asJson =>
    match Discovery.collect w.fileSystem path maxDepth with
    | .error e => ("", ended (.failure e.message) w.fileSystem)
    | .ok files =>
      let (scans, _) := Scan.run w.fileSystem (w.advisor policy) files
      (Scan.render asJson scans, ended .success w.fileSystem)
  | .review path policy maxDepth confirmed =>
    match Discovery.collect w.fileSystem path maxDepth with
    | .error e => ("", ended (.failure e.message) w.fileSystem)
    | .ok [] =>
      ("No JavaScript or TypeScript files found in " ++ path.text ++ "\n", ended .success w.fileSystem)
    | .ok files =>
      if !confirmed && Review.largeRun < files.length then
        ("", confirming files (w.advisor policy) w.log w.fileSystem)
      else startReview (w.advisor policy) w.log w.fileSystem files
  | .showSettings check =>
    let loaded := w.settings
    (loaded.render ++ (if check then Backend.availability loaded.settings w.surroundings else ""),
      ended .success w.fileSystem)
  | .initSettings forUser options =>
    let path := if forUser then w.userSettings else World.projectSettings
    match Settings.initFile w.fileSystem path options with
    | (.error e, fs) => ("", ended (.failure e.message) fs)
    | (.ok _, fs) => ("Configuration written to " ++ path.text ++ "\n", ended .success fs)
  | .project path asJson =>
    let p := Project.inspect w.fileSystem path
    (if asJson then p.renderJson else p.render, ended .success w.fileSystem)

/-- A run of the program up to the first line of input that it needs: what it prints, and how it goes on. -/
def start (w : World) (args : List String) : String × Session :=
  match Command.read args with
  | .ok command => carryOut w command
  | .error .help => (help, ended .success w.fileSystem)
  | .error .version => (version, ended .success w.fileSystem)
  | .error .usage => ("", ended .usage w.fileSystem)

/-- What asks for the next line; nothing if the run is over. -/
def prompt? : Session → Option String
  | ended _ _ => none
  | confirming files _ _ _ => some (Review.confirmationPrompt files.length)
  | reviewing _ m => some m.prompt

def fileSystem : Session → FileSystem
  | ended _ fs => fs
  | confirming _ _ _ fs => fs
  | reviewing r _ => r.fileSystem

/-- A run that a line which is not text breaks off. -/
def brokenOff (fault : Option Utf8.Fault) (fs : FileSystem) : Session :=
  ended (.failure ((fault.map (·.message)).getD "")) fs

/-- The run after a line of input: what it prints, and how it goes on. -/
def reply (now : Timestamp) (s : Session) (line : ByteArray) : String × Session :=
  match s with
  | ended outcome fs => ("", ended outcome fs)
  | confirming files advisor log fs =>
    match Utf8.decode line with
    | none => ("", brokenOff (Utf8.fault? line) fs)
    | some text => if Review.confirms text then startReview advisor log fs files else ("", ended .success fs)
  | reviewing r m =>
    match r.hear now m line with
    | .error fault => ("", brokenOff fault r.fileSystem)
    | .ok (text, r) => (text, ofReview r)

def endOfInput : Session → String × Session
  | ended outcome fs => ("", ended outcome fs)
  | confirming _ _ _ fs => ("", ended .success fs)
  | reviewing r _ => let (text, r) := r.finish; (text, ended .success r.fileSystem)

/-- A run with all lines of an input: what it prints, and its end. -/
def run (now : Timestamp) (s : Session) (lines : List ByteArray) : String × Session :=
  match s.prompt?, lines with
  | none, _ => ("", s)
  | some prompt, [] =>
    let (text, s) := s.endOfInput
    (prompt ++ text, s)
  | some prompt, line :: rest =>
    let (text, s) := s.reply now line
    let (more, s) := run now s rest
    (prompt ++ text ++ more, s)

def outcome? : Session → Option Outcome
  | ended outcome _ => some outcome
  | _ => none

end Session

end NameAdvisor
