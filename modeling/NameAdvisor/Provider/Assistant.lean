import NameAdvisor.Provider.Source
import NameAdvisor.Settings.Basic
import NameAdvisor.FileSystem.Basic

/-!
# A command-line assistant

The programs of the machine are a value that says how each run of a program ends, given the runs before it.

## Main definitions

* `Invocation`, `Ending`: a run of a program, and how it ends.
* `Programs`: the programs of the machine.
* `Assistant`: the assistant as it is configured.
-/

namespace NameAdvisor

/-- A run of a program. -/
structure Invocation where
  program : String
  arguments : List String
  /-- What is written to the program, if anything is. -/
  input : Option String
  deriving DecidableEq, Repr, Inhabited

/-- How a run of a program ends. -/
inductive Ending where
  /-- The program cannot be started. -/
  | notStarted (cause : FileSystem.Error)
  /-- The program ends with a status. -/
  | exited (code : Nat) (output errors : ByteArray)
  /-- A signal ends the program. -/
  | killed (output errors : ByteArray)
  /-- The program does not end in time. -/
  | hangs
  deriving Inhabited

/-- How a run of a program ends, given the runs before it. -/
structure Programs where
  run : List Invocation → Invocation → Ending

def Programs.none : Programs where
  run _ _ := .notStarted .notFound

instance : Inhabited Programs := ⟨.none⟩

/-- The assistant as it is configured. -/
structure Assistant where
  program : String
  limitMs : Nat
  probeLimitMs : Nat
  programs : Programs
  /-- The runs so far. -/
  runs : List Invocation := []

namespace Assistant

def ofSettings (settings : AssistantSettings) (programs : Programs) : Assistant where
  program := settings.program
  limitMs := settings.timeoutMs
  probeLimitMs := settings.probeTimeoutMs
  programs := programs

def run (a : Assistant) (arguments : List String) (input : Option String) : Ending × Assistant :=
  let invocation : Invocation := ⟨a.program, arguments, input⟩
  (a.programs.run a.runs invocation, { a with runs := a.runs ++ [invocation] })

/-- The assistant is there when it can tell its version. -/
def probe (a : Assistant) : Bool × Assistant :=
  let (ending, a) := a.run ["copilot", "--version"] none
  (match ending with
    | .exited 0 _ _ => true
    | _ => false, a)

/-- The failure of a program that ended with the status `code`. -/
def failed (code : String) (errors : ByteArray) : ProviderError :=
  .process ("exit code " ++ code ++ ": " ++ Text.trim (Utf8.showBytes errors))

/-- Puts a question to the assistant: the prompt is written to it, and the answer is what it prints. -/
def complete (a : Assistant) (prompt : String) : Except ProviderError String × Assistant :=
  let (ending, a) := a.run ["copilot", "suggest"] (some prompt)
  (match ending with
    | .notStarted cause => .error (.process ("failed to spawn " ++ a.program ++ ": " ++ cause.message))
    | .hangs => .error (.timeout a.limitMs)
    | .killed _ errors => .error (failed "-1" errors)
    | .exited 0 output _ => .ok (Text.trim (Utf8.showBytes output))
    | .exited code _ errors => .error (failed (toString code) errors), a)

instance : NameSource Assistant where
  kind _ := .copilot
  probe := probe
  question _ := PromptContext.lineQuestion
  complete := complete

end Assistant

end NameAdvisor
