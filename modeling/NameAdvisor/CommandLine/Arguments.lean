import NameAdvisor.FileSystem.Path
import NameAdvisor.Settings.Options
import NameAdvisor.Source.Discovery
import NameAdvisor.Text.Numeral

/-!
# Arguments of a command

A command takes flags, options with a value, and plain arguments.  Long names follow two hyphens, the single
letters of flags follow one; a value follows its option as the next argument or after an equals sign; after two
hyphens alone, every argument is a plain one.

## Main definitions

* `ArgumentForm`: what a command takes.
* `ArgumentForm.read`: the arguments of a command, up to the name of a subcommand if it has any.
* `Command.read`: the command that the arguments of the program ask for.
-/

namespace NameAdvisor

/-- What a command takes. -/
structure ArgumentForm where
  /-- The names of flags, with their letters. -/
  flags : List (String × Option Char)
  /-- The names of options, and which values they accept. -/
  options : List (String × (String → Bool)) := []
  /-- How many plain arguments there may be. -/
  plain : Nat := 0
  /-- Whether the first plain argument names a subcommand. -/
  hasSubcommands : Bool := false

/-- The arguments of a command. -/
structure Arguments where
  flags : List String := []
  options : List (String × String) := []
  plain : List String := []
  deriving DecidableEq, Repr, Inhabited

/-- Why no command is run. -/
inductive Refusal where
  /-- The arguments ask for help. -/
  | help
  /-- The arguments ask for the version. -/
  | version
  /-- The arguments make no sense. -/
  | usage
  deriving DecidableEq, Repr

namespace Arguments

def has (a : Arguments) (flag : String) : Bool :=
  a.flags.contains flag

def value? (a : Arguments) (option : String) : Option String :=
  a.options.lookup option

/-- The arguments with one more flag, which may be set only once. -/
def addFlag (a : Arguments) (flag : String) : Except Refusal Arguments :=
  if a.has flag then .error .usage else .ok { a with flags := flag :: a.flags }

/-- The arguments with one more option, which may be given only once. -/
def addOption (a : Arguments) (option value : String) : Except Refusal Arguments :=
  if (a.value? option).isSome then .error .usage else .ok { a with options := (option, value) :: a.options }

end Arguments

namespace ArgumentForm

/-- Whether `s` looks like a flag or an option. -/
def looksNamed (s : String) : Bool :=
  match s.toList with
  | '-' :: _ :: _ => true
  | _ => false

/-- Adds the flag or asks for what the letter stands for. -/
def readLetter (form : ArgumentForm) (a : Arguments) (c : Char) : Except Refusal Arguments :=
  match form.flags.find? (·.2 == some c) with
  | some (flag, _) => a.addFlag flag
  | none =>
    .error (if c = 'h' then .help else if c = 'V' && form.flags.any (·.1 == "version") then .version else .usage)

def readLetters (form : ArgumentForm) (a : Arguments) (cs : List Char) : Except Refusal Arguments :=
  cs.foldlM (form.readLetter) a

def readFlag (form : ArgumentForm) (a : Arguments) (name : String) : Except Refusal Arguments :=
  if name = "help" then .error .help
  else if form.flags.any (·.1 == name) then if name = "version" then .error .version else a.addFlag name
  else .error .usage

def readOption (form : ArgumentForm) (a : Arguments) (name value : String) : Except Refusal Arguments :=
  match form.options.lookup name with
  | some accepts => if accepts value then a.addOption name value else .error .usage
  | none => .error .usage

def addPlain (form : ArgumentForm) (a : Arguments) (more : List String) : Except Refusal Arguments :=
  if a.plain.length + more.length ≤ form.plain && more.all (!·.isEmpty) then
    .ok { a with plain := a.plain ++ more }
  else .error .usage

/-- Reads arguments after those in `a`, up to the name of a subcommand: that name and what follows it are left. -/
def readFrom (form : ArgumentForm) (a : Arguments) : List String → Except Refusal (Arguments × List String)
  | [] => .ok (a, [])
  | arg :: rest =>
    match arg.toList with
    | ['-', '-'] => do
      let a ← form.addPlain a rest
      return (a, [])
    | '-' :: '-' :: long =>
      let name := String.ofList (long.takeWhile (· ≠ '='))
      match long.dropWhile (· ≠ '='), form.options.lookup name with
      | _ :: value, _ => do
        let a ← form.readOption a name (String.ofList value)
        readFrom form a rest
      | [], none => do
        let a ← form.readFlag a name
        readFrom form a rest
      | [], some _ =>
        match rest with
        | value :: rest =>
          if looksNamed value then .error .usage
          else do
            let a ← form.readOption a name value
            readFrom form a rest
        | [] => .error .usage
    | '-' :: c :: cs => do
      let a ← form.readLetters a (c :: cs)
      readFrom form a rest
    | _ =>
      if form.hasSubcommands then .ok (a, arg :: rest)
      else do
        let a ← form.addPlain a [arg]
        readFrom form a rest

def read (form : ArgumentForm) (args : List String) : Except Refusal (Arguments × List String) :=
  form.readFrom {} args

/-- The flags that every command takes. -/
def everywhere : List (String × Option Char) :=
  [("verbose", some 'v'), ("log-json", none)]

end ArgumentForm

/-- What the program can be asked to do. -/
inductive Command where
  /-- To print suggestions for all identifiers at or below a path. -/
  | scan (path : Path) (policy : Option ProviderPolicy) (maxDepth : Nat) (asJson : Bool)
  /-- To go through the identifiers at or below a path. -/
  | review (path : Path) (policy : Option ProviderPolicy) (maxDepth : Nat) (confirmed : Bool)
  /-- To print the settings, and whether the backends are ready. -/
  | showSettings (check : Bool)
  /-- To write a settings file, the user's or the project's. -/
  | initSettings (forUser : Bool) (options : SettingsOptions)
  /-- To print what a project is written in. -/
  | project (path : Path) (asJson : Bool)
  deriving DecidableEq

namespace Command

open ArgumentForm

def namesPolicy (s : String) : Bool :=
  (ProviderPolicy.read s).toBool

def sourceOptions : List (String × (String → Bool)) :=
  [("provider", namesPolicy), ("max-depth", fun s => (Numeral.readBelow Numeral.wordLimit s).isSome)]

def policyOf (a : Arguments) : Option ProviderPolicy :=
  (a.value? "provider").bind fun s => (ProviderPolicy.read s).toOption

def depthOf (a : Arguments) : Nat :=
  ((a.value? "max-depth").bind (Numeral.readBelow Numeral.wordLimit)).getD Discovery.defaultDepth

def readScan (args : List String) : Except Refusal Command := do
  let form : ArgumentForm := { flags := everywhere ++ [("json", none)], options := sourceOptions, plain := 1 }
  let (a, _) ← form.read args
  match a.plain with
  | path :: _ => return scan ⟨path⟩ (policyOf a) (depthOf a) (a.has "json")
  | [] => throw .usage

def readReview (args : List String) : Except Refusal Command := do
  let form : ArgumentForm := { flags := everywhere ++ [("yes", some 'y')], options := sourceOptions, plain := 1 }
  let (a, _) ← form.read args
  match a.plain with
  | path :: _ => return review ⟨path⟩ (policyOf a) (depthOf a) (a.has "yes")
  | [] => throw .usage

def readProject (args : List String) : Except Refusal Command := do
  let form : ArgumentForm := { flags := everywhere ++ [("json", none)], plain := 1 }
  let (a, _) ← form.read args
  return project ⟨a.plain.headD "."⟩ (a.has "json")

def readShow (args : List String) : Except Refusal Command := do
  let form : ArgumentForm := { flags := everywhere ++ [("check", none)] }
  let (a, _) ← form.read args
  return showSettings (a.has "check")

/-- Reads the arguments of `config init`, which has to choose a policy. -/
def readInit (args : List String) : Except Refusal Command := do
  let any : String → Bool := fun _ => true
  let texts := ["openai-key", "anthropic-key", "gemini-key", "ollama-model", "ollama-endpoint"]
  let form : ArgumentForm :=
    { flags := everywhere ++ [("global", none)]
      options := ("provider", namesPolicy) :: texts.map fun name => (name, any) }
  let (a, _) ← form.read args
  match policyOf a with
  | some policy =>
    return initSettings (a.has "global")
      { provider := some policy
        openaiKey := a.value? "openai-key"
        anthropicKey := a.value? "anthropic-key"
        geminiKey := a.value? "gemini-key"
        ollamaModel := a.value? "ollama-model"
        ollamaEndpoint := a.value? "ollama-endpoint" }
  | none => throw .usage

/-- What a request for help on some subcommands amounts to: those have to exist. -/
def readHelp (known : List (List String)) (names : List String) : Except Refusal Command :=
  throw (if known.contains names then .help else .usage)

def readConfig (args : List String) : Except Refusal Command := do
  let form : ArgumentForm := { flags := everywhere, hasSubcommands := true }
  match ← form.read args with
  | (_, "show" :: rest) => readShow rest
  | (_, "init" :: rest) => readInit rest
  | (_, "help" :: rest) => readHelp [[], ["show"], ["init"], ["help"]] rest
  | _ => throw .usage

/-- The command that the arguments of the program ask for. -/
def read (args : List String) : Except Refusal Command := do
  let form : ArgumentForm := { flags := everywhere ++ [("version", none)], hasSubcommands := true }
  match ← form.read args with
  | (_, "scan" :: rest) => readScan rest
  | (_, "review" :: rest) => readReview rest
  | (_, "config" :: rest) => readConfig rest
  | (_, "project" :: rest) => readProject rest
  | (_, "help" :: rest) =>
    readHelp [[], ["scan"], ["review"], ["config"], ["config", "show"], ["config", "init"], ["project"], ["help"]] rest
  | _ => throw .usage

end Command

end NameAdvisor
