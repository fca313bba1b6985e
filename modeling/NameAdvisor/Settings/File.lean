import NameAdvisor.Settings.Codec
import NameAdvisor.Settings.Environment
import NameAdvisor.Settings.Options
import NameAdvisor.Json.Parser
import NameAdvisor.Json.Merge
import NameAdvisor.FileSystem.Basic

/-!
# Settings files

A settings file holds a JSON value that is laid over the default settings; missing files hold nothing.

## Main definitions

* `SettingsError`: why a file yields no settings, or cannot be written.
* `Settings.ofText`: the settings that the text of a file describes.
* `Settings.ofFile`, `Settings.saveFile`: reading and writing a file.
* `Settings.load`: the settings of the first usable file, with the environment put over them.
* `Settings.initFile`: a file with the chosen values put into it.
-/

namespace NameAdvisor

/-- Why settings cannot be read or saved. -/
inductive SettingsError where
  /-- The file cannot be read or written. -/
  | access (cause : FileSystem.Error)
  /-- The text is not JSON. -/
  | notJson (fault : Json.Fault)
  /-- The value does not describe settings. -/
  | wrongShape (mismatch : Json.Mismatch)
  deriving DecidableEq, Repr

def SettingsError.message : SettingsError → String
  | .access cause => "failed to access config file: " ++ cause.message
  | .notJson .incomplete => "failed to parse config JSON: unexpected end of text"
  | .notJson .malformed => "failed to parse config JSON: unexpected character"
  | .wrongShape mismatch => "failed to parse config JSON: " ++ mismatch.message

/-- Settings and the file that they come from, if any. -/
structure LoadedSettings where
  settings : Settings
  source : Option Path
  deriving DecidableEq, Inhabited

/-- Why a settings file cannot be updated. -/
inductive InitError where
  /-- The present file does not yield settings. -/
  | cannotRead (path : Path) (cause : SettingsError)
  /-- The new file cannot be written. -/
  | cannotWrite (path : Path) (cause : SettingsError)
  deriving DecidableEq

namespace InitError

def message : InitError → String
  | cannotRead path _ => "Failed to read existing config: " ++ path.text
  | cannotWrite path _ => "Failed to write config: " ++ path.text

def cause : InitError → SettingsError
  | cannotRead _ cause => cause
  | cannotWrite _ cause => cause

end InitError

namespace Settings

/-- The default settings as JSON, in order of names. -/
def defaultJson : Json :=
  (toJson {}).canonical

/-- The settings that a value laid over the defaults describes. -/
def ofLayer (layer : Json) : Except SettingsError Settings :=
  match decode (Json.overlay defaultJson layer) with
  | .ok s => .ok s.resetTimeouts
  | .error e => .error (.wrongShape e)

/-- The settings that the text of a file describes. -/
def ofText (text : String) : Except SettingsError Settings :=
  match Json.parseCanonical text with
  | .ok layer => ofLayer layer
  | .error e => .error (.notJson e)

/-- The settings that the file `p` describes; the defaults if there is none. -/
def ofFile (fs : FileSystem) (p : Path) : Except SettingsError Settings :=
  if fs.exists? p then
    match fs.readText p with
    | .ok text => ofText text
    | .error e => .error (.access e)
  else .ok ({} : Settings).resetTimeouts

/-- Makes the directories above `p`. -/
def makeParent (fs : FileSystem) (p : Path) : Except FileSystem.Error Unit × FileSystem :=
  match p.parent? with
  | some parent => if parent.text.isEmpty then (.ok (), fs) else fs.makeDirectories parent
  | none => (.ok (), fs)

/-- Writes settings to the file `p`, making the directories above it. -/
def saveFile (fs : FileSystem) (s : Settings) (p : Path) : Except SettingsError Unit × FileSystem :=
  match makeParent fs p with
  | (.error e, fs) => (.error (.access e), fs)
  | (.ok (), fs) =>
    match fs.write p (Utf8.encode s.fileText) with
    | .error e => (.error (.access e), fs)
    | .ok fs => (.ok (), fs)

/-- The settings of the first of `candidates` that exists and yields any, and the defaults if none does. -/
def firstUsable (fs : FileSystem) : List Path → LoadedSettings
  | [] => ⟨{}, none⟩
  | p :: rest =>
    if fs.exists? p then
      match ofFile fs p with
      | .ok s => ⟨s, some p⟩
      | .error _ => firstUsable fs rest
    else firstUsable fs rest

/-- The settings of the first usable candidate, with the environment put over them. -/
def load (fs : FileSystem) (candidates : List Path) (env : Environment) : LoadedSettings :=
  let found := firstUsable fs candidates
  { found with settings := found.settings.withEnvironment env }

/-- The settings that a new file starts from: those of the present file, or the defaults. -/
def present (fs : FileSystem) (p : Path) : Except SettingsError Settings :=
  if fs.exists? p then ofFile fs p else .ok {}

/-- Puts the chosen values into the file `p`: the settings it then holds, and the changed file system. -/
def initFile (fs : FileSystem) (p : Path) (options : SettingsOptions) : Except InitError Settings × FileSystem :=
  match present fs p with
  | .error e => (.error (.cannotRead p e), fs)
  | .ok s =>
    match saveFile fs (s.withOptions options) p with
    | (.error e, fs) => (.error (.cannotWrite p e), fs)
    | (.ok (), fs) => (.ok (s.withOptions options), fs)

end Settings

namespace LoadedSettings

/-- The settings as they are shown: where they come from, and their values with keys masked. -/
def render (l : LoadedSettings) : String :=
  "source: " ++ (match l.source with
    | some p => p.text
    | none => "built-in defaults") ++ "\n" ++ l.settings.redacted.toJson.pretty ++ "\n"

end LoadedSettings

end NameAdvisor
