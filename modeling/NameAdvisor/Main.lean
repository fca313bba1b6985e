import NameAdvisor.CommandLine.Session
import Std.Time.DateTime.Timestamp

/-!
# The program

The outer layer of the program: it takes in the files that a run can look at, shows what the run prints, hands it
the lines of the input, and saves the files that the run has changed.  No backend can be reached from here.

## Main definitions

* `Machine.observe`: a file system with what the machine has at a path.
* `Machine.serve`: a run with the lines of the standard input.
* `main`: a run with the arguments of the program.
-/

namespace NameAdvisor.Machine

def pathTo (loc : Location) : Path :=
  Path.ofComponents (.top :: loc.map .name)

/-- What the machine has at a path, if that can be read: a link leads to where it ends. -/
def nodeAt? (p : Path) : IO (Option Node) := do
  try
    let info ← ((← IO.currentDir) / p.text).symlinkMetadata
    match info.type with
    | .dir => return some .directory
    | .symlink => return some (.link ⟨(← IO.FS.realPath p.text).toString⟩)
    | _ => return some (.file (← IO.FS.readBinFile p.text))
  catch _ => return none

/-- The file system with what the machine has at each step of a path; `links` bounds the number of links. -/
def observe (links : Nat) (fs : FileSystem) (p : Path) : IO FileSystem := do
  let mut fs := fs
  for n in [0:p.components.length] do
    let q := Path.ofComponents (p.components.take (n + 1))
    if let .ok (loc, none) := fs.resolve q false then
      if let some node ← nodeAt? q then
        fs := fs.set loc node
        if let .link target := node then
          match links with
          | 0 => pure ()
          | links + 1 => fs ← observe links fs target
  return fs

/-- The file system with the source files in a directory and in those within it, `levels` levels in all. -/
def observeBelow : (levels : Nat) → FileSystem → Location → Path → IO FileSystem
  | 0, fs, _, _ => return fs
  | levels + 1, fs, loc, p => do
    let mut fs := fs
    for entry in ← ((← IO.currentDir) / p.text).readDir do
      let name := entry.fileName
      let q := p.join ⟨name⟩
      if !Discovery.isSkipped name || Discovery.isSource q then
        match ← nodeAt? q with
        | some .directory =>
          fs ← observeBelow levels (fs.set (loc ++ [name]) .directory) (loc ++ [name]) q
        | some (.file content) => if Discovery.isSource q then fs := fs.set (loc ++ [name]) (.file content)
        | _ => pure ()
    return fs

/-- The file system with what a command can look at: what stands at `p`, and the source files below it. -/
def observeSources (fs : FileSystem) (p : Path) (maxDepth : Nat) : IO FileSystem := do
  let fs ← observe FileSystem.linkLimit fs p
  match fs.resolve p true with
  | .ok (loc, some .directory) => observeBelow (maxDepth + 1) fs loc p
  | _ => return fs

/-- The file system with the files of a list, as far as they exist. -/
def observeAll (fs : FileSystem) (ps : List Path) : IO FileSystem :=
  ps.foldlM (observe FileSystem.linkLimit) fs

def markers (root : Path) : List Path :=
  Project.markerFiles.map fun name => root.join ⟨name⟩

def readEnvironment : IO Environment := do
  let values ← World.variableNames.mapM fun name => do return (name, ← IO.getEnv name)
  return fun name => (values.lookup name).join

/-- What a run with some arguments can look at. -/
def observeWorld (args : List String) : IO World := do
  let environment ← readEnvironment
  let here : Path := ⟨(← IO.currentDir).toString⟩
  let fs ← observe FileSystem.linkLimit {} here
  let fs := { fs with workingDirectory := here.components.filterMap fun
    | .name s => some s
    | _ => none }
  let fs ← observeAll fs { environment : World }.ownFiles
  let fs ← match Command.read args with
    | .ok (.scan p _ maxDepth _) | .ok (.review p _ maxDepth _) => observeSources fs p maxDepth
    | .ok (.project p _) => observeAll fs (markers p)
    | _ => pure fs
  return { fileSystem := fs, environment }

/-- Saves the files that a run has changed, in the directories that it has made for them. -/
def save (known fs : FileSystem) : IO Unit :=
  for (loc, content) in known.changedFiles fs do
    IO.FS.createDirAll (pathTo loc.dropLast).text
    IO.FS.writeBinFile (pathTo loc).text content

def display (text : String) : IO Unit := do
  let output ← IO.getStdout
  output.putStr text
  output.flush

/-- The next line of the standard input after the bytes `line` of it; nothing at the end of the input. -/
partial def readLine (line : ByteArray) : IO (Option ByteArray) := do
  let bytes ← (← IO.getStdin).read 1
  if bytes.isEmpty then return if line.isEmpty then none else some line
  else if bytes.data.contains 10 then return some (line ++ bytes)
  else readLine (line ++ bytes)

def now : IO Timestamp :=
  return ⟨(← Std.Time.Timestamp.now).toSecondsSinceUnixEpoch.val⟩

/-- Carries a run through to its end: it has printed `text`, and the machine has the files `known`. -/
partial def serve (known : FileSystem) (text : String) (s : Session) : IO UInt32 := do
  save known s.fileSystem
  display text
  match s.prompt?, s.outcome? with
  | some prompt, _ =>
    display prompt
    match ← readLine .empty with
    | some line =>
      let (text, next) := s.reply (← now) line
      serve s.fileSystem text next
    | none =>
      let (text, next) := s.endOfInput
      serve s.fileSystem text next
  | none, some outcome =>
    if let .failure message := outcome then IO.eprintln ("Error: " ++ message)
    return outcome.status.toUInt32
  | none, none => return 0

end NameAdvisor.Machine

def main (args : List String) : IO UInt32 := do
  let world ← NameAdvisor.Machine.observeWorld args
  let (text, session) := NameAdvisor.Session.start world args
  NameAdvisor.Machine.serve world.fileSystem text session
