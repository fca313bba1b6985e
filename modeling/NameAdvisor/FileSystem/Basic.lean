import NameAdvisor.FileSystem.Path
import NameAdvisor.Text.Utf8

/-!
# A file system as a value

Files, directories and symbolic links, each at a location: the list of names that leads to it from the top.  Names are
texts, so entries with names that are not valid UTF-8 cannot be represented.

## Main definitions

* `FileSystem`: the entries and the working directory.
* `FileSystem.Error`: why an operation fails, with the wording of the operating system.
* `FileSystem.resolve`: the location that a path leads to.
* `FileSystem.readBytes`, `FileSystem.readText`: the content of a file.
* `FileSystem.write`, `FileSystem.append`, `FileSystem.makeDirectories`, `FileSystem.remove`: changes.
* `FileSystem.changedFiles`: what changes have come to.
-/

namespace NameAdvisor

/-- The names that lead to an entry from the top. -/
abbrev Location : Type := List String

/-- What stands at a location. -/
inductive Node where
  /-- A file and its bytes. -/
  | file (content : ByteArray)
  | directory
  /-- A symbolic link. -/
  | link (target : Path)
  deriving Inhabited

def Node.holds (n : Node) (content : ByteArray) : Bool :=
  match n with
  | .file content' => content'.data == content.data
  | _ => false

/-- The entries of a file system and its working directory. -/
structure FileSystem where
  entries : List (Location × Node) := []
  workingDirectory : Location := []
  deriving Inhabited

namespace FileSystem

/-- Why an operation on a file fails. -/
inductive Error where
  | notFound
  | permissionDenied
  | exists
  | notDirectory
  | isDirectory
  | notEmpty
  | nameTooLong
  | tooManyLinks
  /-- The path holds a null character. -/
  | nullInPath
  /-- The content is not text. -/
  | notText
  deriving DecidableEq, Repr

def Error.message : Error → String
  | .notFound => "No such file or directory (os error 2)"
  | .permissionDenied => "Permission denied (os error 13)"
  | .exists => "File exists (os error 17)"
  | .notDirectory => "Not a directory (os error 20)"
  | .isDirectory => "Is a directory (os error 21)"
  | .notEmpty => "Directory not empty (os error 39)"
  | .nameTooLong => "File name too long (os error 36)"
  | .tooManyLinks => "Too many levels of symbolic links (os error 40)"
  | .nullInPath => "file name contained an unexpected NUL byte"
  | .notText => "stream did not contain valid UTF-8"

/-- What stands at a location; the top is a directory. -/
def node? (fs : FileSystem) : Location → Option Node
  | [] => some .directory
  | loc => fs.entries.lookup loc

/-- Replaces what stands at `loc` in a list of entries, or puts it at the end. -/
def setEntry (loc : Location) (node : Node) : List (Location × Node) → List (Location × Node)
  | [] => [(loc, node)]
  | (l, n) :: rest => if l = loc then (loc, node) :: rest else (l, n) :: setEntry loc node rest

def set (fs : FileSystem) (loc : Location) (node : Node) : FileSystem :=
  { fs with entries := setEntry loc node fs.entries }

/-- The entries of the directory at `loc`: their names and what they are. -/
def children (fs : FileSystem) (loc : Location) : List (String × Node) :=
  fs.entries.filterMap fun (l, n) =>
    match l.getLast? with
    | some name => if l.dropLast = loc then some (name, n) else none
    | none => none

/-- How many links a path may lead through. -/
def linkLimit : Nat := 40

/-- The longest name of an entry, in bytes. -/
def nameLimit : Nat := 255

/-- Follows `steps` from the directory at `loc`; gives where they lead and what stands there.  Only the last
step may lead to something that does not exist.  The last step through a link is taken when `follow` says so. -/
def walk (fs : FileSystem) (follow : Bool) (links : Nat) (fuel : Nat) (loc : Location) :
    List Path.Component → Except Error (Location × Option Node)
  | [] => .ok (loc, fs.node? loc)
  | .top :: rest =>
    match fuel with
    | 0 => .error .tooManyLinks
    | fuel + 1 => fs.walk follow links fuel [] rest
  | .here :: rest =>
    match fuel with
    | 0 => .error .tooManyLinks
    | fuel + 1 => fs.walk follow links fuel loc rest
  | .up :: rest =>
    match fuel with
    | 0 => .error .tooManyLinks
    | fuel + 1 => fs.walk follow links fuel loc.dropLast rest
  | .name name :: rest =>
    match fuel with
    | 0 => .error .tooManyLinks
    | fuel + 1 =>
      if nameLimit < name.utf8ByteSize then .error .nameTooLong
      else
        match fs.node? (loc ++ [name]) with
        | none => if rest.isEmpty then .ok (loc ++ [name], none) else .error .notFound
        | some .directory => fs.walk follow links fuel (loc ++ [name]) rest
        | some (.file content) =>
          if rest.isEmpty then .ok (loc ++ [name], some (.file content)) else .error .notDirectory
        | some (.link target) =>
          if rest.isEmpty && !follow then .ok (loc ++ [name], some (.link target))
          else
            match links with
            | 0 => .error .tooManyLinks
            | links + 1 => fs.walk follow links fuel loc (target.steps ++ rest)

/-- Enough fuel for every path that leads through at most `linkLimit` links. -/
def walkFuel (fs : FileSystem) (p : Path) : Nat :=
  let longest := fs.entries.foldl (fun n e => match e.2 with
    | .link target => max n target.steps.length
    | _ => n) 0
  p.steps.length + (linkLimit + 1) * (longest + 1)

/-- The location that `p` leads to, and what stands there. -/
def resolve (fs : FileSystem) (p : Path) (follow : Bool) : Except Error (Location × Option Node) :=
  if p.text.isEmpty then .error .notFound
  else if p.text.toList.contains '\x00' then .error .nullInPath
  else fs.walk follow linkLimit (fs.walkFuel p) fs.workingDirectory p.steps

/-- What stands where `p` leads, through links. -/
def lookup (fs : FileSystem) (p : Path) : Option Node :=
  match fs.resolve p true with
  | .ok (_, node) => node
  | .error _ => none

def exists? (fs : FileSystem) (p : Path) : Bool :=
  (fs.lookup p).isSome

def isFile (fs : FileSystem) (p : Path) : Bool :=
  match fs.lookup p with
  | some (.file _) => true
  | _ => false

def isDirectory (fs : FileSystem) (p : Path) : Bool :=
  match fs.lookup p with
  | some .directory => true
  | _ => false

def readBytes (fs : FileSystem) (p : Path) : Except Error ByteArray :=
  match fs.resolve p true with
  | .error e => .error e
  | .ok (_, some (.file content)) => .ok content
  | .ok (_, some _) => .error .isDirectory
  | .ok (_, none) => .error .notFound

def readText (fs : FileSystem) (p : Path) : Except Error String :=
  match fs.readBytes p with
  | .error e => .error e
  | .ok bytes =>
    match Utf8.decode bytes with
    | some s => .ok s
    | none => .error .notText

/-- Opens the file that `p` leads to for writing, creating it if it is missing: its location and content. -/
def openForWriting (fs : FileSystem) (p : Path) : Except Error (Location × ByteArray) :=
  match fs.resolve p true with
  | .error e => .error e
  | .ok (loc, some (.file content)) => .ok (loc, content)
  | .ok (_, some _) => .error .isDirectory
  | .ok (loc, none) => .ok (loc, .empty)

/-- Makes `bytes` the content of the file that `p` leads to. -/
def write (fs : FileSystem) (p : Path) (bytes : ByteArray) : Except Error FileSystem :=
  (fs.openForWriting p).map fun (loc, _) => fs.set loc (.file bytes)

/-- Adds `bytes` to the end of the file that `p` leads to, after `header` if the file is empty. -/
def append (fs : FileSystem) (p : Path) (header bytes : ByteArray) : Except Error FileSystem :=
  (fs.openForWriting p).map fun (loc, content) =>
    fs.set loc (.file ((if content.size = 0 then header else content) ++ bytes))

/-- Makes the directory `p`, whose parent has to exist. -/
def makeDirectory (fs : FileSystem) (p : Path) : Except Error FileSystem :=
  match fs.resolve p false with
  | .error e => .error e
  | .ok (_, some _) => .error .exists
  | .ok (loc, none) => .ok (fs.set loc .directory)

/-- Makes the directory `p` and the missing ones above it; the fuel bounds their number.  Directories that were
made before a failure stay. -/
def makeDirectoriesFrom (fs : FileSystem) (fuel : Nat) (p : Path) : Except Error Unit × FileSystem :=
  if p.text.isEmpty then (.ok (), fs)
  else
    match fs.makeDirectory p with
    | .ok fs => (.ok (), fs)
    | .error .notFound =>
      match fuel, p.parent? with
      | fuel + 1, some parent =>
        match fs.makeDirectoriesFrom fuel parent with
        | (.error e, fs) => (.error e, fs)
        | (.ok (), fs) =>
          match fs.makeDirectory p with
          | .ok fs => (.ok (), fs)
          | .error e => if fs.isDirectory p then (.ok (), fs) else (.error e, fs)
      | _, _ => (.error .notFound, fs)
    | .error e => if fs.isDirectory p then (.ok (), fs) else (.error e, fs)

/-- Makes the directory `p` and the missing ones above it. -/
def makeDirectories (fs : FileSystem) (p : Path) : Except Error Unit × FileSystem :=
  fs.makeDirectoriesFrom p.components.length p

/-- Removes the file or link that `p` names. -/
def remove (fs : FileSystem) (p : Path) : Except Error FileSystem :=
  match fs.resolve p false with
  | .error e => .error e
  | .ok (_, none) => .error .notFound
  | .ok (_, some .directory) => .error .isDirectory
  | .ok (loc, some _) => .ok { fs with entries := fs.entries.filter (·.1 ≠ loc) }

/-- The files among the entries `after` that are not in the same place of `before` with the same content: changes
leave the entries in their places and add new ones at the end. -/
def changedEntries : (before after : List (Location × Node)) → List (Location × ByteArray)
  | _, [] => []
  | before, (_, .directory) :: after => changedEntries before.tail after
  | before, (_, .link _) :: after => changedEntries before.tail after
  | before, (loc, .file content) :: after =>
    if before.head?.any (fun e => e.2.holds content) then changedEntries before.tail after
    else (loc, content) :: changedEntries before.tail after

/-- The files that were changed or added between two states of a file system. -/
def changedFiles (before after : FileSystem) : List (Location × ByteArray) :=
  changedEntries before.entries after.entries

end FileSystem

end NameAdvisor
