import NameAdvisor.FileSystem.Basic
import NameAdvisor.Source.Language
import NameAdvisor.Text.Numeral

/-!
# Finding source files

## Main definitions

* `Discovery.filesBelow`: the source files below a directory, down to some depth.
* `Discovery.find`: the source files of a directory in the order of their paths.
* `Discovery.collect`: a single file, or the source files of a directory.
-/

namespace NameAdvisor.Discovery

/-- How deep directories are searched unless something else is asked for. -/
def defaultDepth : Nat := 10

/-- Whether directories of this name are passed over: hidden ones, and those of installed packages. -/
def isSkipped (name : String) : Bool :=
  name.toList.head? == some '.' || name == "node_modules"

/-- Whether a path has the extension of a source file. -/
def isSource (p : Path) : Bool :=
  (SourceLanguage.ofPath? p).isSome

/-- The source files in the directory at `loc` and in the directories within it, `levels` levels of files in all.
Links are not followed.  `p` is the path of the directory. -/
def filesBelow (fs : FileSystem) : (levels : Nat) → (loc : Location) → (p : Path) → List Path
  | 0, _, _ => []
  | levels + 1, loc, p =>
    (fs.children loc).flatMap fun (name, node) =>
      let q := p.join ⟨name⟩
      match node with
      | .file _ => if isSource q then [q] else []
      | .directory => if isSkipped name then [] else filesBelow fs levels (loc ++ [name]) q
      | .link _ => []

/-- The levels of files that are looked at when a search goes through at most `maxDepth` directories: one more, as far
as a machine word counts. -/
def levels (maxDepth : Nat) : Nat :=
  min (maxDepth + 1) (Numeral.wordLimit - 1)

/-- The source files at or below `root`: a link that leads to a directory counts as that directory, a link to a
file as nothing. -/
def unordered (fs : FileSystem) (root : Path) (maxDepth : Nat) : List Path :=
  match fs.resolve root false with
  | .error _ => []
  | .ok (_, none) => []
  | .ok (_, some (.file _)) => if isSource root then [root] else []
  | .ok (loc, some .directory) => filesBelow fs (levels maxDepth) loc root
  | .ok (_, some (.link _)) =>
    match fs.resolve root true with
    | .ok (loc, some .directory) => filesBelow fs (levels maxDepth) loc root
    | _ => []

/-- The source files at or below `root`, through at most `maxDepth` directories, in the order of their paths. -/
def find (fs : FileSystem) (root : Path) (maxDepth : Nat) : List Path :=
  (unordered fs root maxDepth).mergeSort fun p q => !q.before p

/-- A path that leads to nothing. -/
structure Missing where
  path : Path
  deriving DecidableEq, Repr

def Missing.message (m : Missing) : String :=
  "path does not exist: " ++ m.path.text

/-- The file at `p` whatever its name, or the source files of the directory at `p`. -/
def collect (fs : FileSystem) (p : Path) (maxDepth : Nat) : Except Missing (List Path) :=
  if fs.isFile p then .ok [p]
  else if fs.isDirectory p then .ok (find fs p maxDepth)
  else .error ⟨p⟩

end NameAdvisor.Discovery
