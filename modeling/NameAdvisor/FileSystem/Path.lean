/-!
# Paths

A path is a text; its parts are what stands between the slashes.  File names whose bytes are not valid UTF-8 are no
texts and so have no path here, though a directory may hold them: no search of files finds one, and no log names one.

## Main definitions

* `Path`: the text of a path.
* `Path.components`: its parts, without those that make no difference.
* `Path.join`, `Path.parent?`, `Path.fileName?`, `Path.extension?`.
* `Path.before`: the order of paths, part by part.
-/

namespace NameAdvisor

/-- A path, by its text, so that a name in it is always valid UTF-8. -/
structure Path where
  text : String
  deriving DecidableEq, Repr, Inhabited

namespace Path

/-- A part of a path. -/
inductive Component where
  /-- The top of the file system. -/
  | top
  /-- The directory itself. -/
  | here
  /-- The directory above. -/
  | up
  /-- An entry of a directory. -/
  | name (s : String)
  deriving DecidableEq, Repr

/-- The part that a piece between slashes stands for. -/
def Component.ofPiece (piece : List Char) : Component :=
  if piece = ['.'] then .here else if piece = ['.', '.'] then .up else .name (String.ofList piece)

def Component.text : Component → String
  | .top => "/"
  | .here => "."
  | .up => ".."
  | .name s => s

def pieces : List Char → List (List Char)
  | [] => [[]]
  | c :: s =>
    match pieces s with
    | piece :: rest => if c = '/' then [] :: piece :: rest else (c :: piece) :: rest
    | [] => [[c]]

/-- Whether the path starts at the top of the file system. -/
def isAbsolute (p : Path) : Bool :=
  p.text.toList.head? == some '/'

/-- The steps from directory to directory that the path asks for, in full: a trailing slash asks for the
directory itself. -/
def steps (p : Path) : List Component :=
  let all := pieces p.text.toList
  let named := (all.filter (!·.isEmpty)).map Component.ofPiece
  let top := if p.isAbsolute then [Component.top] else []
  let last := if all.getLast? == some [] && !named.isEmpty then [Component.here] else []
  top ++ named ++ last

/-- The parts of a path, without a `.` unless the path starts with it. -/
def components (p : Path) : List Component :=
  match p.steps with
  | [] => []
  | first :: rest => first :: rest.filter (· ≠ .here)

def ofComponents : List Component → Path
  | .top :: rest => ⟨"/" ++ "/".intercalate (rest.map Component.text)⟩
  | parts => ⟨"/".intercalate (parts.map Component.text)⟩

/-- The path `q` taken from the directory `p`. -/
def join (p q : Path) : Path :=
  if q.isAbsolute || p.text.isEmpty then q
  else if p.text.toList.getLast? == some '/' then ⟨p.text ++ q.text⟩
  else ⟨p.text ++ "/" ++ q.text⟩

/-- The path without its last part; nothing for the top and for the empty path. -/
def parent? (p : Path) : Option Path :=
  match p.components.getLast? with
  | none => none
  | some .top => none
  | some _ => some (ofComponents p.components.dropLast)

/-- The last part of the path if it is the name of an entry. -/
def fileName? (p : Path) : Option String :=
  match p.components.getLast? with
  | some (.name s) => some s
  | _ => none

/-- What follows the last point of the file name, if something stands before that point. -/
def extension? (p : Path) : Option String :=
  p.fileName?.bind fun name =>
    let reversed := name.toList.reverse
    let after := reversed.takeWhile (· ≠ '.')
    match reversed.dropWhile (· ≠ '.') with
    | _ :: before => if before.isEmpty then none else some (String.ofList after.reverse)
    | [] => none

/-- The class of a part in the order of parts. -/
def Component.rank : Component → Nat
  | .top => 0
  | .here => 1
  | .up => 2
  | .name _ => 3

/-- The order of parts: the top, the directory itself, the one above, then names by their characters. -/
def Component.before : Component → Component → Bool
  | .name s, .name t => s < t
  | a, b => a.rank < b.rank

/-- Whether a list of parts comes before another, part by part. -/
def componentsBefore : List Component → List Component → Bool
  | [], [] => false
  | [], _ :: _ => true
  | _ :: _, [] => false
  | a :: as, b :: bs => a.before b || (a == b && componentsBefore as bs)

/-- Whether `p` comes before `q`. -/
def before (p q : Path) : Bool :=
  componentsBefore p.components q.components

end Path

end NameAdvisor
