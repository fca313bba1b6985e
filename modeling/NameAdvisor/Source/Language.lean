import NameAdvisor.FileSystem.Path
import NameAdvisor.Text.Case

/-!
# Languages of source files

## Main definitions

* `SourceLanguage`: the dialects that are read.
* `SourceLanguage.ofPath?`: the dialect of a file, by its extension.
-/

namespace NameAdvisor

/-- A dialect of source text. -/
inductive SourceLanguage where
  /-- TypeScript, where `<T>e` is a type assertion. -/
  | typeScript
  /-- TypeScript with elements, where `<T>` opens an element.  JavaScript is read as this. -/
  | tsx
  deriving DecidableEq, Repr, Inhabited

namespace SourceLanguage

/-- The extensions of source files and their dialects. -/
def extensions : List (String × SourceLanguage) :=
  [("js", tsx), ("jsx", tsx), ("mjs", tsx), ("cjs", tsx), ("ts", typeScript), ("tsx", tsx), ("mts", typeScript),
    ("cts", typeScript)]

/-- The dialect of the files with an extension, the case of ASCII letters aside. -/
def ofExtension? (ext : String) : Option SourceLanguage :=
  extensions.lookup (Text.asciiLowered ext)

/-- The dialect of the file at a path; nothing if it is not a source file. -/
def ofPath? (p : Path) : Option SourceLanguage :=
  p.extension?.bind ofExtension?

end SourceLanguage

end NameAdvisor
