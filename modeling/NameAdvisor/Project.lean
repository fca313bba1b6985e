import NameAdvisor.FileSystem.Basic
import NameAdvisor.Json.Printer

/-!
# What a project is written in

## Main definitions

* `ProjectLanguage`, `Framework`: what marker files tell of a project.
* `Project.inspect`: what the marker files of a directory tell.
* `Project.render`, `Project.renderJson`: the two ways to show it.
-/

namespace NameAdvisor

/-- The main language of a project. -/
inductive ProjectLanguage where
  | javascript
  | typescript
  deriving DecidableEq, Repr, Inhabited

def ProjectLanguage.name : ProjectLanguage → String
  | javascript => "javascript"
  | typescript => "typescript"

/-- The framework of a project. -/
inductive Framework where
  | nextjs
  | vite
  | angular
  | reactNative
  | unknown
  deriving DecidableEq, Repr, Inhabited

def Framework.name : Framework → String
  | nextjs => "nextjs"
  | vite => "vite"
  | angular => "angular"
  | reactNative => "react-native"
  | unknown => "unknown"

/-- What is known of a project. -/
structure Project where
  language : ProjectLanguage
  framework : Framework
  deriving DecidableEq, Repr, Inhabited

namespace Project

/-- The names of the files that tell something of a project. -/
def markerFiles : List String :=
  ["tsconfig.json", "next.config.js", "next.config.mjs", "vite.config.js", "vite.config.ts", "angular.json", "app.json",
    "metro.config.js"]

/-- What the files right inside `root` tell. -/
def inspect (fs : FileSystem) (root : Path) : Project :=
  let has (name : String) : Bool := fs.isFile (root.join ⟨name⟩)
  { language := if has "tsconfig.json" then .typescript else .javascript
    framework :=
      if has "next.config.js" || has "next.config.mjs" then .nextjs
      else if has "vite.config.js" || has "vite.config.ts" then .vite
      else if has "angular.json" then .angular
      else if has "app.json" && has "metro.config.js" then .reactNative
      else .unknown }

def toJson (p : Project) : Json :=
  .object [("language", .string p.language.name), ("framework", .string p.framework.name)]

def render (p : Project) : String :=
  "language:  " ++ p.language.name ++ "\nframework: " ++ p.framework.name ++ "\n"

def renderJson (p : Project) : String :=
  p.toJson.compact ++ "\n"

end Project

end NameAdvisor
