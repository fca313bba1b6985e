import NameAdvisor.FileContext
import NameAdvisor.Text.Blank

/-!
# Questions to providers

## Main definitions

* `PromptContext.chatQuestion`: the question as some lines of instructions.
* `PromptContext.lineQuestion`: the question on a single line.
-/

namespace NameAdvisor.PromptContext

def language : String := "JavaScript/TypeScript"

/-- `s` without the blanks around it, or `none` if nothing is left. -/
def orNone (s : String) : String :=
  if (Text.trim s).isEmpty then "none" else Text.trim s

def importList (c : PromptContext) : String :=
  if c.file.imports.isEmpty then "none" else ", ".intercalate c.file.imports

/-- The question as some lines of instructions. -/
def chatQuestion (c : PromptContext) : String :=
  "You are an expert in naming conventions for " ++ language ++ " code.\n" ++
  "Suggest 3 to 5 better names for a " ++ c.kind.name ++ " named \"" ++ c.current ++ "\" in a " ++
    c.file.domain.name ++ " " ++ language ++ " file.\n" ++
  "Additional context: " ++ orNone c.context ++ ".\n" ++
  "File imports: " ++ c.importList ++ ".\n" ++
  "Answer ONLY with the alternative names separated by commas, without explanations."

def onOneLine (s : String) : String :=
  String.ofList (s.toList.map fun c => if c = '\n' then ' ' else c)

/-- The question on a single line. -/
def lineQuestion (c : PromptContext) : String :=
  "Suggest 3 better names for the " ++ c.kind.name ++ " \"" ++ c.current ++ "\" in a " ++
    c.file.domain.name ++ " " ++ language ++ " file. " ++
  "Context: " ++ onOneLine (orNone c.context) ++
  ". Reply only with the names separated by commas, without explanations."

end NameAdvisor.PromptContext
