import NameAdvisor.Provider.Kind
import NameAdvisor.Text.Blank

/-!
# Which providers are asked

## Main definitions

* `ProviderPolicy`: all providers in turn, none, or a single one.
* `ProviderPolicy.read`: the policy that a text names.
-/

namespace NameAdvisor

/-- Which providers are asked for names. -/
inductive ProviderPolicy where
  /-- Each in turn until one answers. -/
  | auto
  /-- None. -/
  | rules
  /-- Only the given one. -/
  | single (kind : ProviderKind)
  deriving DecidableEq, Repr

namespace ProviderPolicy

instance : Inhabited ProviderPolicy := ⟨rules⟩

/-- The name of a policy in settings. -/
def name : ProviderPolicy → String
  | auto => "auto"
  | rules => "rules"
  | single kind => kind.name

/-- The policy that `s` names, the blanks around it and the case of ASCII letters aside; a blank text stands for
`rules`.  An unknown name is refused with a reason. -/
def read (s : String) : Except String ProviderPolicy :=
  let word := Text.asciiLowered (Text.trim s)
  if word = "auto" then .ok auto
  else if word = "rules" || word = "" then .ok rules
  else
    match ProviderKind.ofName? word with
    | some kind => .ok (single kind)
    | none => .error ("invalid config value: " ++ ProviderKind.unknownMessage word)

def toJson (p : ProviderPolicy) : Json :=
  .string p.name

def decode : Json.Decoder ProviderPolicy :=
  Json.Decoder.text read

end ProviderPolicy

end NameAdvisor
