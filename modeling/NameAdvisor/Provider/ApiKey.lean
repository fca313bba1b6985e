import NameAdvisor.Text.Blank

/-!
# Keys of hosted backends

## Main definitions

* `ApiKey`: a key, which is never shown.
* `ApiKey.ofSetting?`: the key that a setting holds.
-/

namespace NameAdvisor

/-- A key. -/
structure ApiKey where
  /-- The text of the key, for requests only. -/
  secret : String
  deriving DecidableEq, Inhabited

namespace ApiKey

/-- The key that a setting holds, without the blanks around it; a blank setting holds none. -/
def ofSetting? (raw : String) : Option ApiKey :=
  if (Text.trim raw).isEmpty then none else some ⟨Text.trim raw⟩

/-- What is shown in the place of a key. -/
def mask : String := "ApiKey([REDACTED])"

/-- A key as it is shown: no two keys look different. -/
def shown (_ : ApiKey) : String := mask

end ApiKey

end NameAdvisor
