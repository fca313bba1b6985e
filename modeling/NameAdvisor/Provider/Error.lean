import NameAdvisor.Provider.Kind
import NameAdvisor.Json.Parser

/-!
# Failures of providers

## Main definitions

* `ProviderError`: why a provider gave no answer, with its wording and its category.
* `ProviderError.ofReply`: the failure that an unsuccessful reply reports.
-/

namespace NameAdvisor

/-- Why a provider gave no answer. -/
inductive ProviderError where
  /-- The request could not be sent or was not answered; `timedOut` when the time ran out. -/
  | http (timedOut : Bool)
  /-- The reply is not JSON. -/
  | notJson (fault : Json.Fault)
  /-- The reply is JSON of the wrong shape. -/
  | wrongShape (mismatch : Json.Mismatch)
  /-- The backend reported a failure. -/
  | api (status : Nat) (text : String)
  /-- There is no key for the backend. -/
  | missingKey (kind : ProviderKind)
  /-- A program could not be started or ended with a failure. -/
  | process (text : String)
  /-- A program did not end in time. -/
  | timeout (limitMs : Nat)
  /-- The reply has no text where it should. -/
  | malformed (text : String)
  /-- Any other failure. -/
  | other (text : String)
  deriving DecidableEq, Repr

namespace ProviderError

def message : ProviderError → String
  | http true => "HTTP error: request timed out"
  | http false => "HTTP error: request failed"
  | notJson .incomplete => "JSON error: unexpected end of text"
  | notJson .malformed => "JSON error: unexpected character"
  | wrongShape mismatch => "JSON error: " ++ mismatch.message
  | api status text => "API error (" ++ toString status ++ "): " ++ text
  | missingKey kind => "missing API key for " ++ kind.name
  | process text => "process error: " ++ text
  | timeout limitMs => "timed out after " ++ toString limitMs ++ "ms"
  | malformed text => "malformed response: " ++ text
  | other text => text

def category : ProviderError → String
  | http true => "timeout"
  | http false => "network"
  | notJson _ | wrongShape _ | malformed _ => "parse"
  | api _ _ => "api"
  | missingKey _ => "auth"
  | process _ => "process"
  | timeout _ => "timeout"
  | other _ => "unknown"

/-- The text that a reply gives for its failure, if it has one in a known place. -/
def reported? (body : String) : Option String :=
  match Json.parseCanonical body with
  | .error _ => none
  | .ok j =>
    let error := j.get "error"
    ((error.get "message").asString?).or error.asString?

/-- The failure that a reply with a status of failure reports. -/
def ofReply (status : Nat) (body : String) : ProviderError :=
  match reported? body with
  | some text => api status text
  | none => api status ("HTTP " ++ toString status ++ ": " ++ body)

end ProviderError

end NameAdvisor
