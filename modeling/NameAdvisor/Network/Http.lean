import NameAdvisor.Network.Url
import NameAdvisor.Text.Utf8

/-!
# Requests over the network

The network is a value that says what becomes of each request, given the requests before it.  A client keeps the
requests that it is told to send.  What becomes of a request is what this one sending of it hands back: where the client
follows redirects, the answer is the last one, and the requests on the way there are not kept.

## Main definitions

* `HttpRequest`, `Delivery`: a request, and what becomes of it.
* `Network`: what becomes of requests.
* `HttpClient.send`: sending a request.
* `Authority.authorization`: the header for the credentials of an address.
-/

namespace NameAdvisor

/-- What a request wants. -/
inductive HttpMethod where
  | get
  | post
  deriving DecidableEq, Repr, Inhabited

def HttpMethod.name : HttpMethod → String
  | get => "GET"
  | post => "POST"

/-- A request. -/
structure HttpRequest where
  method : HttpMethod
  url : Url
  /-- The headers that are asked for, their names in lower case, with their values.  A client adds those that every
  request has, such as the host and the length of the body. -/
  headers : List (String × String)
  body : String
  /-- How long an answer is waited for, in milliseconds. -/
  limitMs : Nat
  deriving DecidableEq, Repr, Inhabited

/-- What the sending of a request hands back, after any redirects that the client follows. -/
inductive Delivery where
  /-- It is answered in full. -/
  | answered (status : Nat) (body : ByteArray)
  /-- The time runs out. -/
  | timedOut
  /-- The server is not reached, or hangs up. -/
  | failed
  deriving Inhabited

/-- What the sending of a request hands back after any redirects, given the requests sent before. -/
structure Network where
  deliver : List HttpRequest → HttpRequest → Delivery

/-- A network on which nothing answers. -/
def Network.dead : Network where
  deliver _ _ := .failed

instance : Inhabited Network := ⟨.dead⟩

/-- The header that gives a name and a password. -/
def Credentials.header (c : Credentials) : String × String :=
  ("authorization", "Basic " ++ String.ofList (Text.base64 (Utf8.encode (c.name ++ ":" ++ c.password)).toList))

/-- The headers for the credentials of an authority, which come before all others. -/
def Authority.authorization (a : Authority) : List (String × String) :=
  (a.credentials.map Credentials.header).toList

/-- A network and the requests sent over it so far. -/
structure HttpClient where
  network : Network
  sent : List HttpRequest := []
  deriving Inhabited

namespace HttpClient

/-- Sends a request once, and hands back what comes of it after any redirects. -/
def send (c : HttpClient) (r : HttpRequest) : Delivery × HttpClient :=
  (c.network.deliver c.sent r, { c with sent := c.sent ++ [r] })

def isSuccess (status : Nat) : Bool :=
  200 ≤ status && status < 300

/-- Whether a text can stand in a header: it holds no control characters but tabs. -/
def isHeaderText (s : String) : Bool :=
  s.toList.all fun c => c == '\t' || (0x20 ≤ c.toNat && c.toNat ≠ 0x7F)

end HttpClient

end NameAdvisor
