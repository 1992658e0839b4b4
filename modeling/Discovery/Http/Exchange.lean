import Discovery.Http.Response
import Discovery.Url.Parser
import Discovery.Url.Uri

/-!
# Exchanges

An exchange is a request with the requests that follow it because the server redirects it. Each of
them carries the same token. At most ten are sent.
-/

namespace Discovery.Http

/-- A request as it is sent. -/
structure Sent where
  /-- What is asked for, without user, password and fragment. -/
  url : Url
  /-- The token that goes along. -/
  token : Option String
  deriving DecidableEq, Repr

/-- What comes back for a request. -/
inductive Reply where
  | response (r : Response)
  /-- Something that is no response, or nothing. -/
  | broken
  deriving Repr

/-- How far an exchange has come. -/
inductive Exchange where
  /-- A request is out. So many more may follow it. -/
  | asking (s : Sent) (more : Nat)
  | ended (r : Except Lookup.ClientError Response)

/-- How many requests of one exchange are sent at most. -/
def requestLimit : Nat := 10

/-- Whether a response asks for another request. -/
def Response.isRedirect (r : Response) : Bool := [301, 302, 303, 307, 308].contains r.code

/-- Whether there are servers to ask for URLs with a scheme. For `https` the connection to them is
encrypted. -/
def isAskable (scheme : String) : Bool := scheme = "http" || scheme = "https"

variable [Tables]

/-- Where a response that is a redirect leads from a URL. A place that is no URL, or that no request
can be made for, is none. -/
def Response.location? (r : Response) (base : Url) : Option Url := do
  let bytes ← value? r.headers "Location"
  let text ← Text.ofUtf8? bytes
  (base.join text).toOption.filter Url.isUri

namespace Exchange

/-- Sends a request, if there is a server to ask. -/
def send (fault : Lookup.Transport) (token : Option String) (more : Nat) (url : Url) : Exchange :=
  if isAskable url.scheme then .asking { url := url.requested, token } more
  else .ended (.error (.http fault))

def start (token : Option String) (url : Url) : Exchange :=
  send .builder token (requestLimit - 1) url

/-- Takes a reply to the request that is out. -/
def receive (reply : Reply) : Exchange → Exchange
  | .ended r => .ended r
  | .asking s more =>
    match reply with
    | .broken => .ended (.error (.http .other))
    | .response r =>
      match (if r.isRedirect then r.location? s.url else none) with
      | none => .ended (.ok r)
      | some url =>
        match more with
        | 0 => .ended (.error (.http .redirect))
        | more + 1 => send .other s.token more url

/-- The request that is out. -/
def out? : Exchange → Option Sent
  | .asking s _ => some s
  | .ended _ => none

/-- Takes replies one after another, as long as they are asked for. Gives all requests that were
sent, and how far the exchange has come. -/
def run : Exchange → List Reply → List Sent × Exchange
  | .ended r, _ => ([], .ended r)
  | .asking s more, [] => ([s], .asking s more)
  | .asking s more, reply :: replies =>
    let (sent, last) := run ((asking s more).receive reply) replies
    (s :: sent, last)

end Exchange

end Discovery.Http
