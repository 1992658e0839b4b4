import Discovery.Duration
import Discovery.Json.Fault
import Discovery.Service.Basic

/-!
# Lookups

What a catalog client is asked for and what it answers. A client is given a service name, a tag
and options; it finds instances with some information on the catalog, or it fails.
-/

namespace Discovery

/-- A cancellation token, known by its serial number. Whether it has fired is kept apart. -/
structure Token where
  serial : Nat
  deriving DecidableEq, Repr, Inhabited

namespace Lookup

structure Options where
  datacenter : Option String := none
  /-- The node from which distance is measured. -/
  near : Option String := none
  ns : Option String := none
  partition : Option String := none
  /-- Wait until the index of the catalog is past this value. -/
  waitIndex : Option Nat := none
  /-- How long to wait at most. -/
  waitTime : Option Duration := none
  /-- Whether any server may answer, not only the leader. -/
  allowStale : Bool := false
  /-- Ends the lookup when it fires. -/
  cancel : Option Token := none
  deriving DecidableEq, Repr, Inhabited

/-- What a client is asked. -/
structure Request where
  /-- The service looked up. -/
  name : String
  /-- Only instances with this tag. -/
  tag : Option String := none
  options : Options := {}
  deriving DecidableEq, Repr, Inhabited

/-- What an answer says about the catalog. -/
structure Status where
  /-- The index of the catalog at the time of the answer. -/
  lastIndex : Nat := 0
  /-- Milliseconds since the server last heard from the leader. -/
  lastContact : Nat := 0
  knownLeader : Bool := false
  deriving DecidableEq, Repr, Inhabited

structure Found where
  services : List Service
  status : Status
  deriving DecidableEq, Repr, Inhabited

/-- Why no complete response came. -/
inductive Transport where
  /-- The time for the request ran out. -/
  | timeout
  /-- There were too many redirects. -/
  | redirect
  /-- The request could not be made. -/
  | builder
  /-- The connection or the response was faulty. -/
  | other
  deriving DecidableEq, Repr

/-- Why a client found nothing out. -/
inductive ClientError where
  /-- No complete response came. -/
  | http (kind : Transport)
  /-- The server refused, with a status and a text. -/
  | status (code : Nat) (body : String)
  /-- The body of a response is no list of instances. -/
  | decode (fault : Json.Fault)
  /-- There is no address to ask. -/
  | url (text : String)
  | cancelled
  deriving DecidableEq, Repr

def ClientError.message : ClientError → String
  | .http _ => "HTTP error"
  | .status code body => "unexpected response " ++ toString code ++ ": " ++ body
  | .decode _ => "failed to decode catalog response"
  | .url text => "invalid catalog URL: " ++ text
  | .cancelled => "request cancelled"

/-- Why a fetch gave no result. Each names the query by its canonical form. -/
inductive FetchError where
  /-- The client failed. -/
  | catalog (query : String) (source : ClientError)
  | cancelled (query : String)
  deriving DecidableEq, Repr

/-- Whether the fetch ended because the query was cancelled. -/
def FetchError.isCancelled : FetchError → Bool
  | .cancelled _ => true
  | .catalog .. => false

/-- The canonical form of the query. -/
def FetchError.query : FetchError → String
  | .catalog query _ | .cancelled query => query

def FetchError.message : FetchError → String
  | .catalog query source => query ++ ": " ++ source.message
  | .cancelled query => query ++ ": cancelled"

end Lookup

end Discovery
