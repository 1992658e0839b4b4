import Discovery.Lookup.Basic
import Discovery.Lookup.Event
import Discovery.Service.Order

/-!
# Fetching a query

A fetch looks up a query with a client. What the query says about datacenter, distance, namespace
and partition goes before the options of the caller, and its stop signal takes the place of their
token. The client runs in steps, each of which suspends it or ends it. The signal is looked at
before each step, so it wins over an answer that the client would give in that step; an answer
given in the step during which the signal fires still counts.
-/

namespace Discovery.Lookup

/-- The options for a client: those of the caller under what the query says. -/
def merge (q : Query) (stop : Token) (options : Options) : Options :=
  { options with
    datacenter := (Query.given? q.datacenter).or options.datacenter
    near := (Query.given? q.near).or options.near
    ns := (Query.given? q.ns).or options.ns
    partition := (Query.given? q.partition).or options.partition
    cancel := some stop }

/-- What a fetch asks of its client. -/
def requestFor (q : Query) (stop : Token) (options : Options) : Request where
  name := q.name
  tag := q.tag?
  options := merge q stop options

/-- The result of a fetch whose query was cancelled. -/
def stopped (q : Query) : Except FetchError Found := .error (.cancelled q.canonical)

/-- The result of a fetch from that of its client. -/
def conclude (q : Query) : Except ClientError Found → Except FetchError Found
  | .ok found => .ok { found with services := Service.sort found.services }
  | .error .cancelled => stopped q
  | .error source => .error (.catalog q.canonical source)

/-- What a result is worth in the log. -/
def report (q : Query) : Except FetchError Found → List Event
  | .ok found => [.fetched q found.services.length found.status.lastIndex]
  | .error _ => []

/-- One step of a client, with what happens to the stop signal around it. -/
structure Poll where
  /-- The signal fires before the step and after the one before. -/
  firesBefore : Bool := false
  /-- The signal fires while the client runs. -/
  firesWithin : Bool := false
  /-- How the client ends, if it does not suspend. -/
  outcome : Option (Except ClientError Found) := none

/-- How far a fetch has come. -/
structure Progress where
  /-- Whether the signal has fired. -/
  fired : Bool
  /-- The result, once there is one. -/
  result : Option (Except FetchError Found)

/-- Follows the steps of a client that was called. -/
def follow (q : Query) (fired : Bool) : List Poll → Progress
  | [] => { fired, result := none }
  | p :: ps =>
    if fired || p.firesBefore then { fired := true, result := some (stopped q) }
    else match p.outcome with
      | some r => { fired := p.firesWithin, result := some (conclude q r) }
      | none => follow q p.firesWithin ps

/-- The course of a fetch. -/
structure Fetch where
  /-- What the client was asked; nothing if it was not called. -/
  calls : List Request
  progress : Progress

/-- Fetches with a client that runs in these steps when it is called. -/
def fetch (q : Query) (stop : Token) (fired : Bool) (options : Options)
    (client : Request → List Poll) : Fetch :=
  if fired then { calls := [], progress := { fired := true, result := some (stopped q) } }
  else
    let request := requestFor q stop options
    { calls := [request], progress := follow q false (client request) }

end Discovery.Lookup
