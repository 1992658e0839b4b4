import Discovery.Query.Basic

/-!
# Log events

What the library reports of its work, and the words in which it does.
-/

namespace Discovery

/-- Something worth a line in the log. -/
inductive Event where
  | fetching (query : Query) (waitIndex : Option Nat)
  /-- A fetch has found so many instances. -/
  | fetched (query : Query) (instances lastIndex : Nat)
  /-- A query is cancelled for the first time. -/
  | cancelling (query : Query)
  /-- An instance is registered. -/
  | registering (serviceId node datacenter : String)
  /-- A request is about to be sent. -/
  | requesting (url : String)
  deriving DecidableEq, Repr

/-- An optional number as it is shown in the log. -/
def Event.optional : Option Nat → String
  | none => "None"
  | some n => "Some(" ++ toString n ++ ")"

/-- The part of the library that reports an event. -/
def Event.target : Event → String
  | .fetching .. | .fetched .. => "catalog_query::fetch"
  | .cancelling .. => "catalog_query::query"
  | .registering .. => "catalog_query::catalog::memory"
  | .requesting .. => "catalog_query::catalog::http"

/-- What is reported. -/
def Event.text : Event → String
  | .fetching query waitIndex =>
    "Fetching " ++ query.canonical ++ " (index " ++ optional waitIndex ++ ")"
  | .fetched query instances lastIndex =>
    "Fetched " ++ query.canonical ++ ": " ++ toString instances ++ " instances at index " ++
      toString lastIndex
  | .cancelling query => "Cancelling " ++ query.canonical
  | .registering serviceId node datacenter =>
    "Registering " ++ serviceId ++ " on " ++ node ++ " in " ++ datacenter
  | .requesting url => "GET " ++ url

end Discovery
