import Discovery.Json.Layout
import Discovery.Service.Basic

/-!
# Writing instances as JSON

An instance is an object with all twelve fields in their order. Under the keys of the wire this is
the form in which the catalog answers and in which results are printed.
-/

namespace Discovery.Service

open Json (Layout)

/-- Labels as an object, in the order of their entries. -/
def labelsJson (l : Layout) (depth : Nat) (labels : Labels) : List Char :=
  l.object depth (labels.entries.map fun e => (e.1, Json.string e.2))

def Field.json (l : Layout) (depth : Nat) (s : Service) : Field → List Char
  | .id => Json.string s.id
  | .node => Json.string s.node
  | .address => Json.string s.address
  | .datacenter => Json.string s.datacenter
  | .taggedAddresses => labelsJson l depth s.taggedAddresses
  | .nodeMeta => labelsJson l depth s.nodeMeta
  | .serviceId => Json.string s.serviceId
  | .serviceName => Json.string s.serviceName
  | .serviceAddress => Json.string s.serviceAddress
  | .serviceTags => l.array depth (s.serviceTags.map Json.string)
  | .serviceMeta => labelsJson l depth s.serviceMeta
  | .servicePort => Json.number s.servicePort.toNat

/-- An instance, with each field under a key of the caller's choice. -/
def json (key : Field → String) (l : Layout) (depth : Nat) (s : Service) : List Char :=
  l.object depth (Field.all.map fun f => (key f, f.json l (depth + 1) s))

/-- A list of instances. -/
def listJson (key : Field → String) (l : Layout) (xs : List Service) : List Char :=
  l.array 0 (xs.map (json key l 1))

/-- A list of instances as the catalog writes it. -/
def wireText (l : Layout) (xs : List Service) : String := String.ofList (listJson Field.wireKey l xs)

end Discovery.Service
