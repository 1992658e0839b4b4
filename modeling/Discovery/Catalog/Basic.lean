import Discovery.Lookup.Basic

/-!
# The catalog in memory

Registrations are kept in the order in which their identities first came. The identity of a
registration is made up of datacenter, node, instance, namespace and partition. Each change takes
two steps: the list is changed, then the index is raised.
-/

namespace Discovery

/-- The datacenter of instances that name none, and of lookups that ask for none. -/
def defaultDatacenter : String := "dc1"

/-- The namespace where nothing else is said. -/
def defaultNamespace : String := "default"

/-- The partition where nothing else is said. -/
def defaultPartition : String := "default"

/-- An instance in the catalog. -/
structure Registration where
  service : Service
  ns : String
  partition : String
  deriving DecidableEq, Repr

/-- What tells registrations apart. -/
structure Registration.Key where
  datacenter : String
  node : String
  serviceId : String
  ns : String
  partition : String
  deriving DecidableEq, Repr

/-- The identity of a registration. -/
def Registration.key (r : Registration) : Key where
  datacenter := r.service.datacenter
  node := r.service.node
  serviceId := r.service.serviceId
  ns := r.ns
  partition := r.partition

/-- The registration of an instance in a namespace and partition. -/
def Registration.of (s : Service) (ns partition : String) : Registration where
  service :=
    if s.datacenter = "" then { s with datacenter := defaultDatacenter } else s
  ns := ns
  partition := partition

/-- The registrations and the index of the last change. -/
structure Catalog where
  /-- The registrations in the order of their identities. -/
  registrations : List Registration := []
  /-- Raised by every change. It fits in 64 bits for fewer than `2 ^ 64 - 1` changes. -/
  index : Nat := 1
  deriving DecidableEq, Repr, Inhabited

namespace Catalog

/-- Puts a registration in place of the one with its identity, or at the end. -/
def put (r : Registration) : List Registration → List Registration
  | [] => [r]
  | s :: rs => if s.key = r.key then r :: rs else s :: put r rs

/-- Takes away the registration with an identity. -/
def remove (key : Registration.Key) (rs : List Registration) : List Registration :=
  rs.filter fun r => r.key ≠ key

def bump (c : Catalog) : Catalog := { c with index := c.index + 1 }

def register (c : Catalog) (s : Service) (ns partition : String) : Catalog :=
  { c with registrations := put (Registration.of s ns partition) c.registrations }.bump

/-- The identity of an instance in the default namespace and partition. -/
def defaultKey (datacenter node serviceId : String) : Registration.Key where
  datacenter := datacenter
  node := node
  serviceId := serviceId
  ns := defaultNamespace
  partition := defaultPartition

/-- Takes an instance out of the default namespace and partition, and says whether it was there.
If not, nothing changes. -/
def deregister (c : Catalog) (datacenter node serviceId : String) : Catalog × Bool :=
  let rest := remove (defaultKey datacenter node serviceId) c.registrations
  if rest.length = c.registrations.length then (c, false)
  else ({ c with registrations := rest }.bump, true)

/-- Whether a registration is what a request asks for. -/
def matchesRequest (q : Lookup.Request) (r : Registration) : Bool :=
  r.service.serviceName == q.name &&
    r.service.datacenter == q.options.datacenter.getD defaultDatacenter &&
    r.ns == q.options.ns.getD defaultNamespace &&
    r.partition == q.options.partition.getD defaultPartition &&
    q.tag.all r.service.hasTag

/-- The instances that a list of registrations has for a request. -/
def select (q : Lookup.Request) (rs : List Registration) : List Service :=
  (rs.filter (matchesRequest q)).map Registration.service

/-- The answer to a request that does not wait. -/
def find (c : Catalog) (q : Lookup.Request) : Lookup.Found where
  services := select q c.registrations
  status := { lastIndex := c.index, lastContact := 0, knownLeader := true }

/-- Whether a request has to wait for a change past its index. The index zero asks for no wait. -/
def mustWait (c : Catalog) (waitIndex : Option Nat) : Bool :=
  waitIndex.any fun w => 1 ≤ w && c.index ≤ w

end Catalog

end Discovery
