import Discovery.Labels

/-!
# Service instances

An entry of the catalog: one instance of a service on one node. What the catalog does not report
is the empty text, the number zero, or an empty collection. The twelve fields have a fixed order.
-/

namespace Discovery

/-- One instance of a service. -/
structure Service where
  /-- The identity of the node. -/
  id : String := ""
  node : String := ""
  address : String := ""
  datacenter : String := ""
  /-- Addresses of the node by their class. -/
  taggedAddresses : Labels := {}
  nodeMeta : Labels := {}
  /-- The identity of the instance on its node. -/
  serviceId : String := ""
  /-- The service that this is an instance of. -/
  serviceName : String := ""
  /-- The address that the instance advertises; the empty text stands for the node's. -/
  serviceAddress : String := ""
  /-- Tags as the catalog lists them, repetitions included. -/
  serviceTags : List String := []
  serviceMeta : Labels := {}
  /-- The port that the instance advertises. -/
  servicePort : UInt16 := 0
  deriving DecidableEq, Repr, Inhabited

namespace Service

/-- Whether the instance carries a tag. -/
def hasTag (s : Service) (tag : String) : Bool := s.serviceTags.contains tag

/-- The fields of an instance. -/
inductive Field where
  | id | node | address | datacenter | taggedAddresses | nodeMeta
  | serviceId | serviceName | serviceAddress | serviceTags | serviceMeta | servicePort
  deriving DecidableEq, Repr

def Field.all : List Field := [
  .id, .node, .address, .datacenter, .taggedAddresses, .nodeMeta,
  .serviceId, .serviceName, .serviceAddress, .serviceTags, .serviceMeta, .servicePort]

/-- The key of a field where the catalog writes it. -/
def Field.wireKey : Field → String
  | .id => "ID"
  | .node => "Node"
  | .address => "Address"
  | .datacenter => "Datacenter"
  | .taggedAddresses => "TaggedAddresses"
  | .nodeMeta => "NodeMeta"
  | .serviceId => "ServiceID"
  | .serviceName => "ServiceName"
  | .serviceAddress => "ServiceAddress"
  | .serviceTags => "ServiceTags"
  | .serviceMeta => "ServiceMeta"
  | .servicePort => "ServicePort"

/-- The key of a field where instances are written for their digest. -/
def Field.digestKey : Field → String
  | .id => "id"
  | .node => "node"
  | .address => "address"
  | .datacenter => "datacenter"
  | .taggedAddresses => "tagged_addresses"
  | .nodeMeta => "node_meta"
  | .serviceId => "service_id"
  | .serviceName => "service_name"
  | .serviceAddress => "service_address"
  | .serviceTags => "service_tags"
  | .serviceMeta => "service_meta"
  | .servicePort => "service_port"

/-- The field with a key on the wire. -/
def Field.ofWireKey? (key : String) : Option Field := Field.all.find? fun f => f.wireKey == key

theorem Field.mem_all (f : Field) : f ∈ Field.all := by cases f <;> decide

theorem Field.ofWireKey?_wireKey (f : Field) : Field.ofWireKey? f.wireKey = some f := by
  cases f <;> rfl

end Service

end Discovery
