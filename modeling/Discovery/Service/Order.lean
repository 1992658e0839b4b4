import Discovery.Service.Basic
import Discovery.Text.Order

/-!
# The order of results

Results are ordered by node and, on one node, by the identity of the instance. The sort is stable:
instances that agree in both keep their relative order.
-/

namespace Discovery.Service

/-- Whether `a` may stand before `b`. -/
def atMost (a b : Service) : Bool :=
  if a.node = b.node then Text.atMost a.serviceId b.serviceId else Text.atMost a.node b.node

/-- Sorts by node, then identity. -/
def sort (xs : List Service) : List Service := xs.mergeSort atMost

end Discovery.Service
