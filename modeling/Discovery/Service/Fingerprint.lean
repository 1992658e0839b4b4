import Discovery.Service.Order
import Discovery.Service.Writer
import Discovery.Sha256

/-!
# Fingerprints of results

A fingerprint tells whether a result has changed. It is the digest of a JSON text that holds every
field of every instance. The instances are taken in the order of results, without moving them, and
the labels of each are sorted by key, so that neither the order of labels nor the order of instances
that differ in node or identity matters.
-/

namespace Discovery.Service

/-- Labels in the order of their keys. -/
def sortLabels (l : Labels) : Labels :=
  l.rearrange (l.entries.mergeSort fun a b => Text.atMost a.1 b.1) (List.mergeSort_perm _ _)

/-- An instance whose labels are in the order of their keys. -/
def sorted (s : Service) : Service :=
  { s with
    taggedAddresses := sortLabels s.taggedAddresses
    nodeMeta := sortLabels s.nodeMeta
    serviceMeta := sortLabels s.serviceMeta }

/-- The places of the instances of a result, in the order of results. -/
def places (xs : List Service) : List (Fin xs.length) :=
  (List.finRange xs.length).mergeSort fun i j => atMost xs[i] xs[j]

/-- The text that stands for a result in its fingerprint. -/
def digestText (xs : List Service) : String :=
  String.ofList (listJson Field.digestKey .compact ((places xs).map fun i => sorted xs[i]))

/-- The fingerprint of a result. -/
def fingerprint (xs : List Service) : String := Sha256.hex (Sha256.digest (Text.utf8 (digestText xs)))

end Discovery.Service
