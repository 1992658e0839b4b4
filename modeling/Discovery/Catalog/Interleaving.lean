import Discovery.Catalog.Basic

/-!
# Writers and lookups at the same time

A change of the catalog takes two steps: its writer changes the list of registrations, and later
raises the index. The end of a lookup takes two steps as well: the list is copied, and then the
index is read. The list is locked between the two steps of a lookup, so that it cannot change there,
while the index can still be raised. Any number of writers and lookups take their steps in any
order.
-/

namespace Discovery

/-- A change of the list of registrations. -/
inductive Change where
  | register (service : Service) (ns partition : String)
  | deregister (datacenter node serviceId : String)
  deriving DecidableEq, Repr

/-- What a change makes of a list. Taking away what is not there is no change. -/
def Change.on (rs : List Registration) : Change → Option (List Registration)
  | .register service ns partition => some (Catalog.put (Registration.of service ns partition) rs)
  | .deregister datacenter node serviceId =>
    let rest := Catalog.remove (Catalog.defaultKey datacenter node serviceId) rs
    if rest.length = rs.length then none else some rest

namespace Interleaving

/-- A lookup between its two steps. -/
structure Snapshot where
  request : Lookup.Request
  registrations : List Registration
  /-- How many changes the copy holds. -/
  changes : Nat
  deriving DecidableEq, Repr

/-- A lookup that has ended. -/
structure Answer where
  snapshot : Snapshot
  lastIndex : Nat
  deriving DecidableEq, Repr

def Answer.found (a : Answer) : Lookup.Found where
  services := Catalog.select a.snapshot.request a.snapshot.registrations
  status := { lastIndex := a.lastIndex, lastContact := 0, knownLeader := true }

/-- A catalog with writers and lookups between their steps, and what has happened so far. Changes
are numbered in the order in which they changed the list. -/
structure State where
  catalog : Catalog := {}
  /-- How many times the list has been changed. -/
  changes : Nat := 0
  /-- The changes for which the index has yet to be raised. -/
  owed : List Nat := []
  /-- The changes for which the index was raised, each with the index that it was raised to. -/
  raised : List (Nat × Nat) := []
  snapshots : List Snapshot := []
  answers : List Answer := []
  deriving Repr

inductive Move where
  | change (c : Change)
  /-- The writer of a change raises the index. -/
  | raise (change : Nat)
  | copy (request : Lookup.Request)
  /-- A lookup that has copied the list reads the index. -/
  | read (snapshot : Snapshot)
  deriving Repr

/-- Takes a step, if it can be taken. -/
def State.move (s : State) : Move → Option State
  | .change c =>
    if s.snapshots = [] then
      (c.on s.catalog.registrations).map fun registrations => { s with
        catalog := { s.catalog with registrations }
        changes := s.changes + 1
        owed := s.changes :: s.owed }
    else none
  | .raise change =>
    if change ∈ s.owed then
      some { s with
        catalog := s.catalog.bump
        owed := s.owed.erase change
        raised := (change, s.catalog.bump.index) :: s.raised }
    else none
  | .copy request =>
    some { s with
      snapshots :=
        { request, registrations := s.catalog.registrations, changes := s.changes } ::
          s.snapshots }
  | .read snapshot =>
    if snapshot ∈ s.snapshots then
      some { s with
        snapshots := s.snapshots.erase snapshot
        answers := { snapshot, lastIndex := s.catalog.index } :: s.answers }
    else none

def State.run (s : State) : List Move → Option State
  | [] => some s
  | m :: ms => (s.move m).bind fun s => s.run ms

end Interleaving

end Discovery
