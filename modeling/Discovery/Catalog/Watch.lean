import Discovery.Catalog.Basic
import Discovery.Clock
import Discovery.Lookup.Fetch

/-!
# Lookups that wait

Many lookups may wait for one catalog at the same time. A waiting lookup watches three things: the
index of the catalog, a token, and the clock. It has a turn when it begins and after one of the
three has woken it, and between turns it does nothing. In a turn it ends when its token has fired,
when the index has gone past the one it waits for, or when its time has run out; if several of these
hold at once, the token decides. Otherwise it waits again. Time is kept in ticks of one millisecond.

Changes, tokens and time are moved by single steps, which wake the lookups that watch what is moved.
After them every lookup that was woken has its turn, with the catalog as it then is. A turn moves
nothing, so that one turn for each is enough.
-/

namespace Discovery

/-- How long a lookup waits that does not say so. -/
def defaultWait : Duration := .ofSeconds 300

inductive Outcome where
  | direct (result : Except Lookup.ClientError Lookup.Found)
  /-- A lookup that was made for a query. -/
  | fetched (result : Except Lookup.FetchError Lookup.Found)

/-- A query that a lookup is made for, with its stop token. -/
structure Pending.Origin where
  query : Query
  stop : Token

/-- A lookup that has begun. -/
structure Pending where
  /-- The name it was given, if any. -/
  task : Option String
  /-- The query it was made for, if any. -/
  origin : Option Pending.Origin
  request : Lookup.Request
  began : Nat
  /-- The index at its last turn. Only a change from it is noticed. -/
  seen : Option Nat := none
  /-- Whether it is to have a turn. -/
  woken : Bool := true

/-- How long a lookup waits at most. -/
def Pending.wait (p : Pending) : Duration := p.request.options.waitTime.getD defaultWait

/-- The tick at which its wait ends. -/
def Pending.deadline (p : Pending) : Nat := p.wait.deadline p.began

/-- Whether a lookup watches a token. -/
def Pending.watches (p : Pending) (t : Token) : Bool :=
  p.request.options.cancel == some t || p.origin.any fun o => o.stop == t

def Pending.wake (p : Pending) : Pending := { p with woken := true }

/-- Wakes a lookup if something is so. -/
def Pending.wakeIf (b : Bool) (p : Pending) : Pending := if b then p.wake else p

/-- A lookup after a turn in which it saw an index and did not end. -/
def Pending.rest (p : Pending) (index : Nat) : Pending := { p with seen := some index, woken := false }

/-- What the end of a lookup is worth in the log. -/
def Pending.report (p : Pending) : Outcome → List Event
  | .fetched r => (p.origin.map fun o => Lookup.report o.query r).getD []
  | .direct _ => []

/-- A catalog with the lookups that wait for it. -/
structure Watch where
  catalog : Catalog := {}
  now : Nat := 0
  fired : List Token := []
  /-- The lookups that have not ended, in the order in which they began. -/
  pending : List Pending := []

namespace Watch

/-! ## Turns -/

/-- Whether the token that a request watches has fired. -/
def isCancelled (w : Watch) (q : Lookup.Request) : Bool := q.options.cancel.any (· ∈ w.fired)

/-- Whether a lookup goes on waiting: it has not seen the index go past the one it waits for, and
its time has not run out. -/
def waits (w : Watch) (p : Pending) : Bool :=
  (p.seen == some w.catalog.index || w.catalog.mustWait p.request.options.waitIndex) &&
    w.now < p.deadline

/-- What the catalog answers in a turn, unless the lookup goes on waiting. The token is looked at
first. -/
def answer (w : Watch) (p : Pending) : Option (Except Lookup.ClientError Lookup.Found) :=
  if w.isCancelled p.request then some (.error .cancelled)
  else if w.waits p then none
  else some (.ok (w.catalog.find p.request))

/-- How a lookup ends in a turn, if it does. A fetch looks at the stop token of its query before it
gives the turn to the catalog. -/
def turn (w : Watch) (p : Pending) : Option Outcome :=
  match p.origin with
  | none => (w.answer p).map .direct
  | some o =>
    if o.stop ∈ w.fired then some (.fetched (Lookup.stopped o.query))
    else (w.answer p).map fun r => .fetched (Lookup.conclude o.query r)

structure Completion where
  pending : Pending
  outcome : Outcome

/-- The end of a lookup that was woken and ends in its turn. -/
def completion (w : Watch) (p : Pending) : Option Completion :=
  if p.woken then (w.turn p).map fun outcome => { pending := p, outcome } else none

/-- What is left of a lookup after the turn that it has if it was woken. -/
def afterTurn (w : Watch) (p : Pending) : Option Pending :=
  if p.woken then if (w.turn p).isSome then none else some (p.rest w.catalog.index) else some p

/-- Gives every lookup that was woken its turn. -/
def settle (w : Watch) : Watch × List Completion :=
  ({ w with pending := w.pending.filterMap w.afterTurn }, w.pending.filterMap w.completion)

/-! ## Steps -/

/-- Wakes the lookups of which something is so. -/
def wakeWhere (w : Watch) (f : Pending → Bool) : Watch :=
  { w with pending := w.pending.map fun p => p.wakeIf (f p) }

/-- Raises the index, which wakes every lookup. -/
def raise (w : Watch) : Watch := { w with catalog := w.catalog.bump }.wakeWhere fun _ => true

/-- Registers an instance, which wakes every lookup. -/
def register (w : Watch) (s : Service) (ns partition : String) : Watch × List Event :=
  let r := Registration.of s ns partition
  ({ w with catalog := w.catalog.register s ns partition }.wakeWhere fun _ => true,
    [.registering r.service.serviceId r.service.node r.service.datacenter])

/-- Takes an instance out of the default namespace and partition. If it was there, every lookup is
woken. -/
def deregister (w : Watch) (datacenter node serviceId : String) : Watch × Bool :=
  let (catalog, removed) := w.catalog.deregister datacenter node serviceId
  ({ w with catalog }.wakeWhere fun _ => removed, removed)

/-- Fires a token, which wakes the lookups that watch it. -/
def fire (w : Watch) (t : Token) : Watch :=
  { w with fired := t :: w.fired }.wakeWhere fun p => p.watches t

def cancel (w : Watch) (q : Query) (stop : Token) : Watch × List Event :=
  (w.fire stop, if stop ∈ w.fired then [] else [.cancelling q])

/-- Moves the clock on to a tick, which wakes the lookups whose time has run out. -/
def advanceTo (w : Watch) (tick : Nat) : Watch :=
  { w with now := max w.now tick }.wakeWhere fun p => p.deadline ≤ tick

def enqueue (w : Watch) (task : Option String) (origin : Option Pending.Origin)
    (request : Lookup.Request) : Watch :=
  { w with pending := w.pending ++ [{ task, origin, request, began := w.now }] }

def lookup (w : Watch) (task : Option String) (request : Lookup.Request) : Watch :=
  w.enqueue task none request

/-- Begins a fetch. A query that was cancelled before is not looked up, which shows in the log. -/
def fetch (w : Watch) (task : Option String) (q : Query) (stop : Token)
    (options : Lookup.Options) : Watch × List Event :=
  (w.enqueue task (some { query := q, stop }) (Lookup.requestFor q stop options),
    if stop ∈ w.fired then [] else [.fetching q options.waitIndex])

end Watch

end Discovery
