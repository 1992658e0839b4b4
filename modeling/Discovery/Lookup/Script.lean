import Discovery.Lookup.Fetch

/-!
# Clients that follow a script

A scripted client stands in for a catalog where a fetch is rehearsed: it answers after a delay, and
may fire the stop signal itself and let others run before it answers. Somebody else may cancel the
query after a time. The script and that time decide on the steps of the client.
-/

namespace Discovery.Lookup

/-- What a client does when it is called. -/
structure Script where
  /-- Milliseconds that it waits first. -/
  delay : Option Nat := none
  /-- It then fires the token in its options. -/
  firesToken : Bool := false
  /-- It then suspends once, so that others run. -/
  yields : Bool := false
  /-- Its answer, unless it never gives one. -/
  answer : Option (Except ClientError Found)

/-- The last steps of a script, which begin at a time. -/
def Script.ending (s : Script) (cancelAt : Option Nat) (first : Poll) (time : Nat) : List Poll :=
  let passed := cancelAt.any fun t => t ≤ time
  let last (p : Poll) : List Poll :=
    match s.answer with
    | some _ => [{ p with outcome := s.answer }]
    | none => [p, { firesBefore := cancelAt.isSome }]
  if s.yields then { first with firesWithin := s.firesToken } :: last { firesBefore := passed }
  else last { first with firesWithin := s.firesToken }

/-- The steps of a script when the query is cancelled at a time. A delay that ends at the very time
ends first. -/
def Script.polls (s : Script) (cancelAt : Option Nat) : List Poll :=
  match s.delay with
  | none => s.ending cancelAt {} 0
  | some d => {} :: s.ending cancelAt { firesBefore := cancelAt.any fun t => t < d } d

/-- Whether the query is cancelled from outside while the fetch goes on, which is then reported. -/
def cancelledOutside (fired : Bool) : List Poll → Bool
  | [] => false
  | p :: ps => !fired && (p.firesBefore || (p.outcome.isNone && cancelledOutside p.firesWithin ps))

/-- The log of a rehearsal. -/
def Script.events (s : Script) (q : Query) (precancelled : Bool) (cancelAt : Option Nat)
    (options : Options) (run : Fetch) : List Event :=
  if precancelled then [.cancelling q]
  else
    Event.fetching q options.waitIndex ::
      ((if cancelledOutside false (s.polls cancelAt) then [Event.cancelling q] else []) ++
        (run.progress.result.map (report q)).getD [])

end Discovery.Lookup
