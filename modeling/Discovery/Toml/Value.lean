/-!
# TOML values

A document is a table. What made a table decides whether it may still grow: a table under a header
of its own is closed to dotted keys, one that only stands above another header may still get a
header, and one that was written inline is closed for good.
-/

namespace Discovery.Toml

/-- What made a table. -/
inductive Origin where
  /-- A header of its own, or the document itself. -/
  | header
  /-- The header of a table inside it. -/
  | above
  /-- A dotted key. -/
  | dotted
  deriving DecidableEq, Repr

/-- A value. Numbers with a fraction, dates and times are kept as they are written. -/
inductive Value where
  | string (text : String)
  | integer (n : Int)
  | float (written : String)
  | boolean (b : Bool)
  | moment (written : String)
  | array (items : List Value)
  /-- A table between braces. -/
  | inline (entries : List (String × Value))
  /-- A table of the document. -/
  | table (origin : Origin) (entries : List (String × Value))
  /-- Tables under one repeated header, the last one first. -/
  | tables (back : List (List (String × Value)))
  deriving Repr, Inhabited

/-- The keys of a table with their values, in the order in which they came. -/
abbrev Entries := List (String × Value)

/-- Replaces the value of a key that is there. -/
def Entries.replace (key : String) (v : Value) : Entries → Entries
  | [] => []
  | (k, w) :: es => if k = key then (k, v) :: es else (k, w) :: Entries.replace key v es

/-- Follows a path into a table and changes the table at its end. Tables that are missing on the
way are made, with the given origin. A path goes on into the last of several tables under one
header, and never into a value. A dotted path does not go into a table with a header of its own. -/
def Entries.within (made : Origin) (change : Origin → Entries → Option Entries) :
    List String → Origin → Entries → Option Entries
  | [], origin, es => change origin es
  | key :: path, _, es =>
    match es.lookup key with
    | none => do
      let inner ← Entries.within made change path made []
      return es ++ [(key, .table made inner)]
    | some (.table origin inner) =>
      if made = .dotted ∧ origin = .header then none
      else do
        let inner ← Entries.within made change path origin inner
        return Entries.replace key (.table origin inner) es
    | some (.tables (last :: earlier)) => do
      let last ← Entries.within made change path .header last
      return Entries.replace key (.tables (last :: earlier)) es
    | some _ => none

/-- Adds a key that must be new. -/
def Entries.add (key : String) (v : Value) (es : Entries) : Option Entries :=
  if (es.lookup key).isSome then none else some (es ++ [(key, v)])

/-- Adds a pair whose key is dotted when `path` is not empty. Tables made by dotted keys and other
tables are not mixed: the table at the end of a dotted path must come from dotted keys. -/
def Entries.addPair (path : List String) (key : String) (v : Value) (origin : Origin)
    (es : Entries) : Option Entries :=
  Entries.within .dotted
    (fun reached es => if reached = .dotted ↔ path = [] then none else Entries.add key v es)
    path origin es

/-- Opens the table of a header. -/
def Entries.open (key : String) (es : Entries) : Option Entries :=
  match es.lookup key with
  | none => some (es ++ [(key, .table .header [])])
  | some (.table .above inner) => some (Entries.replace key (.table .header inner) es)
  | some _ => none

/-- Opens a further table of a repeated header. -/
def Entries.openNext (key : String) (es : Entries) : Option Entries :=
  match es.lookup key with
  | none => some (es ++ [(key, .tables [[]])])
  | some (.tables back) => some (Entries.replace key (.tables ([] :: back)) es)
  | some _ => none

/-- A table written inline, from its pairs. -/
def Entries.ofInline (pairs : List (List String × String × Value)) : Option Entries :=
  pairs.foldlM (fun es p => Entries.addPair p.1 p.2.1 p.2.2 .header es) []

end Discovery.Toml
