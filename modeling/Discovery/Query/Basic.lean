/-!
# Service queries

A query names one service of the catalog and may narrow the answer by tag, datacenter, namespace
and partition, and ask for an order by distance from a node. A part that is not given is the empty
text. The canonical form of a query is the key under which it is logged; it leaves out namespace
and partition.
-/

namespace Discovery

/-- A lookup of one service. The empty text stands for a part that is not given. -/
structure Query where
  name : String
  /-- Only instances with this tag. -/
  tag : String := ""
  /-- The datacenter to ask, in place of the caller's. -/
  datacenter : String := ""
  /-- The node from which distance is measured. -/
  near : String := ""
  /-- The namespace to look in, in place of the caller's. -/
  ns : String := ""
  /-- The partition to look in, in place of the caller's. -/
  partition : String := ""
  deriving DecidableEq, Hashable, Repr, Inhabited

/-- A part of a query as an option. -/
def Query.given? (part : String) : Option String :=
  if part = "" then none else some part

/-- The tag to filter by. -/
def Query.tag? (q : Query) : Option String := given? q.tag

/-- A part with the character before it, and nothing for a part that is not given. -/
def Query.led (lead : Char) (part : String) : String :=
  if part = "" then "" else String.ofList (lead :: part.toList)

/-- What stands between the parentheses of the canonical form. -/
def Query.canonicalText (q : Query) : String :=
  (if q.tag = "" then "" else q.tag ++ ".") ++ q.name ++ led '@' q.datacenter ++ led '~' q.near

def Query.canonical (q : Query) : String := "catalog.service(" ++ q.canonicalText ++ ")"

end Discovery
