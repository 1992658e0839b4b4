import Std.Data.HashSet.Basic
import Discovery.Query.Parser

/-!
# Queries that can be stopped

A live query carries a stop signal, which every lookup made for it watches. The signal is no part
of what is asked: queries are compared and hashed by their parts alone, and each reading of a text
gives a query with a signal of its own.
-/

namespace Discovery.Query

/-- A query with its stop signal. -/
structure Live where
  query : Query
  cancelled : Bool := false
  deriving Repr, Inhabited

namespace Live

/-- Reads a query; its signal has not fired. -/
def parse (text : String) : Except Error Live :=
  (Query.parse text).map fun query => { query }

/-- Fires the signal; a second time changes nothing. -/
def cancel (q : Live) : Live := { q with cancelled := true }

instance : BEq Live := ⟨fun a b => a.query == b.query⟩

instance : Hashable Live := ⟨fun q => hash q.query⟩

instance : EquivBEq Live where
  rfl := by simp [BEq.beq]
  symm := by simp [BEq.beq, eq_comm]
  trans := by simp [BEq.beq]; intro a b c h h'; exact h.trans h'

instance : LawfulHashable Live where
  hash_eq a b h := by
    simp only [BEq.beq, decide_eq_true_eq] at h
    simp only [hash, h]

/-- The set of some queries, one for each that differs from the others in a part. -/
def distinct (qs : List Live) : Std.HashSet Live := Std.HashSet.ofList qs

end Live

end Discovery.Query
