import Discovery.Text.Split
import Discovery.Query.Basic
import Discovery.Query.Error

/-!
# Reading queries

The form is `[tag.]name[?ns=namespace&partition=partition][@datacenter][~near]`. Parts are taken
off from the outside in: the text after the last `~`, then the text after the last `@`, then the
options after the first `?`, and at last the tag before the first `.`. So `~near` may follow a text
that has options and a datacenter of its own.
-/

namespace Discovery.Query

open Text (cutFirst cutLast pieces)

/-- The options of a query as far as they are read. -/
structure Scope where
  /-- The namespace, once given. -/
  ns : Option (List Char) := none
  /-- The partition, once given. -/
  partition : Option (List Char) := none
  deriving DecidableEq, Repr

/-- Takes off the operand after the last `sep`. Without a separator there is no operand and all
text remains; a separator must be followed by something. -/
def takeSuffix (input : String) (sep : Char) (s : List Char) :
    Except Error (List Char × List Char) :=
  match cutLast sep s with
  | none => .ok (s, [])
  | some (_, []) => .error (.missingOperand input sep)
  | some (rest, operand) => .ok (rest, operand)

/-- Reads one `key=value` pair. Its faults are looked for in the order: no text, a key that is not
known, no value, a key given before. -/
def readPair (input : String) (scope : Scope) (pair : List Char) : Except Error Scope :=
  if pair = [] then .error (.missingOperand input '&')
  else
    let (key, value) := (cutFirst '=' pair).getD (pair, [])
    if key = ['n', 's'] then
      if value = [] then .error (.missingOperand input '=')
      else if scope.ns.isSome then .error (.duplicateOption input (String.ofList key))
      else .ok { scope with ns := some value }
    else if key = ['p', 'a', 'r', 't', 'i', 't', 'i', 'o', 'n'] then
      if value = [] then .error (.missingOperand input '=')
      else if scope.partition.isSome then .error (.duplicateOption input (String.ofList key))
      else .ok { scope with partition := some value }
    else .error (.unsupportedOption input (String.ofList key))

/-- Reads pairs from left to right; the first faulty one decides. -/
def readPairs (input : String) (scope : Scope) : List (List Char) → Except Error Scope
  | [] => .ok scope
  | pair :: pairs => do readPairs input (← readPair input scope pair) pairs

/-- Reads the text after `?`. -/
def readOptions (input : String) (raw : List Char) : Except Error Scope :=
  if raw = [] then .error (.missingOperand input '?')
  else readPairs input {} (pieces '&' raw)

/-- Takes off the options after the first `?`. -/
def takeOptions (input : String) (s : List Char) : Except Error (List Char × Scope) :=
  match cutFirst '?' s with
  | none => .ok (s, {})
  | some (rest, raw) => do return (rest, ← readOptions input raw)

/-- Takes off the tag before the first `.`; what remains is the name. -/
def takeTag (input : String) (s : List Char) : Except Error (List Char × List Char) :=
  match cutFirst '.' s with
  | none => .ok ([], s)
  | some ([], _) => .error (.missingOperand input '.')
  | some (tag, name) => .ok (tag, name)

def parse (input : String) : Except Error Query :=
  if input = "" then .error .empty
  else do
    let (s, near) ← takeSuffix input '~' input.toList
    let (s, datacenter) ← takeSuffix input '@' s
    let (s, scope) ← takeOptions input s
    let (tag, name) ← takeTag input s
    if name = [] then .error (.nameRequired input)
    else .ok {
      name := String.ofList name
      tag := String.ofList tag
      datacenter := String.ofList datacenter
      near := String.ofList near
      ns := String.ofList (scope.ns.getD [])
      partition := String.ofList (scope.partition.getD []) }

end Discovery.Query
