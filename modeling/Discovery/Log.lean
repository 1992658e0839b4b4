import Discovery.Lookup.Event
import Discovery.Text.Decimal
import Discovery.Text.Split
import Discovery.Text.Terminal

/-!
# The log

Lines of the log have a level and name the part of the program that they come from. Texts from
outside may be in them, so they are written for a terminal, but a line break in such a text still
begins a new row. On the command line a filter says for each part which levels are shown. It is
written as directives between commas, of which the one for the longest beginning of a part's name
counts.
-/

namespace Discovery.Log

/-- How much a line matters. -/
inductive Level where
  | error
  | warn
  | info
  | debug
  | trace
  deriving DecidableEq, Repr

/-- How many levels down from none a level is. -/
def Level.depth : Level → Nat
  | .error => 1
  | .warn => 2
  | .info => 3
  | .debug => 4
  | .trace => 5

def Level.name : Level → String
  | .error => "ERROR"
  | .warn => "WARN"
  | .info => "INFO"
  | .debug => "DEBUG"
  | .trace => "TRACE"

structure Line where
  level : Level
  target : String
  message : String
  deriving DecidableEq, Repr

def Line.text (l : Line) : String :=
  l.level.name ++ " " ++ l.target ++ ": " ++ Text.forTerminal l.message

/-- The rows that the writing of a line takes up, as its message may hold line breaks. -/
def Line.rows (l : Line) : List String := (Text.lines l.text.toList).map String.ofList

/-- The line for an event of the library. -/
def Line.ofEvent (e : Event) : Line := { level := .debug, target := e.target, message := e.text }

/-- The part that the lines of the program itself come from. -/
def programTarget : String := "catalog_query"

/-- A line of the program itself. -/
def Line.ofProgram (message : String) : Line :=
  { level := .info, target := programTarget, message }

/-! ## Filters -/

/-- Shows lines of parts whose names begin in some way, down to a depth. -/
structure Directive where
  target : List Char
  depth : Nat
  deriving DecidableEq, Repr

abbrev Filter := List Directive

/-- Names for depths. Nothing at all stands for errors only. -/
def depthNames : List (String × Nat) :=
  [("", 1), ("off", 0), ("error", 1), ("warn", 2), ("info", 3), ("debug", 4), ("trace", 5)]

/-- Reads a depth, which is a name or a digit. -/
def readDepth (cs : List Char) : Option Nat :=
  (Text.readSignedBelow 6 cs).or (depthNames.lookup (String.ofList (cs.map Char.toLower)))

/-- Whether a character may be in the name of a part. -/
def isTargetChar (c : Char) : Bool := c.isAlphanum || c = '_' || c = ':' || c = '-'

/-- Reads one directive: a part, a depth, or both. A part alone is shown down to the end. One that
is about spans of time is no matter here, as there are none. -/
def readDirective (cs : List Char) : Option (List Directive) :=
  if cs.contains '[' then some []
  else match Text.cutFirst '=' cs with
    | some (target, depth) =>
      if target.all isTargetChar then
        (readDepth depth).map fun depth => [{ target, depth }]
      else none
    | none =>
      match readDepth cs with
      | some depth => some [{ target := [], depth }]
      | none => if cs.all isTargetChar then some [{ target := cs, depth := 5 }] else none

/-- Reads a filter. No directives at all show errors only. -/
def readFilter (s : String) : Option Filter :=
  match (Text.pieces ',' s.toList).filter (· ≠ []) with
  | [] => some [{ target := [], depth := 1 }]
  | pieces => (pieces.mapM readDirective).map List.flatten

/-- The filter where none can be read. -/
def defaultFilter : Filter := [{ target := programTarget.toList, depth := 3 }]

/-- The better of two directives: the one with the longer beginning, or else the later. -/
def better (a b : Directive) : Directive := if b.target.length < a.target.length then a else b

/-- The directive that counts for a part. -/
def Filter.directive? (f : Filter) (target : String) : Option Directive :=
  (f.filter fun d => d.target.isPrefixOf target.toList).foldl
    (fun best d => some ((best.map fun b => better b d).getD d)) none

/-- Whether a line is shown. -/
def Filter.shows (f : Filter) (l : Line) : Bool :=
  (f.directive? l.target).any fun d => l.level.depth ≤ d.depth

end Discovery.Log
