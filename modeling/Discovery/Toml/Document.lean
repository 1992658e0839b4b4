import Discovery.Toml.Scalar

/-!
# TOML documents

A document is read line by line: a header opens a table, and the pairs behind it go into that
table. Any fault makes the whole document unreadable.
-/

namespace Discovery.Toml

/-- The text behind white space, line ends and comments, as between the items of an array. The flag
says whether a comment is open. -/
def skipFill : Bool → List Char → List Char
  | _, '\n' :: r => skipFill false r
  | _, '\r' :: '\n' :: r => skipFill false r
  | true, c :: r => if isPlain c then skipFill true r else c :: r
  | false, c :: r =>
    if isSpace c then skipFill false r else if c = '#' then skipFill true r else c :: r
  | _, [] => []

/-- The items of an array behind its opening bracket. The fuel bounds their number. -/
def items (value : List Char → Option (Value × List Char)) :
    Nat → List Char → Option (List Value × List Char)
  | 0, _ => none
  | fuel + 1, s =>
    match skipFill false s with
    | ']' :: r => some ([], r)
    | s => do
      let (v, r) ← value s
      match skipFill false r with
      | ']' :: r => some ([v], r)
      | ',' :: r => do
        let (vs, r) ← items value fuel r
        return (v :: vs, r)
      | _ => none

/-- The pairs of an inline table, from its first key. The fuel bounds their number. -/
def inlinePairs (value : List Char → Option (Value × List Char)) :
    Nat → List Char → Option (List (List String × String × Value) × List Char)
  | 0, _ => none
  | fuel + 1, s => do
    let (path, last, r) ← key s
    let (v, r) ← value (skipSpace (← expect '=' r))
    match skipSpace r with
    | '\x7d' :: r => some ([(path, last, v)], r)
    | ',' :: r => do
      let (ps, r) ← inlinePairs value fuel r
      return ((path, last, v) :: ps, r)
    | _ => none

/-- A value that is nested at most so deep. -/
def value : Nat → List Char → Option (Value × List Char)
  | _, '"' :: r => (string ('"' :: r)).map fun p => (.string p.1, p.2)
  | _, '\'' :: r => (string ('\'' :: r)).map fun p => (.string p.1, p.2)
  | 0, '[' :: _ => none
  | 0, '\x7b' :: _ => none
  | depth + 1, '[' :: r => (items (value depth) (r.length + 1) r).map fun p => (.array p.1, p.2)
  | depth + 1, '\x7b' :: r =>
    match skipSpace r with
    | '\x7d' :: r => some (.inline [], r)
    | r => do
      let (ps, r) ← inlinePairs (value depth) (r.length + 1) r
      return (.inline (← Entries.ofInline ps), r)
  | _, 't' :: 'r' :: 'u' :: 'e' :: r => some (.boolean true, r)
  | _, 'f' :: 'a' :: 'l' :: 's' :: 'e' :: r => some (.boolean false, r)
  | _, s => moment s <|> float s <|> integer s

/-- The text behind the end of a line, before which only white space and a comment stand; the
document may end here as well. -/
def lineEnd (s : List Char) : Option (List Char) :=
  let s := match skipSpace s with
    | '#' :: r => r.dropWhile isPlain
    | r => r
  match s with
  | [] => some []
  | _ => newline? s

/-- A document as far as it is read. -/
structure Reading where
  root : Entries := []
  /-- The header under which pairs now go. -/
  header : List String := []

/-- Opens the table of a header, or a further one under a repeated header. -/
def Reading.enter (d : Reading) (repeated : Bool) (path : List String) (last : String) :
    Option Reading := do
  let root ← Entries.within .above
    (fun _ es => if repeated then Entries.openNext last es else Entries.open last es)
    path .header d.root
  return { root, header := path ++ [last] }

/-- Adds a pair under the current header. -/
def Reading.add (d : Reading) (path : List String) (last : String) (v : Value) :
    Option Reading := do
  let root ← Entries.within .above (fun origin es => Entries.addPair path last v origin es)
    d.header .header d.root
  return { d with root }

/-- Reads one line, or what is left of one. -/
def line (d : Reading) (s : List Char) : Option (Reading × List Char) :=
  match s with
  | '#' :: _ => do return (d, ← lineEnd s)
  | '\n' :: _ | '\r' :: _ => do return (d, ← newline? s)
  | '[' :: '[' :: r => do
    let (path, last, r) ← key r
    let r ← lineEnd (← expect ']' (← expect ']' r))
    return (← d.enter true path last, r)
  | '[' :: r => do
    let (path, last, r) ← key r
    let r ← lineEnd (← expect ']' r)
    return (← d.enter false path last, r)
  | _ => do
    let (path, last, r) ← key s
    let (v, r) ← value (depthLimit - 1) (skipSpace (← expect '=' r))
    let r ← lineEnd r
    return (← d.add path last v, r)

/-- Reads lines to the end. The fuel bounds their number. -/
def lines : Nat → Reading → List Char → Option Entries
  | 0, _, _ => none
  | fuel + 1, d, s =>
    match skipSpace s with
    | [] => some d.root
    | s => do
      let (d, r) ← line d s
      lines fuel d r

/-- Reads a document; a byte order mark may stand before it. -/
def parse (text : String) : Option Entries :=
  let s := match text.toList with
    | '\uFEFF' :: r => r
    | s => s
  lines (s.length + 1) {} s

end Discovery.Toml
