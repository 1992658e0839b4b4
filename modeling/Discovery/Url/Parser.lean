import Discovery.Text.Blank
import Discovery.Url.Basic
import Discovery.Url.Domain

/-!
# Reading URLs

A URL is read by itself or as a reference from another one, which then gives the parts that the
reference leaves out. Controls and spaces around it are no part of it, and tabs and line breaks are
passed over inside.
-/

namespace Discovery.Url

variable [Tables]

/-- The characters of a URL that count. -/
def significant (s : String) : List Char :=
  (Text.trimWhere (fun c => c.toNat ≤ 0x20) s.toList).filter fun c => !isIgnored c

/-- Text as a part of a URL in which some characters may stand. -/
def encodePart (keep : Char → Bool) (cs : List Char) : String :=
  String.ofList (percentEncode keep (Text.utf8 (String.ofList cs)))

/-- Whether a character may stand in a scheme behind its first letter. -/
def isSchemeChar (c : Char) : Bool := c.isAlphanum || c = '+' || c = '-' || c = '.'

/-- The scheme that a URL begins with, and what follows the colon. -/
def cutScheme (cs : List Char) : Option (String × List Char) :=
  match Text.cutFirst ':' cs with
  | none => none
  | some (scheme, rest) =>
    if (scheme.head?.any Char.isAlpha) && scheme.all isSchemeChar then
      some (String.ofList (scheme.map Char.toLower), rest)
    else none

/-- Whether a character is a slash in a URL; a backslash is one in special URLs. -/
def isSlash (special : Bool) (c : Char) : Bool := c = '/' || (special && c = '\\')

/-- Whether a character ends the host part of a URL. -/
def endsAuthority (special : Bool) (c : Char) : Bool := isSlash special c || c = '?' || c = '#'

/-- Cuts before the first character with a property. -/
def cutBefore (p : Char → Bool) (cs : List Char) : List Char × List Char := cs.span fun c => !p c

/-! ## Host and port -/

/-- The host in a text, which ends before a colon that is in no brackets. -/
def cutHost (inside : Bool) : List Char → List Char × List Char
  | [] => ([], [])
  | c :: cs =>
    if c = ':' && !inside then ([], c :: cs)
    else
      let (host, rest) := cutHost (if c = '[' then true else if c = ']' then false else inside) cs
      (c :: host, rest)

/-- Reads a host between brackets, of which the opening one is passed. -/
def readBracketed (cs : List Char) : Except Error Host :=
  if cs.getLast? = some ']' then
    match readIpv6 cs.dropLast with
    | some pieces => .ok (.ipv6 pieces)
    | none => .error .ipv6
  else .error .ipv6

def readSpecialHost (cs : List Char) : Except Error Host :=
  match cs with
  | '[' :: rest => readBracketed rest
  | _ => do
    let name ← readDomain cs
    if endsInNumber name then
      match readIpv4 name with
      | some address => return .ipv4 address
      | none => throw .ipv4
    else return .domain (String.ofList name)

/-- Whether a character can be in no host, not even of a URL that is not special. -/
def isForbidden (c : Char) : Bool := c = '\x00' || c = ' ' || hostSeparators.contains c

/-- Reads the host of a URL that is not special; it may be empty. -/
def readPlainHost (cs : List Char) : Except Error Host :=
  match cs with
  | '[' :: rest => readBracketed rest
  | _ =>
    if cs.any isForbidden then .error .domainCharacter
    else .ok (.domain (encodePart keepsPlain cs))

/-- Reads the port behind a colon, and gives what follows it. No digits at all are no port. -/
def readPort (scheme : String) (cs : List Char) : Except Error (Option Nat × List Char) :=
  let (digits, rest) := cutBefore (!·.isDigit) cs
  let ends := match rest with
    | [] => true
    | c :: _ => c = '\\'
  if digits = [] then if ends then .ok (none, rest) else .error .port
  else match Text.readBelow 65536 digits with
    | none => .error .port
    | some n =>
      if !ends then .error .port else .ok (if defaultPort? scheme = some n then none else some n, rest)

/-- The parts of a URL up to its path. -/
structure Origin where
  scheme : String
  username : String := ""
  password : String := ""
  host : Option Host := none
  port : Option Nat := none

/-- Reads the host part of a URL, which stands before its path: user and password up to the last
`@`, then host and port. What follows the port goes with the path. -/
def readAuthority (scheme : String) (cs rest : List Char) : Except Error (Origin × List Char) := do
  let special := isSpecial scheme
  let (user, place) := (Text.cutLast '@' cs).getD ([], cs)
  if cs = ['@'] && rest ≠ [] then throw .emptyHost
  let (name, secret) := (Text.cutFirst ':' user).getD (user, [])
  let (written, after) := cutHost false place
  if written = [] && (special || after ≠ []) then throw .emptyHost
  let host ← if special then readSpecialHost written else readPlainHost written
  let (port, after) ← match after with
    | ':' :: cs => readPort scheme cs
    | _ => pure (none, after)
  if written = [] && (name ≠ [] || secret ≠ []) then throw .emptyHost
  let origin : Origin := {
    scheme, host := some host, port
    username := encodePart keepsUserinfo name
    password := encodePart keepsUserinfo secret }
  return (origin, after ++ rest)

/-! ## Path, query and fragment -/

/-- Whether a segment stands for the place it is in. -/
def isHere (segment : List Char) : Bool :=
  [".", "%2e"].contains (String.ofList (segment.map Char.toLower))

/-- Whether a segment is a step back. -/
def isBack (segment : List Char) : Bool :=
  ["..", ".%2e", "%2e.", "%2e%2e"].contains (String.ofList (segment.map Char.toLower))

/-- Adds pieces of a path to the segments before them. Steps are done, and a path that ends in one
ends in a slash. -/
def walk (front : List String) : List (List Char) → List String
  | [] => front
  | piece :: pieces =>
    if isBack piece then
      walk (if pieces = [] then front.dropLast ++ [""] else front.dropLast) pieces
    else if isHere piece then walk (if pieces = [] then front ++ [""] else front) pieces
    else walk (front ++ [encodePart keepsPath piece]) pieces

/-- The pieces between slashes. -/
def slashPieces (special : Bool) (cs : List Char) : List (List Char) :=
  Text.pieces '/' (if special then cs.map fun c => if c = '\\' then '/' else c else cs)

/-- A URL from its origin and path, and what follows the path. -/
def complete (o : Origin) (path : Path) (rest : List Char) : Url :=
  let (front, fragment) := match Text.cutFirst '#' rest with
    | some (front, fragment) => (front, some (encodePart keepsFragment fragment))
    | none => (rest, none)
  let query := match front with
    | '?' :: cs => some (encodePart (keepsQuery (isSpecial o.scheme)) cs)
    | _ => none
  { o with path, query, fragment }

/-- Cuts behind the path. -/
def cutPath (cs : List Char) : List Char × List Char := cutBefore (fun c => c = '?' || c = '#') cs

/-- A URL whose path is the written one behind some segments. -/
def withPath (o : Origin) (front : List String) (cs : List Char) : Url :=
  let (path, rest) := cutPath cs
  complete o (.segments (walk front (slashPieces (isSpecial o.scheme) path))) rest

/-- A URL whose path, which may be empty unless the URL is special, begins after the host. -/
def withPathStart (o : Origin) (cs : List Char) : Url :=
  match cs with
  | [] => if isSpecial o.scheme then withPath o [] [] else complete o (.segments []) []
  | c :: rest =>
    if isSlash (isSpecial o.scheme) c then withPath o [] rest
    else if !isSpecial o.scheme && (c = '?' || c = '#') then complete o (.segments []) cs
    else withPath o [] cs

/-! ## Whole URLs -/

/-- Reads what follows the double slash before a host. -/
def readFromHost (scheme : String) (cs : List Char) : Except Error Url := do
  let (authority, rest) := cutBefore (endsAuthority (isSpecial scheme)) cs
  let (origin, rest) ← readAuthority scheme authority rest
  return withPathStart origin rest

/-- The path of a file does not begin with empty segments. -/
def Path.dropEmpty : Path → Path
  | .segments ss =>
    match ss.dropWhile (· == "") with
    | [] => .segments [""]
    | ss => .segments ss
  | .plain text => .plain text

/-- The URL of a file, from its host and what follows it. -/
def fileAt (host : Option Host) (cs : List Char) : Url :=
  let u := withPathStart { scheme := "file", host } cs
  { u with path := u.path.dropEmpty }

/-- Reads what follows the scheme of a file. The host may be left out; `localhost` is as good as
none. -/
def readFile (cs : List Char) : Except Error Url :=
  match cs with
  | a :: b :: rest =>
    if isSlash true a && isSlash true b then
      let (written, rest) := cutBefore (endsAuthority true) rest
      if written = [] then .ok (fileAt none rest)
      else (readSpecialHost written).map fun host =>
        fileAt (if host = .domain "localhost" then none else some host) rest
    else .ok (fileAt none cs)
  | _ => .ok (fileAt none cs)

/-- Reads what follows a scheme, of a URL by itself. -/
def readAfterScheme (scheme : String) (cs : List Char) : Except Error Url :=
  if scheme = "file" then readFile cs
  else if isSpecial scheme then readFromHost scheme (cs.dropWhile (isSlash true))
  else match cs with
    | '/' :: '/' :: rest => readFromHost scheme rest
    | '/' :: rest => .ok (withPath { scheme } [] rest)
    | _ =>
      let (path, rest) := cutPath cs
      .ok (complete { scheme } (.plain (encodePart keepsPlain path)) rest)

def parse (s : String) : Except Error Url :=
  match cutScheme (significant s) with
  | none => .error .relative
  | some (scheme, rest) => readAfterScheme scheme rest

/-- The parts of a URL up to its path. -/
def origin (u : Url) : Origin :=
  { scheme := u.scheme, username := u.username, password := u.password, host := u.host
    port := u.port }

/-- Reads a reference without a scheme from a URL with a host. -/
def readReference (base : Url) (segments : List String) (cs : List Char) : Except Error Url :=
  let special := isSpecial base.scheme
  match cs with
  | [] => .ok { base with fragment := none }
  | '?' :: _ => .ok (complete base.origin base.path cs)
  | '#' :: rest => .ok { base with fragment := some (encodePart keepsFragment rest) }
  | '/' :: '/' :: rest => readFromHost base.scheme rest
  | c :: rest =>
    if isSlash special c then
      if rest.head?.any (isSlash special) then
        readFromHost base.scheme (rest.dropWhile (isSlash special))
      else .ok (withPath base.origin [] rest)
    else .ok (withPath base.origin segments.dropLast cs)

/-- Reads a URL, or a reference from a URL. A special scheme that is the base's own and has no
double slash behind it does not count. -/
def join (base : Url) (s : String) : Except Error Url :=
  let cs := significant s
  let relative (cs : List Char) : Except Error Url :=
    match base.path with
    | .segments ss => readReference base ss cs
    | .plain _ =>
      match cs with
      | '#' :: rest => .ok { base with fragment := some (encodePart keepsFragment rest) }
      | _ => .error .noBase
  match cutScheme cs with
  | none => relative cs
  | some (scheme, rest) =>
    if isSpecial scheme && scheme = base.scheme && (rest.takeWhile (isSlash true)).length < 2 then
      relative rest
    else readAfterScheme scheme rest

end Discovery.Url
