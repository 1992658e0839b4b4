import Discovery.Text.Utf8
import Discovery.Url.Address
import Discovery.Url.Form

/-!
# URLs

A URL in its parts, each in normal form: what may not stand in a part is percent-encoded there.
Schemes for which servers and ports are usual are special: their URLs always have a host and a path
with segments.
-/

namespace Discovery

inductive Url.Host where
  | domain (name : String)
  /-- An address of 32 bits. -/
  | ipv4 (address : Nat)
  /-- An address of eight pieces of 16 bits. -/
  | ipv6 (pieces : List Nat)
  deriving DecidableEq, Repr

inductive Url.Path where
  /-- Segments, with a slash before each. -/
  | segments (ss : List String)
  /-- A text without structure. -/
  | plain (text : String)
  deriving DecidableEq, Repr

structure Url where
  /-- What stands before the first colon, in lower case. -/
  scheme : String
  /-- The user named before the host. -/
  username : String := ""
  password : String := ""
  host : Option Url.Host := none
  /-- The port, unless it is that of the scheme. -/
  port : Option Nat := none
  /-- What is asked of the host. -/
  path : Url.Path
  query : Option String := none
  fragment : Option String := none
  deriving DecidableEq, Repr

namespace Url

/-- Whether a scheme is one of those that follow the rules of the web. -/
def isSpecial (scheme : String) : Bool :=
  ["http", "https", "ws", "wss", "ftp", "file"].contains scheme

def defaultPort? (scheme : String) : Option Nat :=
  if scheme = "http" || scheme = "ws" then some 80
  else if scheme = "https" || scheme = "wss" then some 443
  else if scheme = "ftp" then some 21
  else none

def Host.text : Host → String
  | .domain name => name
  | .ipv4 address => ipv4Text address
  | .ipv6 pieces => "[" ++ ipv6Text pieces ++ "]"

def Path.text : Path → String
  | .segments ss => String.join (ss.map ("/" ++ ·))
  | .plain text => text

/-- A text behind a mark, if there is one. -/
def marked (mark : String) (text : Option String) : String := (text.map (mark ++ ·)).getD ""

/-- The writing of the user and the password. -/
def credentials (u : Url) : String :=
  if u.username = "" && u.password = "" then ""
  else u.username ++ (if u.password = "" then "" else ":" ++ u.password) ++ "@"

def authority (host : Host) (port : Option Nat) : String :=
  host.text ++ marked ":" (port.map Text.decimal)

/-- Keeps a path that begins with two slashes from being read as a host. -/
def pathGuard : Path → String
  | .segments ("" :: _ :: _) => "/."
  | _ => ""

def text (u : Url) : String :=
  u.scheme ++ ":" ++
    (match u.host with
      | some host => "//" ++ u.credentials ++ authority host u.port
      | none => if u.scheme = "file" then "//" else pathGuard u.path) ++
    u.path.text ++ marked "?" u.query ++ marked "#" u.fragment

/-- The URL that a server is asked for: without user, password and fragment. -/
def requested (u : Url) : Url := { u with username := "", password := "", fragment := none }

/-- The URL of a path with these segments at the place that another URL names. It keeps nothing of
that URL's own path, query and fragment. -/
def atPath? (u : Url) (segments : List String) : Except Error Url :=
  match u.path with
  | .plain _ => .error .noBase
  | .segments _ => .ok { u with path := .segments segments, query := none, fragment := none }

/-- Characters that are passed over wherever they stand in a URL. -/
def isIgnored (c : Char) : Bool := c = '\t' || c = '\n' || c = '\r'

/-- A name as one segment behind others. The names `.` and `..` are no segments and add nothing; a
name that becomes one of them when ignored characters are left out is a step in the path. -/
def pushSegment (special : Bool) (front : List String) (name : List Char) : List String :=
  if name = ['.'] ∨ name = ['.', '.'] then front
  else
    let kept := name.filter fun c => !isIgnored c
    if kept = ['.'] then front ++ [""]
    else if kept = ['.', '.'] then front.dropLast ++ [""]
    else
      let bytes := Text.utf8 (String.ofList kept)
      front ++ [String.ofList (percentEncode (keepsSegment special) bytes)]

/-- The query string of some parameters; there is none when there are none. -/
def queryOf (parameters : List (String × String)) : Option String :=
  if parameters = [] then none else some (String.ofList (formText parameters))

end Url

end Discovery
