import Discovery.Lookup.Basic
import Discovery.Text.Utf8
import Discovery.Toml.Document

/-!
# Settings

Settings come from a TOML file, above which stand variables of the environment. They say which
server to ask and how, as far as a query does not say it.
-/

namespace Discovery

structure ServerSettings where
  address : String := "http://127.0.0.1:8500"
  /-- Sent with each request. -/
  token : Option String := none
  /-- The datacenter for queries that name none. -/
  datacenter : Option String := none
  /-- Seconds that a request may take beyond the wait that it asks for. -/
  headroom : Nat := 5
  deriving DecidableEq, Repr, Inhabited

structure LookupSettings where
  /-- Seconds that a lookup may wait. -/
  wait : Nat := 60
  /-- Whether any server may answer. -/
  allowStale : Bool := false
  deriving DecidableEq, Repr, Inhabited

structure Settings where
  server : ServerSettings := {}
  lookup : LookupSettings := {}
  deriving DecidableEq, Repr, Inhabited

namespace Settings

/-- Why a file gives no settings. -/
inductive Error where
  /-- There is no such file, or it is no text. -/
  | unreadable (path : String)
  /-- The text is no TOML, or a setting has the wrong type. -/
  | malformed (path : String)
  deriving DecidableEq, Repr

def Error.message : Error → String
  | .unreadable path => "Failed to read config file: " ++ path
  | .malformed path => "Failed to parse config file: " ++ path

open Toml (Value)

/-- The fields of a record that a value gives: by key if it is a table, by position if it is an
array. A date or time gives none. -/
def fields (names : List String) : Value → Option (List (String × Value))
  | .table _ es | .inline es => some es
  | .array vs => some (names.zip vs)
  | .tables back => some (names.zip (back.reverse.map (.table .header ·)))
  | .moment _ => some []
  | _ => none

def readField (es : List (String × Value)) (name : String) (read : Value → Option α)
    (default : α) : Option α :=
  match es.lookup name with
  | none => some default
  | some v => read v

def asText : Value → Option String
  | .string s => some s
  | _ => none

/-- A number that is not negative. -/
def asCount : Value → Option Nat
  | .integer (.ofNat n) => some n
  | _ => none

def asFlag : Value → Option Bool
  | .boolean b => some b
  | _ => none

def readServer (v : Value) : Option ServerSettings := do
  let es ← fields ["address", "token", "datacenter", "timeout_headroom_secs"] v
  let d : ServerSettings := {}
  return {
    address := ← readField es "address" asText d.address
    token := ← readField es "token" (fun v => (asText v).map some) d.token
    datacenter := ← readField es "datacenter" (fun v => (asText v).map some) d.datacenter
    headroom := ← readField es "timeout_headroom_secs" asCount d.headroom }

def readLookup (v : Value) : Option LookupSettings := do
  let es ← fields ["wait_secs", "allow_stale"] v
  let d : LookupSettings := {}
  return {
    wait := ← readField es "wait_secs" asCount d.wait
    allowStale := ← readField es "allow_stale" asFlag d.allowStale }

/-- Reads all settings from the text of a file. -/
def parse (text : String) : Option Settings := do
  let es ← Toml.parse text
  return {
    server := ← readField es "catalog" readServer {}
    lookup := ← readField es "query" readLookup {} }

/-- Loads the settings from a file with a path; its content is missing when there is no such
file. -/
def load (path : String) (content : Option (List UInt8)) : Except Error Settings :=
  match content.bind Text.ofUtf8? with
  | none => .error (.unreadable path)
  | some text =>
    match parse text with
    | none => .error (.malformed path)
    | some settings => .ok settings

/-! ## The environment -/

/-- The variables of an environment. -/
abbrev Environment := String → Option (List UInt8)

/-- A variable that counts: it is set, is a text, and is not empty. -/
def override? (env : Environment) (name : String) : Option String :=
  ((env name).bind Text.ofUtf8?).filter (· ≠ "")

/-- Whether a text occurs in another. -/
def occursIn (part : List Char) : List Char → Bool
  | [] => part.isEmpty
  | c :: cs => part.isPrefixOf (c :: cs) || occursIn part cs

/-- An address as a variable gives it; the scheme may be left out. -/
def completeAddress (address : String) : String :=
  if occursIn [':', '/', '/'] address.toList then address else "http://" ++ address

/-- Puts what the environment says above the settings. -/
def applyEnvironment (env : Environment) (s : Settings) : Settings :=
  { s with
    server := { s.server with
      address := ((override? env "CONSUL_HTTP_ADDR").map completeAddress).getD s.server.address
      token := (override? env "CONSUL_HTTP_TOKEN").or s.server.token
      datacenter := (override? env "CONSUL_DATACENTER").or s.server.datacenter } }

/-- The options of a lookup to which a query adds its own. -/
def lookupOptions (s : Settings) : Lookup.Options where
  datacenter := s.server.datacenter
  waitTime := some (Duration.ofSeconds s.lookup.wait)
  allowStale := s.lookup.allowStale

end Settings

end Discovery
