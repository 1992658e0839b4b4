import Discovery.Http.Client
import Discovery.Log
import Discovery.Query.Parser
import Discovery.Service.Fingerprint
import Discovery.Service.Writer
import Discovery.Tables.Excerpt

/-!
# The command line

The program is given a query and maybe a file with settings. It fetches the query once from the
server that the settings name and prints the instances. Everything but the exchange with the server
is decided here.
-/

namespace Discovery.CommandLine

/-- What the program is run with. -/
structure Input where
  arguments : List String
  environment : Settings.Environment
  file : String → Option (List UInt8)

inductive Failure where
  /-- There is no query. -/
  | usage
  /-- The file gives no settings. -/
  | settings (path : String) (e : Settings.Error)
  /-- The query is none. -/
  | query (e : Query.Error)
  /-- There is no client for the settings. -/
  | client (e : Lookup.ClientError)
  | fetch (e : Lookup.FetchError)
  deriving DecidableEq, Repr

def Failure.message : Failure → String
  | .usage => "Usage: catalog-query <QUERY> [CONFIG]"
  | .settings path _ => "Failed to load config from " ++ path
  | .query e => e.message
  | .client _ => "Failed to create catalog client"
  | .fetch e => e.message

/-- What is behind a failure. -/
def Failure.cause : Failure → Option String
  | .usage | .query _ => none
  | .settings _ e => some e.message
  | .client e => some e.message
  | .fetch (.catalog _ source) => some source.message
  | .fetch (.cancelled _) => none

/-- What the program prints of a failure. -/
def Failure.text (f : Failure) : String :=
  "Error: " ++ f.message ++ "\n" ++
    ((f.cause.map fun c => "\nCaused by:\n    " ++ c ++ "\n").getD "")

/-- A fetch that can be made. -/
structure Plan where
  client : Http.Client
  query : Query
  options : Lookup.Options

/-- What comes before the fetch, with its log. -/
def prepare (i : Input) : List Log.Line × Except Failure Plan :=
  match i.arguments with
  | [] => ([], .error .usage)
  | text :: rest =>
    let loaded : List Log.Line × Except Failure Settings :=
      match rest.head? with
      | none => ([], .ok {})
      | some path =>
        match Settings.load path (i.file path) with
        | .error e => ([], .error (.settings path e))
        | .ok s => ([.ofProgram ("Loaded config from " ++ path)], .ok s)
    match loaded with
    | (lines, .error e) => (lines, .error e)
    | (lines, .ok s) =>
      let s := s.applyEnvironment i.environment
      match Query.parse text with
      | .error e => (lines, .error (.query e))
      | .ok query =>
        let lines := lines ++
          [.ofProgram ("Querying " ++ query.canonical ++ " at " ++ s.server.address)]
        match Http.Client.ofSettings s.server with
        | .error e => (lines, .error (.client e))
        | .ok client => (lines, .ok { client, query, options := s.lookupOptions })

/-- How the program ends. -/
structure Ending where
  /-- Zero if it has done what it could. -/
  exit : UInt32
  output : String := ""
  /-- What it prints of a failure. -/
  errors : String := ""
  lines : List Log.Line := []
  deriving DecidableEq, Repr

/-- The end of a program that fails. -/
def fail (f : Failure) : Ending := { exit := 1, errors := f.text }

/-- The end of the program from the result of its fetch. A cancelled fetch is no failure. -/
def conclude : Except Lookup.FetchError Lookup.Found → Ending
  | .ok found => {
      exit := 0
      output := Service.wireText .indented found.services ++ "\n"
      lines := [.ofProgram ("Found " ++ Text.decimal found.services.length ++
        " instances at index " ++ Text.decimal found.status.lastIndex ++
        " (fingerprint " ++ Service.fingerprint found.services ++ ")")] }
  | .error (.cancelled query) => {
      exit := 0
      lines := [.ofProgram (Lookup.FetchError.cancelled query).message] }
  | .error e => fail (.fetch e)

/-- What the program says when it is interrupted. -/
def interrupted : Log.Line := .ofProgram "Shutdown signal received"

def filter (i : Input) : Log.Filter :=
  (((i.environment "RUST_LOG").bind Text.ofUtf8?).bind Log.readFilter).getD Log.defaultFilter

/-- The course of a run. -/
structure Run where
  /-- How it ends, or nothing if the server has yet to reply. -/
  ending : Option Ending
  /-- The log as far as it is shown. -/
  log : List Log.Line
  sent : List Http.Sent := []

/-- A run in which the server gives these replies one after another. If it does not reply in the end
and `interrupt` holds, the run is interrupted then. -/
def run (i : Input) (replies : List Http.Reply) (interrupt : Bool) : Run :=
  let shown (lines : List Log.Line) : List Log.Line := lines.filter (filter i).shows
  match prepare i with
  | (lines, .error f) => { ending := some (fail f), log := shown lines }
  | (lines, .ok plan) =>
    let course := plan.client.fetch plan.query default false plan.options replies
    let lines := lines ++ course.events.map .ofEvent
    match course.result with
    | some r =>
      let ending := conclude r
      { ending := some ending, log := shown (lines ++ ending.lines), sent := course.sent }
    | none =>
      if interrupt then
        let ending := conclude (Lookup.stopped plan.query)
        { ending := some ending
          log := shown (lines ++ [interrupted, .ofEvent (.cancelling plan.query)] ++ ending.lines)
          sent := course.sent }
      else { ending := none, log := shown lines, sent := course.sent }

end Discovery.CommandLine
