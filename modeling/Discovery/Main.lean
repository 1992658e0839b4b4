import Discovery.CommandLine
import Discovery.Http.Framing
import Discovery.Http.Request
import Std.Async.DNS
import Std.Async.Signal
import Std.Async.TCP
import Std.Async.Timer

/-!
# The program

Reads what the command line needs, carries the requests to the server and the replies back, and
prints. Waiting for a reply ends early when the time for it runs out or the user interrupts it.
-/

namespace Discovery.CommandLine

open Std.Async (Async)
open Std.Async.TCP (Socket.Client)

/-- The variables that count. -/
def variableNames : List String :=
  ["CONSUL_HTTP_ADDR", "CONSUL_HTTP_TOKEN", "CONSUL_DATACENTER", "RUST_LOG"]

/-- The content of a file, if it can be read. -/
def content (path : String) : IO (Option (List UInt8)) := do
  try return some (← IO.FS.readBinFile path).toList
  catch _ => return none

/-- Gathers what the program is run with. -/
def gather (arguments : List String) : IO Input := do
  let values ← variableNames.mapM fun name => return (name, ← IO.getEnv name)
  let files ← (arguments.drop 1).mapM fun path => return (path, ← content path)
  return {
    arguments
    environment := fun name => ((values.lookup name).join).map Text.utf8
    file := fun path => (files.lookup path).join }

/-- Prints the lines of the log that are shown. -/
def log (f : Log.Filter) (lines : List Log.Line) : IO Unit :=
  (lines.filter f.shows).forM fun l => IO.eprintln l.text

/-- Takes bytes until they make up a reply. -/
partial def collect (socket : Socket.Client) (before : Array UInt8) : Async Http.Reply := do
  let bs ← socket.recv? 65536
  let all := before ++ ((bs.map ByteArray.data).getD #[])
  match Http.Reply.ofBytes bs.isNone all.toList with
  | some r => return r
  | none => if bs.isNone then return .broken else collect socket all

/-- Connects to the first address of a host that can be reached. -/
def connect (host : String) (port : Nat) : Async Socket.Client := do
  let mut last : IO.Error := .userError "no address"
  for address in ← Std.Async.DNS.getAddrInfo host (toString port) do
    try
      let socket ← Socket.Client.mk
      socket.connect (match address with
        | .v4 addr => .v4 { addr, port := UInt16.ofNat port }
        | .v6 addr => .v6 { addr, port := UInt16.ofNat port })
      return socket
    catch e => last := e
  throw last

/-- Sends a request and waits for its reply. Connections that are encrypted cannot be made here. -/
def ask (s : Http.Sent) : Async Http.Reply := do
  if s.url.scheme ≠ "http" then return .broken
  match s.destination? with
  | none => return .broken
  | some (host, port) =>
    try
      let socket ← connect host port
      socket.send ⟨s.bytes.toArray⟩
      collect socket #[]
    catch _ => return .broken

/-- How an exchange with a server ends. -/
inductive Ended where
  /-- It has run its course. -/
  | done (r : Option (Except Lookup.ClientError Lookup.Found))
  /-- The time for it has run out. -/
  | expired
  /-- The user has interrupted the program. -/
  | interrupted

instance : Inhabited Ended := ⟨.expired⟩

/-- Carries an exchange to its end. -/
partial def carry (e : Http.Exchange) : Async Ended := do
  match e.out? with
  | none => return .done (Http.Client.result? e)
  | some s => carry (e.receive (← ask s))

/-- Carries an exchange to its end, which time or the user may bring about early. -/
def carryWithin (limit : Option Duration) (e : Http.Exchange) : Async Ended := do
  let waiter ← Std.Async.Signal.Waiter.mk .sigint true
  let signal : Async Ended := do
    let _ ← Async.ofAsyncTask (← waiter.wait)
    return .interrupted
  let course : Async Ended := match limit with
    | none => carry e
    | some d => Async.race (carry e) do
        Std.Async.sleep (.ofNat (min (d.deadline 0) farFuture))
        return .expired
  Async.race course signal

/-- Makes a fetch. -/
def execute (f : Log.Filter) (plan : Plan) : IO Ending := do
  let request := Lookup.requestFor plan.query default plan.options
  log f [.ofEvent (.fetching plan.query plan.options.waitIndex)]
  match plan.client.serviceUrl request with
  | .error e => return conclude (Lookup.conclude plan.query (.error e))
  | .ok url =>
    log f [.ofEvent (.requesting url.text)]
    let limit := plan.client.timeout? request
    match ← Async.block (carryWithin limit (plan.client.startAt url)) with
    | .interrupted =>
      log f [interrupted, .ofEvent (.cancelling plan.query)]
      return conclude (Lookup.stopped plan.query)
    | ended =>
      let r := match ended with
        | .done (some r) => r
        | _ => .error (.http .timeout)
      let r := Lookup.conclude plan.query r
      log f ((Lookup.report plan.query r).map .ofEvent)
      return conclude r

/-- Runs the program. -/
def runMain (arguments : List String) : IO UInt32 := do
  let input ← gather arguments
  let f := filter input
  let (lines, prepared) := prepare input
  log f lines
  let ending ← match prepared with
    | .error e => pure (fail e)
    | .ok plan => execute f plan
  log f ending.lines
  IO.print ending.output
  IO.eprint ending.errors
  return ending.exit

end Discovery.CommandLine

/-- The program. -/
def main (arguments : List String) : IO UInt32 := Discovery.CommandLine.runMain arguments
