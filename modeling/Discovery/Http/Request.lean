import Discovery.Http.Exchange

/-!
# Requests as bytes

A request is one head without a body. The server is asked to close the connection behind its reply.
-/

namespace Discovery.Http

def tokenHeader : String := "X-Consul-Token"

/-- The path and query of a URL, which its server is asked for. -/
def target (u : Url) : String := u.path.text ++ Url.marked "?" u.query

def Sent.headers (s : Sent) : List (String × String) :=
  [("Host", (s.url.host.map fun h => Url.authority h s.url.port).getD ""), ("Accept", "*/*"),
    ("Connection", "close")] ++
    (s.token.map fun t => (tokenHeader, t)).toList

def Sent.lines (s : Sent) : List String :=
  ("GET " ++ target s.url ++ " HTTP/1.1") :: s.headers.map fun h => h.1 ++ ": " ++ h.2

def Sent.bytes (s : Sent) : List UInt8 :=
  Text.utf8 (String.join (s.lines.map (· ++ "\r\n")) ++ "\r\n")

/-- The host of a request, as it is looked for, and its port. -/
def Sent.destination? (s : Sent) : Option (String × Nat) :=
  s.url.host.map fun host =>
    (match host with
      | .ipv6 pieces => Url.ipv6Text pieces
      | host => host.text,
     (s.url.port.or (Url.defaultPort? s.url.scheme)).getD 0)

end Discovery.Http
