/-!
# Texts that are no URL
-/

namespace Discovery

/-- Why a text is no URL. -/
inductive Url.Error where
  | emptyHost
  /-- The host is no domain name. -/
  | domainName
  /-- The host has a character that no host has. -/
  | domainCharacter
  /-- The port is no number below 65536. -/
  | port
  /-- The host looks like an IPv4 address and is none. -/
  | ipv4
  /-- The host looks like an IPv6 address and is none. -/
  | ipv6
  /-- There is no scheme, and no URL to complete it from. -/
  | relative
  /-- The URL to complete it from has a path without segments. -/
  | noBase
  deriving DecidableEq, Repr

def Url.Error.message : Url.Error → String
  | .emptyHost => "empty host"
  | .domainName => "invalid international domain name"
  | .domainCharacter => "invalid domain character"
  | .port => "invalid port number"
  | .ipv4 => "invalid IPv4 address"
  | .ipv6 => "invalid IPv6 address"
  | .relative => "relative URL without a base"
  | .noBase => "relative URL with a cannot-be-a-base base"

end Discovery
