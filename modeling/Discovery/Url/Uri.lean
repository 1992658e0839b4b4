import Discovery.Url.Basic

/-!
# URLs as URIs

Requests are made for URIs, whose grammar is narrower than that of URLs. So there are URLs that no
request can be made for: their text is too long, or what stands before the path has a sign that a
host or a user has in URLs only.
-/

namespace Discovery.Url

/-- How many characters a URI has at most. -/
def uriLimit : Nat := 65534

/-- How many characters the scheme of a URI has at most. -/
def uriSchemeLimit : Nat := 64

/-- How many colons stand at most in a part that is counted: those of an address in brackets and one
before a port. -/
def uriColonLimit : Nat := 8

/-- Whether a character ends what stands between the double slash and the path of a URI. -/
def endsUriAuthority (c : Char) : Bool := c = '/' || c = '?' || c = '#'

/-- What has been seen of the part of a URI before its path. -/
structure UriAuthority where
  /-- Colons that a port may follow. -/
  colons : Nat := 0
  opened : Bool := false
  closed : Bool := false
  /-- Whether there is percent-encoding outside of users and brackets. -/
  encoded : Bool := false

/-- Goes on with a character, if it may stand there. An `@` or a closing bracket ends something that
may hold colons and percent-encoding. -/
def UriAuthority.next (a : UriAuthority) (c : Char) : Option UriAuthority :=
  if c = ':' then if a.colons < uriColonLimit then some { a with colons := a.colons + 1 } else none
  else if c = '%' then some { a with encoded := true }
  else if c = '@' then some { a with colons := 0, encoded := false }
  else if c = '[' then if a.encoded || a.opened then none else some { a with opened := true }
  else if c = ']' then
    if a.opened && !a.closed then some { a with closed := true, colons := 0, encoded := false }
    else none
  else if c.isAlphanum || "!$&'()*+,-.;=_~".toList.contains c then some a
  else none

/-- Whether characters may stand between the double slash and the path. -/
def isUriAuthority (cs : List Char) : Bool :=
  match cs.foldlM UriAuthority.next {} with
  | none => false
  | some a => a.opened = a.closed && a.colons ≤ 1 && !a.encoded && cs.getLast? != some '@'

/-- Whether a character may stand in the path of a URI. -/
def isUriPathChar (c : Char) : Bool := isVisible c && !(" #<>?`".toList.contains c)

/-- Whether a character may stand in the query of a URI. -/
def isUriQueryChar (c : Char) : Bool := isVisible c && !(" \"#<>".toList.contains c)

/-- Whether characters may follow what stands before the path. A fragment is passed over. -/
def isUriPath (cs : List Char) : Bool :=
  let (path, rest) := cs.span fun c => c != '?' && c != '#'
  path.all isUriPathChar &&
    match rest with
    | '?' :: query => (query.takeWhile (· != '#')).all isUriQueryChar
    | _ => true

/-- Whether the text of a URL is a URI. One without a double slash behind the scheme is read as if
all of it stood before a path. -/
def isUri (u : Url) : Bool :=
  let text := u.text.toList
  text.length ≤ uriLimit &&
    match Text.cutFirst ':' text with
    | some (scheme, '/' :: '/' :: rest) =>
      let (authority, rest) := rest.span fun c => !endsUriAuthority c
      scheme.length ≤ uriSchemeLimit && authority != [] && isUriAuthority authority &&
        isUriPath rest
    | _ => !text.any endsUriAuthority && isUriAuthority text

end Discovery.Url
