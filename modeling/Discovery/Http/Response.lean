import Discovery.Http.Charset
import Discovery.Service.Reader

/-!
# Responses

A response is read as the answer to a lookup. Only a status of success with a whole body that is a
list of instances, or null for none, is an answer; anything else is an error.
-/

namespace Discovery.Http

structure Response where
  code : Nat
  headers : List Header := []
  /-- The body, unless it did not come whole. -/
  body : Option (List UInt8)
  deriving DecidableEq, Repr

namespace Response

variable [Tables]

/-- Whether the status is one of success. -/
def isSuccess (r : Response) : Bool := 200 ≤ r.code && r.code < 300

/-- The body of a response that is no answer, as a text for people. One that did not come whole
counts as empty. -/
def explanation (r : Response) : String := Text.trim (bodyText r.headers (r.body.getD []))

/-- What a response tells. -/
def found (r : Response) : Except Lookup.ClientError Lookup.Found :=
  if r.isSuccess then
    match r.body with
    | none => .error (.http .other)
    | some bytes =>
      match Service.listOfJson bytes with
      | .error fault => .error (.decode fault)
      | .ok services => .ok { services, status := status r.headers }
  else .error (.status r.code r.explanation)

end Response

end Discovery.Http
