import Fanout.ActingUser
import Fanout.Fault
import Fanout.Header
import Fanout.Json.Basic
import Fanout.Method

/-!
# Requests

One logical request is handed to the cluster: a method, a path, perhaps an
entity and a user, and the caller's headers. Its target has no query of its
own, because the entity of some methods becomes the query. Headers that the
caller has no say in are dropped as they are given.
-/

namespace Fanout

/-- A request before it goes to any node. -/
structure Request where
  method : Method
  uri : String
  entity : Option Json := none
  headers : Headers := []
  user : Option ActingUser := none
  /-- Whether receivers are told that the request was fanned out. -/
  indicate : Bool := true
  /-- Whether a change is announced to all targets before it is made. -/
  verify : Bool := true

namespace Request

/-- A request for a path. -/
def new (method : Method) (uri : String) : Except Fault Request :=
  if uri.toList.head? ≠ some '/' then
    .error (.illegalArgument ("request uri must be an absolute path: " ++ uri))
  else if uri.toList.contains '?' then
    .error (.illegalArgument
      ("request uri must not contain a query string: " ++ uri))
  else .ok { method, uri }

/-- Adds a header, if it is one that a caller may set. -/
def withHeader (r : Request) (name value : String) : Request :=
  if Header.isCallers name then
    { r with headers := r.headers.put name value } else r

/-- Adds headers one after the other. -/
def withHeaders (r : Request) (entries : List (String × String)) : Request :=
  entries.foldl (fun r e => r.withHeader e.1 e.2) r

/-- Whether the request changes something at its receivers. -/
def isMutable (r : Request) : Bool :=
  !r.method.isReadOnly

end Request

end Fanout
