import Fanout.Http.Message

/-!
# Stubs

A stub stands in for a node. It answers every request with one scripted reply
and closes the connection, or closes it without an answer. What it announces and
what it sends need not agree: it may promise more bytes of a body than it gives.
-/

namespace Fanout.Http

open Text (Bytes)

/-- What a stub answers with. -/
structure StubReply where
  /-- The status; where none is chosen a probe is accepted and all else
  succeeds. -/
  status : Option Nat := none
  headers : List (String × Bytes) := []
  body : Bytes := []
  /-- How many bytes of the body are announced and never sent. -/
  missing : Nat := 0
  /-- Whether the connection is closed without an answer. -/
  close : Bool := false

namespace StubReply

/-- The status that a request gets. -/
def statusFor (isProbe : Bool) (r : StubReply) : Nat :=
  r.status.getD (if isProbe then Answer.acceptedStatus else 200)

/-- The bytes that a request gets. A reply to `HEAD`, and one whose status
allows no body, is sent without it. -/
def wire (method : Method) (isProbe : Bool) (r : StubReply) : Bytes :=
  if r.close then []
  else
    let status := r.statusFor isProbe
    let isBare := status = 204 ∨ status = 304
    let field := fun e : String × Bytes =>
      Text.utf8 (e.1 ++ ": ") ++ e.2 ++ Text.utf8 "\r\n"
    let length := Text.utf8 (toString (r.body.length + r.missing))
    let fields := ("connection", Text.utf8 "close") :: r.headers ++
      if isBare then [] else [("content-length", length)]
    Text.utf8 ("HTTP/1.1 " ++ toString status ++ " Scripted\r\n") ++
      fields.flatMap field ++ Text.utf8 "\r\n" ++
      if isBare ∨ method = .head then [] else r.body

end StubReply

end Fanout.Http
