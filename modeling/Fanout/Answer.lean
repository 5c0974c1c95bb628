import Fanout.Header
import Fanout.Json.Basic
import Fanout.Node.Codec
import Fanout.Text.Utf8
import Fanout.Time

/-!
# Answers

For each target one answer is recorded: the reply the node gave, or what kept it
from giving one. In the second case the answer has a status that a gateway would
send in its place.
-/

namespace Fanout

open Text (Bytes)

/-- What a node sent back. -/
structure Reply where
  status : Nat
  headers : Headers := []
  body : Bytes := []
  deriving DecidableEq, Repr

/-- What kept a node from replying. -/
inductive Failure where
  | timeout
  | transport (reason : String)
  deriving DecidableEq, Repr

namespace Failure

def message : Failure → String
  | timeout => "timed out"
  | transport reason => "transport error: " ++ reason

def toJson : Failure → Json
  | timeout => .obj [("kind", .str "timeout")]
  | transport reason =>
    .obj [("kind", .str "transport"), ("reason", .str reason)]

end Failure

/-- The outcome of one node's part in a request. -/
structure Answer where
  node : Node
  status : Nat
  headers : Headers
  body : Bytes
  failure : Option Failure
  latency : Span
  deriving DecidableEq, Repr

namespace Answer

/-- The answer with which a node accepts a probe. -/
def acceptedStatus : Nat := 202

/-- The status recorded when a node did not reply in time. -/
def timeoutStatus : Nat := 504

/-- The status recorded when a node could not be reached. -/
def unreachableStatus : Nat := 503

def ofReply (node : Node) (reply : Reply) (latency : Span) : Answer :=
  { node, status := reply.status, headers := reply.headers, body := reply.body,
    failure := none, latency }

def timeout (node : Node) (latency : Span) : Answer :=
  { node, status := timeoutStatus, headers := [], body := [],
    failure := some .timeout, latency }

def unreachable (node : Node) (reason : String) (latency : Span) : Answer :=
  { node, status := unreachableStatus, headers := [], body := [],
    failure := some (.transport reason), latency }

/-- Whether the node replied, with a status that reports success. -/
def isSuccess (a : Answer) : Bool :=
  a.failure.isNone && 200 ≤ a.status && a.status < 300

def bodyText (a : Answer) : String :=
  Text.lossy a.body

def toJson (a : Answer) : Json :=
  let failure :=
    match a.failure with
    | some failure => [("failure", failure.toJson)]
    | none => []
  .obj <|
    [("nodeId", a.node.toJson), ("status", Json.ofNat a.status),
      ("headers", Json.ofTexts a.headers), ("body", .str a.bodyText)] ++
    failure ++
    [("latencyMs", Json.ofNat a.latency.millis)]

end Answer

end Fanout
