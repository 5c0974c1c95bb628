import Fanout.Answer
import Fanout.Method

/-!
# Reports

A report is a collation as it can be seen at one moment: the answers so far in
the order of their nodes, the nodes that are still awaited, and an overall
outcome. The outcome of a complete report is a failure as soon as one answer is
no success, and then it names the first such node.
-/

namespace Fanout

/-- How a request went on the whole. -/
inductive Outcome where
  | pending
  | success (status : Nat)
  | failure (node : Node) (status : Nat)
  deriving DecidableEq, Repr

namespace Outcome

/-- The outcome of a complete list of answers. -/
def ofAnswers (answers : List Answer) : Outcome :=
  match answers.find? fun a => !a.isSuccess with
  | some failed => .failure failed.node failed.status
  | none => .success ((answers.head?.map (·.status)).getD 200)

def toJson : Outcome → Json
  | pending => .obj [("outcome", .str "pending")]
  | success status =>
    .obj [("outcome", .str "success"), ("status", Json.ofNat status)]
  | failure node status =>
    .obj [("outcome", .str "failure"), ("nodeId", node.toJson),
      ("status", Json.ofNat status)]

end Outcome

/-- A collation as it is seen at one moment. -/
structure Report where
  id : String
  method : Method
  uri : String
  complete : Bool
  outcome : Outcome
  answers : List Answer
  pending : List Node
  deriving DecidableEq, Repr

namespace Report

def isSuccess (r : Report) : Bool :=
  match r.outcome with
  | .success _ => true
  | _ => false

/-- The answer of a node. -/
def answer? (node : Node) (r : Report) : Option Answer :=
  r.answers.find? fun a => a.node == node

/-- The answers that are no success. -/
def failed (r : Report) : List Answer :=
  r.answers.filter fun a => !a.isSuccess

def toJson (r : Report) : Json :=
  .obj [("requestId", .str r.id), ("method", .str r.method.name),
    ("uri", .str r.uri), ("complete", .bool r.complete),
    ("status", r.outcome.toJson),
    ("responses", .arr (r.answers.map Answer.toJson)),
    ("pendingNodes", .arr (r.pending.map Node.toJson))]

end Report

end Fanout
