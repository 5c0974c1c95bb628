/-!
# Faults

A fault ends the handling of one request as a whole. What goes wrong at a single
node after delivery has begun is never a fault; it is part of the answer that
is recorded for the node. The one exception in the list below, a failed call,
is what a client hands over, and it is turned into such an answer.
-/

namespace Fanout

/-- Why a request was not handled. -/
inductive Fault where
  | illegalArgument (reason : String)
  | invalidTarget (reason : String)
  | connecting (node : String)
  | disconnected (node : String)
  | verificationFailed (node reason : String)
  | tooManyRequests (limit : Nat)
  | stopped
  | nodeClient (reason : String)
  | configuration (reason : String)
  deriving DecidableEq, Repr

namespace Fault

/-- The wording of a fault. -/
def message : Fault → String
  | illegalArgument reason => "caused: " ++ reason
  | invalidTarget reason => "invalid replication target: " ++ reason
  | connecting node =>
    "received a mutable request while node '" ++ node ++
      "' is connecting to the cluster"
  | disconnected node =>
    "received a mutable request while node '" ++ node ++
      "' is disconnected from the cluster"
  | verificationFailed node reason =>
    "node '" ++ node ++ "' failed verification: " ++ reason
  | tooManyRequests limit =>
    "too many outstanding replication requests (limit " ++ toString limit ++ ")"
  | stopped => "replication service has been stopped"
  | nodeClient reason => "node client error: " ++ reason
  | configuration reason => "configuration error: " ++ reason

/-- The status under which a front end reports a fault. -/
def httpStatus : Fault → Nat
  | illegalArgument _ => 400
  | invalidTarget _ => 400
  | connecting _ => 409
  | disconnected _ => 409
  | verificationFailed .. => 409
  | tooManyRequests _ => 503
  | stopped => 503
  | nodeClient _ => 502
  | configuration _ => 500

end Fault

end Fanout
