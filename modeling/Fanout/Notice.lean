import Fanout.Connectivity
import Fanout.Fault
import Fanout.Logging.Level
import Fanout.Method
import Fanout.Node.Basic
import Fanout.Time

/-!
# Notices

What the library has to say about its work while it goes on. A notice is a value
that tells what happened; its level and its wording are functions of it, so that
a run can be asked for its notices without being asked to print them.
-/

namespace Fanout

/-- Something worth telling. -/
inductive Notice where
  | nodeAdded (node : Node) (state : Connectivity)
  | stateChanged (node : Node) (previous next : Connectivity)
  | answerTooLate (node : Node) (id : String)
  | answerNotAsked (node : Node) (id : String)
  | answerMerged (node : Node) (id : String) (status : Nat)
  | collationTimedOut (id : String) (timeout : Span) (missing : Nat)
  | registered (id : String)
  | evicted (id : String)
  | purging (id : String)
  | purged (count : Nat) (retention : Span)
  | registryStopped (dropped : Nat)
  | verifying (method : Method) (uri : String) (count : Nat) (id : String)
  | roundTimedOut (id : String) (timeout : Span)
  | refused (node : Node) (id reason : String)
  | allAccepted (id : String)
  | callFailed (method : Method) (uri : String) (node : Node)
      (id : String) (fault : Fault)
  | callTimedOut (method : Method) (uri : String) (node : Node) (timeout : Span)
      (id : String)
  | dispatching (method : Method) (uri : String) (count : Nat) (id : String)
  | replicating (method : Method) (uri : String) (count : Nat) (id : String)
  | rejected (method : Method) (uri : String) (fault : Fault)
  | stopped
  | stoppedAlready
  | sending (method : Method) (url : String) (node : Node) (id : String)
  | logOpened (directory : String)
  | configured (count : Nat)
  | dispatched (id : String)
  | answered (id : String) (count expected : Nat)

/-- What has been told, in order. -/
abbrev Journal := List Notice

namespace Notice

def level : Notice → Level
  | nodeAdded .. | stateChanged .. | purged .. | registryStopped ..
  | replicating .. | stopped | configured .. | dispatched .. => .info
  | answerTooLate .. | answerNotAsked .. | collationTimedOut ..
  | roundTimedOut .. | refused .. | callFailed .. | callTimedOut ..
  | rejected .. => .warn
  | answerMerged .. | registered .. | evicted .. | purging .. | verifying ..
  | allAccepted .. | dispatching .. | stoppedAlready | sending .. | logOpened ..
  | answered .. => .debug

/-- A method with a path or address, as notices name a request. -/
def requestLine (method : Method) (uri : String) : String :=
  method.name ++ " " ++ uri

def text : Notice → String
  | nodeAdded node state =>
    "Adding node " ++ node.display ++ " to directory as " ++ state.name
  | stateChanged node previous next =>
    "Node " ++ node.display ++ " state changed (" ++ previous.name ++ " -> " ++
      next.name ++ ")"
  | answerTooLate node id =>
    "Ignoring response from " ++ node.display ++ " for request " ++ id ++
      ": response already complete"
  | answerNotAsked node id =>
    "Ignoring response from " ++ node.display ++ " for request " ++ id ++
      ": node was not targeted"
  | answerMerged node id status =>
    "Merged response from " ++ node.display ++ " for request " ++ id ++
      " (status " ++ toString status ++ ")"
  | collationTimedOut id timeout missing =>
    "Request " ++ id ++ " timed out after " ++ timeout.text ++
      " waiting for " ++ toString missing ++ " node(s)"
  | registered id => "Registered cluster response " ++ id
  | evicted id => "Evicted completed cluster response " ++ id
  | purging id => "Purging expired cluster response " ++ id
  | purged count retention =>
    "Purged " ++ toString count ++ " expired cluster responses (retention: " ++
      retention.text ++ ")"
  | registryStopped dropped =>
    "Stopped response registry, dropped " ++ toString dropped ++ " responses"
  | verifying method uri count id =>
    "Verifying " ++ requestLine method uri ++ " with " ++ toString count ++
      " node(s) (request " ++ id ++ ")"
  | roundTimedOut id timeout =>
    "Verification of request " ++ id ++ " timed out after " ++ timeout.text
  | refused node id reason =>
    "Node " ++ node.display ++ " rejected request " ++ id ++ ": " ++ reason
  | allAccepted id => "All nodes accepted request " ++ id
  | callFailed method uri node id fault =>
    requestLine method uri ++ " to node " ++ node.display ++
      " failed (request " ++ id ++ "): " ++ fault.message
  | callTimedOut method uri node timeout id =>
    requestLine method uri ++ " to node " ++ node.display ++
      " timed out after " ++ timeout.text ++ " (request " ++ id ++ ")"
  | dispatching method uri count id =>
    "Dispatching " ++ requestLine method uri ++ " to " ++ toString count ++
      " node(s) (request " ++ id ++ ")"
  | replicating method uri count id =>
    "Replicating " ++ requestLine method uri ++ " to " ++ toString count ++
      " node(s) (request " ++ id ++ ")"
  | rejected method uri fault =>
    "Rejected replication of " ++ requestLine method uri ++ ": " ++
      fault.message
  | stopped => "Request replicator stopped"
  | stoppedAlready => "Request replicator already stopped"
  | sending method url node id =>
    "Sending " ++ requestLine method url ++ " to node " ++ node.display ++
      " (request " ++ id ++ ")"
  | logOpened directory => "File logging initialized log_dir=" ++ directory
  | configured count => "Cluster has " ++ toString count ++
      " configured node(s)"
  | dispatched id => "Request " ++ id ++ " dispatched"
  | answered id count expected =>
    "Request " ++ id ++ ": " ++ toString count ++ "/" ++ toString expected ++
      " node(s) answered"

/-- A notice as one line of a log. -/
def line (n : Notice) : String :=
  n.level.name ++ " " ++ n.text

end Notice

end Fanout
