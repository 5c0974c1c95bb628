import Fanout.Membership
import Fanout.Request

/-!
# Targets

A request is meant for all connected nodes, for a set of nodes, or for the
coordinator, which will do the rest. The first is the delicate one. A change to
the whole cluster must not leave a member behind, so as long as some node is on
its way in or out the change is refused; one that is on its way in matters only
to a request that is verified.
-/

namespace Fanout

/-- Whom a request is meant for. -/
inductive Target where
  | allConnected
  | nodes (nodes : List Node)
  | coordinator (node : Node)
  deriving DecidableEq, Repr

namespace Target

def isCoordinator : Target → Bool
  | coordinator _ => true
  | _ => false

/-- Whether a node in this state keeps the whole cluster from a change. -/
def isLeaving (s : Connectivity) : Bool :=
  s == .disconnected || s == .disconnecting

/-- Why the cluster is not ready for a change, if it is not. -/
def unready? (verified : Bool) (m : Membership) : Option Fault :=
  match if verified then m.first? (· == .connecting) else none with
  | some node => some (.connecting node.display)
  | none => (m.first? isLeaving).map fun node => .disconnected node.display

/-- The nodes that a request goes to, in ascending order. -/
def resolve (m : Membership) (request : Request) :
    Target → Except Fault (List Node)
  | allConnected =>
    match if request.isMutable then unready? request.verify m else none with
    | some fault => .error fault
    | none =>
      if m.connected.isEmpty then
        .error (.invalidTarget "no connected nodes in the cluster")
      else .ok m.connected
  | nodes set =>
    if set.isEmpty then
      .error (.invalidTarget "the set of target nodes is empty")
    else if request.method.usesQuery then
      .error (.illegalArgument
        (request.method.name ++
          " requests cannot be replicated to an explicit set of nodes"))
    else .ok (ascending set)
  | coordinator node => .ok [node]

/-- The request as its target gets it: the coordinator must not take it for one
that has been fanned out already. -/
def prepare (request : Request) : Target → Request
  | coordinator _ => { request with indicate := false }
  | _ => request

/-- Whether the targets are asked before the request is delivered. -/
def needsRound (request : Request) (target : Target) : Bool :=
  request.isMutable && request.verify && !target.isCoordinator

end Target

/-- Why a set of targets cannot be asked, if it cannot: one is on its way in, or
else one is not connected or not known. -/
def Membership.unconnected? (nodes : List Node)
    (m : Membership) : Option Fault :=
  match nodes.find? fun n => m.state? n == some .connecting with
  | some node => some (.connecting node.display)
  | none =>
    (nodes.find? fun n => m.state? n != some .connected).map fun node =>
      .disconnected node.display

end Fanout
