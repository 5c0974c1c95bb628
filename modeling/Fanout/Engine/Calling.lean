import Fanout.Engine.Basic

/-!
# Calls

A call is opened, a result may arrive, and then somebody looks at it. Looking
gives an answer if a result is there, or else if the time of the call is up.
The order of the two matters when both hold: a result that is there counts even
if the time is up at the same moment.
-/

namespace Fanout

namespace Call

/-- When the time of a call is up. -/
def due (c : Call) : Instant :=
  Instant.timer c.started c.timeout

/-- The answer that a look at the call gives. -/
def answer? (now : Instant) (c : Call) : Option Answer :=
  let latency := Instant.since now c.started
  match c.phase with
  | .arrived (.ok reply) => some (.ofReply c.node reply latency)
  | .arrived (.error fault) => some (.unreachable c.node fault.message latency)
  | .underWay => if c.due ≤ now then some (.timeout c.node latency) else none
  | .answered _ | .abandoned => none

/-- What is told when a call is answered. -/
def notices (now : Instant) (c : Call) : Journal :=
  let o := c.outbound
  match c.phase with
  | .arrived (.error fault) => [.callFailed o.method o.uri c.node o.id fault]
  | .underWay =>
    if c.due ≤ now then [.callTimedOut o.method o.uri c.node c.timeout o.id]
    else []
  | _ => []

/-- The call as it is once it is settled. -/
def close (answer : Answer) (c : Call) : Call :=
  { c with phase := .answered answer }

/-- Takes a result in; a call that is over takes none. -/
def receive (result : CallResult) (c : Call) : Call :=
  match c.phase with
  | .underWay => { c with phase := .arrived result }
  | _ => c

/-- Gives a call up unless it is answered. -/
def abandon (c : Call) : Call :=
  match c.phase with
  | .answered _ => c
  | _ => { c with phase := .abandoned }

end Call

namespace Metrics

/-- Counts an answered call. -/
def countAnswer (answer : Answer) (m : Metrics) : Metrics :=
  { m with
    latencies := m.latencies + 1
    nodeFailures :=
      if answer.isSuccess then m.nodeFailures
      else bump (toString answer.status) m.nodeFailures }

end Metrics

namespace Engine

/-- Opens a call now. Its index is the number of calls before it. -/
def openCall (node : Node) (outbound : Outbound) (purpose : Purpose)
    (timeout : Span) (e : Engine) : Engine :=
  { e with
    calls :=
      e.calls ++ [{ node, outbound, purpose, started := e.now, timeout }] }

/-- Takes in what a client made of a call. -/
def arrive (call : Nat) (result : CallResult) (e : Engine) : Engine :=
  { e with calls := e.calls.modify call (Call.receive result) }

/-- Settles a call with an answer that a look at it gave. -/
def closeCall (call : Nat) (c : Call) (answer : Answer) (e : Engine) : Engine :=
  { e.tell (c.notices e.now) with
    calls := e.calls.modify call (Call.close answer)
    metrics := e.metrics.countAnswer answer }

/-- Gives calls up. -/
def abandonCalls (calls : List Nat) (e : Engine) : Engine :=
  { e with calls := calls.foldl (fun held c =>
    held.modify c Call.abandon) e.calls }

end Engine

end Fanout
