import Fanout.Engine.Verification

/-!
# Steps of the engine

Everything that can happen to the engine is an event, and `step` says what the
engine makes of it, or that the event cannot happen in this state. Steps are
atomic; what may happen between two of them is anything at all. The order in
which events come is nobody's business here: a schedule, a clock or a test
brings its own.
-/

namespace Fanout

/-- Something that happens to the engine. -/
inductive Event where
  /-- Time moves on to a later moment. -/
  | advance (now : Instant)
  /-- A request is handed in, with an identifier and a seed drawn for it. -/
  | submit (target : Target) (request : Request) (id seed : String)
  /-- The next target of a round is asked. -/
  | startProbe (round : Nat)
  /-- A permit is given to the job that has waited longest. -/
  | startJob
  /-- A client has a result for a call. -/
  | arrive (call : Nat) (result : CallResult)
  /-- Whoever waits for a call looks at it, and it is over. -/
  | finish (call : Nat)
  /-- A round is out of time. -/
  | expireRound (round : Nat)
  /-- Somebody asks for a collation by its identifier. -/
  | lookUp (id : String)
  /-- Somebody looks at a collation. -/
  | look (handle : Handle)
  /-- The registry is swept. -/
  | sweep
  | shutDown
  | addNode (node : Node) (state : Connectivity)
  | setState (node : Node) (state : Connectivity)
  | removeNode (node : Node)

namespace Engine

/-- Takes a request in. Every rule that can be checked at once is, in an order
that decides which fault the caller hears of. -/
def submit (target : Target) (request : Request) (id seed : String)
    (e : Engine) : Engine :=
  let s := e.submissions.length
  let sub : Submission :=
    { target, request, id, seed, submitted := e.now,
      phase := .rejected .stopped }
  let e := { e with submissions := e.submissions ++ [sub] }
  if e.isStopped then e.reject s sub .stopped
  else
    let e := { e with isSweeping := true }
    match target.resolve e.members request with
    | .error fault => e.reject s sub fault
    | .ok nodes =>
      if target.needsRound request then
        match e.members.unconnected? nodes with
        | some fault => e.reject s sub fault
        | none =>
          let r := e.rounds.length
          ((e.setSubmission s (.verifying r)).openRound sub.outbound nodes
            e.config.verificationTimeout (some s)).passIfDone r
      else e.enroll s sub nodes

/-- Looks at a call and lets the answer take effect. -/
def finish (call : Nat) (e : Engine) : Option Engine := do
  let c ← e.calls[call]?
  let answer ← c.answer? e.now
  let closed := e.closeCall call c answer
  match c.purpose with
  | .single => return closed
  | .delivery j => return closed.finishJob j answer
  | .probe r =>
    let round ← e.rounds[r]?
    return closed.judge r round call answer

/-- Asks for a collation by the identifier of its request. -/
def lookUp (id : String) (e : Engine) : Engine × Option Handle :=
  let notices := e.registry.getNotices e.now id
  let (registry, handle) := e.registry.get e.now id
  (({ e.tell notices with registry } : Engine).gauge, handle)

/-- Lets expired collations go. -/
def sweep (e : Engine) : Engine :=
  { e.tell (e.registry.purgeNotices e.now) with
    registry := e.registry.purge e.now }

/-- Stops the engine. Calls that are under way go on. -/
def shutDown (e : Engine) : Engine :=
  if e.isStopped then e.tell [.stoppedAlready]
  else
    let notices := e.registry.stopNotices ++ [.stopped]
    { e.tell notices with
      isStopped := true
      isSweeping := false
      registry := e.registry.stop
      metrics := e.metrics.setOutstanding 0 }

/-- What the engine makes of an event, if it can happen. -/
def step (e : Engine) : Event → Option Engine
  | .advance now => if e.now < now then some { e with now } else none
  | .submit target request id seed => some (e.submit target request id seed)
  | .startProbe round => e.startProbe round
  | .startJob => e.startJob
  | .arrive call result => some (e.arrive call result)
  | .finish call => e.finish call
  | .expireRound round => e.expireRound round
  | .lookUp id => some (e.lookUp id).1
  | .look handle => some (e.settle handle)
  | .sweep => some e.sweep
  | .shutDown => some e.shutDown
  | .addNode node state =>
    some { e.tell [.nodeAdded node state] with
      members := e.members.add node state }
  | .setState node state =>
    some { e.tell (e.members.setStateNotices node state) with
      members := e.members.setState node state }
  | .removeNode node => some { e with members := e.members.remove node }

/-- What the engine makes of events one after the other, if they can all
happen. -/
def run (e : Engine) (events : List Event) : Option Engine :=
  events.foldlM step e

end Engine

end Fanout
