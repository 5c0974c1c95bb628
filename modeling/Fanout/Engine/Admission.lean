import Fanout.Engine.Delivery

/-!
# Admission

A submission that has nothing left to wait for is admitted, unless the engine
was stopped in the meantime or the registry has no room. There are three parts
to it: the engine is found running, the collation is held, and delivery begins.

None of the three waits for anything, and an event takes them all at a stretch,
so that after no event a request is held and its jobs are not there. That is a
choice of the grain of events. Threads that share an engine are not kept from
anything between two parts, and a shutdown from another thread may come there;
each part is a function of its own for what can be said of that.
-/

namespace Fanout.Engine

/-- Sets how a submission stands. -/
def setSubmission (s : Nat) (phase : SubmissionPhase) (e : Engine) : Engine :=
  { e with submissions := e.submissions.modify s fun sub => { sub with phase } }

/-- Sets the gauge to the number of held collations. -/
def gauge (e : Engine) : Engine :=
  { e with metrics := e.metrics.setOutstanding e.registry.size }

/-- Rejects a submission. -/
def reject (s : Nat) (sub : Submission) (fault : Fault) (e : Engine) : Engine :=
  let method := sub.request.method
  let e := e.setSubmission s (.rejected fault)
  { e.tell [.rejected method sub.request.uri fault] with
    metrics := { e.metrics with
      rejected := Metrics.bump method.name e.metrics.rejected } }

/-- Accepts a submission whose collation is held, and begins to deliver. -/
def accept (s : Nat) (sub : Submission) (nodes : List Node) (handle : Handle)
    (e : Engine) : Engine :=
  let method := sub.request.method
  let e := (e.gauge.tell
    [.replicating method sub.request.uri nodes.length sub.id]).dispatch handle
      sub.outbound nodes
  let e := e.setSubmission s (.accepted handle)
  { e with
    metrics := { e.metrics with
      requests := Metrics.bump method.name e.metrics.requests } }

/-- Begins to hold the collation of a submission, if the registry takes it. -/
def hold (sub : Submission) (nodes : List Node) (e : Engine) :
    Engine × Except Fault Handle :=
  let c := Collation.new e.now sub.id sub.request.method sub.request.uri nodes
    e.config.responseTimeout
  let notices := e.registry.registerNotices e.now c
  let (registry, result) := e.registry.register e.now c
  ({ e.tell notices with registry }, result)

/-- Takes a submission on once the engine was found running, which is not asked
again. -/
def takeOn (s : Nat) (sub : Submission) (nodes : List Node)
    (e : Engine) : Engine :=
  let (e, result) := e.hold sub nodes
  match result with
  | .error fault => e.reject s sub fault
  | .ok handle => e.accept s sub nodes handle

/-- Admits or rejects a submission for the given targets. -/
def enroll (s : Nat) (sub : Submission) (nodes : List Node)
    (e : Engine) : Engine :=
  if e.isStopped then e.reject s sub .stopped else e.takeOn s sub nodes

end Fanout.Engine
