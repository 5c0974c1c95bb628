import Fanout.Engine.Calling

/-!
# Delivery

A request is delivered by one job for each target. A job needs a permit to call
its node and gives it back when the call is answered; the answer then goes into
the collation. Permits go to the jobs in the order in which they came.

The job that finishes last for its request calls back with a report. Each job
has put its answer in before it counts itself off, so that report is complete.
-/

namespace Fanout.Engine

/-- Sets a batch of jobs up, one for each node. -/
def dispatch (handle : Handle) (outbound : Outbound) (nodes : List Node)
    (e : Engine) : Engine :=
  let notice :=
    .dispatching outbound.method outbound.uri nodes.length outbound.id
  { e.tell [notice] with
    batches := e.batches ++ [{ handle, outbound, remaining := nodes.length }]
    jobs := e.jobs ++
      nodes.map fun node => { batch := e.batches.length, node } }

/-- Gives a permit to the job that has waited longest, which then calls its
node. -/
def startJob (e : Engine) : Option Engine := do
  guard (0 < e.freePermits)
  let j ← e.waiting.head?
  let job ← e.jobs[j]?
  let batch ← e.batches[job.batch]?
  let call := e.calls.length
  let opened :=
    e.openCall job.node batch.outbound (.delivery j) e.config.nodeTimeout
  return { opened with
    freePermits := e.freePermits - 1
    jobs := e.jobs.modify j fun job => { job with phase := .calling call } }

/-- Puts an answer into a collation. -/
def merge (handle : Handle) (answer : Answer) (e : Engine) : Engine :=
  match e.registry.collation? handle with
  | some c =>
    { e.tell (c.mergeNotices e.now answer) with
      registry := e.registry.update handle (Collation.merge e.now answer) }
  | none => e

/-- Brings a collation up to date, as every look at it does. -/
def settle (handle : Handle) (e : Engine) : Engine :=
  match e.registry.collation? handle with
  | some c =>
    { e.tell (c.settleNotices e.now) with
      registry := e.registry.update handle (Collation.settle e.now) }
  | none => e

/-- The report on a collation at this moment. -/
def report? (handle : Handle) (e : Engine) : Option Report :=
  (e.registry.collation? handle).map (Collation.report e.now)

/-- Calls back with the report on a collation, if somebody wants it. -/
def callBack (handle : Handle) (e : Engine) : Engine :=
  if e.wantsCallback then
    match e.report? handle with
    | some report =>
      let e := e.settle handle
      { e with callbacks := e.callbacks ++ [(e.now, report)] }
    | none => e
  else e

/-- Counts a job of a batch off. -/
def countOff (b : Nat) (e : Engine) : Engine :=
  let e := { e with
    batches := e.batches.modify b fun batch =>
      { batch with remaining := batch.remaining - 1 } }
  match e.batches[b]? with
  | some batch => if batch.remaining = 0 then e.callBack batch.handle else e
  | none => e

/-- Finishes a job whose call is answered: the permit is given back, the answer
is put in, and the job is counted off. -/
def finishJob (j : Nat) (answer : Answer) (e : Engine) : Engine :=
  match e.jobs[j]? with
  | none => e
  | some job =>
    let e := { e with
      freePermits := e.freePermits + 1
      jobs := e.jobs.modify j fun job => { job with phase := .done answer } }
    match e.batches[job.batch]? with
    | none => e
    | some batch => (e.merge batch.handle answer).countOff job.batch

end Fanout.Engine
