import Fanout.Engine.Target
import Fanout.Metrics
import Fanout.Outbound
import Fanout.Registry

/-!
# The state of the engine

The engine turns one request into calls to many nodes. Its state is laid out so
that nothing is forgotten: submissions, rounds, calls, batches and jobs are
lists that only grow, and what happens to one of them later changes its phase
and nothing else. The list of calls is thus at the same time the history of the
run, and a question about the past is a question about the present state.

What the outside world decides comes in through events and never from here:
when time moves, what a node replies, and which identifier is fresh.
-/

namespace Fanout

/-- The settings of the engine. -/
structure EngineConfig where
  /-- After this time a collation completes without the answers still
  missing. -/
  responseTimeout : Span := Span.ofSeconds 60
  /-- How long a round of probes may take. -/
  verificationTimeout : Span := Span.ofSeconds 10
  /-- How many deliveries may be under way at once. -/
  poolSize : Nat := 20
  /-- How long one delivery may take. -/
  nodeTimeout : Span := Span.ofSeconds 30
  registry : RegistryConfig := {}
  deriving DecidableEq, Repr

namespace EngineConfig

/-- The number of permits: a pool without any would never deliver. -/
def permits (c : EngineConfig) : Nat := max c.poolSize 1

end EngineConfig

/-- What a client made of a call. -/
abbrev CallResult := Except Fault Reply

/-- For whom a call was made: for a round of probes, for a job, or for
itself. -/
inductive Purpose where
  | probe (round : Nat)
  | delivery (job : Nat)
  | single
  deriving DecidableEq, Repr

/-- How far a call has come. A result that has arrived is not yet an answer: it
becomes one when whoever waits for the call looks at it. -/
inductive CallPhase where
  | underWay
  | arrived (result : CallResult)
  | answered (answer : Answer)
  | abandoned

/-- A call to a node. -/
structure Call where
  node : Node
  outbound : Outbound
  purpose : Purpose
  started : Instant
  timeout : Span
  phase : CallPhase := .underWay

namespace Call

/-- Whether a call is under way at its node. -/
def isUnderWay (c : Call) : Bool :=
  match c.phase with
  | .underWay => true
  | _ => false

def isProbe (c : Call) : Bool :=
  match c.purpose with
  | .probe _ => true
  | _ => false

end Call

/-- How a round of probes stands. -/
inductive RoundPhase where
  | running
  | passed
  | failed (fault : Fault)

/-- A round of probes: the targets still to be asked, and the probes that are
neither judged nor abandoned. -/
structure Round where
  outbound : Outbound
  targets : List Node
  timeout : Span
  deadline : Instant
  /-- The submission that the round decides about. -/
  submission : Option Nat
  unasked : List Node
  asked : List Nat := []
  phase : RoundPhase := .running

/-- How a submission stands. -/
inductive SubmissionPhase where
  | verifying (round : Nat)
  | accepted (handle : Handle)
  | rejected (fault : Fault)
  deriving DecidableEq, Repr

/-- A request handed to the engine. -/
structure Submission where
  target : Target
  request : Request
  /-- The identifier under which it goes out. -/
  id : String
  /-- The value for its seed, should it need one. -/
  seed : String
  submitted : Instant
  phase : SubmissionPhase

namespace Submission

/-- What every target of the submission gets. -/
def outbound (s : Submission) : Outbound :=
  .ofRequest s.id s.seed (s.target.prepare s.request)

end Submission

/-- How a job stands. -/
inductive JobPhase where
  | waiting
  | calling (call : Nat)
  | done (answer : Answer)

/-- The delivery of one request to one node. -/
structure Job where
  batch : Nat
  node : Node
  phase : JobPhase := .waiting

/-- All deliveries of one request. -/
structure Batch where
  handle : Handle
  outbound : Outbound
  /-- The jobs that are not done. -/
  remaining : Nat

/-- The state of the engine. -/
structure Engine where
  config : EngineConfig
  /-- Whether somebody wants to be called back. -/
  wantsCallback : Bool := false
  now : Instant := 0
  members : Membership := {}
  isStopped : Bool := false
  isSweeping : Bool := false
  registry : Registry
  submissions : List Submission := []
  rounds : List Round := []
  calls : List Call := []
  batches : List Batch := []
  jobs : List Job := []
  /-- The permits that no job holds. -/
  freePermits : Nat
  /-- What was called back, and when. -/
  callbacks : List (Instant × Report) := []
  metrics : Metrics := {}
  journal : Journal := []

namespace Engine

/-- An engine at the start of a run. -/
def start (config : EngineConfig) (members : Membership := {})
    (wantsCallback : Bool := false) : Engine where
  config := config
  wantsCallback := wantsCallback
  members := members
  registry := { config := config.registry }
  freePermits := config.permits

/-- Adds to the journal. -/
def tell (notices : Journal) (e : Engine) : Engine :=
  { e with journal := e.journal ++ notices }

/-- The jobs that wait for a permit, the first come first. -/
def waiting (e : Engine) : List Nat :=
  (List.range e.jobs.length).filter fun j =>
    match e.jobs[j]? with
    | some ⟨_, _, .waiting⟩ => true
    | _ => false

/-- The number of calls that are under way. -/
def inFlight (e : Engine) : Nat :=
  e.calls.countP Call.isUnderWay

end Engine

end Fanout
