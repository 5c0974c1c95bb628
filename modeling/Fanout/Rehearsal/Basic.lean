import Fanout.Rehearsal.Script
import Fanout.Text.Hex
import Fanout.Waiter

/-!
# Rehearsals

A rehearsal runs the engine against scripted nodes under a clock of its own. One
conductor asks for things one after the other; everything that goes on in the
background is a task. Tasks run one at a time, in the order in which they were
woken, and the clock moves only when nothing is left to run: then it jumps to
the next timer and everything set for that moment is woken, in the order in
which the timers were set.

The engine is changed by its own steps alone, so whatever is true of every run
of the engine is true of every rehearsal. What is added here is a schedule.
-/

namespace Fanout

/-- Who is to be woken. -/
inductive Waker where
  | conductor
  | task (task : Nat)
  deriving DecidableEq, Repr

/-- A timer that was set. -/
structure Timer where
  due : Instant
  waker : Waker
  deriving DecidableEq, Repr

/-- What a task does when it runs. -/
inductive Work where
  /-- Hands a request in. -/
  | submission (target : Target) (request : Request)
  /-- Sees a submission through its round. -/
  | round (submission round : Nat)
  /-- Has seen a submission through, and found its collation complete or not. -/
  | submitted (submission : Nat) (complete : Bool)
  | job (job : Nat)
  /-- Sweeps the registry; before the first sweep no time for it is set. -/
  | sweeper (next : Option Instant)
  /-- Puts an answer into a collation after a while, or at a set time. -/
  | merging (after : Span) (handle : Handle) (answer : Answer)
  | mergingAt (due : Instant) (handle : Handle) (answer : Answer)
  | finished

namespace Rehearsal

/-! ## Identifiers -/

/-- How all identifiers begin that a rehearsal draws. -/
def identifierStem : String := "00000000-0000-4000-8000-"

/-- The identifier of a number. -/
def identifier (n : Nat) : String :=
  identifierStem ++ String.ofList (Text.lowerHex 12 n)

end Rehearsal

/-! ## The state of a rehearsal -/

/-- A rehearsal in progress. -/
structure Rehearsal where
  engine : Engine
  script : Script := .ofNodes []
  /-- The behaviour that was chosen for each call when it was opened. -/
  plans : List Behaviour := []
  tasks : List Work := []
  /-- The tasks that can run, the next one first. -/
  ready : List Nat := []
  timers : List Timer := []
  conductorWoken : Bool := false
  sweeper : Option Nat := none
  /-- The task of each job of the engine. -/
  jobTasks : List Nat := []
  /-- The collation on whose completion the conductor waits, and how far it is
  with that. -/
  watched : Option (Handle × Waiter) := none
  /-- The identifiers, in the order in which they are drawn. -/
  identifiers : Nat → String := Rehearsal.identifier
  /-- How many identifiers were drawn. -/
  drawn : Nat := 0
  mostInFlight : Nat := 0
  /-- Identifiers of requests in the order in which they could be seen from
  outside: in a call to a node, or in what came of a request. -/
  shownIds : List String := []

namespace Rehearsal

def now (s : Rehearsal) : Instant := s.engine.now

/-! ## Waking and timers -/

def wake (w : Waker) (s : Rehearsal) : Rehearsal :=
  match w with
  | .conductor => { s with conductorWoken := true }
  | .task t =>
    if s.ready.contains t then s else { s with ready := s.ready ++ [t] }

def setTimer (due : Instant) (w : Waker) (s : Rehearsal) : Rehearsal :=
  { s with timers := s.timers ++ [⟨due, w⟩] }

def setWork (t : Nat) (work : Work) (s : Rehearsal) : Rehearsal :=
  { s with tasks := s.tasks.set t work }

/-- Starts a task; it runs when its turn comes. -/
def spawn (work : Work) (s : Rehearsal) : Rehearsal :=
  { s with tasks := s.tasks ++ [work], ready := s.ready ++ [s.tasks.length] }

/-- Moves the clock to the next timer, if there is one, and wakes all whose time
has come. -/
def advance (s : Rehearsal) : Option Rehearsal :=
  match s.timers.map (·.due) with
  | [] => none
  | first :: rest =>
    let due := max s.now (rest.foldl min first)
    let engine := (s.engine.step (.advance due)).getD s.engine
    let fired := s.timers.filter (·.due ≤ due)
    let s := { s with engine, timers := s.timers.filter fun t => due < t.due }
    some (fired.foldl (fun s t => s.wake t.waker) s)

/-! ## Changing the engine -/

/-- Starts the tasks of jobs that have none, and the sweeper if it is wanted. -/
def follow (s : Rehearsal) : Rehearsal :=
  let s :=
    if s.engine.isSweeping && s.sweeper.isNone then
      { s.spawn (.sweeper none) with sweeper := some s.tasks.length }
    else s
  let new := (List.range s.engine.jobs.length).drop s.jobTasks.length
  new.foldl (fun s j =>
    { s.spawn (.job j) with jobTasks := s.jobTasks ++ [s.tasks.length] }) s

/-- Calls the conductor if the collation that it waits for is complete. -/
def callWaiter (s : Rehearsal) : Rehearsal :=
  match s.watched with
  | some (handle, waiter) =>
    if (s.engine.registry.collation? handle).any Collation.isComplete then
      { s with conductorWoken := true, watched := some (handle, waiter.call) }
    else s
  | none => s

/-- Replaces the engine by a later state of it. -/
def enter (engine : Engine) (s : Rehearsal) : Rehearsal :=
  { s with engine }.follow.callWaiter

/-- Lets an event happen. -/
def apply (event : Event) (s : Rehearsal) : Rehearsal :=
  s.enter ((s.engine.step event).getD s.engine)

/-! ## Calls -/

/-- When the node will have answered a call. -/
def replyDue (c : Call) (plan : Behaviour) : Instant :=
  Instant.timer c.started plan.delay

/-- Notes that an identifier could be seen. -/
def showId (id : String) (s : Rehearsal) : Rehearsal :=
  if s.shownIds.contains id then s
  else { s with shownIds := s.shownIds ++ [id] }

/-- Takes note of calls that were just opened: each gets its behaviour, and a
timer for the moment at which something happens to it. -/
def noteCalls (w : Waker) (s : Rehearsal) : Rehearsal :=
  let new := s.engine.calls.drop s.plans.length
  new.foldl (fun s c =>
    let plan := s.script s.plans.length c
    let due := min (replyDue c plan) c.due
    let s := { s.showId c.outbound.id with
      engine := s.engine.tell plan.notices
      plans := s.plans ++ [plan]
      mostInFlight := max s.mostInFlight s.engine.inFlight }
    if due ≤ s.now then s else s.setTimer due w) s

/-- Whether looking at a call would settle it. -/
def isDue (call : Nat) (s : Rehearsal) : Bool :=
  match s.engine.calls[call]?, s.plans[call]? with
  | some c, some plan =>
    c.isUnderWay && (replyDue c plan ≤ s.now || c.due ≤ s.now)
  | _, _ => false

/-- Looks at a call that is due. The result of the node comes first, so it wins
over a timeout at the same moment. -/
def lookAt (call : Nat) (s : Rehearsal) : Rehearsal :=
  match s.engine.calls[call]?, s.plans[call]? with
  | some c, some plan =>
    let s :=
      if replyDue c plan ≤ s.now then s.apply (.arrive call plan.result) else s
    s.apply (.finish call)
  | _, _ => s

end Rehearsal

end Fanout
