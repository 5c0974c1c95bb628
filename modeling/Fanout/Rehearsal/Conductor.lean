import Fanout.Rehearsal.Tasks

/-!
# The conductor

The conductor of a rehearsal asks for one thing after the other and waits until
it has it. While it waits the tasks run, and when they all wait too the clock
moves. At a new moment the conductor is the first to look around; otherwise it
looks when the tasks have come to rest.
-/

namespace Fanout.Rehearsal

/-- What the conductor waits for. -/
inductive Wait where
  | until (due : Instant)
  | completion
  | round (round : Nat)
  | call (call : Nat)
  | task (task : Nat)

/-- Lets the conductor take its turns as a waiter, and says whether it has
left. -/
def attend (handle : Handle) (waiter : Waiter)
    (s : Rehearsal) : Rehearsal × Bool :=
  match s.engine.registry.collation? handle with
  | some c =>
    let waiter := (waiter.attend s.now Waiter.mostTurns c).2
    ({ s with watched := some (handle, waiter) }.apply (.look handle),
      waiter.hasLeft)
  | none => (s, true)

/-- The conductor looks whether it has what it waits for. -/
def look (w : Wait) (s : Rehearsal) : Rehearsal × Bool :=
  match w with
  | .until due => (s, due ≤ s.now)
  | .completion =>
    match s.watched with
    | some (handle, waiter) => s.attend handle waiter
    | none => (s, true)
  | .round r =>
    let s := s.runRound r .conductor
    (s, s.isDecided r)
  | .call call => if s.isDue call then (s.lookAt call, true) else (s, false)
  | .task t =>
    match s.tasks[t]? with
    | some (.submitted ..) | none => (s, true)
    | _ => (s, false)

/-- Waits. Each turn runs the tasks to rest and then moves the clock, if the
conductor was not called in between. Without any timer left there is nothing to
wait for. -/
def await (w : Wait) : Nat → Rehearsal → Rehearsal
  | 0, s => s
  | turns + 1, s =>
    let (s, has) :=
      if s.conductorWoken then { s with conductorWoken := false }.look w
      else (s, false)
    if has then s
    else
      let s := s.rest
      if s.conductorWoken then await w turns s
      else
        match s.advance with
        | none => s
        | some s => await w turns s

/-- A moment at which the conductor has what it waits for, if it is to have it
at all. -/
def horizon (w : Wait) (s : Rehearsal) : Instant :=
  match w with
  | .until due => due
  | .completion => (s.watched.map fun watched => watched.2.limit).getD s.now
  | .round r => ((s.engine.rounds[r]?).map Round.deadline).getD s.now
  | .call call => ((s.engine.calls[call]?).map Call.due).getD s.now
  | .task _ => Instant.deadline s.now s.engine.config.verificationTimeout

/-- Looks at once, and waits if that was in vain. The clock moves in most turns,
so there is one for every moment up to the horizon. -/
def waitFor (w : Wait) (s : Rehearsal) : Rehearsal :=
  await w (patience + (s.horizon w - s.now)) { s with conductorWoken := true }

/-! ## What the conductor can ask for -/

/-- Lets time pass. -/
def sleep (span : Span) (s : Rehearsal) : Rehearsal :=
  let due := Instant.timer s.now span
  (s.setTimer due .conductor).waitFor (.until due)

/-- Waits until a collation is complete, for so long at most, and says whether
it is. -/
def waitForCompletion (handle : Handle) (span : Span) (s : Rehearsal) :
    Rehearsal × Bool :=
  match s.engine.registry.collation? handle with
  | none => (s, false)
  | some c =>
    let waiter : Waiter := { entered := s.now, span }
    let s := s.setTimer (waiter.wakeAt c) .conductor
    let s := { s with watched := some (handle, waiter) }.waitFor .completion
    ({ s with watched := none }, s.watched.any fun watched =>
      watched.2.result? = some true)

/-- What became of a request that was handed in: the place of its submission,
and whether its collation was complete as soon as there was one. -/
structure Submitted where
  submission : Nat
  complete : Bool

/-- Hands a request in and waits until it is decided about. -/
def replicate (target : Target) (request : Request) (s : Rehearsal) :
    Rehearsal × Submitted :=
  let submission := s.engine.submissions.length
  let s := s.submit target request
  let s :=
    match s.roundOf? submission with
    | some r => (s.beginRound r .conductor).waitFor (.round r)
    | none => s
  let (s, complete) := s.lookAtSubmission submission
  (s, ⟨submission, complete⟩)

/-- Hands a request in in the background. Gives the task that sees to it. -/
def replicateLater (target : Target) (request : Request) (s : Rehearsal) :
    Rehearsal × Nat :=
  (s.spawn (.submission target request), s.tasks.length)

/-- Waits for a task that hands a request in. -/
def join (task : Nat) (s : Rehearsal) : Rehearsal × Option Submitted :=
  let s := s.waitFor (.task task)
  match s.tasks[task]? with
  | some (.submitted submission complete) => (s, some ⟨submission, complete⟩)
  | _ => (s, none)

/-- Runs a round of its own, after the targets were found connected. -/
def verify (outbound : Outbound) (targets : List Node) (timeout : Span)
    (s : Rehearsal) : Rehearsal × Option Fault :=
  match s.engine.members.unconnected? targets with
  | some fault => (s, some fault)
  | none =>
    let r := s.engine.rounds.length
    let s :=
      s.enter ((s.engine.openRound outbound targets timeout none).passIfDone r)
    let s := (s.beginRound r .conductor).waitFor (.round r)
    match (s.engine.rounds[r]?).map Round.phase with
    | some (.failed fault) => (s, some fault)
    | _ => (s, none)

/-- Makes one call and waits for its answer. -/
def call (node : Node) (outbound : Outbound) (timeout : Span) (s : Rehearsal) :
    Rehearsal × Option Answer :=
  let call := s.engine.calls.length
  let s :=
    (s.enter (s.engine.openCall node outbound .single timeout)).noteCalls
      .conductor
  let s := s.waitFor (.call call)
  match (s.engine.calls[call]?).map Call.phase with
  | some (.answered answer) => (s, some answer)
  | _ => (s, none)

/-- Makes a collation that no registry holds. -/
def makeCollation (id : String) (method : Method) (uri : String)
    (expected : List Node) (timeout : Span)
    (s : Rehearsal) : Rehearsal × Handle :=
  let c := Collation.new s.now id method uri expected timeout
  (s.enter { s.engine with registry := s.engine.registry.make c },
    s.engine.registry.collations.length)

/-- Delivers to nodes what a collation waits for. -/
def dispatch (handle : Handle) (outbound : Outbound) (nodes : List Node)
    (s : Rehearsal) : Rehearsal :=
  s.enter (s.engine.dispatch handle outbound nodes)

/-- Makes a collation and has the registry hold it. -/
def register (id : String) (method : Method) (uri : String)
    (expected : List Node) (timeout : Span) (s : Rehearsal) :
    Rehearsal × Except Fault Handle :=
  let c := Collation.new s.now id method uri expected timeout
  let notices := s.engine.registry.registerNotices s.now c
  let (registry, result) := s.engine.registry.register s.now c
  (s.enter { s.engine.tell notices with registry }, result)

/-- Starts the sweeper anew. -/
def startSweeper (s : Rehearsal) : Rehearsal :=
  { s with sweeper := none }.enter { s.engine with isSweeping := true }

/-- Stops the registry and its sweeper. -/
def stopRegistry (s : Rehearsal) : Rehearsal :=
  let registry := s.engine.registry
  { s with sweeper := none }.enter
    { s.engine.tell registry.stopNotices with
      registry := registry.stop, isSweeping := false }

/-- Stops the engine. -/
def shutDown (s : Rehearsal) : Rehearsal :=
  { s with sweeper := none }.apply .shutDown

/-- Changes what a node does from now on. -/
def setScript (id : String) (script : NodeScript) (s : Rehearsal) : Rehearsal :=
  { s with script := s.script.setNode id script }

end Fanout.Rehearsal
