import Fanout.Rehearsal.Basic

/-!
# Tasks of a rehearsal

What each kind of task does when it is its turn, until it has to wait again.
-/

namespace Fanout.Rehearsal

/-- Sees a round as far as it can go now: probes that are due are judged, in the
order in which they were made, before the next target is asked. Each turn judges
a probe or makes one, so twice the number of targets bounds the turns. -/
def pursueRound (r : Nat) (w : Waker) : Nat → Rehearsal → Rehearsal
  | 0, s => s
  | turns + 1, s =>
    match s.engine.rounds[r]? with
    | none => s
    | some round =>
      match round.phase with
      | .running =>
        match round.asked.find? s.isDue with
        | some call => pursueRound r w turns (s.lookAt call)
        | none =>
          if !round.unasked.isEmpty then
            pursueRound r w turns ((s.apply (.startProbe r)).noteCalls w)
          else if round.deadline ≤ s.now then s.apply (.expireRound r)
          else s
      | _ => s

/-- Whether a round has been decided. -/
def isDecided (r : Nat) (s : Rehearsal) : Bool :=
  match s.engine.rounds[r]? with
  | some round =>
    match round.phase with
    | .running => false
    | _ => true
  | none => true

/-- Sees a round through as far as it can go now. -/
def runRound (r : Nat) (w : Waker) (s : Rehearsal) : Rehearsal :=
  match s.engine.rounds[r]? with
  | some round => pursueRound r w (2 * round.targets.length + 2) s
  | none => s

/-- Begins a round: its deadline is a timer too. -/
def beginRound (r : Nat) (w : Waker) (s : Rehearsal) : Rehearsal :=
  match s.engine.rounds[r]? with
  | some round => (s.setTimer round.deadline w).runRound r w
  | none => s

/-- Hands a request in with a fresh identifier and seed. -/
def submit (target : Target) (request : Request) (s : Rehearsal) : Rehearsal :=
  { s with drawn := s.drawn + 2 }.apply
    (.submit target request (s.identifiers s.drawn)
      (s.identifiers (s.drawn + 1)))

/-- The round that a submission waits for. -/
def roundOf? (submission : Nat) (s : Rehearsal) : Option Nat :=
  match s.engine.submissions[submission]? with
  | some sub =>
    match sub.phase with
    | .verifying r => some r
    | _ => none
  | none => none

/-- Looks at the collation of a submission, if it was accepted, and says whether
it is complete. -/
def lookAtSubmission (submission : Nat) (s : Rehearsal) : Rehearsal × Bool :=
  match s.engine.submissions[submission]? with
  | some ⟨_, _, id, _, _, .accepted h⟩ =>
    let s := (s.showId id).apply (.look h)
    (s, (s.engine.registry.collation? h).any Collation.isComplete)
  | _ => (s, false)

/-- After a submission was seen to: its task goes on with the round, or it looks
at the collation and is over, and somebody may have waited for that. -/
def afterSubmission (t submission : Nat) (s : Rehearsal) : Rehearsal :=
  match s.roundOf? submission with
  | some r => s.setWork t (.round submission r)
  | none =>
    let (s, complete) := s.lookAtSubmission submission
    (s.setWork t (.submitted submission complete)).wake .conductor

/-- Wakes the job that the permit which was just given back is for. -/
def passPermit (s : Rehearsal) : Rehearsal :=
  match s.engine.waiting[s.engine.freePermits - 1]?.bind (s.jobTasks[·]?) with
  | some t => s.wake (.task t)
  | none => s

/-- Looks at the call of a job and passes the permit on if it is over. -/
def finishJob (call : Nat) (s : Rehearsal) : Rehearsal :=
  if s.isDue call then (s.lookAt call).passPermit else s

def runJob (t j : Nat) (s : Rehearsal) : Rehearsal :=
  match s.engine.jobs[j]? with
  | none => s
  | some job =>
    match job.phase with
    | .waiting =>
      if 0 < s.engine.freePermits && s.engine.waiting.head? == some j then
        let call := s.engine.calls.length
        ((s.apply .startJob).noteCalls (.task t)).finishJob call
      else s
    | .calling call => s.finishJob call
    | .done _ => s

/-- Sweeps and sets the time of the next sweep. One that comes late skips those
that it has missed. -/
def runSweeper (t : Nat) (next : Option Instant) (s : Rehearsal) : Rehearsal :=
  if s.sweeper ≠ some t then s
  else
    let tick := next.getD s.now
    if s.now < tick then s
    else
      let period := s.engine.config.registry.sweepPeriod.nanos
      let following := Instant.timer s.now ⟨period - (s.now - tick) % period⟩
      ((s.apply .sweep).setWork t (.sweeper (some following))).setTimer
        following (.task t)

/-- Puts an answer into a collation. -/
def merge (handle : Handle) (answer : Answer) (s : Rehearsal) : Rehearsal :=
  s.enter (s.engine.merge handle answer)

def runMerging (t : Nat) (due : Instant) (handle : Handle) (answer : Answer)
    (s : Rehearsal) : Rehearsal :=
  if due ≤ s.now then (s.merge handle answer).setWork t .finished
  else (s.setWork t (.mergingAt due handle answer)).setTimer due (.task t)

/-- Runs a task until it has to wait. -/
def runTask (t : Nat) (s : Rehearsal) : Rehearsal :=
  match s.tasks[t]? with
  | some (.submission target request) =>
    let submission := s.engine.submissions.length
    let s := s.submit target request
    let s :=
      match s.roundOf? submission with
      | some r => s.beginRound r (.task t)
      | none => s
    s.afterSubmission t submission
  | some (.round submission r) =>
      (s.runRound r (.task t)).afterSubmission t submission
  | some (.job j) => s.runJob t j
  | some (.sweeper next) => s.runSweeper t next
  | some (.merging after handle answer) =>
    s.runMerging t (Instant.timer s.now after) handle answer
  | some (.mergingAt due handle answer) =>
    if due ≤ s.now then s.runMerging t due handle answer else s
  | some (.submitted ..) | some .finished | none => s

/-- Runs tasks until none is ready, or so many have run. -/
def drain : Nat → Rehearsal → Rehearsal
  | 0, s => s
  | turns + 1, s =>
    match s.ready with
    | [] => s
    | t :: rest => drain turns ({ s with ready := rest }.runTask t)

/-- More turns than any rehearsal that is worth watching takes. -/
def patience : Nat := Nat.pow 10 8

/-- Runs everything that can run without time passing. -/
def rest (s : Rehearsal) : Rehearsal :=
  s.drain patience

end Fanout.Rehearsal
