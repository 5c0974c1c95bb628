import Fanout.CommandLine.Invocation
import Fanout.Configuration
import Fanout.Program.Ending
import Fanout.Program.World
import Fanout.Rehearsal.Conductor

/-!
# Errands

An errand is what a command line comes to under some settings: a request, where
it goes, and how long to pause between two looks at its report. Carrying it out
hands the request in and looks at the report until it is complete.
-/

namespace Fanout

/-- What a run is to carry out. -/
structure Errand where
  settings : Settings
  nodes : List Node
  target : Target
  request : Request
  /-- The pause between two looks at the report. -/
  pause : Span

namespace Errand

/-- The most permits that a pool can have. -/
def mostPermits : Nat := (Nat.pow 2 64 - 1) / 8

/-- What arguments come to under the settings. -/
def ofArguments (settings : Settings) (a : Arguments) :
    Except Complaint Errand := do
  let nodes ← settings.clusterNodes.mapError Complaint.nodeList
  let target ← a.target nodes
  let request ← a.request
  return { settings, nodes, target, request, pause := Span.ofMillis a.pause }

/-- The members of the cluster: all nodes are connected. -/
def members (e : Errand) : List (Node × Connectivity) :=
  e.nodes.map (·, .connected)

/-- The engine before the request is handed in. -/
def rehearsal (world : World) (e : Errand) : Rehearsal :=
  let engine :=
    Engine.start e.settings.engineConfig (Membership.ofEntries e.members)
  { engine := engine.tell (Membership.ofEntriesNotices e.members)
    script := .ofNetwork e.settings.clientConfig world.network
    identifiers := world.identifiers }

/-- Looks at the report until it is complete, with a pause after each look. A
run that only guesses how it goes on need not go on. -/
def awaitReport (id : String) (pause : Span) :
    Nat → Rehearsal → Rehearsal × Finding
  | 0, s => (s, .gone)
  | looks + 1, s =>
    let (engine, finding) := s.engine.find id
    let s := s.enter engine
    match finding with
    | .incomplete report =>
      if s.plans.any Behaviour.isGuess then (s, finding)
      else
        let expected := report.answers.length + report.pending.length
        let engine :=
          s.engine.tell [.answered id report.answers.length expected]
        awaitReport id pause looks (({ s with engine } : Rehearsal).sleep pause)
    | finding => (s, finding)

/-- As many looks as there can be until the report is complete: by its deadline
it is, and the clock moves between two looks. -/
def mostLooks (now : Instant) (e : Errand) : Nat :=
  Instant.deadline now e.settings.engineConfig.responseTimeout - now + 2

/-- Waits for the report of a request that was accepted. -/
def conclude (submission : Nat) (s : Rehearsal) (e : Errand) : Ending :=
  match s.engine.submissions[submission]? with
  | some sub =>
    match sub.phase with
    | .rejected fault =>
        { Ending.ofComplaint (.fault fault) with rehearsal := some s }
    | .accepted _ =>
      let s := { s with engine := s.engine.tell [.dispatched sub.id] }
      let awaited := awaitReport sub.id e.pause (e.mostLooks s.now) s
      { Ending.ofFinding sub.id awaited.2 with
        rehearsal := some awaited.1.shutDown }
    | .verifying _ => .crashed
  | none => .crashed

/-- Hands the request in and waits for its report. -/
def carryOut (world : World) (e : Errand) : Ending :=
  if mostPermits < e.settings.engineConfig.permits then .crashed
  else
    let (s, submitted) := (e.rehearsal world).replicate e.target e.request
    e.conclude submitted.submission s

end Errand

end Fanout
