import Fanout.CommandLine.Complaint
import Fanout.CommandLine.Flag
import Fanout.Json.Printer
import Fanout.Logging.Log
import Fanout.Rehearsal.Basic

/-!
# How a run ends

A run ends with a status, with what it prints, and perhaps with a complaint. The
status is zero only for a run that printed what it was asked for: a text about
itself, or the report of a request that succeeded on every node.
-/

namespace Fanout

/-! ## Looking at the report -/

/-- What somebody who asks for a report finds. -/
inductive Finding where
  | gone
  | incomplete (report : Report)
  | complete (report : Report)
  deriving DecidableEq, Repr

/-- Asks for the collation of a request and looks whether it is complete. -/
def Engine.find (id : String) (e : Engine) : Engine × Finding :=
  let (e, handle) := e.lookUp id
  match handle with
  | none => (e, .gone)
  | some h =>
    let e := e.settle h
    match e.report? h with
    | none => (e, .gone)
    | some report =>
        (e, if report.complete then .complete report else .incomplete report)

/-! ## Endings -/

/-- What is left of a run. -/
structure Ending where
  exitCode : Nat := 0
  output : String := ""
  refusal : Option Refusal := none
  complaint : Option Complaint := none
  /-- The log, if it was opened. -/
  log : Option Log := none
  /-- What was told before there was an engine. -/
  opening : Journal := []
  /-- The engine and what was around it, if there was one. -/
  rehearsal : Option Rehearsal := none

namespace Ending

/-- The name of the program and its version. -/
def versionText : String := "replix 0.1.0\n"

/-- How the program is called. -/
def usageText : String := "Usage: replix [OPTIONS] <URI>\n"

/-- A flag in the text that explains the command line. -/
def flagText (f : Flag) : Option String :=
  f.long?.map fun long =>
    let short := (f.short?.map fun c => "-" ++ c.toString ++ ", ").getD "    "
    "  " ++ short ++ "--" ++ long ++
      (if f.takesValue then " <VALUE>" else "") ++ "\n"

/-- The text that explains the command line. -/
def helpText : String :=
  "Command line client that replicates one request across a node cluster\n\n" ++
    usageText ++ "\nOptions:\n" ++ String.join (Flag.all.filterMap flagText)

/-- The end of a run whose command line is not carried out. -/
def ofRefusal (refusal : Refusal) : Ending where
  exitCode := refusal.exitCode
  refusal := some refusal
  output :=
    match refusal with
    | .displayHelp => helpText
    | .displayVersion => versionText
    | _ => ""

/-- The end of a run that is given up. -/
def ofComplaint (complaint : Complaint) : Ending where
  exitCode := 1
  complaint := some complaint

/-- The status of a run that breaks down. -/
def crashed : Ending where
  exitCode := 101

/-- The end of a run that found its request answered, or gone. -/
def ofFinding (id : String) : Finding → Ending
  | .complete report =>
    { exitCode := if report.isSuccess then 0 else 1
      output := report.toJson.indented 0 ++ "\n"
      complaint := if report.isSuccess then none else some (.unsuccessful id) }
  | _ => .ofComplaint (.unavailable id)

/-- What a run says last where errors go. -/
def errorText (e : Ending) : String :=
  match e.refusal.bind Refusal.message?, e.complaint with
  | some message, _ => "error: " ++ message ++ "\n\n" ++ usageText
  | none, some c => c.text
  | none, none => ""

/-- All that was told while the run went on. -/
def entries (e : Ending) : List LogEntry :=
  (e.opening ++ (e.rehearsal.map fun s => s.engine.journal).getD []).map
    Notice.entry

theorem entry_mem_entries {e : Ending} {s : Rehearsal} {n : Notice}
    (h : e.rehearsal = some s) (hn : n ∈ s.engine.journal) :
    n.entry ∈ e.entries := by
  refine List.mem_map_of_mem (List.mem_append_right _ ?_)
  rw [h]
  exact hn

/-- What came, or is guessed to have come, of each call. -/
def plans (e : Ending) : List Behaviour :=
  (e.rehearsal.map Rehearsal.plans).getD []

/-- The requests that were sent. -/
def sent (e : Ending) : List Http.HttpRequest :=
  e.plans.filterMap Behaviour.sent

end Ending

end Fanout
