import Fanout.CommandLine.Complaint
import Fanout.Ascending
import Fanout.Logging.Config
import Fanout.Logging.Filter
import Fanout.Notice
import Fanout.Settings.Environment

/-!
# The log

A program opens its log once, before it does anything that could be told. The
directory of the log is made first; it cannot be made where something that is no
directory is in the way, be it at the path itself or above it.

Console and file get the same entries. A file gets them under a name that tells
when it was begun, as precisely as files are begun.
-/

namespace Fanout

/-! ## Entries -/

/-- Something that can be written to a log. -/
structure LogEntry where
  origin : Origin
  level : Level
  text : String
  deriving DecidableEq, Repr

namespace Notice

/-- The part of the engine, or of the program around it, that tells a notice. -/
def target : Notice → String
  | nodeAdded .. | stateChanged .. => "replix_core::service::directory"
  | answerTooLate .. | answerNotAsked .. | answerMerged ..
  | collationTimedOut .. => "replix_core::service::response"
  | registered .. | evicted .. | purging .. | purged ..
  | registryStopped .. => "replix_core::service::registry"
  | verifying .. | roundTimedOut .. | refused .. | allAccepted .. =>
      "replix_core::service::verification"
  | callFailed .. | callTimedOut .. | dispatching .. =>
      "replix_core::service::dispatcher"
  | replicating .. | rejected .. | stopped | stoppedAlready =>
      "replix_core::service::replicator"
  | sending .. => "replix_core::service::node_client"
  | logOpened .. => "replix_cli::startup::logging"
  | configured .. | dispatched .. | answered .. => "replix"

/-- Where a notice comes from. One of them carries more than its text. -/
def origin (n : Notice) : Origin :=
  match n with
  | logOpened _ => { target := n.target, fields := ["message", "log_dir"] }
  | _ => { target := n.target }

/-- A notice as an entry of a log. -/
def entry (n : Notice) : LogEntry :=
  ⟨n.origin, n.level, n.text⟩

end Notice

/-! ## Files -/

/-- An hour of a day. -/
structure Hour where
  year : Nat
  month : Nat
  day : Nat
  hour : Nat
  deriving DecidableEq, Repr

namespace Hour

/-- The digits of a number, with zeros in front up to a width. -/
def padded (width n : Nat) : String :=
  let digits := toString n
  String.ofList (List.replicate (width - digits.length) '0') ++ digits

def dateText (h : Hour) : String :=
  padded 4 h.year ++ "-" ++ padded 2 h.month ++ "-" ++ padded 2 h.day

end Hour

namespace Rotation

/-- What the name of a file that was begun in some hour ends with. -/
def ending (h : Hour) : Rotation → String
  | daily => "." ++ h.dateText
  | hourly => "." ++ h.dateText ++ "-" ++ Hour.padded 2 h.hour
  | never => ""

end Rotation

/-! ## Directories -/

/-- The names along a path. -/
def pathNames (path : String) : List String :=
  (Text.split '/' path).filter fun name => name ≠ "" ∧ name ≠ "."

/-- Whether a path is another one or leads on from it. -/
def leadsOnFrom (path other : String) : Bool :=
  path.startsWith "/" == other.startsWith "/" &&
    (pathNames other).isPrefixOf (pathNames path)

/-- Whether something at one of the obstacles keeps a directory from being
made. -/
def isBlocked (obstacles : List String) (path : String) : Bool :=
  obstacles.any (leadsOnFrom path)

/-! ## Logs -/

/-- A log that is open. -/
structure Log where
  config : LogConfig
  filter : Filter
  deriving DecidableEq, Repr

namespace Log

/-- The variable with the filter of the log. -/
def filterName : String := "RUST_LOG"

/-- The filter of a log: the one that a variable gives, or else the level that
is configured. -/
def chooseFilter (environment : Environment) (config : LogConfig) : Filter :=
  ((valueAt? filterName environment).bind Filter.ofText?).getD
    (.ofLevel config.level)

/-- Opens the log of a process, which may have one already. -/
def start (held : Option Log) (obstacles : List String)
    (environment : Environment) (config : LogConfig) : Except Complaint Log :=
  match config.directory.filter (isBlocked obstacles) with
  | some path => .error (.logDirectory path)
  | none =>
    if held.isSome then .error .logging
    else .ok { config, filter := chooseFilter environment config }

/-- The entries that are written. -/
def written (entries : List LogEntry) (log : Log) : List LogEntry :=
  entries.filter fun e => log.filter.admits e.origin e.level

theorem mem_written {entry : LogEntry} {entries : List LogEntry} {log : Log} :
    entry ∈ log.written entries ↔
      entry ∈ entries ∧ log.filter.admits entry.origin entry.level = true :=
  List.mem_filter

def onConsole (entries : List LogEntry) (log : Log) : List LogEntry :=
  if log.config.console then log.written entries else []

/-- The path of the file that is begun in some hour. -/
def path? (h : Hour) (log : Log) : Option String :=
  log.config.directory.map fun directory =>
    let name := "replix.log" ++ log.config.rotation.ending h
    if directory.isEmpty || directory.endsWith "/" then directory ++ name
    else directory ++ "/" ++ name

def inFile (entries : List LogEntry) (log : Log) : List LogEntry :=
  if log.config.directory.isSome then log.written entries else []

end Log

end Fanout
