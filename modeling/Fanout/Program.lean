import Fanout.CommandLine.Scan
import Fanout.Program.Errand

/-!
# The program

A run of the program reads its command line, carries one request to the cluster,
looks at the report from time to time until it is complete, and prints it. It
succeeds only if the request did on every node.

Each thing that can go wrong has its place in the order of the steps, and the
first one ends the run.
-/

namespace Fanout

namespace World

/-- What is told before there is an engine. -/
def openingNotices (settings : Settings) (log : Log) : Journal :=
  (log.config.directory.map Notice.logOpened).toList ++
    match settings.clusterNodes with
    | .ok nodes => [.configured nodes.length]
    | .error _ => []

/-- Carries arguments out once the log is open. -/
def runLogged (settings : Settings) (log : Log) (a : Arguments)
    (world : World) : Ending :=
  let ending : Ending :=
    match Errand.ofArguments settings a with
    | .error complaint => .ofComplaint complaint
    | .ok errand => errand.carryOut world
  { ending with log := some log, opening := openingNotices settings log }

/-- Carries arguments out. -/
def runArguments (a : Arguments) (world : World) : Ending :=
  let log := do
    a.validate
    let settings ← a.settings world.files world.environment
    let log ← Log.start none world.obstacles world.environment
      settings.logConfig
    return (settings, log)
  match log with
  | .error complaint => .ofComplaint complaint
  | .ok (settings, log) => world.runLogged settings log a

/-- The paths of the files that a run asks for. -/
def wantedFiles (words : List String) (world : World) : List String :=
  let read := (Arguments.read words world.environment).toOption
  (read.bind Arguments.config).elim [] Files.candidates

/-- The directory that a run makes for its log. -/
def wantedDirectory? (words : List String) (world : World) : Option String := do
  let a ← (Arguments.read words world.environment).toOption
  let _ ← a.validate.toOption
  let settings ← (a.settings world.files world.environment).toOption
  settings.logConfig.directory

/-- A run of the program. -/
def run (words : List String) (world : World) : Ending :=
  match Arguments.read words world.environment with
  | .error refusal => .ofRefusal refusal
  | .ok a => world.runArguments a

end World

end Fanout
