import Fanout.Logging.Level
import Fanout.Text.Case

/-!
# Configuration of the log

Notices can go to the console and into a file. A file is given by its directory;
its name and how often a new one is begun follow from the rotation.
-/

namespace Fanout

/-- How often a new log file is begun. -/
inductive Rotation where
  | daily
  | hourly
  | never
  deriving DecidableEq, Repr

namespace Rotation

def name : Rotation → String
  | daily => "Daily"
  | hourly => "Hourly"
  | never => "Never"

/-- A rotation from its name in any case; any other word means daily. -/
def ofText (text : String) : Rotation :=
  let word := Text.lowered text
  if word = "hourly" then hourly
  else if word = "never" then never
  else daily

end Rotation

/-- Where notices go, and which. -/
structure LogConfig where
  directory : Option String := none
  console : Bool := true
  level : Level := .info
  rotation : Rotation := .daily
  deriving DecidableEq, Repr

end Fanout
