import Fanout.Rehearsal.Network
import Fanout.Settings.Environment
import Fanout.Settings.File
import Fanout.Rehearsal.Basic

/-!
# The world around the program

What a run does is a function of the world around it: the files and variables it
may ask for, the identifiers it draws, and what is known of the network. Nothing
else decides, so two runs in one world are one run.
-/

namespace Fanout

/-- The world around a run. -/
structure World where
  files : Files := []
  environment : Environment := []
  /-- Paths at which there is something that is no directory. -/
  obstacles : List String := []
  identifiers : Nat → String := Rehearsal.identifier
  network : Network

end Fanout
