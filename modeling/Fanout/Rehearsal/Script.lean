import Fanout.Engine.Step
import Fanout.Http.Message

/-!
# Scripts

A script says what comes of each call of a rehearsal, and after what time. It is
asked when the call is opened, and it may go by the place of the call among all
calls and by everything that is known of the call then.

Most scripts speak of named nodes. Such a node treats all probes alike and all
deliveries alike, and a node that is not named accepts every probe and answers
every delivery at once.
-/

namespace Fanout

/-- What comes of a call. -/
structure Behaviour where
  delay : Span := .zero
  result : CallResult
  /-- The request that is sent for the call, if there is one on the wire. -/
  sent : Option Http.HttpRequest := none
  /-- What is told when the call is made. -/
  notices : Journal := []
  /-- Whether this only stands in for what is still to be found out. -/
  isGuess : Bool := false

/-- What comes of each call, by its place among all calls. -/
abbrev Script := Nat → Call → Behaviour

/-- What a scripted node does. -/
structure NodeScript where
  probe : Behaviour := { result := .ok { status := Answer.acceptedStatus } }
  deliver : Behaviour := { result := .ok { status := 200 } }

/-- What a scripted node does with a call. -/
def NodeScript.behaviour (c : Call) (n : NodeScript) : Behaviour :=
  if c.isProbe then n.probe else n.deliver

namespace Script

/-- The script of named nodes. -/
def ofNodes (nodes : List (String × NodeScript)) : Script :=
  fun _ c => ((valueAt? c.node.id nodes).getD {}).behaviour c

/-- A script with another part for one node. -/
def setNode (id : String) (node : NodeScript) (script : Script) : Script :=
  fun place c => if c.node.id = id then node.behaviour c else script place c

end Script

end Fanout
