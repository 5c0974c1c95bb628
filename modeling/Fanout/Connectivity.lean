import Fanout.Fault
import Fanout.Json.Reader
import Fanout.Text.Case

/-!
# Connectivity

The directory reports each node in one of four states. Only a connected node
takes part in a change; the other three differ in what a caller is told.
-/

namespace Fanout

/-- How a node is connected to the cluster. -/
inductive Connectivity where
  | connecting
  | connected
  | disconnecting
  | disconnected
  deriving DecidableEq, Repr

namespace Connectivity

def all : List Connectivity :=
  [connecting, connected, disconnecting, disconnected]

def name : Connectivity → String
  | connecting => "CONNECTING"
  | connected => "CONNECTED"
  | disconnecting => "DISCONNECTING"
  | disconnected => "DISCONNECTED"

/-- The state of exactly this name. -/
def ofName? (text : String) : Option Connectivity :=
  all.find? fun s => s.name == text

/-- The state of this name in any case. -/
def ofText (text : String) : Except Fault Connectivity :=
  match ofName? (Text.raised text) with
  | some s => .ok s
  | none =>
      .error (.illegalArgument ("unknown node connection state: " ++ text))

def toJson (s : Connectivity) : Json := .str s.name

/-- A state from JSON: its name as a string, or as the one key of an object that
holds null. -/
def ofJsonText? (text : String) : Option Connectivity := do
  match ← Json.Written.read? text.toList with
  | .text pieces => ofName? (← Json.textOf? pieces)
  | .obj [(key, .null)] => ofName? (← Json.textOf? key)
  | _ => none

end Connectivity

end Fanout
