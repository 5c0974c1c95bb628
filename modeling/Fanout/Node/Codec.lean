import Fanout.Json.Reader
import Fanout.Node.Reader

/-!
# Nodes as JSON

A node is an object with the members `id`, `apiHost` and `apiPort`. A reader
wants each of the three exactly once and passes over other members without
looking into them; a list of the three values in this order is read as well.
-/

namespace Fanout.Node

def toJson (n : Node) : Json :=
  .obj
    [("id", .str n.id), ("apiHost", .str n.host),
      ("apiPort", Json.ofNat n.port.toNat)]

/-- What has been read of a node so far. -/
structure Draft where
  id : Option String := none
  host : Option String := none
  port : Option UInt16 := none

def textOf? : Json.Written → Option String
  | .text pieces => Json.textOf? pieces
  | _ => none

def portOf? : Json.Written → Option UInt16
  | .number figures =>
    match figures.int? with
    | some (.ofNat n) => if n ≤ mostPort then some (UInt16.ofNat n) else none
    | _ => none
  | _ => none

/-- Takes one member in; a member that is known already is refused. -/
def Draft.member (d : Draft)
    (entry : List Json.Piece × Json.Written) : Option Draft := do
  let key ← Json.textOf? entry.1
  match key with
  | "id" =>
    guard d.id.isNone
    return { d with id := some (← textOf? entry.2) }
  | "apiHost" =>
    guard d.host.isNone
    return { d with host := some (← textOf? entry.2) }
  | "apiPort" =>
    guard d.port.isNone
    return { d with port := some (← portOf? entry.2) }
  | _ => return d

/-- A node from a value as it is written. -/
def ofWritten? : Json.Written → Option Node
  | .obj members => do
    let d ← members.foldlM Draft.member {}
    return ⟨← d.id, ← d.host, ← d.port⟩
  | .arr [id, host, port] => do
    return ⟨← textOf? id, ← textOf? host, ← portOf? port⟩
  | _ => none

/-- A node from JSON text. -/
def ofJsonText? (text : String) : Option Node := do
  ofWritten? (← Json.Written.read? text.toList)

end Fanout.Node
