/-!
# Nodes

A node is known by its identifier and by the address of its interface. Nodes
are ordered by identifier, then host, then port; the order decides which of
several failed nodes a report names.
-/

namespace Fanout

/-- A member of the cluster. -/
structure Node where
  id : String
  host : String
  port : UInt16
  deriving DecidableEq, Repr, Inhabited

namespace Node

instance : Ord Node where
  compare a b :=
    (compare a.id b.id).then ((compare a.host b.host).then
      (compare a.port b.port))

/-- The address of the node's interface. -/
def address (n : Node) : String :=
  n.host ++ ":" ++ toString n.port.toNat

/-- A node as it is named in messages. -/
def display (n : Node) : String :=
  n.id ++ " (" ++ n.address ++ ")"

/-- The text from which a node is read. -/
def spec (n : Node) : String :=
  n.id ++ "@" ++ n.address

end Node

end Fanout
