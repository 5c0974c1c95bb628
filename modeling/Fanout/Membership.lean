import Fanout.Ascending
import Fanout.Notice

/-!
# Membership

The directory knows which nodes exist and how each of them is connected. Whoever
keeps it up to date does so by the operations below; the engine only reads it.
-/

namespace Fanout

/-- The nodes of the cluster with their states, in ascending order. -/
structure Membership where
  entries : List (Node × Connectivity) := []

namespace Membership

def state? (node : Node) (m : Membership) : Option Connectivity :=
  valueAt? node m.entries

/-- Adds a node, or sets its state anew. -/
def add (node : Node) (state : Connectivity) (m : Membership) : Membership :=
  ⟨putAscending node state m.entries⟩

/-- Sets the state of a node that is known. -/
def setState (node : Node) (state : Connectivity)
    (m : Membership) : Membership :=
  if (m.state? node).isSome then m.add node state else m

def remove (node : Node) (m : Membership) : Membership :=
  ⟨withoutKey node m.entries⟩

def size (m : Membership) : Nat := m.entries.length

/-- The connected nodes in ascending order. -/
def connected (m : Membership) : List Node :=
  (m.entries.filter fun e => e.2 == .connected).map (·.1)

/-- The first node in a state that a test accepts. -/
def first? (test : Connectivity → Bool) (m : Membership) : Option Node :=
  (m.entries.find? fun e => test e.2).map (·.1)

/-! ## What is told -/

def setStateNotices (node : Node) (state : Connectivity)
    (m : Membership) : Journal :=
  match m.state? node with
  | some previous =>
    if previous = state then [] else [.stateChanged node previous state]
  | none => []

/-- A directory of nodes, added one after the other. -/
def ofEntries (entries : List (Node × Connectivity)) : Membership :=
  entries.foldl (fun m e => m.add e.1 e.2) {}

def ofEntriesNotices (entries : List (Node × Connectivity)) : Journal :=
  entries.map fun e => .nodeAdded e.1 e.2

end Membership

end Fanout
