import Fanout.Ascending
import Fanout.Decimal.Binary64

/-!
# Entities

The entity of a request, a report and a node's own description are JSON values.
An integer within 64 bits stays an integer, and every other number is binary. An
object that is read has its members in ascending order of their keys, whatever
order they were written in, and a key that was written twice has its last value.
An object that the program itself describes something with has them in a fixed
order of its own, and a text shows them as they stand.
-/

namespace Fanout

/-- A JSON value. -/
inductive Json where
  | null
  | bool (b : Bool)
  | int (n : Int)
  | real (x : Binary64)
  | str (s : String)
  | arr (items : List Json)
  | obj (members : List (String × Json))
  deriving BEq, Inhabited, Repr

namespace Json

/-- An object from members in any order. -/
def ofMembers (members : List (String × Json)) : Json :=
  .obj (ascendingBy members)

/-- An object from a map of texts. -/
def ofTexts (entries : List (String × String)) : Json :=
  ofMembers (entries.map fun e => (e.1, .str e.2))

def ofNat (n : Nat) : Json := .int n

/-- The member of an object under a key. -/
def get? (key : String) : Json → Option Json
  | .obj members => valueAt? key members
  | _ => none

def str? : Json → Option String
  | .str s => some s
  | _ => none

def bool? : Json → Option Bool
  | .bool b => some b
  | _ => none

def int? : Json → Option Int
  | .int n => some n
  | _ => none

def nat? : Json → Option Nat
  | .int (.ofNat n) => some n
  | _ => none

def items? : Json → Option (List Json)
  | .arr items => some items
  | _ => none

def members? : Json → Option (List (String × Json))
  | .obj members => some members
  | _ => none

def isNull : Json → Bool
  | .null => true
  | _ => false

end Json

end Fanout
