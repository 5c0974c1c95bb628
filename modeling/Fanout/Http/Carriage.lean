import Fanout.Json.Printer
import Fanout.Outbound
import Fanout.Text.Utf8

/-!
# How an entity travels

The entity of a call goes into the query or into the body. Which of the two is
the method's to say. A query can only hold an object, as one pair of a name and
a value for each member, or several where the member is a list; a member that is
null leaves no pair. An entity that is meant for the query and is no object does
not travel at all.
-/

namespace Fanout.Http

/-- How the entity of a call travels. -/
inductive Carriage where
  | nothing
  | query (pairs : List (String × String))
  | body (entity : Json)

namespace Carriage

/-- A value of a pair: a string is itself, anything else its compact form. -/
def valueText : Json → String
  | .str s => s
  | j => j.compact

/-- The pairs of a member. -/
def memberPairs : String × Json → List (String × String)
  | (_, .null) => []
  | (name, .arr items) => items.map fun item => (name, valueText item)
  | (name, value) => [(name, valueText value)]

/-- The pairs of an object. -/
def pairs (members : List (String × Json)) : List (String × String) :=
  members.flatMap memberPairs

/-- How the entity of a call with this method travels. -/
def ofEntity (method : Method) (entity : Option Json) : Carriage :=
  match entity with
  | none => nothing
  | some entity =>
    if method.usesQuery then
      match entity with
      | .obj members => query (pairs members)
      | _ => nothing
    else body entity

/-- The pairs that go into the query. -/
def formPairs : Carriage → List (String × String)
  | query pairs => pairs
  | _ => []

/-- The bytes that go into the body. -/
def bodyBytes : Carriage → Option Text.Bytes
  | body entity => some (Text.utf8 entity.compact)
  | _ => none

end Carriage

end Fanout.Http
