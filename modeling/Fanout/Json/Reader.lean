import Fanout.Json.Basic
import Fanout.Json.Written
import Fanout.Decimal.Stepwise

/-!
# Reading entities

A written value becomes an entity when its strings name characters, its numbers
fit their types and its brackets are not nested too deeply. An integer that no
64-bit word holds is read as a binary number; so is `-0`, since the integers
have only one zero.
-/

namespace Fanout.Json

/-- Brackets may be open inside one another this many times. -/
def mostNested : Nat := 127

/-- The integer a numeral stands for, if it has neither point nor exponent and a
64-bit word holds it. -/
def Figures.int? (f : Figures) : Option Int :=
  match f.fraction, f.exponent with
  | none, none =>
    let n := digitsValue f.whole
    if f.negative then
      if 0 < n ∧ n ≤ Nat.pow 2 63 then some (-(n : Int)) else none
    else if n ≤ mostNatural then some n
    else none
  | _, _ => none

/-- The binary number a numeral stands for, unless it is beyond the format. -/
def Figures.real? (f : Figures) : Option Binary64 :=
  (readStepwise? f.whole (f.fraction.getD []) (f.exponent.getD 0)).map fun x =>
    Binary64.ofMagnitude f.negative x.magnitude

def Figures.toJson? (f : Figures) : Option Json :=
  match f.int? with
  | some n => some (.int n)
  | none => f.real?.map .real

mutual

/-- The entity of a written value, with room for so many open brackets. -/
def Written.toJson? (room : Nat) : Written → Option Json
  | .null => some .null
  | .bool b => some (.bool b)
  | .number figures => figures.toJson?
  | .text pieces => (textOf? pieces).map .str
  | .arr items =>
    if room = 0 then none else (Written.itemsToJson? (room - 1) items).map .arr
  | .obj members =>
    if room = 0 then none
    else (Written.membersToJson? (room - 1) members).map ofMembers
termination_by structural w => w

def Written.itemsToJson? (room : Nat) : List Written → Option (List Json)
  | [] => some []
  | item :: rest => do
    let item ← Written.toJson? room item
    let rest ← Written.itemsToJson? room rest
    return item :: rest
termination_by structural items => items

def Written.membersToJson? (room : Nat) :
    List (List Piece × Written) → Option (List (String × Json))
  | [] => some []
  | (key, value) :: rest => do
    let key ← textOf? key
    let value ← Written.toJson? room value
    let rest ← Written.membersToJson? room rest
    return (key, value) :: rest
termination_by structural members => members

end

/-- The entity that a text holds. -/
def ofText? (text : String) : Option Json := do
  Written.toJson? mostNested (← Written.read? text.toList)

end Fanout.Json
