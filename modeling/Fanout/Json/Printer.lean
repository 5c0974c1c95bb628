import Fanout.Json.Basic
import Fanout.Decimal.Layout
import Fanout.Text.Hex

/-!
# Entities as text

A value has one compact form: no blanks, members in their order, the shortest
digits for a binary number, and an escape only for a character that cannot
stand in a string as it is. The indented form, which the report is printed in,
differs from it by blanks alone.
-/

namespace Fanout

/-- A binary number keeps its point when it has no exponent, and an exponent is
written below `0.00001` and from `10^16` on, with its sign. -/
def Json.numberLayout : Binary64.Layout where
  tie := .toEven
  positional := fun lead => -5 ≤ lead && lead ≤ 15
  wholeMark := ".0"
  plusMark := "+"
  infinity := "null"
  nan := "null"

namespace Json

/-- A character as it stands in a string. -/
def escapeChar (c : Char) : List Char :=
  if c = '"' then ['\\', '"']
  else if c = '\\' then ['\\', '\\']
  else if c = '\n' then ['\\', 'n']
  else if c = '\r' then ['\\', 'r']
  else if c = '\t' then ['\\', 't']
  else if c.toNat = 8 then ['\\', 'b']
  else if c.toNat = 12 then ['\\', 'f']
  else if c.toNat < 32 then
    ['\\', 'u'] ++ Text.lowerHex 4 c.toNat
  else [c]

/-- A text between quotes. -/
def quote (s : String) : String :=
  "\"" ++ String.ofList (s.toList.flatMap escapeChar) ++ "\""

/-- A value without anything inside it. -/
def leafText : Json → String
  | .null => "null"
  | .bool b => if b then "true" else "false"
  | .int n => toString n
  | .real x => x.text numberLayout
  | .str s => quote s
  | .arr _ => "[]"
  | .obj _ => "\x7b\x7d"

mutual

/-- The compact form. -/
def compact : Json → String
  | .arr items => "[" ++ compactItems items ++ "]"
  | .obj members => "\x7b" ++ compactMembers members ++ "\x7d"
  | leaf => leafText leaf
termination_by structural j => j

def compactItems : List Json → String
  | [] => ""
  | [item] => compact item
  | item :: rest => compact item ++ "," ++ compactItems rest
termination_by structural items => items

def compactMembers : List (String × Json) → String
  | [] => ""
  | [(key, value)] => quote key ++ ":" ++ compact value
  | (key, value) :: rest =>
    quote key ++ ":" ++ compact value ++ "," ++ compactMembers rest
termination_by structural members => members

end

/-- A new line at an indentation of two blanks a level. -/
def newLine (level : Nat) : String :=
  "\n" ++ String.ofList (List.replicate (2 * level) ' ')

mutual

/-- The indented form of a value that stands at the given level. -/
def indented (level : Nat) : Json → String
  | .arr (item :: rest) =>
    "[" ++ newLine (level + 1) ++ indented (level + 1) item ++
      indentedItems (level + 1) rest ++ newLine level ++ "]"
  | .obj ((key, value) :: rest) =>
    "\x7b" ++ newLine (level + 1) ++ quote key ++ ": " ++
      indented (level + 1) value ++ indentedMembers (level + 1) rest ++
      newLine level ++ "\x7d"
  | leaf => leafText leaf
termination_by structural j => j

def indentedItems (level : Nat) : List Json → String
  | [] => ""
  | item :: rest =>
    "," ++ newLine level ++ indented level item ++ indentedItems level rest
termination_by structural items => items

def indentedMembers (level : Nat) : List (String × Json) → String
  | [] => ""
  | (key, value) :: rest =>
    "," ++ newLine level ++ quote key ++ ": " ++ indented level value ++
      indentedMembers level rest
termination_by structural members => members

end

end Json

end Fanout
