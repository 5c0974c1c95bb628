import Fanout.Decimal.Numeral
import Fanout.Fault
import Fanout.Node.Basic
import Fanout.Text.Blank
import Fanout.Text.Cut

/-!
# Reading a node

A node is written `id@host:port`, or `host:port` alone, in which case the
address is its own identifier. Hosts may hold colons, so the port follows the
last one; identifiers may not hold an at sign, so the address follows the first
one. Three things can be wrong, and they are looked for in this order: there is
no colon, the port is no number that fits sixteen bits, a part is empty.
-/

namespace Fanout.Node

def mostPort : Nat := Nat.pow 2 16 - 1

/-- Identifier and address of a trimmed text. -/
def identifierAndAddress (cs : List Char) : List Char × List Char :=
  match Text.cutFirst '@' cs with
  | some (id, address) => (Text.trimChars id, Text.trimChars address)
  | none => (cs, cs)

def refuse (what : String) (cs : List Char) : Except Fault α :=
  .error
    (.illegalArgument ("invalid node " ++ what ++ ": " ++ String.ofList cs))

/-- Reads a node from the characters of a text. -/
def read (cs : List Char) : Except Fault Node :=
  let cs := Text.trimChars cs
  let (id, address) := identifierAndAddress cs
  match Text.cutLast ':' address with
  | none => refuse "address" cs
  | some (host, port) =>
    match readNat? mostPort port with
    | none => refuse "port" cs
    | some port =>
      if id.isEmpty || host.isEmpty then refuse "identifier" cs
      else .ok ⟨String.ofList id, String.ofList host, UInt16.ofNat port⟩

/-- Reads a node from a text. -/
def ofText (text : String) : Except Fault Node :=
  read text.toList

/-- Reads nodes from a list at commas. Items that are blank are passed over, and
the first item that is no node is the fault. -/
def listOfText (text : String) : Except Fault (List Node) :=
  (((Text.pieces ',' text.toList).map Text.trimChars).filter fun item =>
    !item.isEmpty).mapM read

end Fanout.Node
