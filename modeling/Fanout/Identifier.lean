import Fanout.Text.Hex

/-!
# Identifiers

A request goes out under an identifier that nobody else has drawn. It is made of
random bytes and written in five groups of digits. Six of its bits are fixed:
they tell every reader that the others are random.
-/

namespace Fanout.Identifier

/-- A byte in two digits. -/
def byteText (b : UInt8) : List Char :=
  Text.lowerHex 2 b.toNat

/-- The bytes with the bits that are fixed. -/
def marked (bytes : List UInt8) : List UInt8 :=
  (bytes.modify 6 fun b => b &&& 0x0F ||| 0x40).modify 8 fun b =>
    b &&& 0x3F ||| 0x80

/-- How many bytes each group has. -/
def groupLengths : List Nat := [4, 2, 2, 2, 6]

def groups : List Nat → List UInt8 → List (List UInt8)
  | [], _ => []
  | n :: rest, bytes => bytes.take n :: groups rest (bytes.drop n)

/-- The identifier of sixteen random bytes. -/
def ofBytes (bytes : List UInt8) : String :=
  "-".intercalate ((groups groupLengths (marked bytes)).map fun group =>
    String.ofList (group.flatMap byteText))

end Fanout.Identifier
