/-!
# Bytes as text

A node may answer with any bytes, and a report shows them as text. The reading
is lossy and total: every well-formed UTF-8 sequence gives its character, and
every maximal piece of an ill-formed one gives a single replacement character.
A piece is maximal when it is the longest start of some well-formed sequence;
a byte that starts none is a piece of its own.

The second byte is where UTF-8 keeps its exceptions (overlong forms,
surrogates, the end of the code space), so each lead byte carries the range
its second byte must lie in. All later bytes are plain continuations.
-/

namespace Fanout.Text

/-- Bytes as they travel, in order. -/
abbrev Bytes := List UInt8

/-- The bytes of a text. -/
def utf8 (s : String) : Bytes :=
  s.toUTF8.toList

/-- What a lead byte announces: the bits it carries, the range of the byte after
it, and how many plain continuation bytes follow that one. -/
structure Lead where
  bits : Nat
  least : UInt8
  most : UInt8
  more : Nat

/-- The announcement of a lead byte outside ASCII, if it is one. -/
def lead? (b : UInt8) : Option Lead :=
  if 0xC2 ≤ b ∧ b ≤ 0xDF then some ⟨b.toNat - 0xC0, 0x80, 0xBF, 0⟩
  else if b = 0xE0 then some ⟨0, 0xA0, 0xBF, 1⟩
  else if b = 0xED then some ⟨13, 0x80, 0x9F, 1⟩
  else if 0xE1 ≤ b ∧ b ≤ 0xEF then some ⟨b.toNat - 0xE0, 0x80, 0xBF, 1⟩
  else if b = 0xF0 then some ⟨0, 0x90, 0xBF, 2⟩
  else if 0xF1 ≤ b ∧ b ≤ 0xF3 then some ⟨b.toNat - 0xF0, 0x80, 0xBF, 2⟩
  else if b = 0xF4 then some ⟨4, 0x80, 0x8F, 2⟩
  else none

/-- The character that stands for an ill-formed piece. -/
def replacement : Char := '\ufffd'

/-- Where the reader is: between characters, or inside one, with the bits so far
and what it still expects. -/
inductive Utf8State where
  | ground
  | within (bits : Nat) (least most : UInt8) (more : Nat)

/-- Reads one byte between characters. -/
def startByte (b : UInt8) : Utf8State × List Char :=
  if b < 0x80 then (.ground, [Char.ofNat b.toNat])
  else
    match lead? b with
    | some l => (.within l.bits l.least l.most l.more, [])
    | none => (.ground, [replacement])

/-- Reads one byte, giving the characters that are now settled. A byte that does
not fit closes the piece so far and is read again from the start. -/
def readByte : Utf8State → UInt8 → Utf8State × List Char
  | .ground, b => startByte b
  | .within bits least most more, b =>
    if least ≤ b ∧ b ≤ most then
      let bits := bits * 64 + (b.toNat - 0x80)
      match more with
      | 0 => (.ground, [Char.ofNat bits])
      | n + 1 => (.within bits 0x80 0xBF n, [])
    else
      let (state, chars) := startByte b
      (state, replacement :: chars)

/-- The characters of bytes read from a given state to their end. -/
def lossyFrom : Utf8State → Bytes → List Char
  | .ground, [] => []
  | .within .., [] => [replacement]
  | state, b :: rest =>
    let (state, chars) := readByte state b
    chars ++ lossyFrom state rest

/-- Bytes as text, one replacement character for each ill-formed piece. -/
def lossy (bytes : Bytes) : String :=
  String.ofList (lossyFrom .ground bytes)

end Fanout.Text
