import Fanout.Text.Cut
import Fanout.Text.Hex
import Fanout.Text.Utf8

/-!
# Percent-encoding and forms

A byte that may not stand in a place is written as a percent sign and two
digits. What may stand there differs from place to place, so each encoder is
told. A character outside ASCII never may; it is written by its UTF-8 bytes.

A form is a list of names and values in a query. There almost nothing may stand
for itself, so that no character of a name or a value can be taken for one of
the marks between them.
-/

namespace Fanout.Http

open Text (Bytes)

/-- A byte as a percent sign and two digits. -/
def percent (b : UInt8) : List Char :=
  ['%', Text.hexDigit (b.toNat / 16), Text.hexDigit (b.toNat % 16)]

/-- The bytes of a character, each with a percent sign. -/
def percentChar (c : Char) : List Char :=
  (Text.utf8 (String.singleton c)).flatMap percent

/-- Encodes all characters but those that may stand for themselves. -/
def percentEncode (keeps : Char → Bool) (cs : List Char) : List Char :=
  cs.flatMap fun c => if keeps c then [c] else percentChar c

/-- The bytes that a text with percent signs stands for. A percent sign without
two digits is itself. -/
def percentDecode : List Char → Bytes
  | '%' :: a :: b :: rest =>
    match Text.hexValue? a, Text.hexValue? b with
    | some high, some low => UInt8.ofNat (16 * high + low) :: percentDecode rest
    | _, _ => Text.utf8 "%" ++ percentDecode (a :: b :: rest)
  | c :: rest => Text.utf8 (String.singleton c) ++ percentDecode rest
  | [] => []

/-! ## What may stand where -/

/-- The characters of ASCII that can be seen, and the space. -/
def isPrintable (c : Char) : Bool :=
  0x20 ≤ c.toNat && c.toNat < 0x7F

def keepsInFragment (c : Char) : Bool :=
  isPrintable c && !([' ', '"', '<', '>', '\x60'].contains c)

def keepsInPath (c : Char) : Bool :=
  keepsInFragment c && !(['#', '?', '\x7b', '\x7d'].contains c)

def keepsInQuery (special : Bool) (c : Char) : Bool :=
  isPrintable c && !([' ', '"', '#', '<', '>'].contains c) &&
    !(special && c == '\'')

def keepsInForm (c : Char) : Bool :=
  c.isAlphanum || c == '*' || c == '-' || c == '.' || c == '_'

/-! ## Forms -/

namespace Form

/-- A name or a value as it stands in a form, where a plus sign is a space. -/
def encodePart (s : String) : List Char :=
  s.toList.flatMap fun c =>
    if c = ' ' then ['+'] else if keepsInForm c then [c] else percentChar c

/-- A name and its value. -/
def encodePair (pair : String × String) : List Char :=
  encodePart pair.1 ++ '=' :: encodePart pair.2

/-- A form as a query. -/
def encode (pairs : List (String × String)) : List Char :=
  ['&'].intercalate (pairs.map encodePair)

/-- The name or the value that a part of a form stands for. -/
def decodePart (cs : List Char) : String :=
  Text.lossy (percentDecode (cs.map fun c => if c = '+' then ' ' else c))

/-- The pair that a piece of a form stands for; without an equals sign it is a
name with an empty value. -/
def decodePair (cs : List Char) : String × String :=
  match Text.cutFirst '=' cs with
  | some (name, value) => (decodePart name, decodePart value)
  | none => (decodePart cs, "")

/-- Reads a query as a form. Empty pieces are passed over. -/
def decode (query : List Char) : List (String × String) :=
  ((Text.pieces '&' query).filter fun piece => !piece.isEmpty).map decodePair

end Form

end Fanout.Http
