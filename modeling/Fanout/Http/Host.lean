import Fanout.Http.Percent
import Fanout.Decimal.Numeral

/-!
# Hosts

The host of an address is a name, or an address of the fourth or the sixth
version of the protocol. A name whose last part looks like a number is taken
for an address of the fourth version, and is then no host unless it is one. In
a name percent signs are resolved, letters become small, and no character may
be left that has a meaning in an address.
-/

namespace Fanout.Http.Host

/-- The characters that no name of a host holds. -/
def isForbidden (c : Char) : Bool :=
  c.toNat ≤ 0x20 || c.toNat == 0x7F || "#/:<>?@[\\]^|%".toList.contains c

/-! ## The fourth version -/

/-- A number in decimal, in octal after a zero, or in base sixteen after
`0x`. -/
def number? (cs : List Char) : Option Nat :=
  match cs with
  | ['0', 'x'] | ['0', 'X'] => some 0
  | '0' :: 'x' :: rest | '0' :: 'X' :: rest => Text.readBase? 16 rest
  | '0' :: c :: rest => Text.readBase? 8 (c :: rest)
  | cs => Text.readBase? 10 cs

/-- The parts of a name between its points, without an empty one at the end. -/
def labels (cs : List Char) : List (List Char) :=
  let parts := Text.pieces '.' cs
  if 1 < parts.length ∧ parts.getLast? = some [] then parts.dropLast else parts

/-- Whether a name is meant for an address of the fourth version. -/
def endsInNumber (cs : List Char) : Bool :=
  match (labels cs).getLast? with
  | some last =>
    !last.isEmpty && (last.all Char.isDigit ||
      (["0x".toList, "0X".toList].contains (last.take 2) &&
        (number? last).isSome))
  | none => false

/-- The value of parts: each but the last is one byte, and the last fills up
what is left of the four. -/
def valueV4? (numbers : List Nat) : Option Nat :=
  let last := numbers.getLast?.getD 0
  let others := numbers.dropLast
  if numbers.isEmpty || 4 < numbers.length || others.any (255 < ·) ||
      Nat.pow 256 (5 - numbers.length) ≤ last then none
  else
    some ((others.foldl (fun n byte => 256 * n + byte) 0) *
      Nat.pow 256 (4 - others.length) + last)

/-- An address of the fourth version in its usual form. -/
def textV4 (n : Nat) : String :=
  ".".intercalate ([24, 16, 8, 0].map fun s => toString (n / Nat.pow 2 s % 256))

def readV4? (cs : List Char) : Option String :=
  (((labels cs).mapM number?).bind valueV4?).map textV4

/-! ## The sixth version -/

/-- A piece of an address of the sixth version. -/
def isPieceV6 (cs : List Char) : Bool :=
  cs.length ≤ 4 && (Text.readBase? 16 cs).isSome

/-- The number of pieces, if all are well formed; the last two may be written as
an address of the fourth version. -/
def piecesV6? (allowV4 : Bool) (cs : List Char) : Option Nat :=
  if cs.isEmpty then some 0
  else
    let parts := Text.pieces ':' cs
    let plain := fun parts : List (List Char) =>
      if parts.all isPieceV6 then some parts.length else none
    match parts.getLast? with
    | some last =>
      if allowV4 && last.contains '.' then
        let bytes := (Text.pieces '.' last).mapM (readNat? 255)
        if (bytes.map List.length) = some 4 then
          (plain parts.dropLast).map (· + 2)
        else none
      else plain parts
    | none => none

/-- The place of the first double colon. -/
def cutDouble : List Char → Option (List Char × List Char)
  | ':' :: ':' :: rest => some ([], rest)
  | c :: rest => (cutDouble rest).map fun parts => (c :: parts.1, parts.2)
  | [] => none

/-- Whether a text is an address of the sixth version: eight pieces, or fewer
with one gap between them. -/
def isV6 (cs : List Char) : Bool :=
  match cutDouble cs with
  | none => piecesV6? true cs == some 8
  | some (before, after) =>
    match piecesV6? false before, piecesV6? true after with
    | some m, some n => m + n ≤ 7
    | _, _ => false

/-! ## Reading a host -/

/-- The host that characters stand for. Bytes that are no text name none. -/
def read? (cs : List Char) : Option String :=
  match cs with
  | '[' :: rest =>
    if rest.getLast? = some ']' && isV6 rest.dropLast then
      some (String.ofList (cs.map Char.toLower))
    else none
  | cs =>
    let name := (Text.lossy (percentDecode cs)).toList.map Char.toLower
    if name.isEmpty || name.any isForbidden || name.contains '\ufffd' then none
    else if endsInNumber name then readV4? name
    else some (String.ofList name)

/-- The host of an address whose scheme knows nothing about hosts. -/
def readOpaque? (cs : List Char) : Option String :=
  match cs with
  | '[' :: _ => read? cs
  | cs =>
    if cs.any fun c => isForbidden c && c != '%' && 0x20 ≤ c.toNat then none
    else some (String.ofList (percentEncode isPrintable cs))

end Fanout.Http.Host
