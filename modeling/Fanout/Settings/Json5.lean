import Fanout.Decimal.Numeral
import Fanout.Settings.Basic
import Fanout.Text.Blank
import Fanout.Text.Hex

/-!
# JSON5 files

A wider form of JSON for files that people write: comments, names without
quotes, strings in single quotes, a comma after the last item, and numbers with
a plus sign, in hexadecimal or with a bare point.

Values nest, so their reader carries fuel; every value takes at least one
character, and the length of the text is therefore enough.
-/

namespace Fanout.Json5

/-! ## Blanks -/

def isLineEnd (c : Char) : Bool :=
  c = '\n' || c = '\r' || c = '\u2028' || c = '\u2029'

def isSpace (c : Char) : Bool :=
  Text.isBlank c && c ≠ '\u0085' || c = '\ufeff'

/-- What follows a comment between stars. -/
def skipStars : List Char → Option (List Char)
  | '*' :: '/' :: rest => some rest
  | _ :: rest => skipStars rest
  | [] => none

/-- Passes over blanks and comments. -/
def skipVoid : Nat → List Char → List Char
  | 0, cs => cs
  | fuel + 1, cs =>
    match cs with
    | '/' :: '/' :: rest => skipVoid fuel (rest.dropWhile fun c => !isLineEnd c)
    | '/' :: '*' :: rest =>
      match skipStars rest with
      | some rest => skipVoid fuel rest
      | none => cs
    | c :: rest => if isSpace c then skipVoid fuel rest else cs
    | [] => []

def skip (cs : List Char) : List Char := skipVoid (cs.length + 1) cs

/-! ## Strings and names -/

/-- The characters of an escape, after its backslash; an escaped end of a line
is nothing. -/
def readEscape : List Char → Option (List Char × List Char)
  | [] => none
  | 'b' :: rest => some (['\x08'], rest)
  | 'f' :: rest => some (['\x0c'], rest)
  | 'n' :: rest => some (['\n'], rest)
  | 'r' :: rest => some (['\r'], rest)
  | 't' :: rest => some (['\t'], rest)
  | 'v' :: rest => some (['\x0b'], rest)
  | '0' :: rest =>
    if rest.head?.any Char.isDigit then none else some (['\x00'], rest)
  | 'x' :: rest => (Text.readScalar? 2 rest).map fun (c, rest) => ([c], rest)
  | 'u' :: rest => (Text.readScalar? 4 rest).map fun (c, rest) => ([c], rest)
  | '\r' :: '\n' :: rest => some ([], rest)
  | c :: rest =>
    if isLineEnd c then some ([], rest)
    else if c.isDigit then none
    else some ([c], rest)

/-- The inside of a string, up to its closing quote. -/
def readString (quote : Char) : Nat → List Char → Option (List Char × List Char)
  | 0, _ => none
  | _, [] => none
  | fuel + 1, c :: rest =>
    if c = quote then some ([], rest)
    else if c = '\n' || c = '\r' then none
    else do
      let (first, rest) ← if c = '\\' then readEscape rest else some ([c], rest)
      let (others, rest) ← readString quote fuel rest
      return (first ++ others, rest)

def isNameChar (c : Char) : Bool :=
  c.isAlphanum || c = '$' || c = '_' || 0x80 ≤ c.toNat && !isSpace c

/-- The name of a member. -/
def readName (cs : List Char) : Option (String × List Char) :=
  match cs with
  | [] => none
  | c :: rest =>
    if c = '"' || c = '\'' then
      (readString c (rest.length + 1) rest).map fun (s, rest) =>
        (String.ofList s, rest)
    else if c.isDigit then none
    else
      let (name, rest) := cs.span isNameChar
      if name.isEmpty then none else some (String.ofList name, rest)

/-! ## Numbers and words -/

/-- An integer. In hexadecimal it has no sign and at most 32 bits. -/
def integer? (cs : List Char) : Option Int :=
  match cs with
  | '0' :: x :: digits =>
    if x = 'x' || x = 'X' then
      ((Text.readBase? 16 digits).filter (· < Nat.pow 2 32)).map Int.ofNat
    else none
  | cs => readInt? cs

/-- A number that is no integer. -/
def real? (cs : List Char) : Option Binary64 :=
  let (negative, digits) :=
    match cs with
    | '-' :: rest => (true, rest)
    | '+' :: rest => (false, rest)
    | cs => (false, cs)
  if digits = "Infinity".toList then some (.infinity negative)
  else if digits = "NaN".toList then some .nan
  else if digits.head?.any fun c => c.isDigit || c = '.' then readBinary64? cs
  else none

/-- Whether a zero stands in front of other digits. -/
def isPadded (cs : List Char) : Bool :=
  match cs.dropWhile fun c => c = '+' || c = '-' with
  | '0' :: c :: _ => c.isDigit
  | _ => false

/-- A word that is a value. -/
def word? (cs : List Char) : Option Setting :=
  match String.ofList cs with
  | "null" => some .nil
  | "true" => some (.bool true)
  | "false" => some (.bool false)
  | _ =>
    if isPadded cs then none
    else ((integer? cs).map Setting.int) <|> ((real? cs).map Setting.real)

def isWordChar (c : Char) : Bool :=
  c.isAlphanum || c = '+' || c = '-' || c = '.'

/-! ## Values -/

mutual

/-- A value. -/
def readValue : Nat → List Char → Option (Setting × List Char)
  | 0, _ => none
  | fuel + 1, cs =>
    match cs with
    | [] => none
    | '[' :: rest =>
      match skip rest with
      | ']' :: rest => some (.list, rest)
      | rest => readItems fuel rest
    | '\x7b' :: rest =>
      match skip rest with
      | '\x7d' :: rest => some (.table [], rest)
      | rest => readMembers fuel rest []
    | c :: rest =>
      if c = '"' || c = '\'' then
        (readString c (rest.length + 1) rest).map fun (s, rest) =>
          (.text (String.ofList s), rest)
      else
        let (word, rest) := cs.span isWordChar
        (word? word).map (·, rest)

/-- The items of a list, up to its closing bracket. -/
def readItems : Nat → List Char → Option (Setting × List Char)
  | 0, _ => none
  | fuel + 1, cs => do
    let (_, rest) ← readValue fuel cs
    match skip rest with
    | ']' :: rest => some (.list, rest)
    | ',' :: rest =>
      match skip rest with
      | ']' :: rest => some (.list, rest)
      | rest => readItems fuel rest
    | _ => none

/-- The members of a table, up to its closing brace. -/
def readMembers : Nat → List Char → Settings → Option (Setting × List Char)
  | 0, _, _ => none
  | fuel + 1, cs, held => do
    let (name, rest) ← readName cs
    match skip rest with
    | ':' :: rest =>
      let (value, rest) ← readValue fuel (skip rest)
      let held := putAscending name value held
      match skip rest with
      | '\x7d' :: rest => some (.table held, rest)
      | ',' :: rest =>
        match skip rest with
        | '\x7d' :: rest => some (.table held, rest)
        | rest => readMembers fuel rest held
      | _ => none
    | _ => none

end

end Fanout.Json5

namespace Fanout.Settings

/-- The settings of a JSON5 file. -/
def ofJson5Text? (text : String) : Option Settings :=
  match Json5.readValue (2 * text.length + 2) (Json5.skip text.toList) with
  | some (.table members, rest) => if (Json5.skip rest).isEmpty then
      some members else none
  | _ => none

end Fanout.Settings
