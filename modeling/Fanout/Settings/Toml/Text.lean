import Fanout.Text.Hex

/-!
# Blanks, keys and strings of TOML

The pieces of a TOML document below its values. Every reader here takes the
characters that are left and gives back what it read with the characters after
it, or nothing if it could not read.

Strings come in four forms: with escapes between double quotes or without them
between single quotes, and either of them over several lines between tripled
quotes. In the last form up to two quotes may stand right before the closing
three, which is why a run of quotes is looked at as a whole.
-/

namespace Fanout.Toml

def isGap (c : Char) : Bool := c == ' ' || c == '\t'

/-- The characters that may stand in a comment or a string as they are. -/
def isPlain (c : Char) : Bool :=
  c == '\t' || (0x20 ≤ c.toNat && c.toNat != 0x7F)

def skipGaps (cs : List Char) : List Char := cs.dropWhile isGap

/-- What follows the end of a line. -/
def lineEnd? : List Char → Option (List Char)
  | '\n' :: rest => some rest
  | '\r' :: '\n' :: rest => some rest
  | _ => none

/-- Passes over gaps and a comment. -/
def skipComment (cs : List Char) : List Char :=
  match skipGaps cs with
  | '#' :: rest => rest.dropWhile isPlain
  | cs => cs

/-- Passes over gaps, comments and ends of lines. -/
def skipVoid : Nat → List Char → List Char
  | 0, cs => cs
  | fuel + 1, cs =>
    let cs := skipComment cs
    match lineEnd? cs with
    | some rest => skipVoid fuel rest
    | none => cs

/-! ## Strings -/

/-- The character of an escape, after its backslash. -/
def readEscape : List Char → Option (Char × List Char)
  | 'b' :: rest => some ('\x08', rest)
  | 't' :: rest => some ('\t', rest)
  | 'n' :: rest => some ('\n', rest)
  | 'f' :: rest => some ('\x0c', rest)
  | 'r' :: rest => some ('\r', rest)
  | 'e' :: rest => some ('\x1b', rest)
  | '"' :: rest => some ('"', rest)
  | '\\' :: rest => some ('\\', rest)
  | 'x' :: rest => Text.readScalar? 2 rest
  | 'u' :: rest => Text.readScalar? 4 rest
  | 'U' :: rest => Text.readScalar? 8 rest
  | _ => none

/-- The inside of a string on one line, up to its closing quote. -/
def readLine (quote : Char) : Nat → List Char → Option (List Char × List Char)
  | 0, _ => none
  | _, [] => none
  | fuel + 1, c :: rest =>
    if c = quote then some ([], rest)
    else if c = '\\' ∧ quote = '"' then do
      let (e, rest) ← readEscape rest
      let (inside, rest) ← readLine quote fuel rest
      return (e :: inside, rest)
    else if isPlain c then do
      let (inside, rest) ← readLine quote fuel rest
      return (c :: inside, rest)
    else none

/-- After a backslash at the end of a line: the first character that is not
blank, on whichever line it stands. -/
def skipLines : Nat → List Char → List Char
  | 0, cs => cs
  | fuel + 1, cs =>
    let cs := skipGaps cs
    match lineEnd? cs with
    | some rest => skipLines fuel rest
    | none => cs

/-- The inside of a string over several lines. -/
def readLines (quote : Char) : Nat → List Char → Option (List Char × List Char)
  | 0, _ => none
  | _, [] => none
  | fuel + 1, c :: rest =>
    let run := ((c :: rest).takeWhile (· = quote)).length
    if 3 ≤ run then
      let taken := min run 5
      some (List.replicate (taken - 3) quote, (c :: rest).drop taken)
    else if c = '\\' ∧ quote = '"' then
      if (lineEnd? (skipGaps rest)).isSome then
        readLines quote fuel (skipLines fuel rest)
      else do
        let (e, rest) ← readEscape rest
        let (inside, rest) ← readLines quote fuel rest
        return (e :: inside, rest)
    else
      match lineEnd? (c :: rest) with
      | some rest => do
        let (inside, rest) ← readLines quote fuel rest
        return ('\n' :: inside, rest)
      | none =>
        if isPlain c then do
          let (inside, rest) ← readLines quote fuel rest
          return (c :: inside, rest)
        else none

/-- A string on one line. -/
def readShort : List Char → Option (String × List Char)
  | quote :: rest =>
    if quote = '"' ∨ quote = '\'' then
      (readLine quote (rest.length + 1) rest).map fun (s, rest) =>
        (String.ofList s, rest)
    else none
  | [] => none

/-- A string of any form. -/
def readString : List Char → Option (String × List Char)
  | a :: b :: c :: rest =>
    if (a = '"' ∨ a = '\'') ∧ b = a ∧ c = a then
      let rest := (lineEnd? rest).getD rest
      (readLines a (rest.length + 1) rest).map fun (s, rest) =>
        (String.ofList s, rest)
    else readShort (a :: b :: c :: rest)
  | cs => readShort cs

/-! ## Keys -/

def isKeyChar (c : Char) : Bool := c.isAlphanum || c == '_' || c == '-'

/-- One part of a key: bare, or a string on one line. -/
def readKeyPart (cs : List Char) : Option (String × List Char) :=
  match cs.span isKeyChar with
  | ([], rest) => readShort rest
  | (name, rest) => some (String.ofList name, rest)

/-- The parts of a key, with points between them. -/
def readKey : Nat → List Char → Option (List String × List Char)
  | 0, _ => none
  | fuel + 1, cs => do
    let (part, rest) ← readKeyPart cs
    match skipGaps rest with
    | '.' :: rest =>
      let (parts, rest) ← readKey fuel (skipGaps rest)
      return (part :: parts, rest)
    | rest => return ([part], rest)

end Fanout.Toml
