import Fanout.Decimal.Numeral
import Fanout.Text.Hex

/-!
# JSON as it is written

A text is first read for its structure alone: numbers stay digits, the members
of an object stay in the order they were written with every repetition, and an
escape stays the number it names. Which of these a reader accepts is decided
later, by what it wants to make of them: one that skips a member does not care
that an escape in it names half a character.

Reading goes in two passes. The first cuts the text into tokens; the second
folds the tokens over a stack of open brackets, so it needs no recursion.
-/

namespace Fanout.Json

/-- A part of a string: a character that stands for itself or was escaped by
name, or the sixteen-bit number of an escape. -/
inductive Piece where
  | char (c : Char)
  | unit (n : Nat)
  deriving DecidableEq, Repr

/-- The digits of a number. A numeral with neither point nor exponent is an
integer. -/
structure Figures where
  negative : Bool
  whole : List Char
  fraction : Option (List Char)
  exponent : Option Int
  deriving DecidableEq, Repr

/-- A value as it is written. -/
inductive Written where
  | null
  | bool (b : Bool)
  | number (figures : Figures)
  | text (pieces : List Piece)
  | arr (items : List Written)
  | obj (members : List (List Piece × Written))
  deriving Inhabited, Repr

/-! ## Tokens -/

inductive Token where
  | openBracket
  | closeBracket
  | openBrace
  | closeBrace
  | comma
  | colon
  | value (v : Written)
  | text (pieces : List Piece)
  deriving Inhabited, Repr

/-- The number of an escape of four digits. -/
def unit? (a b c d : Char) : Option Nat := do
  return 4096 * (← Text.hexValue? a) + 256 * (← Text.hexValue? b) +
    16 * (← Text.hexValue? c) + (← Text.hexValue? d)

/-- The character an escape by name stands for. -/
def escaped? (c : Char) : Option Char :=
  match c with
  | '"' => some '"'
  | '\\' => some '\\'
  | '/' => some '/'
  | 'b' => some '\x08'
  | 'f' => some '\x0c'
  | 'n' => some '\n'
  | 'r' => some '\r'
  | 't' => some '\t'
  | _ => none

/-- The pieces up to the closing quote, and what follows it. Control characters
must be escaped. -/
def scanText : List Char → Option (List Piece × List Char)
  | [] => none
  | '"' :: rest => some ([], rest)
  | '\\' :: 'u' :: a :: b :: c :: d :: rest => do
    let unit ← unit? a b c d
    let (pieces, rest) ← scanText rest
    return (.unit unit :: pieces, rest)
  | '\\' :: e :: rest => do
    let c ← escaped? e
    let (pieces, rest) ← scanText rest
    return (.char c :: pieces, rest)
  | c :: rest =>
    if c.toNat < 32 ∨ c = '\\' then none
    else do
      let (pieces, rest) ← scanText rest
      return (.char c :: pieces, rest)

/-- A number: no zero stands before other digits, and at least one digit stands
behind a point and in an exponent. -/
def scanNumber (cs : List Char) : Option (Figures × List Char) :=
  let (negative, cs) :=
    match cs with
    | '-' :: rest => (true, rest)
    | cs => (false, cs)
  match spanDigits cs with
  | ([], _) => none
  | ('0' :: _ :: _, _) => none
  | (whole, rest) =>
    let tail : Option (Option (List Char) × List Char) :=
      match rest with
      | '.' :: rest =>
        match spanDigits rest with
        | ([], _) => none
        | (fraction, rest) => some (some fraction, rest)
      | rest => some (none, rest)
    tail.bind fun (fraction, rest) =>
      (readExponent rest).map fun (e, after) =>
        let exponent := if after.length = rest.length then none else some e
        (⟨negative, whole, fraction, exponent⟩, after)

/-- What follows a word at the start of a text. -/
def afterWord (word : String) (cs : List Char) : Option (List Char) :=
  if word.toList.isPrefixOf cs then some (cs.drop word.length) else none

/-- The first token of a text that starts with no blank. -/
def scanToken (cs : List Char) : Option (Token × List Char) :=
  match cs with
  | '[' :: rest => some (.openBracket, rest)
  | ']' :: rest => some (.closeBracket, rest)
  | '\x7b' :: rest => some (.openBrace, rest)
  | '\x7d' :: rest => some (.closeBrace, rest)
  | ',' :: rest => some (.comma, rest)
  | ':' :: rest => some (.colon, rest)
  | '"' :: rest => (scanText rest).map fun (pieces, rest) =>
      (.text pieces, rest)
  | 'n' :: _ => (afterWord "null" cs).map fun rest => (.value .null, rest)
  | 't' :: _ => (afterWord "true" cs).map fun rest =>
      (.value (.bool true), rest)
  | 'f' :: _ => (afterWord "false" cs).map fun rest =>
      (.value (.bool false), rest)
  | cs => (scanNumber cs).map fun (figures, rest) =>
      (.value (.number figures), rest)

def isSpace (c : Char) : Bool :=
  c = ' ' || c = '\n' || c = '\t' || c = '\r'

/-- All tokens of a text. Each takes at least one character, so the length of
the text is fuel enough. -/
def tokensFrom : Nat → List Char → Option (List Token)
  | 0, cs => if cs.all isSpace then some [] else none
  | fuel + 1, cs =>
    match cs.dropWhile isSpace with
    | [] => some []
    | cs => do
      let (token, rest) ← scanToken cs
      let tokens ← tokensFrom fuel rest
      return token :: tokens

def tokens (cs : List Char) : Option (List Token) :=
  tokensFrom cs.length cs

/-! ## Structure -/

/-- A bracket that is open, with what it holds so far, the last first. -/
inductive Frame where
  | items (held : List Written)
  | members (held : List (List Piece × Written)) (key : List Piece)

/-- What may come next. A bracket that was just opened may close at once. -/
inductive Awaits where
  | value (canClose : Bool)
  | key (held : List (List Piece × Written)) (canClose : Bool)
  | colon (held : List (List Piece × Written)) (key : List Piece)
  | separator
  | nothing (whole : Written)

structure Reading where
  frames : List Frame
  awaits : Awaits

/-- A value is complete: it belongs to the innermost open bracket. -/
def Reading.complete (frames : List Frame) (v : Written) : Reading :=
  match frames with
  | [] => ⟨[], .nothing v⟩
  | .items held :: outer => ⟨.items (v :: held) :: outer, .separator⟩
  | .members held key :: outer =>
    ⟨.members ((key, v) :: held) key :: outer, .separator⟩

def Reading.step (r : Reading) (token : Token) : Option Reading :=
  match r.awaits, token, r.frames with
  | .value _, .openBracket, frames => some ⟨.items [] :: frames, .value true⟩
  | .value _, .openBrace, frames => some ⟨frames, .key [] true⟩
  | .value _, .value v, frames => some (Reading.complete frames v)
  | .value _, .text pieces, frames =>
      some (Reading.complete frames (.text pieces))
  | .value true, .closeBracket, .items held :: outer =>
    some (Reading.complete outer (.arr held.reverse))
  | .key held true, .closeBrace, outer =>
    some (Reading.complete outer (.obj held.reverse))
  | .key held _, .text key, frames => some ⟨frames, .colon held key⟩
  | .colon held key, .colon, frames =>
      some ⟨.members held key :: frames, .value false⟩
  | .separator, .comma, .items held :: outer =>
    some ⟨.items held :: outer, .value false⟩
  | .separator, .closeBracket, .items held :: outer =>
    some (Reading.complete outer (.arr held.reverse))
  | .separator, .comma, .members held _ :: outer =>
      some ⟨outer, .key held false⟩
  | .separator, .closeBrace, .members held _ :: outer =>
    some (Reading.complete outer (.obj held.reverse))
  | _, _, _ => none

/-- The one value that a text holds, as it is written. -/
def Written.read? (cs : List Char) : Option Written := do
  let r ← (← tokens cs).foldlM Reading.step ⟨[], .value false⟩
  match r.awaits with
  | .nothing whole => some whole
  | _ => none

/-! ## Characters of a string -/

/-- The character of a pair of halves. -/
def ofHalves (high low : Nat) : Char :=
  Char.ofNat (0x10000 + (high - 0xD800) * 0x400 + (low - 0xDC00))

/-- The characters of a string, if every escape names one: a high half must be
followed by a low one, and a low half by itself names nothing. -/
def charsOf? : List Piece → Option (List Char)
  | [] => some []
  | .char c :: rest => (charsOf? rest).map (c :: ·)
  | .unit n :: rest =>
    if 0xD800 ≤ n ∧ n < 0xDC00 then
      match rest with
      | .unit low :: rest =>
        if 0xDC00 ≤ low ∧ low < 0xE000 then
          (charsOf? rest).map (ofHalves n low :: ·)
        else none
      | _ => none
    else if 0xDC00 ≤ n ∧ n < 0xE000 then none
    else (charsOf? rest).map (Char.ofNat n :: ·)

def textOf? (pieces : List Piece) : Option String :=
  (charsOf? pieces).map String.ofList

end Fanout.Json
