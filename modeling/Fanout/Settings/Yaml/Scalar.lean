import Fanout.Decimal.Numeral
import Fanout.Settings.Yaml.Cursor
import Fanout.Text.Hex

/-!
# Scalars of YAML

A plain scalar means what it looks like, a quoted or a block scalar is always
text. Within a plain or quoted scalar an end of line with the blanks around it
counts as a single space, and each further one as an end of line of its own.

What looks like a number is read as one when the settings are made. The words
for infinite values and for no number look like numbers but cannot be read as
settings, so a text that holds one of them is refused as a whole; `none` is that
refusal.
-/

namespace Fanout.Yaml

/-- The words that look like numbers and are not read. -/
def unreadable : List String :=
  [".inf", ".Inf", ".INF", "+.inf", "+.Inf", "+.INF", "-.inf", "-.Inf", "-.INF",
    ".nan", ".NaN", ".NAN"]

/-- An integer with a mark in front: a base, or a plus sign before a number that
may have a sign of its own. -/
def markedInteger? (cs : List Char) : Option Int :=
  let based (base : Nat) (cs : List Char) : Option Int :=
    let (negative, digits) :=
      match cs with
      | '-' :: rest => (true, rest)
      | '+' :: rest => (false, rest)
      | cs => (false, cs)
    ((Text.readBase? base digits).map fun n =>
      if negative then -(n : Int) else n).filter
      fun n => leastInteger ≤ n ∧ n ≤ mostInteger
  match cs with
  | '0' :: 'x' :: rest => based 16 rest
  | '0' :: 'o' :: rest => based 8 rest
  | '+' :: rest => readInt? rest
  | _ => none

/-- The meaning of a plain scalar. -/
def plain? (s : String) : Option Setting :=
  let cs := s.toList
  match markedInteger? cs <|> readInt? cs with
  | some n => some (.int n)
  | none =>
    if s ∈ ["", "~", "null"] then some .nil
    else if s = "true" then some (.bool true)
    else if s = "false" then some (.bool false)
    else if s ∈ unreadable then none
    else if cs.any Char.isDigit then
      some (((readBinary64? cs).map Setting.real).getD (.text s))
    else some (.text s)

/-- The meaning of a plain scalar that carries a tag. A tag of the standard that
does not fit gives nothing, and any other tag makes the scalar a text. -/
def tagged? (tag s : String) : Option Setting :=
  let cs := s.toList
  match tag with
  | "!!bool" =>
    some (if s = "true" then .bool true
      else if s = "false" then .bool false
      else .nil)
  | "!!int" => some (((readInt? cs).map Setting.int).getD .nil)
  | "!!float" =>
    if s ∈ unreadable then none
    else if cs.any Char.isDigit then
      some (((readBinary64? cs).map Setting.real).getD .nil)
    else some .nil
  | "!!null" => some .nil
  | _ => some (.text s)

/-! ## Folding -/

/-- What a run of blanks inside a scalar stands for. -/
def folded (run : List Char) : List Char :=
  match run.countP (· = '\n') with
  | 0 => run
  | 1 => [' ']
  | n + 2 => List.replicate (n + 1) '\n'

/-! ## Quoted scalars -/

/-- The characters of an escape by name. -/
def escaped? (c : Char) : Option Char :=
  match c with
  | '0' => some '\x00'
  | 'a' => some '\x07'
  | 'b' => some '\x08'
  | 't' => some '\t'
  | '\t' => some '\t'
  | 'n' => some '\n'
  | 'v' => some '\x0b'
  | 'f' => some '\x0c'
  | 'r' => some '\r'
  | 'e' => some '\x1b'
  | ' ' => some ' '
  | '"' => some '"'
  | '/' => some '/'
  | '\\' => some '\\'
  | 'N' => some '\u0085'
  | '_' => some '\u00a0'
  | 'L' => some '\u2028'
  | 'P' => some '\u2029'
  | _ => none

/-- How many digits of a code point follow the letter of an escape. -/
def escapeWidth? (c : Char) : Option Nat :=
  match c with
  | 'x' => some 2
  | 'u' => some 4
  | 'U' => some 8
  | _ => none

/-- The inside of a scalar between single quotes, up to the closing one. -/
def readSingle : Nat → Cursor → Option (List Char × Cursor)
  | 0, _ => none
  | fuel + 1, c =>
    match c.rest with
    | [] => none
    | '\'' :: '\'' :: _ => (readSingle fuel (c.skip 2)).map fun (s, c) =>
        ('\'' :: s, c)
    | '\'' :: _ => some ([], c.next)
    | ch :: _ =>
      if isWhite ch then
        let run := c.rest.takeWhile isWhite
        (readSingle fuel (c.skip run.length)).map fun (s, c) =>
          (folded run ++ s, c)
      else (readSingle fuel c.next).map fun (s, c) => (ch :: s, c)

/-- The inside of a scalar between double quotes, up to the closing one. -/
def readDouble : Nat → Cursor → Option (List Char × Cursor)
  | 0, _ => none
  | fuel + 1, c =>
    match c.rest with
    | [] => none
    | '"' :: _ => some ([], c.next)
    | '\\' :: '\n' :: _ =>
      readDouble fuel (c.skip 2).skipGaps
    | '\\' :: e :: rest =>
      match escapeWidth? e with
      | some width => do
        let (ch, _) ← Text.readScalar? width rest
        let (s, c) ← readDouble fuel (c.skip (2 + width))
        return (ch :: s, c)
      | none => do
        let ch ← escaped? e
        let (s, c) ← readDouble fuel (c.skip 2)
        return (ch :: s, c)
    | ch :: _ =>
      if isWhite ch then
        let run := c.rest.takeWhile isWhite
        (readDouble fuel (c.skip run.length)).map fun (s, c) =>
          (folded run ++ s, c)
      else (readDouble fuel c.next).map fun (s, c) => (ch :: s, c)

/-- A quoted scalar. -/
def readQuoted (c : Cursor) : Option (String × Cursor) :=
  let read :=
    match c.rest with
    | '\'' :: _ => readSingle c.rest.length c.next
    | '"' :: _ => readDouble c.rest.length c.next
    | _ => none
  read.map fun (s, c) => (String.ofList s, c)

/-! ## Plain scalars -/

def isFlowMark (c : Char) : Bool :=
  c == ',' || c == '[' || c == ']' || c == '\x7b' || c == '\x7d'

/-- Whether a plain scalar can begin with these characters. -/
def startsPlain (inFlow : Bool) : List Char → Bool
  | c :: rest =>
    if c = '-' ∨ c = '?' ∨ c = ':' then
      match rest with
      | [] => false
      | d :: _ => !isWhite d && !(inFlow && isFlowMark d)
    else
      !isWhite c && !isFlowMark c &&
        !(['#', '&', '*', '!', '|', '>', '\'', '"', '%', '@',
        '\x60'].contains c)
  | [] => false

/-- Whether a plain scalar is over here: before a colon that ends a key, before
a comment, at the end of a line, and within brackets before a mark of theirs. -/
def endsPlain (inFlow : Bool) : List Char → Bool
  | [] => true
  | '\n' :: _ => true
  | ':' :: rest =>
    match rest with
    | [] => true
    | d :: _ => isWhite d || (inFlow && isFlowMark d)
  | c :: rest =>
    (isGap c &&
      (rest.dropWhile isGap).head?.all fun d => d = '#' || d = '\n') ||
      (inFlow && isFlowMark c)

/-- The part of a plain scalar that stands on one line. -/
def plainLine (inFlow : Bool) : List Char → List Char
  | [] => []
  | c :: rest =>
    if endsPlain inFlow (c :: rest) then [] else c :: plainLine inFlow rest

/-- Drops the gaps at the end. -/
def trimGaps (cs : List Char) : List Char :=
  (cs.reverse.dropWhile isGap).reverse

/-- A plain scalar, and the lines below it that begin at or after a column. -/
def readPlain (inFlow : Bool) (least : Nat) : Nat → Cursor → List Char × Cursor
  | 0, c => ([], c)
  | fuel + 1, c =>
    let here := trimGaps (plainLine inFlow c.rest)
    let c := c.skip here.length
    let run := c.rest.takeWhile isWhite
    let below := c.skip run.length
    if run.contains '\n' && !below.isOver && least ≤ below.column &&
        below.rest.head? != some '#' && !endsPlain inFlow below.rest then
      let (more, c) := readPlain inFlow least fuel below
      (here ++ folded run ++ more, c)
    else (here, c)

/-! ## Block scalars -/

/-- What becomes of the ends of lines at the end of a block scalar. -/
inductive Chomping where
  | clip
  | strip
  | keep

/-- The indicators behind the mark of a block scalar. -/
def blockHeader? (cs : List Char) : Option (Chomping × Option Nat) :=
  cs.foldlM (fun (chomping, indent) c =>
    if c = '-' then some (.strip, indent)
    else if c = '+' then some (.keep, indent)
    else if c.isDigit && c != '0' then
      some (chomping, some (c.toNat - '0'.toNat))
    else none) (Chomping.clip, none)

/-- The lines of a block scalar from the lines of a text: blank ones, and ones
that begin at or after a column. Blank lines at the end are among them. -/
def blockLines (indent : Nat) : List (List Char) → List (List Char)
  | [] => []
  | line :: rest =>
    let lead := (line.takeWhile (· = ' ')).length
    if lead = line.length then (line.drop indent) :: blockLines indent rest
    else if indent ≤ lead then line.drop indent :: blockLines indent rest
    else []

/-- Folds the lines of a block scalar: two lines of text become one with a
space, and a line that is indented further keeps its ends. -/
def foldLines : List (List Char) → List Char
  | [] => []
  | [line] => line
  | line :: next :: rest =>
    let deep := fun l : List Char => l.head?.any isGap
    if line.isEmpty then '\n' :: foldLines (next :: rest)
    else if deep line || deep next then line ++ '\n' :: foldLines (next :: rest)
    else if next.isEmpty then
      line ++
        (if (rest.find? fun l => !l.isEmpty).any deep then ['\n'] else []) ++
        foldLines (next :: rest)
    else line ++ ' ' :: foldLines (next :: rest)

/-- A block scalar, which stands at its mark. Every line of the text has an
end. -/
def readBlock (least : Nat) (c : Cursor) : Option (String × Cursor) := do
  let isFolded := c.rest.head? = some '>'
  let header := c.next.rest.takeWhile fun ch => !isWhite ch
  let (chomping, indent?) ← blockHeader? header
  let after := (c.skip (1 + header.length)).skipGaps
  let after := if after.rest.head? = some '#' then after.skipLine else after
  if after.rest.head? != some '\n' then none
  else
    let c := after.next
    let lines := (c.rest.splitOn '\n').dropLast
    let isBlankLine := fun l : List Char => l.all (· = ' ')
    let lead := ((lines.find? fun l => !isBlankLine l).map fun l =>
      (l.takeWhile (· = ' ')).length).getD 0
    let indent :=
      match indent? with
      | some d => least - 1 + d
      | none => max least lead
    let taken := blockLines indent lines
    let body := (taken.reverse.dropWhile List.isEmpty).reverse
    let trailing := taken.length - body.length
    let text := if isFolded then foldLines body else ['\n'].intercalate body
    let ending :=
      match chomping with
      | .strip => 0
      | .clip => if body.isEmpty then 0 else 1
      | .keep => trailing + if body.isEmpty then 0 else 1
    let width := (lines.take taken.length).foldl (fun n l => n + l.length + 1) 0
    return (String.ofList (text ++ List.replicate ending '\n'), c.skip width)

end Fanout.Yaml
