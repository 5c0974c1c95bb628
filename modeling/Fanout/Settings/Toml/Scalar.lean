import Fanout.Decimal.Numeral
import Fanout.Settings.Basic
import Fanout.Text.Cut
import Fanout.Text.Hex

/-!
# Numbers, truth values and times of TOML

A value that is neither a string nor a container is one word, and the word says
by itself what it is. Underscores may stand between digits and nowhere else; a
number does not begin with a zero unless that is all of it; an integer has to
fit 64 bits and a floating point number has to be finite unless it is written
otherwise. A date or a time must exist, and is then held as its text.
-/

namespace Fanout.Toml

/-! ## Numbers -/

/-- Digits with single underscores between them, without the underscores. -/
def digitsOf? (isDigit : Char → Bool) (cs : List Char) : Option (List Char) :=
  let groups := Text.pieces '_' cs
  if groups.all fun g => !g.isEmpty && g.all isDigit then
    some groups.flatten else none

/-- Decimal digits that do not begin with an idle zero. -/
def wholeOf? (cs : List Char) : Option (List Char) :=
  (digitsOf? Char.isDigit cs).filter fun digits =>
    digits.length == 1 || digits.head? != some '0'

def signOf : List Char → Bool × List Char
  | '-' :: rest => (true, rest)
  | '+' :: rest => (false, rest)
  | cs => (false, cs)

def basedInteger? (base : Nat) (cs : List Char) : Option Int := do
  let digits ← digitsOf? (fun c =>
    ((Text.hexValue? c).filter (· < base)).isSome) cs
  return (← Text.readBase? base digits)

/-- An integer, in decimal or with its base in front. -/
def integer? (cs : List Char) : Option Int :=
  let value :=
    match cs with
    | '0' :: 'x' :: rest => basedInteger? 16 rest
    | '0' :: 'o' :: rest => basedInteger? 8 rest
    | '0' :: 'b' :: rest => basedInteger? 2 rest
    | cs =>
      let (negative, cs) := signOf cs
      (wholeOf? cs).map fun digits =>
        if negative then -(digitsValue digits : Int) else digitsValue digits
  value.filter fun n => leastInteger ≤ n ∧ n ≤ mostInteger

/-- The digits behind a point or an exponent mark, if the mark is there. -/
def markedDigits? (part : Option (List Char)) : Option (List Char) :=
  match part with
  | none => some []
  | some cs => digitsOf? Char.isDigit cs

/-- A number with a point, an exponent or both, or one of the special words. -/
def real? (cs : List Char) : Option Binary64 :=
  let (negative, cs) := signOf cs
  if cs = "inf".toList then some (Binary64.infinity negative)
  else if cs = "nan".toList then
    some (Binary64.ofMagnitude negative Binary64.nan.magnitude)
  else do
    let isMark := fun c : Char => c = 'e' || c = 'E'
    let (mantissa, tail) := cs.span fun c => !isMark c
    let (wholePart, fractionPart) :=
      match Text.cutFirst '.' mantissa with
      | some (whole, fraction) => (whole, some fraction)
      | none => (mantissa, none)
    let whole ← wholeOf? wholePart
    let fraction ← markedDigits? fractionPart
    let (down, exponentPart) := signOf (tail.drop 1)
    let exponent ← markedDigits?
      (if tail.isEmpty then none else some exponentPart)
    let e : Int := digitsValue exponent
    let place := (if down then -e else e) - fraction.length
    if fractionPart.isNone && tail.isEmpty then none
    else
      let coefficient := digitsValue (whole ++ fraction)
      (some (Numeral.toBinary64 ⟨negative, coefficient, place⟩)).filter
        Binary64.isFinite

/-! ## Dates and times -/

def twoDigits? (least most : Nat) (a b : Char) : Option Nat :=
  (readDigits? [a, b]).filter fun n => least ≤ n && n ≤ most

def isLeapYear (y : Nat) : Bool :=
  y % 4 == 0 && (y % 100 != 0 || y % 400 == 0)

def daysIn (year month : Nat) : Nat :=
  if month = 2 then if isLeapYear year then 29 else 28
  else if month ∈ [4, 6, 9, 11] then 30
  else 31

/-- What follows a date that exists, and its text. -/
def readDate? : List Char → Option (List Char × List Char)
  | a :: b :: c :: d :: '-' :: e :: f :: '-' :: g :: h :: rest => do
    let year ← readDigits? [a, b, c, d]
    let month ← twoDigits? 1 12 e f
    let _ ← twoDigits? 1 (daysIn year month) g h
    return ([a, b, c, d, '-', e, f, '-', g, h], rest)
  | _ => none

/-- The fraction of a second down to nanoseconds, without idle zeros. -/
def fractionText (digits : List Char) : List Char :=
  let kept := ((digits.take 9).reverse.dropWhile (· = '0')).reverse
  if kept.isEmpty then [] else '.' :: kept

/-- What follows a time of day that exists, and its text. Seconds may be left
out. -/
def readTime? : List Char → Option (List Char × List Char)
  | a :: b :: ':' :: c :: d :: rest => do
    let _ ← twoDigits? 0 23 a b
    let _ ← twoDigits? 0 59 c d
    match rest with
    | ':' :: e :: f :: rest =>
      let _ ← twoDigits? 0 60 e f
      match rest with
      | '.' :: rest =>
        match spanDigits rest with
        | ([], _) => none
        | (digits, rest) =>
          return ([a, b, ':', c, d, ':', e, f] ++ fractionText digits, rest)
      | rest => return ([a, b, ':', c, d, ':', e, f], rest)
    | rest => return ([a, b, ':', c, d], rest)
  | _ => none

/-- The text of an offset from universal time, which has to be all that is
left. -/
def offset? : List Char → Option (List Char)
  | [] => some []
  | ['Z'] => some ['Z']
  | ['z'] => some ['Z']
  | [sign, a, b, ':', c, d] =>
    if (sign = '+' ∨ sign = '-') ∧ (twoDigits? 0 23 a b).isSome ∧
        (twoDigits? 0 59 c d).isSome then
      some [sign, a, b, ':', c, d]
    else none
  | _ => none

/-- A date, a time, or both with a mark between them. -/
def moment? (cs : List Char) : Option String :=
  match readDate? cs with
  | some (date, []) => some (String.ofList date)
  | some (date, mark :: rest) =>
    if mark = 'T' ∨ mark = 't' ∨ mark = ' ' then do
      let (time, rest) ← readTime? rest
      return String.ofList (date ++ 'T' :: time ++ (← offset? rest))
    else none
  | none =>
    match readTime? cs with
    | some (time, []) => some (String.ofList time)
    | _ => none

/-! ## Words -/

def isWordChar (c : Char) : Bool :=
  c.isAlphanum || c == '_' || c == '-' || c == '+' || c == '.' || c == ':'

/-- The meaning of a word. -/
def word? (cs : List Char) : Option Setting :=
  if cs = "true".toList then some (.bool true)
  else if cs = "false".toList then some (.bool false)
  else
    ((integer? cs).map Setting.int <|> (real? cs).map Setting.real) <|>
      (moment? cs).map Setting.text

/-- A word and what follows it. A date takes the time after a single space with
it. -/
def readWord (cs : List Char) : Option (Setting × List Char) :=
  let (word, rest) := cs.span isWordChar
  match rest with
  | ' ' :: digit :: _ =>
    if digit.isDigit && word.length == 10 && (readDate? word).isSome then
      let (time, rest) := (rest.drop 1).span isWordChar
      (word? (word ++ ' ' :: time)).map (·, rest)
    else (word? word).map (·, rest)
  | rest => (word? word).map (·, rest)

end Fanout.Toml
