import Fanout.Decimal.Binary64

/-!
# Decimal numerals

A numeral is what a reader of numbers has seen before it decides on a type: a
sign, digits, and a power of ten. Its value is exact. Turning it into a binary
number rounds once, and numerals far outside the range of the format are
settled by their size alone, so that `1e999999999` costs no more than `1`.
-/

namespace Fanout

/-- The number a run of digits stands for. -/
def digitsValue (digits : List Char) : Nat :=
  Nat.ofDigitChars 10 digits 0

/-- A numeral of one or more digits. -/
def readDigits? (cs : List Char) : Option Nat :=
  if !cs.isEmpty && cs.all Char.isDigit then some (digitsValue cs) else none

/-- A numeral that may carry a plus sign, up to a greatest value. -/
def readNat? (most : Nat) (cs : List Char) : Option Nat :=
  let digits :=
    match cs with
    | '+' :: rest => rest
    | cs => cs
  (readDigits? digits).filter (· ≤ most)

/-- The integers of 64 bits with a sign. -/
def leastInteger : Int := -(Nat.pow 2 63)

def mostInteger : Int := Nat.pow 2 63 - 1

/-- The greatest integer of 64 bits without a sign. -/
def mostNatural : Nat := Nat.pow 2 64 - 1

/-- A signed numeral within 64 bits. -/
def readInt? (cs : List Char) : Option Int :=
  let read :=
    match cs with
    | '-' :: rest => (readDigits? rest).map fun n => -(n : Int)
    | '+' :: rest => (readDigits? rest).map fun n => (n : Int)
    | cs => (readDigits? cs).map fun n => (n : Int)
  read.filter fun n => leastInteger ≤ n ∧ n ≤ mostInteger

/-- The value `± coefficient · 10^place`. -/
structure Numeral where
  negative : Bool
  coefficient : Nat
  place : Int
  deriving DecidableEq, Repr

namespace Numeral

/-- The power of ten above every digit of the coefficient. -/
def top (n : Numeral) : Int :=
  n.place + (Nat.toDigits 10 n.coefficient).length

/-- The nearest binary number. -/
def toBinary64 (n : Numeral) : Binary64 :=
  if n.coefficient = 0 ∨ n.top < -330 then Binary64.ofMagnitude n.negative 0
  else if 330 < n.top then Binary64.infinity n.negative
  else if 0 ≤ n.place then
    Binary64.nearest n.negative (n.coefficient * Nat.pow 10 n.place.toNat) 1
  else Binary64.nearest n.negative n.coefficient (Nat.pow 10 (-n.place).toNat)

end Numeral

/-! ## The parts of a numeral -/

/-- A run of digits and what follows it. -/
def spanDigits (cs : List Char) : List Char × List Char :=
  cs.span Char.isDigit

/-- An exponent mark with its sign and digits. `none` stands for a mark that no
digit follows; without a mark the exponent is zero. -/
def readExponent (cs : List Char) : Option (Int × List Char) :=
  match cs with
  | c :: rest =>
    if c = 'e' ∨ c = 'E' then
      let (negative, rest) :=
        match rest with
        | '-' :: rest => (true, rest)
        | '+' :: rest => (false, rest)
        | rest => (false, rest)
      match spanDigits rest with
      | ([], _) => none
      | (digits, rest) =>
        let n : Int := digitsValue digits
        some (if negative then -n else n, rest)
    else some (0, cs)
  | [] => some (0, [])

/-- The words for the values that no digits spell. -/
def specialNumber? (negative : Bool) (cs : List Char) : Option Binary64 :=
  let word := String.ofList (cs.map Char.toLower)
  if word = "inf" ∨ word = "infinity" then some (Binary64.infinity negative)
  else if word = "nan" then
    some (Binary64.ofMagnitude negative Binary64.nan.magnitude)
  else none

/-- A floating point text: a sign, digits on at least one side of a point, an
exponent; or one of the special words. -/
def readBinary64? (cs : List Char) : Option Binary64 :=
  let (negative, cs) :=
    match cs with
    | '-' :: rest => (true, rest)
    | '+' :: rest => (false, rest)
    | cs => (false, cs)
  match specialNumber? negative cs with
  | some x => some x
  | none =>
    let (whole, rest) := spanDigits cs
    let (fraction, rest) :=
      match rest with
      | '.' :: rest => spanDigits rest
      | rest => ([], rest)
    if whole.isEmpty && fraction.isEmpty then none
    else
      match readExponent rest with
      | some (e, []) =>
        some (Numeral.toBinary64
          ⟨negative, digitsValue (whole ++ fraction), e - fraction.length⟩)
      | _ => none

end Fanout
