/-!
# Digits of any base up to sixteen

Escapes, numbers in files and percent-encoding all spell numbers with digits
beyond nine. Letters count as digits in either case when they are read; in which
case they are written is up to the format.
-/

namespace Fanout.Text

/-- The value of a digit. -/
def hexValue? (c : Char) : Option Nat :=
  if c.isDigit then some (c.toNat - '0'.toNat)
  else if 'a' ≤ c ∧ c ≤ 'f' then some (c.toNat - 'a'.toNat + 10)
  else if 'A' ≤ c ∧ c ≤ 'F' then some (c.toNat - 'A'.toNat + 10)
  else none

/-- The number that digits of a base spell; no digits spell none. -/
def readBase? (base : Nat) (cs : List Char) : Option Nat :=
  if cs.isEmpty then none
  else
    cs.foldlM (fun n c =>
      ((hexValue? c).filter (· < base)).map fun d => base * n + d) 0

/-- The character of a code point that is one. -/
def scalar? (n : Nat) : Option Char :=
  if n.isValidChar then some (Char.ofNat n) else none

/-- Reads a character from exactly `count` digits of its code point. -/
def readScalar? (count : Nat) (cs : List Char) : Option (Char × List Char) :=
  if (cs.take count).length = count then
    ((readBase? 16 (cs.take count)).bind scalar?).map (·, cs.drop count)
  else none

/-- The digit of a value below sixteen, with its letters from some first one
on. -/
def hexDigitFrom (first : Char) (n : Nat) : Char :=
  if n < 10 then Char.ofNat ('0'.toNat + n)
  else Char.ofNat (first.toNat + (n - 10))

/-- The digit of a value below sixteen in upper case. -/
def hexDigit : Nat → Char := hexDigitFrom 'A'

/-- The digit of a value below sixteen in lower case. -/
def lowerHexDigit : Nat → Char := hexDigitFrom 'a'

/-- The last digits of a number, so many of them, in lower case. -/
def lowerHex : Nat → Nat → List Char
  | 0, _ => []
  | places + 1, n => lowerHex places (n / 16) ++ [lowerHexDigit (n % 16)]

end Fanout.Text
