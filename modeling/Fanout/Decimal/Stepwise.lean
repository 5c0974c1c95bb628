import Fanout.Decimal.Numeral

/-!
# Reading a decimal in two steps

The reader of entities does not round a decimal once. It keeps the leading
digits that fit a 64-bit word, turns that word into a binary number, and then
multiplies or divides by a power of ten, rounding each time. For short numerals
the answer is the nearest binary number; for long ones it may be a neighbour.
A numeral too large for the format is refused, one too small becomes zero.
-/

namespace Fanout

namespace Binary64

/-- The product of two finite numbers, rounded to nearest. -/
def mul (x y : Binary64) : Binary64 :=
  nearest (x.isNegative != y.isNegative) (x.quotient.1 * y.quotient.1)
    (x.quotient.2 * y.quotient.2)

/-- The quotient of two finite numbers, rounded to nearest. -/
def div (x y : Binary64) : Binary64 :=
  nearest (x.isNegative != y.isNegative) (x.quotient.1 * y.quotient.2)
    (x.quotient.2 * y.quotient.1)

/-- The number nearest to a power of ten. -/
def tenTo (n : Nat) : Binary64 :=
  nearest false (Nat.pow 10 n) 1

end Binary64

/-- The largest power of ten that the format can hold. -/
def mostPlace : Nat := 308

/-- A word with the number of digits that found no room in it. -/
structure Word where
  value : Nat
  dropped : Nat

/-- Adds a digit of the whole part; once one is dropped all later ones are. -/
def Word.addWhole (w : Word) (c : Char) : Word :=
  let next := 10 * w.value + (c.toNat - '0'.toNat)
  if w.dropped = 0 ∧ next ≤ mostNatural then ⟨next, 0⟩
  else ⟨w.value, w.dropped + 1⟩

/-- Adds the digits behind the point for as long as they fit, and counts
them. -/
def Word.addFraction (w : Word) : List Char → Nat × Nat
  | [] => (w.value, 0)
  | c :: rest =>
    let next := 10 * w.value + (c.toNat - '0'.toNat)
    if next ≤ mostNatural then
      let (value, count) := Word.addFraction ⟨next, w.dropped⟩ rest
      (value, count + 1)
    else (w.value, 0)

/-- Brings a number to its power of ten. Two divisions by the largest power turn
every word into zero, so three rounds settle every exponent. -/
def shiftPlaces : Nat → Binary64 → Int → Option Binary64
  | 0, x, _ => some x
  | rounds + 1, x, place =>
    if place.natAbs ≤ mostPlace then
      if 0 ≤ place then
        let y := x.mul (Binary64.tenTo place.natAbs)
        if y.isFinite then some y else none
      else some (x.div (Binary64.tenTo place.natAbs))
    else if x.isZero then some x
    else if 0 ≤ place then none
    else shiftPlaces rounds (x.div (Binary64.tenTo mostPlace))
      (place + mostPlace)

/-- The greatest exponent a numeral may spell out. -/
def mostExponent : Nat := Nat.pow 2 31 - 1

/-- The number for digits before and behind the point and an exponent, without
its sign. `none` stands for a number beyond the format. -/
def readStepwise? (whole fraction : List Char)
    (exponent : Int) : Option Binary64 :=
  let word := whole.foldl Word.addWhole ⟨0, 0⟩
  let (value, behind) := word.addFraction fraction
  if mostExponent < exponent.natAbs then
    if 0 < exponent ∧ value ≠ 0 then none else some Binary64.zero
  else
    shiftPlaces 3 (Binary64.nearest false value 1)
      (exponent + (word.dropped : Int) - (behind : Int))

end Fanout
