/-!
# Binary floating point of 64 bits

A number of an entity or of a setting that is not an integer is held as the
64 bits of the standard's binary format. Two questions are asked of such bits:
which integers `m` and `e` make the value `m · 2^e`, and which bits lie nearest
to a given quotient of two integers. Both are answered in exact natural-number
arithmetic, so no rounding happens anywhere but in the one step that says so.

Bits are compared as bits. Negative zero therefore stays apart from zero, and
a value that is not a number equals itself, which is what a store needs.
-/

namespace Fanout

/-- The bits of a binary64 number: a sign bit, eleven of exponent, fifty-two of
fraction. -/
structure Binary64 where
  bits : UInt64
  deriving DecidableEq, Repr

namespace Binary64

/-- The exponent of the unit in the last place of the smallest numbers. -/
def leastExponent : Int := -1074

/-- The bits that follow the sign, as one number; it grows with the
magnitude. -/
def magnitude (x : Binary64) : Nat :=
  x.bits.toNat % Nat.pow 2 63

def isNegative (x : Binary64) : Bool :=
  Nat.pow 2 63 ≤ x.bits.toNat

/-- The magnitude of the infinities. -/
def infiniteMagnitude : Nat := 0x7FF * Nat.pow 2 52

def isFinite (x : Binary64) : Bool :=
  x.magnitude < infiniteMagnitude

def isNaN (x : Binary64) : Bool :=
  infiniteMagnitude < x.magnitude

def isZero (x : Binary64) : Bool :=
  x.magnitude == 0

/-- A number from its sign and the bits that follow it. -/
def ofMagnitude (negative : Bool) (magnitude : Nat) : Binary64 :=
  ⟨UInt64.ofNat
    (magnitude % Nat.pow 2 63 + if negative then Nat.pow 2 63 else 0)⟩

def zero : Binary64 := ofMagnitude false 0

def infinity (negative : Bool) : Binary64 :=
  ofMagnitude negative infiniteMagnitude

/-- The one value this library writes for "not a number". -/
def nan : Binary64 := ofMagnitude false (infiniteMagnitude + Nat.pow 2 51)

/-! ## Taking a finite number apart -/

/-- The integer that the fraction, with its hidden bit, stands for. -/
def significand (x : Binary64) : Nat :=
  let fraction := x.magnitude % Nat.pow 2 52
  if x.magnitude < Nat.pow 2 52 then fraction else fraction + Nat.pow 2 52

/-- The power of two that one unit of the significand is worth. -/
def exponent (x : Binary64) : Int :=
  leastExponent + ((x.magnitude / Nat.pow 2 52 - 1 : Nat) : Int)

/-- Whether the next smaller number is only half a unit away: so it is at a
power of two, the lowest normal one excepted. -/
def isBinadeStart (x : Binary64) : Bool :=
  x.magnitude % Nat.pow 2 52 == 0 && Nat.pow 2 52 < x.magnitude

/-! ## Putting a quotient into the format -/

/-- `⌊num / den⌋` rounded to the nearest integer, a half to the even one. -/
def roundHalfEven (num den : Nat) : Nat :=
  let q := num / den
  let r := num % den
  if 2 * r < den then q
  else if den < 2 * r then q + 1
  else q + q % 2

/-- `num / den` divided by `2 ^ e`, as a new quotient. -/
def scaleDown (num den : Nat) (e : Int) : Nat × Nat :=
  if 0 ≤ e then (num, den * Nat.pow 2 e.toNat)
  else (num * Nat.pow 2 (-e).toNat, den)

/-- The exponent of the last place for a positive quotient: the one at which the
quotient has fifty-three bits before its point, but never below the least. -/
def placeOf (num den : Nat) : Int :=
  let guess : Int := (num.log2 : Int) - (den.log2 : Int) - 53
  let (n, d) := scaleDown num den guess
  let e := if Nat.pow 2 53 * d ≤ n then guess + 1 else guess
  max e leastExponent

/-- The magnitude nearest to `num / den`, a half going to the even neighbour. A
carry out of the fraction runs into the exponent bits and is right there. -/
def nearestMagnitude (num den : Nat) : Nat :=
  if num = 0 then 0
  else
    let e := placeOf num den
    let (n, d) := scaleDown num den e
    min infiniteMagnitude ((e - leastExponent).toNat * Nat.pow 2 52 +
      roundHalfEven n d)

/-- The number nearest to the quotient with the given sign. -/
def nearest (negative : Bool) (num den : Nat) : Binary64 :=
  ofMagnitude negative (nearestMagnitude num den)

/-! ## The nearest integer -/

/-- The value of a finite number as a quotient, without its sign. -/
def quotient (x : Binary64) : Nat × Nat :=
  scaleDown x.significand 1 (-x.exponent)

/-- The nearest integer, a half going away from zero. -/
def roundHalfAway (x : Binary64) : Int :=
  let (num, den) := x.quotient
  let n : Int := ((2 * num + den) / (2 * den) : Nat)
  if x.isNegative then -n else n

end Binary64

end Fanout
