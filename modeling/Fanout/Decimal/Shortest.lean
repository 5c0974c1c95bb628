import Fanout.Decimal.Binary64

/-!
# The fewest digits that read back

Between a number and its two neighbours lie two midpoints; every decimal
between the midpoints reads back as the number. Of these decimals the shortest
is written, and of several shortest ones the one nearest to the number.

The search goes through the lengths one by one. On the grid of decimals of one
length only the two neighbours of the number can be nearest to it, and if any
point of that grid reads back then one of those two does, so no other point is
ever looked at. Seventeen digits always suffice.
-/

namespace Fanout

namespace Binary64

/-- Which way a number goes that lies exactly between two shortest decimals. -/
inductive Tie where
  | toEven
  | up
  deriving DecidableEq, Repr

/-- The decimals that read back as a finite number, scaled so that the number
and both midpoints are integers over one denominator. The midpoints belong to
the interval when the significand is even, since a half goes to the even
neighbour. -/
structure ReadBack where
  low : Nat
  value : Nat
  high : Nat
  den : Nat
  closed : Bool

def readBack (x : Binary64) : ReadBack :=
  let unit := scaleDown 1 4 (-x.exponent)
  let m := x.significand
  { low := (4 * m - if x.isBinadeStart then 1 else 2) * unit.1
    value := 4 * m * unit.1
    high := (4 * m + 2) * unit.1
    den := unit.2
    closed := m % 2 == 0 }

/-- Whether the decimal `n · 10^k` lies in the interval. -/
def ReadBack.contains (i : ReadBack) (n : Nat) (k : Int) : Bool :=
  let scaled := if 0 ≤ k then n * Nat.pow 10 k.toNat * i.den else n * i.den
  let by10 := if 0 ≤ k then 1 else Nat.pow 10 (-k).toNat
  if i.closed then i.low * by10 ≤ scaled && scaled ≤ i.high * by10
  else i.low * by10 < scaled && scaled < i.high * by10

/-- The number divided by `10^k`, as a quotient. -/
def ReadBack.onGrid (i : ReadBack) (k : Int) : Nat × Nat :=
  if 0 ≤ k then (i.value, i.den * Nat.pow 10 k.toNat)
  else (i.value * Nat.pow 10 (-k).toNat, i.den)

/-- The neighbour on the grid of `10^k` that reads back and is nearest. -/
def ReadBack.onGrid? (i : ReadBack) (tie : Tie) (k : Int) : Option Nat :=
  let (num, den) := i.onGrid k
  let below := num / den
  let above := below + 1
  match i.contains below k, i.contains above k with
  | false, false => none
  | true, false => some below
  | false, true => some above
  | true, true =>
    let past := 2 * (num % den)
    if past < den then some below
    else if den < past then some above
    else
      match tie with
      | .toEven => some (if below % 2 = 0 then below else above)
      | .up => some above

/-- The exponent of the leading decimal digit of a positive quotient. -/
def leadingPlace (num den : Nat) : Int :=
  if den ≤ num then (((Nat.toDigits 10 (num / den)).length - 1 : Nat) : Int)
  else -((Nat.toDigits 10 ((den - 1) / num)).length : Int)

/-- Digits and the power of ten the last of them is worth. -/
structure Digits where
  coefficient : Nat
  place : Int
  deriving DecidableEq, Repr

/-- Trailing zeros moved into the place. -/
def Digits.stripped : Nat → Digits → Digits
  | 0, d => d
  | fuel + 1, d =>
    if d.coefficient % 10 = 0 ∧ d.coefficient ≠ 0 then
      Digits.stripped fuel ⟨d.coefficient / 10, d.place + 1⟩
    else d

/-- Tries the grids from the coarsest on. -/
def ReadBack.search (i : ReadBack) (tie : Tie) : Nat → Int → Option Digits
  | 0, _ => none
  | fuel + 1, k =>
    match i.onGrid? tie k with
    | some n => some (Digits.stripped 20 ⟨n, k⟩)
    | none => i.search tie fuel (k - 1)

/-- The shortest digits of a finite number other than zero. -/
def shortest (tie : Tie) (x : Binary64) : Digits :=
  let i := x.readBack
  let lead := leadingPlace i.value i.den
  (i.search tie 18 (lead + 1)).getD ⟨0, 0⟩

end Binary64

end Fanout
