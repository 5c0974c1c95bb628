import Fanout.Decimal.Shortest

/-!
# Writing a binary number in decimal

The digits are the shortest that read back. Where the point goes, and when an
exponent is written instead, differs between the two places where this library
writes such numbers, so it is a value that they pass in.
-/

namespace Fanout

namespace Binary64

/-- How digits become text. -/
structure Layout where
  /-- Which of two equally near decimals is written. -/
  tie : Tie
  /-- Whether a number with its first digit at this power of ten is written
  without an exponent. -/
  positional : Int → Bool
  /-- What follows a whole number that is written without an exponent. -/
  wholeMark : String
  /-- What stands before an exponent that is not negative. -/
  plusMark : String
  infinity : String
  nan : String

/-- Digits around a point, padded with zeros to reach it. -/
def positionalText (layout : Layout) (digits : List Char)
    (place : Int) : String :=
  if 0 ≤ place then
    String.ofList (digits ++ List.replicate place.toNat '0') ++ layout.wholeMark
  else
    let behind := (-place).toNat
    let padded := List.replicate (behind + 1 - digits.length) '0' ++ digits
    let whole := padded.take (padded.length - behind)
    let fraction := padded.drop (padded.length - behind)
    String.ofList (whole ++ '.' :: fraction)

/-- One digit, the others behind a point, and the power of ten. -/
def scientificText (layout : Layout) (digits : List Char)
    (lead : Int) : String :=
  let mantissa :=
    match digits with
    | [] => []
    | [d] => [d]
    | d :: rest => d :: '.' :: rest
  let exponent :=
    if lead < 0 then "-" ++ toString lead.natAbs
    else layout.plusMark ++ toString lead.natAbs
  String.ofList mantissa ++ "e" ++ exponent

/-- A number as text. -/
def text (layout : Layout) (x : Binary64) : String :=
  let sign := if x.isNegative then "-" else ""
  if x.isNaN then layout.nan
  else if !x.isFinite then sign ++ layout.infinity
  else if x.isZero then sign ++ "0" ++ layout.wholeMark
  else
    let d := x.shortest layout.tie
    let digits := (toString d.coefficient).toList
    let lead := d.place + ((digits.length - 1 : Nat) : Int)
    sign ++
      if layout.positional lead then positionalText layout digits d.place
      else scientificText layout digits lead

end Binary64

end Fanout
