import Fanout.Decimal.Layout
import Fanout.Decimal.Numeral
import Fanout.Settings.Basic
import Fanout.Text.Case

/-!
# What a setting means to its reader

A variable can only give text, and a file may give a number where a word was
expected, so every reader accepts more than its own kind of value. Truth values
count as one and zero, the usual words for them are known in any case, and a
number that is not whole goes to the nearest integer. What is left has no
meaning for the reader, which then keeps to its own default.
-/

namespace Fanout

/-- Numbers in settings are written out in full: no exponent, and no point after
a whole number. -/
def settingLayout : Binary64.Layout where
  tie := .up
  positional := fun _ => true
  wholeMark := ""
  plusMark := ""
  infinity := "inf"
  nan := "NaN"

namespace Setting

/-- The integer nearest to a number, within 64 bits; a value that is no number
counts as zero. -/
def nearestInteger (x : Binary64) : Int :=
  if x.isNaN then 0
  else if !x.isFinite then if x.isNegative then leastInteger else mostInteger
  else max leastInteger (min mostInteger x.roundHalfAway)

/-- A value read as an integer of 64 bits. -/
def int? : Setting → Option Int
  | bool b => some (if b then 1 else 0)
  | int n => if leastInteger ≤ n ∧ n ≤ mostInteger then some n else none
  | real x => some (nearestInteger x)
  | text s =>
    let word := Text.lowered s
    if word ∈ ["true", "on", "yes"] then some 1
    else if word ∈ ["false", "off", "no"] then some 0
    else readInt? s.toList
  | nil | list | table _ => none

/-- A value read as a count: an integer that is not negative. -/
def nat? (s : Setting) : Option Nat :=
  s.int?.bind fun n => if 0 ≤ n then some n.toNat else none

/-- A value read as a truth value. -/
def bool? : Setting → Option Bool
  | bool b => some b
  | int n => some (n != 0)
  | real x => some !x.isZero
  | text s =>
    let word := Text.lowered s
    if word ∈ ["1", "true", "on", "yes"] then some true
    else if word ∈ ["0", "false", "off", "no"] then some false
    else none
  | nil | list | table _ => none

/-- A value read as text. -/
def text? : Setting → Option String
  | bool b => some (if b then "true" else "false")
  | int n => some (toString n)
  | real x => some (x.text settingLayout)
  | text s => some s
  | nil | list | table _ => none

end Setting

end Fanout
