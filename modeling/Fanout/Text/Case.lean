/-!
# Letter case

Header names, log levels and settings are compared without regard to the case
of ASCII letters, and of ASCII letters only: `É` and `é` stay different names.

Two readers fold case over all of Unicode before they compare with, or accept
only, ASCII text. For them it is enough to know the few characters outside
ASCII whose folded form is ASCII, since every other one stays outside ASCII and
is refused either way. Those characters are tabulated here.
-/

namespace Fanout.Text

/-- Equality up to the case of ASCII letters. -/
def sameIgnoringCase (a b : String) : Bool :=
  a.toList.map Char.toLower == b.toList.map Char.toLower

theorem sameIgnoringCase_refl (a : String) : sameIgnoringCase a a = true := by
  simp [sameIgnoringCase]

theorem sameIgnoringCase_comm (a b : String) :
    sameIgnoringCase a b = sameIgnoringCase b a := by
  simp only [sameIgnoringCase, Bool.beq_comm]

/-- ASCII letters in lower case, and the Kelvin sign, the one character outside
ASCII whose lower case is an ASCII letter. -/
def lowered (s : String) : String :=
  s.map fun c => if c = '\u212a' then 'k' else c.toLower

/-- ASCII letters in upper case. -/
def raised (s : String) : String :=
  s.map Char.toUpper

/-- The full upper case of one character, where that is ASCII text; a character
whose upper case leaves ASCII is kept. -/
def upperChars (c : Char) : List Char :=
  match c with
  | '\u0131' => ['I']
  | '\u017f' => ['S']
  | '\u00df' => ['S', 'S']
  | '\ufb00' => ['F', 'F']
  | '\ufb01' => ['F', 'I']
  | '\ufb02' => ['F', 'L']
  | '\ufb03' => ['F', 'F', 'I']
  | '\ufb04' => ['F', 'F', 'L']
  | '\ufb05' => ['S', 'T']
  | '\ufb06' => ['S', 'T']
  | c => [c.toUpper]

/-- A text in full upper case, exact wherever the result is ASCII. -/
def upper (s : String) : String :=
  String.ofList (s.toList.flatMap upperChars)

end Fanout.Text
