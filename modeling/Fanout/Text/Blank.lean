/-!
# Blank characters

Node addresses and header flags are trimmed before they are read, and the set
of characters that go is the Unicode property `White_Space`, not the six ASCII
blanks: a no-break space or an ideographic space around an address is as
invisible to the reader as a plain one. The property has twenty-five members,
listed here by code point.
-/

namespace Fanout.Text

/-- Membership in the Unicode property `White_Space`. -/
def isBlank (c : Char) : Bool :=
  let n := c.toNat
  (0x09 ≤ n && n ≤ 0x0D) || n == 0x20 || n == 0x85 || n == 0xA0 ||
    n == 0x1680 || (0x2000 ≤ n && n ≤ 0x200A) || n == 0x2028 ||
    n == 0x2029 || n == 0x202F || n == 0x205F || n == 0x3000

/-- Drops the blanks at both ends. -/
def trimChars (cs : List Char) : List Char :=
  ((cs.dropWhile isBlank).reverse.dropWhile isBlank).reverse

/-- Drops the blanks at both ends of a text. -/
def trim (s : String) : String :=
  String.ofList (trimChars s.toList)

end Fanout.Text
