import Fanout.Settings.Basic

/-!
# A place in a YAML text

YAML gives meaning to the column a thing begins in, so its readers carry not
only the characters that are left but also where they are. They carry the nodes
that were given a name so far as well, since any later place may refer to them.
Tabs have no column, so nothing in block style may be indented by them.

Ends of lines are a single character here, and the last line has one too; the
text is brought into that form before it is read.
-/

namespace Fanout.Yaml

/-- What is left of a text, and where it begins. -/
structure Cursor where
  rest : List Char
  line : Nat := 0
  column : Nat := 0
  /-- Whether a tab is among the blanks that the line begins with. -/
  tabbed : Bool := false
  anchors : List (String × Setting) := []
  deriving Inhabited

/-- Every end of line as one character, and one at the end. -/
def normalized : List Char → List Char
  | '\r' :: '\n' :: rest => '\n' :: normalized rest
  | '\r' :: rest => '\n' :: normalized rest
  | ['\n'] => ['\n']
  | c :: rest => c :: normalized rest
  | [] => ['\n']

def isGap (c : Char) : Bool := c == ' ' || c == '\t'

def isWhite (c : Char) : Bool := isGap c || c == '\n'

/-- Whether a text is over or goes on with a blank. -/
def isBroken : List Char → Bool
  | [] => true
  | c :: _ => isWhite c

namespace Cursor

def next (c : Cursor) : Cursor :=
  match c.rest with
  | [] => c
  | '\n' :: rest => { c with rest, line := c.line + 1, column := 0 }
  | _ :: rest => { c with rest, column := c.column + 1 }

def skip (n : Nat) (c : Cursor) : Cursor := n.repeat next c

def isEnd (c : Cursor) : Bool := c.rest.isEmpty

/-- Whether a line begins here that parts documents. -/
def isMarker (c : Cursor) : Bool :=
  c.column == 0 &&
    ("---".toList.isPrefixOf c.rest || "...".toList.isPrefixOf c.rest) &&
    isBroken (c.rest.drop 3)

/-- Whether the document is over. -/
def isOver (c : Cursor) : Bool := c.isEnd || c.isMarker

/-- Whether an item of a block sequence begins here. -/
def isDash (c : Cursor) : Bool :=
  !c.tabbed && c.rest.head? == some '-' && isBroken (c.rest.drop 1)

/-- Passes over gaps within the line. -/
def skipGaps (c : Cursor) : Cursor :=
  c.skip (c.rest.takeWhile isGap).length

/-- Passes over the rest of the line. -/
def skipLine (c : Cursor) : Cursor :=
  c.skip (c.rest.takeWhile (· != '\n')).length

/-- Passes over so many runs of blanks and ends of lines, with comments between
them. -/
def skipRuns : Nat → Cursor → Cursor
  | 0, c => c
  | fuel + 1, c =>
    let run := c.rest.takeWhile isWhite
    let lead := run.reverse.takeWhile (· != '\n')
    let tabbed :=
      if run.contains '\n' || c.column = 0 then lead.contains '\t' else c.tabbed
    let c : Cursor := { c.skip run.length with tabbed }
    if c.rest.head? = some '#' then skipRuns fuel c.skipLine else c

/-- Passes over blanks, comments and ends of lines. -/
def skipBlank (c : Cursor) : Cursor :=
  skipRuns c.rest.length c

/-- Whether a colon stands here that ends a key. -/
def isColon (c : Cursor) : Bool :=
  c.rest.head? == some ':' && isBroken (c.rest.drop 1)

end Cursor

end Fanout.Yaml
