import Fanout.Settings.Basic
import Fanout.Text.Blank
import Fanout.Text.Hex

/-!
# INI files

A text of sections, each a heading in brackets with keys and values below it.
All values are text. A value ends with its line, a key with the first equals
sign or colon, and a comment needs a line of its own from the first column on.

The heading of a section is a name at the top of the settings, so points in it
lead as deep as they do in any other source. Of two sections with one heading
the last one counts, and so does the last of two equal keys in a section.
-/

namespace Fanout.Ini

def isSpace (c : Char) : Bool :=
  c = ' ' || c = '\t' || c = '\n' || c = '\r'

/-- The character of an escape, after its backslash; an escaped end of a line is
nothing. -/
def readEscape : List Char → Option (List Char × List Char)
  | [] => none
  | '0' :: rest => some (['\x00'], rest)
  | 'a' :: rest => some (['\x07'], rest)
  | 'b' :: rest => some (['\x08'], rest)
  | 't' :: rest => some (['\t'], rest)
  | 'r' :: rest => some (['\r'], rest)
  | 'n' :: rest => some (['\n'], rest)
  | '\n' :: rest => some ([], rest)
  | 'x' :: rest => (Text.readScalar? 4 rest).map fun (c, rest) => ([c], rest)
  | c :: rest => some ([c], rest)

/-- The text up to a character at which it ends, which stays. The text must not
be over before, unless the end of the file is an end too. -/
def readUntil (isEnd : Char → Bool) (canBeLast : Bool) :
    Nat → List Char → Option (List Char × List Char)
  | 0, _ => none
  | _, [] => if canBeLast then some ([], []) else none
  | fuel + 1, c :: rest =>
    if isEnd c then some ([], c :: rest)
    else do
      let (first, rest) ← if c = '\\' then readEscape rest else some ([c], rest)
      let (others, rest) ← readUntil isEnd canBeLast fuel rest
      return (first ++ others, rest)

/-- The rest of a value: quoted parts first, then what stands open up to the end
of the line. Blanks in front of the open part go only if nothing was quoted. -/
def readValue (isFirst : Bool) :
    Nat → List Char → Option (List Char × List Char)
  | 0, _ => none
  | fuel + 1, cs =>
    let isQuote := fun c : Char => c = '"' || c = '\''
    match cs with
    | [] => some ([], [])
    | c :: rest =>
      if isQuote c then do
        let (inside, rest) ← readUntil (· = c) false (rest.length + 1) rest
        let (others, rest) ← readValue false fuel (rest.drop 1)
        return (inside ++ others, rest)
      else do
        let isEnd := fun c : Char => c = '\n' || c = '\r'
        let (line, rest) ← readUntil isEnd true (cs.length + 1) cs
        let line := if isFirst then line.dropWhile Text.isBlank else line
        return ((line.reverse.dropWhile Text.isBlank).reverse, rest)

/-- A file as it is read: what is above the first section, the sections so far,
and the one that keys go to. -/
structure Sections where
  top : Settings := []
  named : List (String × Settings) := []
  current : Option String := none

namespace Sections

/-- Begins a section. -/
def begun (heading : String) (s : Sections) : Sections :=
  { s with named := putAscending heading [] s.named, current := some heading }

/-- Gives a key of the current section its value. -/
def put (key value : String) (s : Sections) : Sections :=
  match s.current with
  | none => { s with top := putAscending key (.text value) s.top }
  | some heading =>
    let held := (valueAt? heading s.named).getD []
    let held := putAscending key (.text value) held
    { s with named := putAscending heading held s.named }

/-- All that was read as settings. -/
def settings (s : Sections) : Settings :=
  s.named.foldl (fun held e => putAscending e.1 (.table e.2) held) s.top

/-- Reads on, at the first column of a line or behind it. -/
def read (atStart : Bool) (s : Sections) : Nat → List Char → Option Sections
  | 0, _ => none
  | _, [] => some s
  | fuel + 1, c :: rest =>
    if isSpace c then s.read (c = '\n') fuel rest
    else if c = ';' || c = '#' then
      if atStart then s.read false fuel (rest.dropWhile (· ≠ '\n')) else none
    else if c = '[' then do
      let (heading, rest) ← readUntil (· = ']') false (rest.length + 1) rest
      (s.begun (Text.trim (String.ofList heading))).read false
        fuel (rest.drop 1)
    else do
      let (key, rest) ←
        readUntil (fun c => c = '=' || c = ':') false (rest.length + 2)
          (c :: rest)
      let key := Text.trim (String.ofList key)
      if key.isEmpty then none
      else
        let rest := (rest.drop 1).dropWhile fun c => c = ' ' || c = '\t'
        let (value, rest) ← readValue true (rest.length + 1) rest
        (s.put key (String.ofList value)).read false fuel rest

end Sections

end Fanout.Ini

namespace Fanout.Settings

/-- The settings of an INI file. -/
def ofIniText? (text : String) : Option Settings :=
  (({} : Ini.Sections).read true (text.length + 1) text.toList).map
    Ini.Sections.settings

end Fanout.Settings
