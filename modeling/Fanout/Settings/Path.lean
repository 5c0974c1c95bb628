import Fanout.Decimal.Numeral
import Fanout.Settings.Basic

/-!
# Paths into the settings

A path is written as names with points between them, `replix.node.scheme`, and
a name may be followed by positions in brackets. A name consists of ASCII
letters, digits, underscores and hyphens. Setting a value at a path makes every
step possible: what stands in the way and is no table becomes an empty one, and
what a position is asked of becomes a list.
-/

namespace Fanout

/-- A step from a value to a part of it. -/
inductive Step where
  | name (s : String)
  | position
  deriving DecidableEq, Repr

/-- A path from a table to a value. -/
structure SettingPath where
  root : String
  steps : List Step
  deriving DecidableEq, Repr

namespace SettingPath

/-- The characters of a name. -/
def isNameChar (c : Char) : Bool :=
  c.isAlphanum || c == '_' || c == '-'

/-- Whether a text, without the blanks around it, is a position: digits, of
which negative ones count from the end, within 64 bits. -/
def isPosition (cs : List Char) : Bool :=
  let isGap := fun c : Char => c == ' ' || c == '\t'
  let cs := ((cs.dropWhile isGap).reverse.dropWhile isGap).reverse
  cs.head? != some '+' && (readInt? cs).isSome

/-- The steps of a text that follows a name: nothing, or a point and a name, or
a position in brackets. The fuel is the length of the text. -/
def readSteps : Nat → List Char → Option (List Step)
  | _, [] => some []
  | 0, _ => none
  | fuel + 1, '.' :: rest =>
    match rest.span isNameChar with
    | ([], _) => none
    | (name, rest) => (readSteps fuel rest).map
        (.name (String.ofList name) :: ·)
  | fuel + 1, '[' :: rest =>
    match rest.span (· != ']') with
    | (inside, ']' :: rest) =>
      if isPosition inside then (readSteps fuel rest).map (.position :: ·)
      else none
    | _ => none
  | _, _ => none

/-- Reads a path. -/
def ofText? (text : String) : Option SettingPath :=
  match text.toList.span isNameChar with
  | ([], _) => none
  | (name, rest) => (readSteps rest.length rest).map (⟨String.ofList name, ·⟩)

/-- A path of one name, whatever the name is. -/
def single (name : String) : SettingPath := ⟨name, []⟩

/-- The path that a name in a source stands for. -/
def ofName (name : String) : SettingPath :=
  (ofText? name).getD (single name)

end SettingPath

namespace Setting

/-- Changes the value at the end of some steps. -/
def update (change : Setting → Setting) : List Step → Setting → Setting
  | [], held => change held
  | .name s :: rest, held =>
    let value := (valueAt? s held.entries).getD nil
    table (putAscending s (update change rest value) held.entries)
  | .position :: _, _ => list

end Setting

namespace Settings

/-- Lays a value over what is held at a path. -/
def put (path : SettingPath) (value : Setting)
    (settings : Settings) : Settings :=
  let held := (valueAt? path.root settings).getD .nil
  putAscending path.root (held.update (·.overlay value) path.steps) settings

end Settings

end Fanout
