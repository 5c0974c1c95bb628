import Fanout.Ascending
import Fanout.Decimal.Binary64

/-!
# Settings

Settings form a tree: tables that hold values under names, and at the leaves
the few kinds of value that a file, a variable or a flag can give. A list is
held without its items, since nothing here is ever looked for inside one.

Several sources speak about one tree, and the later one is laid over the
earlier. Tables are laid over each other name by name, so that a source which
mentions one name does not hide its neighbours; any other value takes the
place of whatever was there, a whole table included.
-/

namespace Fanout

/-- A value of the settings. -/
inductive Setting where
  | nil
  | bool (b : Bool)
  | int (n : Int)
  | real (x : Binary64)
  | text (s : String)
  | list
  | table (entries : List (String × Setting))
  deriving Inhabited, Repr

/-- A table, in ascending order of its names. -/
abbrev Settings := List (String × Setting)

namespace Setting

/-- The entries of a table; no other value has any. -/
def entries : Setting → Settings
  | table entries => entries
  | _ => []

/-- The value at the end of a path of names. -/
def find? : List String → Setting → Option Setting
  | [], s => some s
  | name :: rest, table entries => (valueAt? name entries).bind (find? rest)
  | _ :: _, _ => none

mutual

/-- Lays a value over the one that is held. -/
def overlay (held : Setting) : Setting → Setting
  | table entries => table (overlayEach held.entries entries)
  | value => value

/-- Lays the values of a table over those that are held under the same names. -/
def overlayEach (held : Settings) : Settings → Settings
  | [] => held
  | (name, value) :: rest =>
    let laid := overlay ((valueAt? name held).getD nil) value
    overlayEach (putAscending name laid held) rest

end

end Setting

namespace Settings

/-- The value at the end of a path of names. -/
def find? (names : List String) (settings : Settings) : Option Setting :=
  (Setting.table settings).find? names

end Settings

end Fanout
