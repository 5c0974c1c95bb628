import Fanout.Ascending
import Fanout.Settings.Basic

/-!
# The tables of a TOML document

A document speaks of a table in several places, and TOML says which of them may
add to what is there. A table that was opened by a header is open once. A table
that a header only passed through may still be opened. A table that came about
through a key with points belongs to the table that the key stood in: further
such keys may add to it, and headers may go through it but not open it. A value,
an inline table among them, is closed as soon as it is there.

Of a list of tables only the last one can be spoken of again.
-/

namespace Fanout.Toml

/-- How a table came about. -/
inductive Origin where
  | opened
  | passed
  | pointed
  deriving DecidableEq, Repr

/-- A part of a document while it is read. -/
inductive Part where
  | value (s : Setting)
  | table (origin : Origin) (entries : List (String × Part))
  /-- A list of tables, by its last one. -/
  | tables (last : List (String × Part))
  deriving Inhabited

abbrev Parts := List (String × Part)

namespace Parts

/-- Changes the table that a header's path leads to, passing through the tables
on the way. -/
def within (change : Parts → Option Parts) : List String → Parts → Option Parts
  | [], parts => change parts
  | name :: rest, parts =>
    match valueAt? name parts with
    | none => (within change rest []).map fun inner =>
      putAscending name (.table .passed inner) parts
    | some (.table origin inner) => (within change rest inner).map fun inner =>
      putAscending name (.table origin inner) parts
    | some (.tables last) => (within change rest last).map fun last =>
      putAscending name (.tables last) parts
    | some (.value _) => none

/-- Opens the table of a header. -/
def openTable (path : List String) (name : String) : Parts → Option Parts :=
  within (fun parts =>
    match valueAt? name parts with
    | none => some (putAscending name (.table .opened []) parts)
    | some (.table .passed inner) =>
        some (putAscending name (.table .opened inner) parts)
    | some _ => none) path

/-- Begins the next table of a list of tables. -/
def openNext (path : List String) (name : String) : Parts → Option Parts :=
  within (fun parts =>
    match valueAt? name parts with
    | none => some (putAscending name (.tables []) parts)
    | some (.tables _) => some (putAscending name (.tables []) parts)
    | some _ => none) path

/-- Gives a key with points its value. The table that holds the value must be
the one the key stands in, or have come about through such keys. -/
def putKey (value : Setting) : List String → Parts → Option Parts
  | [], _ => none
  | [name], parts =>
    match valueAt? name parts with
    | none => some (putAscending name (.value value) parts)
    | some _ => none
  | name :: next :: rest, parts =>
    match valueAt? name parts with
    | none => (putKey value (next :: rest) []).map fun inner =>
      putAscending name (.table .pointed inner) parts
    | some (.table .pointed inner) =>
        (putKey value (next :: rest) inner).map fun inner =>
      putAscending name (.table .pointed inner) parts
    | some (.table .passed inner) =>
      if rest.isEmpty then none
      else (putKey value (next :: rest) inner).map fun inner =>
        putAscending name (.table .passed inner) parts
    | some _ => none

end Parts

mutual

def Part.setting : Part → Setting
  | .value s => s
  | .table _ entries => .table (Parts.settings entries)
  | .tables _ => .list

/-- The settings that a document comes to. -/
def Parts.settings : List (String × Part) → Settings
  | [] => []
  | (name, part) :: rest => putAscending name part.setting (Parts.settings rest)

end

end Fanout.Toml
