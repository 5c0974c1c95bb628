import Fanout.Json.Basic
import Fanout.Json.Reader
import Fanout.Settings.Basic

/-!
# JSON as settings
-/

namespace Fanout

namespace Setting

mutual

/-- A JSON value as a setting. -/
def ofJson : Json → Setting
  | .null => nil
  | .bool b => bool b
  | .int n => int n
  | .real x => real x
  | .str s => text s
  | .arr _ => list
  | .obj members => table (ofMembers members)

def ofMembers : List (String × Json) → Settings
  | [] => []
  | (name, value) :: rest => putAscending name (ofJson value) (ofMembers rest)

end

end Setting

namespace Settings

/-- The settings of a JSON file. -/
def ofJsonText? (text : String) : Option Settings :=
  (Json.ofText? text).bind fun
    | .obj members => some (Setting.ofMembers members)
    | _ => none

end Settings

end Fanout
