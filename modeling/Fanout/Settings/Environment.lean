import Fanout.Decimal.Numeral
import Fanout.Settings.Basic
import Fanout.Text.Case

/-!
# Settings in variables

A variable with the right beginning sets one value. Its name in lower case, with
a point for each double underscore, is the path of the value; the beginning
stays, as it is the first name of the path. A text that looks like a truth value
or a number is one.
-/

namespace Fanout

/-- The variables around the program, with their texts. -/
abbrev Environment := List (String × String)

namespace Environment

/-- What the name of a variable with a setting begins with. -/
def marker : String := "replix__"

/-- Double underscores as points. -/
def pointed : List Char → List Char
  | '_' :: '_' :: rest => '.' :: pointed rest
  | c :: rest => c :: pointed rest
  | [] => []

/-- The path that a variable sets, if it sets one. -/
def place? (name : String) : Option String :=
  let name := (Text.lowered name).toList
  if marker.toList.isPrefixOf name then some (String.ofList (pointed name))
  else none

/-- The value that a text gives. -/
def value (text : String) : Setting :=
  let cs := text.toList
  let word := Text.lowered text
  if word = "true" then .bool true
  else if word = "false" then .bool false
  else
    (((readInt? cs).map Setting.int) <|> (readBinary64? cs).map
      Setting.real).getD (.text text)

/-- The settings that variables give. -/
def settings (environment : Environment) : Settings :=
  ascendingBy (environment.filterMap fun v => (place? v.1).map (·, value v.2))

end Environment

end Fanout
