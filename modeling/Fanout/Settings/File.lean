import Fanout.Settings.Ini
import Fanout.Settings.Json5
import Fanout.Settings.OfJson
import Fanout.Settings.Toml.Reader
import Fanout.Settings.Yaml.Reader
import Fanout.Text.Cut

/-!
# Settings files

The extension of a file decides its format. A path that names no file may be
meant without its extension, so the known extensions are tried behind it; a path
that does name a file is taken as it is, and then needs a known extension.

Of the formats that settings can commonly be written in, the object notation
with the extension `ron` is left out: a file of that kind has no known extension
here.
-/

namespace Fanout

/-- Texts of files by their paths. -/
abbrev Files := List (String × String)

/-- A format of settings files, `ron` apart. -/
inductive FileFormat where
  | toml
  | json
  | yaml
  | ini
  | json5
  deriving DecidableEq, Repr

namespace FileFormat

/-- The extensions and what they stand for. -/
def extensions : List (String × FileFormat) :=
  [("toml", toml), ("json", json), ("yaml", yaml), ("yml", yaml), ("ini", ini),
    ("json5", json5)]

/-- The settings that a text in a format holds. -/
def read? : FileFormat → String → Option Settings
  | toml => Settings.ofTomlText?
  | json => Settings.ofJsonText?
  | yaml => Settings.ofYamlText?
  | ini => Settings.ofIniText?
  | json5 => Settings.ofJson5Text?

/-- What follows the last point in the name of a file that begins with another
character. -/
def extension? (path : String) : Option String :=
  let name := ((Text.pieces '/' path.toList).getLast?).getD []
  (Text.cutLast '.' name).bind fun (stem, extension) =>
    if stem.isEmpty then none else some (String.ofList extension)

/-- The format of a file by its path. -/
def ofPath? (path : String) : Option FileFormat :=
  (extension? path).bind fun extension => valueAt? extension extensions

end FileFormat

namespace Files

/-- The paths that a path may be meant for. -/
def candidates (path : String) : List String :=
  path :: FileFormat.extensions.map fun e => path ++ "." ++ e.1

/-- The file that a path is meant for: its format and text. -/
def find? (path : String) (files : Files) : Option (FileFormat × String) :=
  match valueAt? path files with
  | some text => (FileFormat.ofPath? path).map (·, text)
  | none =>
    FileFormat.extensions.findSome? fun (extension, format) =>
      (valueAt? (path ++ "." ++ extension) files).map (format, ·)

/-- The settings of the file that a path is meant for. A mark of byte order in
front of the text is passed over. -/
def settings? (path : String) (files : Files) : Option Settings :=
  (files.find? path).bind fun (format, text) =>
    format.read?
      (if text.startsWith '\ufeff' then (text.drop 1).toString else text)

end Files

end Fanout
