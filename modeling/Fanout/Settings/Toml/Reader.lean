import Fanout.Settings.Toml.Scalar
import Fanout.Settings.Toml.Text
import Fanout.Settings.Toml.Tree

/-!
# Reading TOML

A document is a run of statements, each on its own line: a header that says
which table the following keys belong to, or a key with its value. Values nest,
so their reader carries fuel; every value takes at least one character, and the
length of the text is therefore enough.
-/

namespace Fanout

namespace Toml

mutual

/-- A value. -/
def readValue : Nat → List Char → Option (Setting × List Char)
  | 0, _ => none
  | fuel + 1, cs =>
    match cs with
    | '[' :: rest => readItems fuel (skipVoid rest.length rest)
    | '\x7b' :: rest => readMembers fuel (skipVoid rest.length rest) []
    | c :: _ =>
      if c = '"' ∨ c = '\'' then
        (readString cs).map fun (s, rest) => (.text s, rest)
      else readWord cs
    | [] => none

/-- The items of a list, up to its closing bracket. -/
def readItems : Nat → List Char → Option (Setting × List Char)
  | 0, _ => none
  | _, ']' :: rest => some (.list, rest)
  | fuel + 1, cs => do
    let (_, rest) ← readValue fuel cs
    match skipVoid rest.length rest with
    | ',' :: rest => readItems fuel (skipVoid rest.length rest)
    | ']' :: rest => some (.list, rest)
    | _ => none

/-- The members of an inline table, up to its closing brace. -/
def readMembers : Nat → List Char → Parts → Option (Setting × List Char)
  | 0, _, _ => none
  | _, '\x7d' :: rest, parts => some (.table (Parts.settings parts), rest)
  | fuel + 1, cs, parts => do
    let (key, rest) ← readKey (cs.length + 1) cs
    match rest with
    | '=' :: rest =>
      let (value, rest) ← readValue fuel (skipGaps rest)
      let parts ← parts.putKey value key
      match skipVoid rest.length rest with
      | ',' :: rest => readMembers fuel (skipVoid rest.length rest) parts
      | '\x7d' :: rest => some (.table (Parts.settings parts), rest)
      | _ => none
    | _ => none

end

/-- The document so far: its parts, and the path of the table that keys go
to. -/
structure Document where
  parts : Parts := []
  path : List String := []

namespace Document

/-- Carries out the statement at the start of a text that begins with no
blank. -/
def statement (d : Document) (cs : List Char) :
    Option (Document × List Char) := do
  match cs with
  | '[' :: '[' :: rest =>
    let (key, rest) ← readKey (rest.length + 1) (skipGaps rest)
    match rest with
    | ']' :: ']' :: rest =>
      let parts ← d.parts.openNext key.dropLast (← key.getLast?)
      return (⟨parts, key⟩, rest)
    | _ => none
  | '[' :: rest =>
    let (key, rest) ← readKey (rest.length + 1) (skipGaps rest)
    match rest with
    | ']' :: rest =>
      let parts ← d.parts.openTable key.dropLast (← key.getLast?)
      return (⟨parts, key⟩, rest)
    | _ => none
  | cs =>
    let (key, rest) ← readKey (cs.length + 1) cs
    match rest with
    | '=' :: rest =>
      let rest := skipGaps rest
      let (value, rest) ← readValue (rest.length + 1) rest
      let parts ← d.parts.within (Parts.putKey value key) d.path
      return ({ d with parts }, rest)
    | _ => none

/-- Carries out the statements of a text. -/
def read (d : Document) : Nat → List Char → Option Document
  | 0, _ => none
  | fuel + 1, cs => do
    match skipVoid (cs.length + 1) cs with
    | [] => return d
    | cs =>
      let (d, rest) ← d.statement cs
      let rest := skipComment rest
      if rest.isEmpty then return d
      d.read fuel (← lineEnd? rest)

end Document

end Toml

namespace Settings

/-- The settings of a TOML file. -/
def ofTomlText? (text : String) : Option Settings :=
  let cs := text.toList
  let cs := if cs.head? = some '\ufeff' then cs.drop 1 else cs
  ((⟨[], []⟩ : Toml.Document).read (cs.length + 1) cs).map fun d =>
    Toml.Parts.settings d.parts

end Settings

end Fanout
