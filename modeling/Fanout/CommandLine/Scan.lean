import Fanout.Ascending
import Fanout.CommandLine.Flag

/-!
# Scanning the command line

Words are taken one after the other. A flag that takes a value waits for it, and
its value is looked at only when the next word, or the end, closes the flag. A
word that begins with a hyphen is never taken for a value, so a flag that is
still waiting when such a word comes has no value. A word that is unknown is
refused before whatever waits is looked at.

Variables are asked after the whole line, for the flags that are not given.
What must not stand together, and what must be there, is checked at the end.
-/

namespace Fanout

/-- The scan of a command line. -/
structure Scan where
  arguments : Arguments := {}
  /-- The arguments that have been given. -/
  given : List Flag := []
  /-- An argument that is not closed yet, with its value if that has come. -/
  pending : Option (Flag × Option String) := none
  /-- Whether the place of the request's path is taken. -/
  hasPlace : Bool := false
  /-- Whether flags are over, so that words are only places. -/
  flagsOver : Bool := false

namespace Scan

/-- Takes note of an argument. -/
def take (s : Scan) (flag : Flag) (value : String) : Except Refusal Scan := do
  if s.given.contains flag && !flag.repeats then .error .argumentConflict
  let arguments ← s.arguments.store value flag
  return { s with arguments, given := flag :: s.given }

/-- Closes the argument that is not closed yet. -/
def close (s : Scan) : Except Refusal Scan :=
  match s.pending with
  | none => .ok s
  | some (_, none) => .error .invalidValue
  | some (flag, some value) => { s with pending := none }.take flag value

/-- A flag with its value, if the value stands in the same word. -/
def flag (s : Scan) (f : Flag) (value : Option String) : Except Refusal Scan :=
  match f.takesValue, value with
  | true, some value => do (← s.close).take f value
  | true, none => do return { ← s.close with pending := some (f, none) }
  | false, some _ => .error .tooManyValues
  | false, none => do (← s.close).take f ""

/-- A flag that asks for a text instead. -/
def display (s : Scan) (refusal : Refusal) (value : Option String) :
    Except Refusal Scan := do
  if value.isSome then .error .tooManyValues
  let _ ← s.close
  .error refusal

/-- A word that is neither a flag nor the value of one. -/
def place (s : Scan) (word : String) : Except Refusal Scan :=
  if s.hasPlace then .error .unknownArgument
  else do
    return { ← s.close with
      pending := some (.uri, some word), hasPlace := true }

/-- A word that may be the value a flag waits for. -/
def value (s : Scan) (word : String) : Except Refusal Scan :=
  match s.pending with
  | some (flag, none) => .ok { s with pending := some (flag, some word) }
  | _ => s.place word

/-- A word after two hyphens. -/
def long (s : Scan) (cs : List Char) : Except Refusal Scan :=
  let (name, value) :=
    match Text.cutFirst '=' cs with
    | some (name, value) => (String.ofList name, some (String.ofList value))
    | none => (String.ofList cs, none)
  match Flag.ofLong? name with
  | some f => s.flag f value
  | none =>
    if name = "help" then s.display .displayHelp value
    else if name = "version" then s.display .displayVersion value
    else .error .unknownArgument

/-- A letter after one hyphen, with the value that may follow it. -/
def short (s : Scan) (letter : Char) (rest : List Char) : Except Refusal Scan :=
  match Flag.ofShort? letter with
  | some f =>
    match rest with
    | [] => s.flag f none
    | '=' :: value => s.flag f (some (String.ofList value))
    | value => s.flag f (some (String.ofList value))
  | none =>
    if letter = 'h' then s.display .displayHelp none
    else if letter = 'V' then s.display .displayVersion none
    else .error .unknownArgument

/-- The next word. -/
def word (s : Scan) (word : String) : Except Refusal Scan :=
  if s.flagsOver then s.place word
  else
    match word.toList with
    | ['-', '-'] => .ok { s with flagsOver := true }
    | '-' :: '-' :: rest => s.long rest
    | '-' :: letter :: rest => s.short letter rest
    | _ => s.value word

/-- Asks the variables for what is not given. -/
def askVariables (environment : List (String × String))
    (s : Scan) : Except Refusal Scan :=
  Flag.all.foldlM (fun s f =>
    if s.given.contains f then .ok s
    else
      match f.variableName?.bind fun name => valueAt? name environment with
      | some text => s.take f text
      | none => .ok s) s

/-- What the line says, if nothing is wrong with it as a whole. -/
def finish (s : Scan) : Except Refusal Arguments :=
  if s.given.contains .target && s.given.contains .forwardTo then
    .error .argumentConflict
  else if !s.given.contains .uri then .error .missingRequiredArgument
  else if s.given.contains .proxy && !s.given.contains .user then
    .error .missingRequiredArgument
  else .ok s.arguments

end Scan

/-- Reads a command line. -/
def Arguments.read (words : List String)
    (environment : List (String × String)) : Except Refusal Arguments := do
  let s ← words.foldlM Scan.word ({} : Scan)
  (← (← s.close).askVariables environment).finish

end Fanout
