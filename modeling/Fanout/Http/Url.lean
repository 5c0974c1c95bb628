import Fanout.Ascending
import Fanout.Http.Host
import Fanout.Text.Case

/-!
# Addresses

The address of a call is put together from a scheme, a node and a path, none of
which has been looked at before. Reading it is therefore where a bad scheme or
host comes to light, and where the path gets its final form: blanks at the ends,
tabs and ends of lines are dropped, dots that stand for steps up the path are
followed, and what may not stand in an address is encoded.

The schemes of the web are special. Their addresses always have a host, a
backslash in them is a slash, and their usual port is left out.
-/

namespace Fanout.Http

/-- An address. -/
structure Url where
  scheme : String
  /-- No host for an address that names its place in some other way. -/
  host : Option String
  /-- The port, unless it is the usual one. -/
  port : Option Nat := none
  path : List Char
  query : Option (List Char) := none
  fragment : Option (List Char) := none
  deriving DecidableEq, Repr

namespace Url

/-- The usual ports of the special schemes. -/
def usualPorts : List (String × Nat) :=
  [("http", 80), ("https", 443), ("ws", 80), ("wss", 443), ("ftp", 21)]

def isSpecial (scheme : String) : Bool :=
  (valueAt? scheme usualPorts).isSome

/-- Whether an address is one that a client can ask. -/
def isWeb (u : Url) : Bool :=
  u.scheme = "http" ∨ u.scheme = "https"

theorem isSpecial_of_isWeb {u : Url} (h : u.isWeb = true) :
    isSpecial u.scheme = true := by
  rcases of_decide_eq_true h with hscheme | hscheme
  · rw [hscheme]
    decide
  · rw [hscheme]
    decide

/-! ## The parts of a text -/

/-- Without blanks at the ends, and without tabs and ends of lines. -/
def cleaned (cs : List Char) : List Char :=
  let isIdle := fun c : Char => c.toNat ≤ 0x20
  (((cs.dropWhile isIdle).reverse.dropWhile isIdle).reverse).filter fun c =>
    !(c = '\t' || c = '\n' || c = '\r')

/-- The scheme before the first colon, and what follows. -/
def cutScheme (cs : List Char) : Option (String × List Char) :=
  (Text.cutFirst ':' cs).bind fun (scheme, rest) =>
    let isInner := fun c : Char => c.isAlphanum || c = '+' || c = '-' || c = '.'
    if scheme.head?.any Char.isAlpha && scheme.all isInner then
      some (String.ofList (scheme.map Char.toLower), rest)
    else none

def isSlash (special : Bool) (c : Char) : Bool :=
  c == '/' || (special && c == '\\')

/-- Host and port of an authority. The port follows the first colon outside
brackets. -/
def cutPort (cs : List Char) : Option (List Char × List Char) :=
  let (inside, rest) :=
    if cs.head? = some '[' then
      let (before, after) := cs.span (· != ']')
      (before ++ after.take 1, after.drop 1)
    else cs.span (· != ':')
  match rest with
  | [] => some (inside, [])
  | ':' :: port => some (inside, port)
  | _ => none

/-- A port; none of it means the usual one. -/
def readPort? (cs : List Char) : Option (Option Nat) :=
  if cs.isEmpty then some none
  else ((readDigits? cs).filter (· < Nat.pow 2 16)).map some

/-! ## Paths -/

/-- Whether a segment stands for the place itself. -/
def isSingleDot (segment : List Char) : Bool :=
  [".", "%2e"].contains (String.ofList (segment.map Char.toLower))

/-- Whether a segment stands for a step up. -/
def isDoubleDot (segment : List Char) : Bool :=
  ["..", ".%2e", "%2e.", "%2e%2e"].contains
    (String.ofList (segment.map Char.toLower))

/-- The segments of a path after its dots have been followed. Where dots end the
path, an empty segment stays behind. -/
def follow (held : List (List Char)) : List (List Char) → List (List Char)
  | [] => held
  | segment :: rest =>
    let behind := if rest.isEmpty then [[]] else []
    if isDoubleDot segment then follow (held.dropLast ++ behind) rest
    else if isSingleDot segment then follow (held ++ behind) rest
    else follow (held ++ [segment]) rest

/-- A path in its final form. -/
def readPath (special : Bool) (cs : List Char) : List Char :=
  let cs := if special then cs.map fun c => if c = '\\' then '/' else c else cs
  match cs with
  | '/' :: rest =>
    (follow [] (Text.pieces '/' rest)).flatMap fun segment =>
      '/' :: percentEncode keepsInPath segment
  | cs =>
    if special then '/' :: percentEncode keepsInPath cs
    else percentEncode keepsInPath cs

/-- Path, query and fragment. -/
def readTail (special : Bool) (cs : List Char) :
    List Char × Option (List Char) × Option (List Char) :=
  let (cs, fragment) :=
    match Text.cutFirst '#' cs with
    | some (before, after) =>
        (before, some (percentEncode keepsInFragment after))
    | none => (cs, none)
  let (cs, query) :=
    match Text.cutFirst '?' cs with
    | some (before, after) =>
      (before, some (percentEncode (keepsInQuery special) after))
    | none => (cs, none)
  (readPath special cs, query, fragment)

/-- An address with a host, after the slashes. Whom it is for, before an at
sign, is not kept. -/
def readHosted (scheme : String) (cs : List Char) : Option Url := do
  let special := isSpecial scheme
  let isOver := fun c : Char => isSlash special c || c = '?' || c = '#'
  let (authority, rest) := cs.span fun c => !isOver c
  let place := ((Text.cutLast '@' authority).map (·.2)).getD authority
  let (host, port) ← cutPort place
  let host ← if special then Host.read? host else Host.readOpaque? host
  let port ← readPort? port
  let (path, query, fragment) := readTail special rest
  if host.isEmpty && (special || port.isSome) then none
  else
    return { scheme, host, port := port.filter fun p =>
      valueAt? scheme usualPorts != some p,
             path, query, fragment }

/-- Reads an address. A scheme for files is not read, since such an address
never names a port. -/
def ofText? (text : String) : Option Url := do
  let (scheme, rest) ← cutScheme (cleaned text.toList)
  if scheme = "file" then none
  else if isSpecial scheme then
    readHosted scheme (rest.dropWhile (isSlash true))
  else
    match rest with
    | '/' :: '/' :: rest => readHosted scheme rest
    | rest =>
      let (path, query, fragment) := readTail false rest
      return { scheme, host := none, path, query, fragment }

/-! ## Writing an address -/

/-- Host and port. -/
def authority (u : Url) : String :=
  match u.host, u.port with
  | some host, some port => host ++ ":" ++ toString port
  | some host, none => host
  | none, _ => ""

/-- The port to connect to. -/
def portNumber (u : Url) : Nat :=
  (u.port <|> valueAt? u.scheme usualPorts).getD 0

/-- What a request asks the host for: path and query. -/
def target (u : Url) : String :=
  String.ofList (u.path ++ (u.query.map ('?' :: ·)).getD [])

def text (u : Url) : String :=
  let place := if u.host.isSome then "//" ++ u.authority else ""
  u.scheme ++ ":" ++ place ++ u.target ++
    String.ofList ((u.fragment.map ('#' :: ·)).getD [])

/-- Adds the pairs of a form to the query. -/
def withForm (pairs : List (String × String)) (u : Url) : Url :=
  if pairs.isEmpty then u
  else
    let query :=
      match u.query with
      | some held =>
        if held.isEmpty then Form.encode pairs
        else held ++ '&' :: Form.encode pairs
      | none => Form.encode pairs
    { u with query := some query }

end Url

end Fanout.Http
