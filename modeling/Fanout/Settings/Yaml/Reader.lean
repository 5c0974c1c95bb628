import Fanout.Settings.Yaml.Scalar

/-!
# Reading YAML

A node in block style belongs to what is around it by its column, so a reader of
nodes is told the least column that still belongs to its place. A node may stand
on the line of the key or the dash before it; behind a key such a node cannot be
a mapping or a sequence in block style itself, behind a dash it can.

A text holds no document, which is an empty table, or one document, which must
be a table. Keys are texts or integers, and no key comes twice in a table.

Readers of nodes carry fuel. Each call takes a character or is one of a few that
go straight on to the next, so a small multiple of the length is enough.
-/

namespace Fanout

namespace Yaml

/-- What stands before a node: a tag, and a name to refer to it by. -/
structure Properties where
  tag : Option String := none
  anchor : Option String := none

/-- Reads what stands before a node. -/
def readProperties : Nat → Properties → Cursor → Properties × Cursor
  | 0, p, c => (p, c)
  | fuel + 1, p, c =>
    let word := String.ofList (c.rest.takeWhile fun ch => !isWhite ch)
    let after := c.skip word.length
    match c.rest.head? with
    | some '!' => readProperties fuel { p with tag := some word }
        after.skipBlank
    | some '&' =>
      readProperties fuel { p with anchor := some (word.drop 1).toString }
        after.skipBlank
    | _ => (p, c)

/-- The meaning of a plain scalar with its properties. -/
def Properties.plain? (p : Properties) (s : String) : Option Setting :=
  match p.tag with
  | none => Yaml.plain? s
  | some "!" => some (.text s)
  | some tag => tagged? tag s

/-- A node by its name. -/
def readAlias (c : Cursor) : Option (Setting × Cursor) :=
  let word := c.next.rest.takeWhile fun ch => !isWhite ch && !isFlowMark ch
  (valueAt? (String.ofList word) c.anchors).map (·, c.skip (1 + word.length))

/-- Gives a node the name that its properties hold. -/
def Properties.name (p : Properties) (s : Setting)
    (c : Cursor) : Setting × Cursor :=
  match p.anchor with
  | some a => (s, { c with anchors := (a, s) :: c.anchors })
  | none => (s, c)

/-- The text of a key: a text is itself, an integer is written in decimal. -/
def keyOf? : Setting → Option String
  | .text s => some s
  | .int n => some (toString n)
  | _ => none

/-- A table with one more entry, unless it has one under that key. -/
def addEntry (key : String) (value : Setting)
    (entries : Settings) : Option Settings :=
  match valueAt? key entries with
  | none => some (putAscending key value entries)
  | some _ => none

/-- A key on one line, with the colon behind it; the cursor goes past the
colon. -/
def readKey (start : Cursor) : Option (Setting × Cursor) :=
  let (p, c) := readProperties 2 {} start
  let read : Option (Setting × Cursor) :=
    match c.rest.head? with
    | some '"' | some '\'' =>
      (readQuoted c).bind fun (s, after) =>
        if after.line = c.line then some (.text s, after) else none
    | some '*' => readAlias c
    | _ =>
      if startsPlain false c.rest then
        let line := trimGaps (plainLine false c.rest)
        (p.plain? (String.ofList line)).map (·, c.skip line.length)
      else none
  read.bind fun (s, after) =>
    let after := after.skipGaps
    if after.isColon && after.line = start.line && !start.tabbed then
      let (s, after) := p.name s after.next
      some (s, after)
    else none

/-! ## Flow style -/

mutual

/-- A node within brackets. -/
def readFlow : Nat → Cursor → Option (Setting × Cursor)
  | 0, _ => none
  | fuel + 1, c => do
    let (p, c) := readProperties 2 {} c
    let (s, c) ←
      match c.rest.head? with
      | some '[' => readFlowItems fuel c.next.skipBlank
      | some '\x7b' => readFlowEntries fuel [] c.next.skipBlank
      | some '*' => readAlias c
      | some '"' | some '\'' => (readQuoted c).map fun (s, c) => (.text s, c)
      | _ =>
        if startsPlain true c.rest then do
          let (cs, c) := readPlain true 0 c.rest.length c
          return (← p.plain? (String.ofList cs), c)
        else if (c.rest.head?.any fun ch => isFlowMark ch || ch == ':') then
          (p.plain? "").map (·, c)
        else none
    return p.name s c

/-- The items of a sequence within brackets, up to the closing one. An item may
be a single entry of a table. -/
def readFlowItems : Nat → Cursor → Option (Setting × Cursor)
  | 0, _ => none
  | fuel + 1, c => do
    if c.rest.head? = some ']' then return (.list, c.next)
    if c.rest.head? = some ',' then none
    let (_, c) ← readFlow fuel c
    let c := c.skipBlank
    let c ←
      if c.rest.head? = some ':' then do
        let (_, c) ← readFlow fuel c.next.skipBlank
        pure c.skipBlank
      else some c
    match c.rest.head? with
    | some ',' => readFlowItems fuel c.next.skipBlank
    | some ']' => return (.list, c.next)
    | _ => none

/-- The entries of a table within braces, up to the closing one. -/
def readFlowEntries : Nat → Settings → Cursor → Option (Setting × Cursor)
  | 0, _, _ => none
  | fuel + 1, entries, c => do
    if c.rest.head? = some '\x7d' then return (.table entries, c.next)
    if c.rest.head? = some ',' then none
    let (key, c) ← readFlow fuel c
    let c := c.skipBlank
    let (value, c) ←
      if c.rest.head? = some ':' then do
        let (value, c) ← readFlow fuel c.next.skipBlank
        pure (value, c.skipBlank)
      else some (.nil, c)
    let entries ← addEntry (← keyOf? key) value entries
    match c.rest.head? with
    | some ',' => readFlowEntries fuel entries c.next.skipBlank
    | some '\x7d' => return (.table entries, c.next)
    | _ => none

end

/-! ## Block style -/

/-- A scalar or a node within brackets. -/
def readInline (fuel least : Nat) (p : Properties) (c : Cursor) :
    Option (Setting × Cursor) :=
  match c.rest.head? with
  | some '[' | some '\x7b' => readFlow fuel c
  | some '*' => readAlias c
  | some '|' | some '>' => (readBlock least c).map fun (s, c) => (.text s, c)
  | some '"' | some '\'' => (readQuoted c).map fun (s, c) => (.text s, c)
  | _ =>
    if startsPlain false c.rest then
      let (cs, c) := readPlain false least c.rest.length c
      (p.plain? (String.ofList cs)).map (·, c)
    else none

mutual

/-- A node that begins here. `alone` says that no key stands before it on its
line, so that it may be a mapping or a sequence. -/
def readNode (alone : Bool) (least : Nat) :
    Nat → Cursor → Option (Setting × Cursor)
  | 0, _ => none
  | fuel + 1, start => do
    if alone && (readKey start).isSome then
      readEntries start.column fuel [] start
    else
      let (p, c) := readProperties 2 {} start
      let alone := alone || start.line != c.line
      let (s, c) ←
        if c.isOver || c.column < least then (p.plain? "").map (·, c)
        else if alone && c.isDash then readItems c.column fuel c
        else if alone && (readKey c).isSome then readEntries c.column fuel [] c
        else readInline fuel least p c
      return p.name s c

/-- The entries of a mapping whose keys begin at a column. -/
def readEntries (column : Nat) :
    Nat → Settings → Cursor → Option (Setting × Cursor)
  | 0, _, _ => none
  | fuel + 1, entries, start => do
    let (key, c) ← readKey start
    let here := c.line
    let c := c.skipBlank
    let (value, c) ←
      if c.isOver then some (.nil, c)
      else if c.line = here then readNode false (column + 1) fuel c
      else if column < c.column then readNode true (column + 1) fuel c
      else if c.column = column && c.isDash then readItems column fuel c
      else some (.nil, c)
    let entries ← addEntry (← keyOf? key) value entries
    let c := c.skipBlank
    if c.isOver || c.column < column then return (.table entries, c)
    else if c.column = column && !c.isDash then
      readEntries column fuel entries c
    else none

/-- The items of a sequence whose dashes stand at a column. -/
def readItems (column : Nat) : Nat → Cursor → Option (Setting × Cursor)
  | 0, _ => none
  | fuel + 1, c => do
    let here := c.line
    let c := c.next.skipBlank
    let c ←
      if c.isOver then some c
      else if c.line = here || column < c.column then
        (readNode true (column + 1) fuel c).map (·.2)
      else some c
    let c := c.skipBlank
    if !c.isOver && c.column = column && c.isDash then readItems column fuel c
    else if !c.isOver && column < c.column then none
    else return (.list, c)

end

/-! ## Documents -/

/-- Passes over directives and the mark that opens a document. -/
def openDocument : Nat → Cursor → Cursor
  | 0, c => c
  | fuel + 1, c =>
    let c := c.skipBlank
    if c.column = 0 ∧ c.rest.head? = some '%' then openDocument fuel c.skipLine
    else if c.isMarker ∧ c.rest.head? = some '-' then (c.skip 3).skipBlank
    else c

/-- Whether nothing follows but the mark that closes a document. -/
def isClosed (c : Cursor) : Bool :=
  let c := c.skipBlank
  if c.isMarker && c.rest.head? == some '.' then (c.skip 3).skipBlank.isEnd
  else c.isEnd

end Yaml

namespace Settings

/-- The settings of a YAML file. -/
def ofYamlText? (text : String) : Option Settings := do
  let start : Yaml.Cursor := { rest := Yaml.normalized text.toList }
  let c := Yaml.openDocument start.rest.length start
  if start.skipBlank.isEnd then return []
  else
    let (s, c) ← Yaml.readNode true 0 (4 * start.rest.length + 4) c
    match s with
    | .table entries => if Yaml.isClosed c then return entries else none
    | _ => none

end Settings

end Fanout
