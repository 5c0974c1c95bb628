import Fanout.Answer
import Fanout.Http.Url
import Fanout.Method
import Fanout.Text.Blank
import Fanout.Text.Case
import Fanout.Text.Cut

/-!
# Messages on the wire

A request is written and a reply is read, both as bytes. A reply is read as far
as it makes sense: whoever sends what is no reply has sent none. Interim replies
are passed over. Where the body ends follows from the method and the status, or
from the chunks or the length that the headers announce, or else from the end of
the connection; if the connection ends before the body does, the reply is cut
short, which is another fault than none at all.
-/

namespace Fanout.Http

open Text (Bytes)

/-! ## Requests -/

/-- A request as it is sent. -/
structure HttpRequest where
  method : Method
  url : Url
  /-- Names in lower case, each with its value. -/
  headers : List (String × String)
  body : Option Bytes
  deriving Repr

namespace HttpRequest

/-- What the first line asks for: a path, or for a tunnel the host and port. -/
def target (r : HttpRequest) : String :=
  if r.method.opensTunnel then r.url.authority else r.url.target

/-- The bytes of a request. -/
def wire (r : HttpRequest) : Bytes :=
  let line := r.method.name ++ " " ++ r.target ++ " HTTP/1.1\r\n"
  let header := fun e : String × String => e.1 ++ ": " ++ e.2 ++ "\r\n"
  let head := line ++ header ("host", r.url.authority) ++
    String.join (r.headers.map header)
  Text.utf8 (head ++ "\r\n") ++ r.body.getD []

/-- The headers as their receiver reads them: without blanks around the values,
in ascending order. -/
def received (r : HttpRequest) : List (String × String) :=
  (r.headers.map fun e => (e.1, Text.trim e.2)).mergeSort fun a b =>
    a.1 < b.1 || (a.1 == b.1 && decide (a.2 ≤ b.2))

end HttpRequest

/-! ## Replies -/

/-- What is wrong with a reply. -/
inductive ReplyFault where
  /-- There is none, or what came is none. -/
  | missing
  /-- Its body ends too early. -/
  | cutShort
  deriving DecidableEq, Repr

def isGap (b : UInt8) : Bool := b == 0x20 || b == 0x09

/-- The bytes that may stand in the value of a header. -/
def isValueByte (b : UInt8) : Bool :=
  (0x20 ≤ b && b != 0x7F) || b == 0x09

/-- The bytes that a reader of texts takes in the value of a header. -/
def isTextByte (b : UInt8) : Bool :=
  (0x20 ≤ b && b < 0x7F) || b == 0x09

/-- The text of bytes that are all in ASCII. -/
def asciiText (bytes : Bytes) : String :=
  String.ofList (bytes.map fun b => Char.ofNat b.toNat)

/-- The bytes of a line and what follows its end; without an end there is no
line. -/
def cutLine : Bytes → Option (Bytes × Bytes)
  | [] => none
  | 0x0A :: rest => some ([], rest)
  | 0x0D :: 0x0A :: rest => some ([], rest)
  | b :: rest => (cutLine rest).map fun (line, rest) => (b :: line, rest)

/-- The status of a status line. -/
def readStatus? (line : Bytes) : Option Nat :=
  if !line.all isValueByte then none
  else
    match (line.map fun b => Char.ofNat b.toNat) with
    | 'H' :: 'T' :: 'T' :: 'P' :: '/' :: '1' :: '.' :: v :: ' ' :: a :: b ::
        c :: rest =>
      if (v = '0' ∨ v = '1') ∧ (rest.isEmpty ∨ rest.head? = some ' ') then
        (readDigits? [a, b, c]).filter (100 ≤ ·)
      else none
    | _ => none

/-- Without the gaps at both ends. -/
def trimGaps (bytes : Bytes) : Bytes :=
  (((bytes.dropWhile isGap).reverse).dropWhile isGap).reverse

/-- A header of a line, its name in lower case. -/
def readField? (line : Bytes) : Option (String × Bytes) :=
  let (name, rest) := line.span (· != 0x3A)
  let name := asciiText name
  if !name.isEmpty && name.toList.all isTokenChar && !rest.isEmpty &&
      (rest.drop 1).all isValueByte then
    some (name.map Char.toLower, trimGaps (rest.drop 1))
  else none

/-- The headers up to an empty line, and what follows it. -/
def readFields : Nat → Bytes → Option (List (String × Bytes) × Bytes)
  | 0, _ => none
  | fuel + 1, bytes => do
    let (line, rest) ← cutLine bytes
    if line.isEmpty then return ([], rest)
    let field ← readField? line
    let (fields, rest) ← readFields fuel rest
    return (field :: fields, rest)

/-- The most headers that a reply may have. -/
def mostFields : Nat := 100

/-- The head of the reply: what comes before the body. -/
structure ReplyHead where
  status : Nat
  fields : List (String × Bytes)

namespace ReplyHead

/-- Whether another reply follows in place of this one. -/
def isInterim (h : ReplyHead) : Bool :=
  h.status < 200 && h.status != 101

/-- Reads the head of a reply, after any interim ones. -/
def read : Nat → Bytes → Option (ReplyHead × Bytes)
  | 0, _ => none
  | fuel + 1, bytes => do
    let (line, rest) ← cutLine bytes
    let status ← readStatus? line
    let (fields, rest) ← readFields (rest.length + 1) rest
    if mostFields < fields.length then none
    let head : ReplyHead := ⟨status, fields⟩
    if head.isInterim then read fuel rest else return (head, rest)

/-- The values of a header, in order. -/
def values (name : String) (h : ReplyHead) : List Bytes :=
  (h.fields.filter fun f => f.1 == name).map (·.2)

/-- Whether the reply to this method has no body whatever its headers say. -/
def isBodiless (method : Method) (h : ReplyHead) : Bool :=
  method == .head || [101, 204, 304].contains h.status ||
    (method.opensTunnel && h.status / 100 == 2)

/-- The values of a header that are lists, item by item; none if one is no
text. -/
def items? (name : String) (h : ReplyHead) : Option (List String) :=
  let values := h.values name
  if values.all fun v => v.all isTextByte then
    some (values.flatMap fun v => (Text.split ',' (asciiText v)).map Text.trim)
  else none

/-- Whether the body comes in chunks, if the headers say how it is coded. -/
def isChunked? (h : ReplyHead) : Option Bool :=
  if (h.values "transfer-encoding").isEmpty then none
  else
    let last := ((h.items? "transfer-encoding").getD []).getLast?
    some (last.any fun coding => Text.sameIgnoringCase coding "chunked")

/-- The greatest length that can be announced. -/
def mostLength : Nat := mostNatural - 2

/-- The length that the headers announce: `none` if they contradict each other
or announce no length. -/
def announced? (h : ReplyHead) : Option (Option Nat) :=
  if (h.values "content-length").isEmpty then some none
  else
    let lengths := (h.items? "content-length").bind fun items =>
      items.mapM fun item => readDigits? item.toList
    match lengths with
    | some (n :: rest) =>
      if rest.all (· = n) && n ≤ mostLength then some (some n) else none
    | _ => none

/-- The headers of the reply as texts. A value that is none is passed over, and
of equal names the last one stays. -/
def headers (h : ReplyHead) : Headers :=
  (h.fields.filter fun f => f.2.all isTextByte).foldl
    (fun held f => held.put f.1 (asciiText f.2)) []

end ReplyHead

/-! ## Bodies -/

/-- The bytes up to an end of line of two bytes, and what follows it. Neither of
the two may stand alone before. -/
def cutStrict : Bytes → Option (Bytes × Bytes)
  | 0x0D :: 0x0A :: rest => some ([], rest)
  | b :: rest =>
    if b = 0x0D || b = 0x0A then none
    else (cutStrict rest).map fun (line, rest) => (b :: line, rest)
  | [] => none

/-- The length that stands before a chunk. An extension may follow it. -/
def chunkLength? (line : Bytes) : Option Nat :=
  let (digits, rest) := (asciiText line).toList.span fun c =>
    (Text.hexValue? c).isSome
  let rest := rest.dropWhile fun c => c = ' ' || c = '\t'
  if rest.isEmpty || rest.head? = some ';' then
    (Text.readBase? 16 digits).filter (· ≤ mostNatural)
  else none

/-- Whether the lines after the last chunk come to their end, an empty one. -/
def trailersEnd : Nat → Bytes → Bool
  | 0, _ => false
  | fuel + 1, bytes =>
    match cutStrict bytes with
    | some (line, rest) => line.isEmpty || trailersEnd fuel rest
    | none => false

/-- A body in chunks, each with its length in front; the last one is empty. -/
def readChunks : Nat → Bytes → Option Bytes
  | 0, _ => none
  | fuel + 1, bytes => do
    let (line, rest) ← cutStrict bytes
    let length ← chunkLength? line
    if length = 0 then
      if trailersEnd (rest.length + 1) rest then return [] else none
    if rest.length < length then none
    let (blank, after) ← cutStrict (rest.drop length)
    if !blank.isEmpty then none
    return rest.take length ++ (← readChunks fuel after)

/-- Whether a reply to a request of some method has come as a whole, so that the
connection need not end before it is read. -/
def isWhole (method : Method) (bytes : Bytes) : Bool :=
  match ReplyHead.read (bytes.length + 1) bytes with
  | none => false
  | some (head, rest) =>
    if head.isBodiless method then true
    else
      match head.isChunked? with
      | some isChunked => isChunked &&
          (readChunks (rest.length + 1) rest).isSome
      | none =>
        match head.announced? with
        | some (some length) => length ≤ rest.length
        | some none => false
        | none => true

/-- Reads a reply to a request of some method from all that a connection
gave. -/
def readReply (method : Method) (bytes : Bytes) : Except ReplyFault Reply :=
  match ReplyHead.read (bytes.length + 1) bytes with
  | none => .error .missing
  | some (head, rest) =>
    let reply := fun body =>
      { status := head.status, headers := head.headers, body : Reply }
    if head.isBodiless method then .ok (reply [])
    else
      match head.isChunked? with
      | some true =>
        match readChunks (rest.length + 1) rest with
        | some body => .ok (reply body)
        | none => .error .cutShort
      | some false => .ok (reply rest)
      | none =>
        match head.announced? with
        | none => .error .missing
        | some none => .ok (reply rest)
        | some (some length) =>
          if rest.length < length then .error .cutShort
          else .ok (reply (rest.take length))

end Fanout.Http
