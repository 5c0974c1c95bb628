import Fanout.Identifier
import Fanout.Program
import Fanout.Program.Inquiry
import Std.Async.DNS
import Std.Async.TCP
import Std.Async.Timer
import Std.Time

/-!
# The command line

The outer layer of the program. What a run does is known from the world around
it, and here that world is asked: for the variables and files, for random bytes,
for room for the log, and for what comes of each request. As long as a run is
still guessing, its next requests are sent, all at once, and the run is taken up
again with what came of them. When nothing is guessed any more, the log is
written and the output printed.

Connections are plain ones. A request over a secured connection finds nobody,
and a node that sends a request on to another address is taken at its word: what
it said itself is the reply.
-/

open Std.Async

namespace Fanout.Outside

open Text (Bytes)

/-! ## The surroundings -/

/-- The variables of the process, where they can be read. -/
def readEnvironment : IO Environment := do
  try
    let bytes ← IO.FS.readBinFile "/proc/self/environ"
    let texts := Text.split '\x00' (Text.lossy bytes.toList)
    return texts.filterMap fun text =>
      (Text.cutFirst '=' text.toList).map fun (name, value) =>
        (String.ofList name, String.ofList value)
  catch _ => return []

/-- The files that are there. -/
def readFiles (paths : List String) : IO Files :=
  paths.filterMapM fun path => do
    try
      let text ← IO.FS.readFile ⟨path⟩
      return some (path, text)
    catch _ => return none

/-- Makes a directory; gives its path if something is in the way. -/
def makeDirectory (path? : Option String) : IO (List String) := do
  match path? with
  | none => return []
  | some "" => return []
  | some path =>
    try
      IO.FS.createDirAll path
      return []
    catch _ => return [path]

def drawIdentifier : IO String := do
  return Identifier.ofBytes (← IO.getRandomBytes 16).toList

/-! ## The network -/

/-- A time limit as a timer takes it. -/
def pauseOf (span : Span) : Std.Time.Millisecond.Offset :=
  Std.Time.Millisecond.Offset.ofNat
    (min (span.millis + 1) (Span.ofDays 365).millis)

/-- The addresses of a host. -/
def addresses (host : String) (port : Nat) :
    Async (List Std.Net.SocketAddress) := do
  let port16 := port.toUInt16
  let place : Std.Net.IPAddr → Std.Net.SocketAddress
    | .v4 addr => .v4 ⟨addr, port16⟩
    | .v6 addr => .v6 ⟨addr, port16⟩
  let bare := String.ofList (host.toList.filter fun c => c ≠ '[' && c ≠ ']')
  match Std.Net.IPv4Addr.ofString host, Std.Net.IPv6Addr.ofString bare with
  | some addr, _ => return [place (.v4 addr)]
  | none, some addr => return [place (.v6 addr)]
  | none, none =>
      return ((← DNS.getAddrInfo host (toString port)).map place).toList

/-- What has been seen of an exchange: when there was a connection, when the
head of the reply was there, and the bytes so far. -/
structure Sighting where
  connected : Option Nat := none
  begun : Option Nat := none
  bytes : Bytes := []

namespace Sighting

/-- Takes note of more bytes. -/
def gain (now : Nat) (bytes : Bytes) (s : Sighting) : Sighting :=
  let isBegun := (Http.ReplyHead.read (bytes.length + 1) bytes).isSome
  { s with bytes, begun := s.begun <|> if isBegun then some now else none }

/-- What came of an exchange that began and ended at these moments. -/
def echo (start ended : Nat) (s : Sighting) : Echo :=
  match s.connected with
  | none => .unreachable ⟨ended - start⟩
  | some connected =>
    let begun := s.begun.getD ended
    .replied ⟨connected - start⟩ ⟨begun - connected⟩ ⟨ended - begun⟩ s.bytes

end Sighting

/-- Reads a connection until the reply is whole or nothing more comes. -/
partial def gather (client : TCP.Socket.Client) (method : Method)
    (sighting : IO.Ref Sighting) : Async Unit := do
  let held := (← sighting.get).bytes
  if Http.isWhole method held then return
  let more ← try client.recv? 65536 catch _ => pure none
  if let some bytes := more then
    let now ← IO.monoNanosNow
    sighting.modify (Sighting.gain now (held ++ bytes.toList))
    gather client method sighting

/-- Sends a request to the first address that takes a connection. -/
def exchange (r : Http.HttpRequest) (sighting : IO.Ref Sighting) :
    Async Unit := do
  if r.url.scheme ≠ "http" then return
  let host := r.url.host.getD ""
  let found ← try addresses host r.url.portNumber catch _ => pure []
  for address in found do
    let client? ← try
        let client ← TCP.Socket.Client.mk
        client.connect address
        pure (some client)
      catch _ => pure none
    if let some client := client? then
      let now ← IO.monoNanosNow
      sighting.modify fun s => { s with connected := some now }
      try
        client.send (ByteArray.mk r.wire.toArray)
        gather client r.method sighting
      catch _ => pure ()
      return

/-- Makes an inquiry, and waits for what comes of it as long as that counts. -/
def inquire (i : Inquiry) : Async (Nat × Echo) := do
  let start ← IO.monoNanosNow
  let sighting ← IO.mkRef {}
  Async.race (exchange i.request sighting) (sleep (pauseOf i.limit))
  return (i.place, (← sighting.get).echo start (← IO.monoNanosNow))

/-- Takes a run up again until nothing is guessed in it. -/
partial def findOut (words : List String) (world : World)
    (known : List (Nat × Echo)) : IO Ending := do
  let ending :=
    { world with network := fun place _ => valueAt? place known }.run words
  if ending.inquiries.isEmpty then return ending
  let echoes ← Async.block (Async.concurrentlyAll
    (ending.inquiries.map inquire).toArray)
  findOut words world (known ++ echoes.toList)

/-! ## The log -/

/-- The hour, and the moment as a log shows it. -/
def readClock : IO (Hour × String) := do
  let seconds := (← Std.Time.Timestamp.now).toSecondsSinceUnixEpoch.val.toNat
  let date := Std.Time.PlainDate.ofEpochDay (.ofNat (seconds / 86400))
  let inDay := seconds % 86400
  let hour : Hour :=
    ⟨date.year.toNat, date.month.val.toNat, date.day.val.toNat, inDay / 3600⟩
  let two := Hour.padded 2
  let time := two (inDay / 3600) ++ ":" ++ two (inDay / 60 % 60) ++ ":" ++
    two (inDay % 60)
  return (hour, hour.dateText ++ "T" ++ time ++ "Z")

/-- An entry as a line. -/
def lineOf (moment : String) (e : LogEntry) : String :=
  moment ++ " " ++ e.level.name ++ " " ++ e.origin.target ++ ": " ++
    e.text ++ "\n"

def writeLog (entries : List LogEntry) (log : Log) : IO Unit := do
  let (hour, moment) ← readClock
  let lines :=
    fun shown : List LogEntry => String.join (shown.map (lineOf moment))
  (← IO.getStderr).putStr (lines (log.onConsole entries))
  if let some path := log.path? hour then
    IO.FS.withFile path .append fun file =>
      file.putStr (lines (log.inFile entries))

/-! ## A run -/

def run (words : List String) : IO UInt32 := do
  let ids := [← drawIdentifier, ← drawIdentifier]
  let world : World :=
    { environment := ← readEnvironment, identifiers := fun n => ids.getD n "",
      network := fun _ _ => none }
  let world := { world with files := ← readFiles (world.wantedFiles words) }
  let obstacles ← makeDirectory (world.wantedDirectory? words)
  let ending ← findOut words { world with obstacles } []
  if let some log := ending.log then writeLog ending.entries log
  (← IO.getStdout).putStr ending.output
  (← IO.getStderr).putStr ending.errorText
  return ending.exitCode.toUInt32

end Fanout.Outside

def main (words : List String) : IO UInt32 :=
  Fanout.Outside.run words
