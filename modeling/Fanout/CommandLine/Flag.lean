import Fanout.Decimal.Numeral
import Fanout.Text.Blank
import Fanout.Text.Cut

/-!
# What can stand on the command line

The command line has one argument in a place of its own, the path of the
request, and flags for everything else. Most flags take a value, some of those
may be repeated, and some have a variable that speaks for them when they are
not given.
-/

namespace Fanout

/-- The arguments of the command line, in the order in which they are
declared. -/
inductive Flag where
  | uri
  | config
  | node
  | method
  | data
  | header
  | target
  | forwardTo
  | noVerify
  | noMarker
  | user
  | proxy
  | requestTimeout
  | responseTimeout
  | pollInterval
  | logDir
  | logLevel
  deriving DecidableEq, Repr

namespace Flag

def all : List Flag :=
  [uri, config, node, method, data, header, target, forwardTo, noVerify,
    noMarker, user, proxy, requestTimeout, responseTimeout, pollInterval,
    logDir, logLevel]

/-- The name after two hyphens. -/
def long? : Flag → Option String
  | uri => none
  | config => some "config"
  | node => some "node"
  | method => some "method"
  | data => some "data"
  | header => some "header"
  | target => some "target"
  | forwardTo => some "forward-to"
  | noVerify => some "no-verify"
  | noMarker => some "no-replicated-marker"
  | user => some "user"
  | proxy => some "proxy"
  | requestTimeout => some "request-timeout"
  | responseTimeout => some "response-timeout"
  | pollInterval => some "poll-interval"
  | logDir => some "log-dir"
  | logLevel => some "log-level"

/-- The letter after one hyphen. -/
def short? : Flag → Option Char
  | config => some 'c'
  | node => some 'n'
  | method => some 'X'
  | data => some 'd'
  | header => some 'H'
  | target => some 't'
  | user => some 'u'
  | _ => none

/-- The variable that speaks for a flag which is not given. -/
def variableName? : Flag → Option String
  | config => some "REPLIX_CONFIG"
  | node => some "REPLIX_NODES"
  | requestTimeout => some "REPLIX_REQUEST_TIMEOUT"
  | responseTimeout => some "REPLIX_RESPONSE_TIMEOUT"
  | logDir => some "REPLIX_LOG_DIR"
  | logLevel => some "REPLIX_LOG_LEVEL"
  | _ => none

def takesValue : Flag → Bool
  | noVerify | noMarker => false
  | _ => true

/-- Whether a flag may be given more than once. -/
def repeats : Flag → Bool
  | node | header | target | proxy => true
  | _ => false

def ofLong? (name : String) : Option Flag :=
  all.find? fun f => f.long? == some name

def ofShort? (letter : Char) : Option Flag :=
  all.find? fun f => f.short? == some letter

end Flag

/-- Why a command line is not carried out: it asks for something else, or it is
wrong. -/
inductive Refusal where
  | displayHelp
  | displayVersion
  | unknownArgument
  | invalidValue
  | valueValidation
  | tooManyValues
  | argumentConflict
  | missingRequiredArgument
  deriving DecidableEq, Repr

namespace Refusal

/-- The status that the program ends with. -/
def exitCode : Refusal → Nat
  | displayHelp | displayVersion => 0
  | _ => 2

/-- What is wrong with the line, if anything is. -/
def message? : Refusal → Option String
  | displayHelp | displayVersion => none
  | unknownArgument => some "an argument is not known"
  | invalidValue => some "a value is missing or empty"
  | valueValidation => some "a value cannot be read"
  | tooManyValues => some "a flag takes no value"
  | argumentConflict => some "arguments contradict each other"
  | missingRequiredArgument => some "an argument is missing"

end Refusal

/-- What a command line says. -/
structure Arguments where
  uri : String := ""
  config : Option String := none
  nodes : List String := []
  method : String := "GET"
  data : Option String := none
  headers : List (String × String) := []
  targets : List String := []
  forwardTo : Option String := none
  noVerify : Bool := false
  noMarker : Bool := false
  user : Option String := none
  proxies : List String := []
  requestTimeout : Option Nat := none
  responseTimeout : Option Nat := none
  pollInterval : Nat := 100
  logDir : Option String := none
  logLevel : Option String := none
  deriving DecidableEq, Repr

namespace Arguments

/-- A name and a value, parted by the first colon. -/
def readHeader? (text : String) : Option (String × String) :=
  (Text.cutFirst ':' text.toList).bind fun (name, value) =>
    let name := Text.trimChars name
    if name.isEmpty then none
    else some (String.ofList name, String.ofList (Text.trimChars value))

def readPath (text : String) : Except Refusal String :=
  if text.isEmpty then .error .invalidValue else .ok text

def readCount (text : String) : Except Refusal Nat :=
  match readNat? mostNatural text.toList with
  | some n => .ok n
  | none => .error .valueValidation

/-- Takes note of a value. A list of nodes is cut at its commas. -/
def store (a : Arguments) (value : String) : Flag → Except Refusal Arguments
  | .uri => .ok { a with uri := value }
  | .config => (readPath value).map fun path => { a with config := some path }
  | .node => .ok { a with nodes := a.nodes ++ Text.split ',' value }
  | .method => .ok { a with method := value }
  | .data => .ok { a with data := some value }
  | .header =>
    match readHeader? value with
    | some header => .ok { a with headers := a.headers ++ [header] }
    | none => .error .valueValidation
  | .target => .ok { a with targets := a.targets ++ [value] }
  | .forwardTo => .ok { a with forwardTo := some value }
  | .noVerify => .ok { a with noVerify := true }
  | .noMarker => .ok { a with noMarker := true }
  | .user => .ok { a with user := some value }
  | .proxy => .ok { a with proxies := a.proxies ++ [value] }
  | .requestTimeout => (readCount value).map fun n =>
      { a with requestTimeout := some n }
  | .responseTimeout => (readCount value).map fun n =>
      { a with responseTimeout := some n }
  | .pollInterval => (readCount value).map fun n => { a with pollInterval := n }
  | .logDir => (readPath value).map fun path => { a with logDir := some path }
  | .logLevel => .ok { a with logLevel := some value }

end Arguments

end Fanout
