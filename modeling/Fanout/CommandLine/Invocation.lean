import Fanout.CommandLine.Complaint
import Fanout.CommandLine.Flag
import Fanout.Engine.Target
import Fanout.Json.Reader
import Fanout.Node.Reader
import Fanout.Settings.Environment
import Fanout.Settings.File
import Fanout.Settings.Layers
import Fanout.Text.Case

/-!
# What a command line asks for

The arguments of a command line come to settings, a request and a target. Flags
are laid over the variables and these over the file, each at the place that the
readers of the configuration look at.
-/

namespace Fanout

namespace Arguments

/-! ## Settings -/

/-- A place among the settings of this program. -/
def setting (names : List String) : SettingPath :=
  ⟨"replix", names.map Step.name⟩

/-- The settings that flags give. -/
def placements (a : Arguments) : Placements :=
  let nodes := if a.nodes.isEmpty then none else some (",".intercalate a.nodes)
  let timeout := fun name (value : Option Nat) =>
    value.map fun n => (setting ["replication", name], Setting.int n)
  let text := fun names (value : Option String) =>
    value.map fun s => (setting names, Setting.text s)
  [text ["cluster", "nodes"] nodes,
    timeout "request-timeout" a.requestTimeout,
    timeout "response-timeout" a.responseTimeout,
    text ["logs", "path"] a.logDir,
    text ["logs", "level"] a.logLevel].filterMap id

/-- The settings from the file, the variables and the flags. -/
def settings (files : Files) (environment : Environment) (a : Arguments) :
    Except Complaint Settings :=
  let all := fun sources : List Settings =>
    ({ sources := sources ++ [environment.settings]
       overrides := a.placements } : Layers).settings
  match a.config with
  | none => .ok (all [])
  | some path =>
    match files.settings? path with
    | some file => .ok (all [file])
    | none => .error .settings

/-! ## Checks -/

/-- Refuses a line by which no node can be known. -/
def validate (a : Arguments) : Except Complaint Unit :=
  if a.forwardTo.isNone && a.nodes.isEmpty && a.config.isNone then
    .error .noNodes
  else .ok ()

/-- The pause between two looks at the report, in milliseconds. -/
def pause (a : Arguments) : Nat := max a.pollInterval 1

/-! ## The request and its target -/

/-- The request with the entity that a flag gives. -/
def withData (data : Option String) (r : Request) : Except Complaint Request :=
  match data with
  | none => .ok r
  | some text =>
    match Json.ofText? text with
    | some entity =>
      .ok { r.withHeader "Content-Type" "application/json" with
        entity := some entity }
    | none => .error .entity

/-- The request that the flags describe. -/
def request (a : Arguments) : Except Complaint Request := do
  let some method := Method.ofText? (Text.upper a.method) |
    .error (.method a.method)
  let r ← (Request.new method a.uri).mapError Complaint.fault
  let r := { r with verify := !a.noVerify, indicate := !a.noMarker }
  let r ← withData a.data r
  let r := r.withHeaders a.headers
  return { r with user := a.user.map fun identity => ⟨identity, a.proxies⟩ }

/-- The node of an identifier among those that are configured. -/
def lookUp (nodes : List Node) (id : String) : Except Complaint Node :=
  match nodes.find? fun n => n.id == id with
  | some node => .ok node
  | none => .error (.unknownTarget id)

/-- Where the request goes. -/
def target (a : Arguments) (nodes : List Node) : Except Complaint Target :=
  match a.forwardTo with
  | some text =>
    match Node.ofText text with
    | .ok node => .ok (.coordinator node)
    | .error fault => .error (.coordinator text fault)
  | none =>
    if a.targets.isEmpty then .ok .allConnected
    else (a.targets.mapM (lookUp nodes)).map fun found =>
      .nodes (ascending found)

end Arguments

end Fanout
