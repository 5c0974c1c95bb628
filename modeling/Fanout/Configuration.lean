import Fanout.Engine.Basic
import Fanout.Http.Config
import Fanout.Logging.Config
import Fanout.Node.Reader
import Fanout.Settings.Layers
import Fanout.Settings.Reading

/-!
# Configuration

Every value that the program can be configured with has a place in the settings
and a default. A reader asks its place and keeps its default if nothing is
there or if what is there has no meaning for it; a source that is laid over
another one therefore also hides a good value by a bad one.

The configurations of the engine, of the HTTP client and of the log are derived
from these readers and from nothing else.
-/

namespace Fanout

namespace Settings

/-- A count among the settings of replication. -/
def replication (name : String) (standard : Nat) (settings : Settings) : Nat :=
  ((settings.find? ["replix", "replication", name]).bind Setting.nat?).getD
    standard

/-! ## Spans of time, in milliseconds -/

def connectTimeout : Settings → Nat := replication "connect-timeout" 5000

def requestTimeout : Settings → Nat := replication "request-timeout" 30000

def responseTimeout : Settings → Nat := replication "response-timeout" 60000

def verificationTimeout : Settings → Nat :=
  replication "verification-timeout" 10000

def retention : Settings → Nat := replication "retention" 30000

def sweepInterval : Settings → Nat := replication "sweep-interval" 5000

/-! ## Counts -/

def maxConcurrentRequests : Settings → Nat :=
  replication "max-concurrent-requests" 100

/-- How many deliveries may be under way at once; none at all is no answer. -/
def workerPoolSize (settings : Settings) : Nat :=
  let size := replication "worker-pool-size" 0 settings
  if size = 0 then 20 else size

/-! ## The cluster -/

def nodeScheme (settings : Settings) : String :=
  ((settings.find? ["replix", "node", "scheme"]).bind Setting.text?).getD "http"

/-- The nodes of the cluster; no text is an empty list. -/
def clusterNodes (settings : Settings) : Except Fault (List Node) :=
  match (settings.find? ["replix", "cluster", "nodes"]).bind Setting.text? with
  | some text => Node.listOfText text
  | none => .ok []

/-! ## Configurations of the parts -/

def registryConfig (settings : Settings) : RegistryConfig where
  limit := settings.maxConcurrentRequests
  retention := Span.ofMillis settings.retention
  sweepInterval := Span.ofMillis settings.sweepInterval

def engineConfig (settings : Settings) : EngineConfig where
  responseTimeout := Span.ofMillis settings.responseTimeout
  verificationTimeout := Span.ofMillis settings.verificationTimeout
  poolSize := settings.workerPoolSize
  nodeTimeout := Span.ofMillis settings.requestTimeout
  registry := settings.registryConfig

def clientConfig (settings : Settings) : ClientConfig where
  connectTimeout := Span.ofMillis settings.connectTimeout
  requestTimeout := Span.ofMillis settings.requestTimeout
  scheme := settings.nodeScheme

def logConfig (settings : Settings) : LogConfig :=
  let log := fun name => settings.find? ["replix", "logs", name]
  let standard : LogConfig := {}
  { directory := (log "path").bind Setting.text?
    console := ((log "console").bind Setting.bool?).getD standard.console
    level := (((log "level").bind Setting.text?).bind Level.ofText?).getD
      standard.level
    rotation := (((log "rotation").bind Setting.text?).map Rotation.ofText).getD
      standard.rotation }

end Settings

end Fanout
