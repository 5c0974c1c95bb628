import Fanout.Http.Stub
import Fanout.Main
import Fanout.Proofs.Tally
import Fanout.Proofs.Growth
import Fanout.Proofs.Holding
import Fanout.Proofs.Transition
import Fanout.Proofs.Runs
import Fanout.Proofs.Dispatch
import Fanout.Proofs.Pool
import Fanout.Proofs.Delivery
import Fanout.Proofs.Callback
import Fanout.Proofs.Origin
import Fanout.Proofs.Outcome
import Fanout.Proofs.Probing
import Fanout.Proofs.Gate
import Fanout.Proofs.Owners
import Fanout.Proofs.Rejection
import Fanout.Proofs.Reporting
import Fanout.Proofs.WholeCluster
import Fanout.Proofs.Rehearsed
import Fanout.Proofs.Alone
import Fanout.Proofs.Backstage
import Fanout.Proofs.Sleeping
import Fanout.Proofs.Decision
import Fanout.Proofs.Polling
import Fanout.Proofs.Heading
import Fanout.Proofs.Uniform
import Fanout.Proofs.Alongside
import Fanout.Proofs.Shutdown
import Fanout.Proofs.Draining
import Fanout.Proofs.Coordinator
import Fanout.Proofs.Staleness
import Fanout.Proofs.Asking
import Fanout.Proofs.Verdict
import Fanout.Proofs.Acceptance
import Fanout.Proofs.Capacity
import Fanout.Proofs.Gauge
import Fanout.Proofs.Carriage
import Fanout.Proofs.Address
import Fanout.Proofs.Chain
import Fanout.Proofs.Naming
import Fanout.Proofs.Waiting
import Fanout.Proofs.InFlight
import Fanout.Proofs.Spelling
import Fanout.Proofs.Layering
import Fanout.Proofs.Sources
import Fanout.Proofs.Fallback
import Fanout.Proofs.Timeouts
import Fanout.Proofs.Precedence
import Fanout.Proofs.Deciding
import Fanout.Proofs.Startup
