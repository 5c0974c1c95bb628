import Fanout.Ascending
import Fanout.Text.Case

/-!
# Headers

A header map keeps names as they were given: two names that differ in the case
of a letter are two entries, and a value given later under the very same name
replaces the earlier one. Looking a header up ignores case all the same, since
that is how the receiver of a request will read it.

Two groups of names are set apart. Hop-by-hop headers describe one connection
and are never passed on. Reserved headers carry the protocol of the fan-out and
may come from it alone, or else a caller could pose as another node.
-/

namespace Fanout

/-- Header names with their values, ascending by name. -/
abbrev Headers := List (String × String)

namespace Headers

def put (name value : String) (headers : Headers) : Headers :=
  putAscending name value headers

/-- The value under a name in any case; of several such names the first. -/
def find? (name : String) (headers : Headers) : Option String :=
  (List.find? (fun e => Text.sameIgnoringCase e.1 name) headers).map (·.2)

/-- Whether there is an entry under a name in any case. -/
def has (name : String) (headers : Headers) : Bool :=
  headers.any fun e => Text.sameIgnoringCase e.1 name

end Headers

namespace Header

/-- Carries the identifier of the request on every call to a node. -/
def transactionId : String := "X-RequestTransactionId"

/-- Marks a request that has been fanned out, so that no receiver does it
again. -/
def replicated : String := "X-Request-Replicated"

/-- Marks a probe, which asks whether a node would accept a request. -/
def expectation : String := "X-Validation-Expects"

def expectationValue : String := "202-Accepted"

/-- Names the user, and the proxies passed on the way. -/
def entitiesChain : String := "X-ProxiedEntitiesChain"

/-- Carries one value to all nodes from which they derive equal identifiers. -/
def seed : String := "X-Cluster-Id-Generation-Seed"

def hopByHop : List String :=
  ["host", "content-length", "transfer-encoding", "connection"]

def reserved : List String :=
  [transactionId, replicated, expectation, entitiesChain]

def isHopByHop (name : String) : Bool :=
  hopByHop.any fun h => Text.sameIgnoringCase h name

def isReserved (name : String) : Bool :=
  reserved.any fun h => Text.sameIgnoringCase h name

/-- Whether a caller may set a header of this name. -/
def isCallers (name : String) : Bool :=
  !isHopByHop name && !isReserved name

end Header

/-! ## What a receiver reads -/

namespace Headers

/-- Whether a received request was fanned out by another node. -/
def isReplicated (headers : Headers) : Bool :=
  (headers.find? Header.replicated).any fun v => Text.sameIgnoringCase v "true"

/-- Whether a received request is a probe. -/
def isProbe (headers : Headers) : Bool :=
  (headers.find? Header.expectation).any fun v =>
    Text.sameIgnoringCase v Header.expectationValue

/-- The identifier of a received request. -/
def requestId? (headers : Headers) : Option String :=
  headers.find? Header.transactionId

end Headers

end Fanout
