import Fanout.Request

/-!
# What goes out to the nodes

Every node of one logical request gets the same call: the caller's headers with
those of the protocol on top. A `POST` makes things that need identifiers, and
all nodes must choose equal ones, so it carries a seed unless the caller gave
one. A probe is the same call with one more header.
-/

namespace Fanout

/-- A call as it goes to a node. -/
structure Outbound where
  id : String
  method : Method
  uri : String
  entity : Option Json
  headers : Headers

namespace Outbound

/-- The headers of a call, with the seed to use where one is needed. -/
def headersOf (id seed : String) (r : Request) : Headers :=
  let headers := r.headers.put Header.transactionId id
  let headers :=
    if r.indicate then headers.put Header.replicated "true" else headers
  let headers :=
    match r.user with
    | some user => headers.put Header.entitiesChain user.chain
    | none => headers
  if r.method == .post && !headers.has Header.seed then
    headers.put Header.seed seed
  else headers

/-- The call of a request under an identifier. -/
def ofRequest (id seed : String) (r : Request) : Outbound where
  id := id
  method := r.method
  uri := r.uri
  entity := r.entity
  headers := headersOf id seed r

/-- The same call as a probe. -/
def probe (o : Outbound) : Outbound :=
  { o with headers := o.headers.put Header.expectation Header.expectationValue }

/-- The value of a header, whatever the case of its name. -/
def header? (o : Outbound) (name : String) : Option String :=
  o.headers.find? name

end Outbound

end Fanout
