import Fanout.Ascending
import Fanout.Notice
import Fanout.Report

/-!
# Collations

A collation gathers the answers to one request. It knows from the start which
nodes it waits for and until when. It is complete once every one of them has an
answer; and when the deadline has passed, the answers still missing are filled
in as timeouts, which makes it complete as well. After that nothing changes.

Nobody watches the clock for a collation. The deadline takes effect whenever the
collation is next looked at, which `settle` does first in every operation; the
moment of completion is therefore the moment at which it was noticed.
-/

namespace Fanout

/-- The answers to one request. -/
structure Collation where
  id : String
  method : Method
  uri : String
  /-- The nodes that are waited for, in ascending order. -/
  expected : List Node
  timeout : Span
  deadline : Instant
  recorded : List (Node × Answer) := []
  completedAt : Option Instant := none

namespace Collation

/-- A collation that starts now. -/
def new (now : Instant) (id : String) (method : Method) (uri : String)
    (expected : List Node) (timeout : Span) : Collation where
  id := id
  method := method
  uri := uri
  expected := ascending expected
  timeout := timeout
  deadline := Instant.deadline now timeout

/-- The answer recorded for a node. -/
def answer? (node : Node) (c : Collation) : Option Answer :=
  valueAt? node c.recorded

/-- The nodes without an answer. -/
def missing (c : Collation) : List Node :=
  c.expected.filter fun node => (c.answer? node).isNone

def isComplete (c : Collation) : Bool :=
  c.completedAt.isSome

/-- The number of answers so far. -/
def count (c : Collation) : Nat :=
  c.recorded.length

/-- Sets the answer of a node. -/
def record (answer : Answer) (c : Collation) : Collation :=
  { c with recorded := putAscending answer.node answer c.recorded }

/-- Fills the missing answers in as timeouts. -/
def fillIn (c : Collation) : Collation :=
  c.missing.foldl (fun c node => c.record (.timeout node c.timeout)) c

/-- Brings a collation up to date: it completes if no answer is missing any
more, or if the deadline has come. -/
def settle (now : Instant) (c : Collation) : Collation :=
  if c.isComplete then c
  else if c.missing.isEmpty then { c with completedAt := some now }
  else if now < c.deadline then c
  else { c.fillIn with completedAt := some now }

/-- Whether an answer would be taken in now. -/
def accepts (now : Instant) (answer : Answer) (c : Collation) : Bool :=
  !(c.settle now).isComplete && c.expected.contains answer.node

/-- Takes an answer in, unless the collation is complete or did not ask for
it. -/
def merge (now : Instant) (answer : Answer) (c : Collation) : Collation :=
  if c.accepts now answer then ((c.settle now).record answer).settle now
  else c.settle now

/-- The view of a collation that is up to date. -/
def view (c : Collation) : Report :=
  let answers := c.expected.filterMap c.answer?
  { id := c.id, method := c.method, uri := c.uri, complete := c.isComplete,
    outcome := if c.isComplete then .ofAnswers answers else .pending,
    answers, pending := c.missing }

/-- The report at a moment. -/
def report (now : Instant) (c : Collation) : Report :=
  (c.settle now).view

/-! ## What is told -/

def settleNotices (now : Instant) (c : Collation) : Journal :=
  if c.isComplete || c.missing.isEmpty || now < c.deadline then []
  else [.collationTimedOut c.id c.timeout c.missing.length]

def mergeNotices (now : Instant) (answer : Answer) (c : Collation) : Journal :=
  c.settleNotices now ++
    if (c.settle now).isComplete then [.answerTooLate answer.node c.id]
    else if !c.expected.contains answer.node then
      [.answerNotAsked answer.node c.id]
    else [.answerMerged answer.node c.id answer.status]

end Collation

end Fanout
