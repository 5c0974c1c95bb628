import Fanout.Collation

/-!
# Waiting for a collation

Somebody who wants to know when a collation is complete waits for it, up to a
limit. A collation that completes calls everybody who listens at that moment,
and nobody else. So a waiter begins to listen before it looks: what happens
between its look and its sleep finds it listening.

At the deadline of the collation nobody calls, because nobody watches the clock
for it. A waiter therefore sleeps until its limit or until the deadline,
whichever comes first, and looks once more before it leaves.

What is one turn here is what happens without anything in between. Between two
turns of a waiter the collation may change and other waiters may have theirs.
-/

namespace Fanout

/-- How far a waiter has come. -/
inductive WaiterPhase where
  /-- Is about to listen. -/
  | awake
  /-- Listens, and is about to look. -/
  | listening (called : Bool)
  /-- Has looked in vain, and listens until it is called or its time is up. -/
  | asleep (called : Bool)
  /-- Its time is up, and it is about to look for the last time. -/
  | leaving
  /-- Is no longer there. At that moment the collation was complete or not. -/
  | left (complete : Bool) (moment : Instant)
  deriving DecidableEq, Repr

/-- Somebody who waits for the completion of a collation. -/
structure Waiter where
  entered : Instant
  /-- How long it is ready to wait. -/
  span : Span
  phase : WaiterPhase := .awake
  deriving DecidableEq, Repr

namespace Waiter

/-- When a waiter gives up. -/
def limit (w : Waiter) : Instant := Instant.deadline w.entered w.span

/-- When a waiter wakes without being called: at its limit, or at the deadline,
at which there is something to notice. -/
def wakeAt (c : Collation) (w : Waiter) : Instant := min w.limit c.deadline

/-- What a waiter has found out, if it has left. -/
def result? (w : Waiter) : Option Bool :=
  match w.phase with
  | .left complete _ => some complete
  | _ => none

def hasLeft (w : Waiter) : Bool := w.result?.isSome

/-- Calls a waiter. One that does not listen does not hear it. -/
def call (w : Waiter) : Waiter :=
  match w.phase with
  | .listening _ => { w with phase := .listening true }
  | .asleep _ => { w with phase := .asleep true }
  | _ => w

/-- What a waiter does next, if there is something to do: the collation as it is
then, since a look brings it up to date, and the waiter. -/
def turn (now : Instant) (c : Collation) (w : Waiter) :
    Option (Collation × Waiter) :=
  let found := c.settle now
  match w.phase with
  | .awake => some (c, { w with phase := .listening false })
  | .listening called =>
    some (found, { w with
      phase := if found.isComplete then .left true now else .asleep called })
  | .asleep true => some (c, { w with phase := .awake })
  | .asleep false =>
    if w.wakeAt c ≤ now then some (c, { w with phase := .leaving }) else none
  | .leaving => some (found, { w with phase := .left found.isComplete now })
  | .left .. => none

/-- More turns than these no waiter ever takes. -/
def mostTurns : Nat := 5

/-- Takes turns until there is nothing to do, or so many. -/
def attend (now : Instant) : Nat → Collation → Waiter → Collation × Waiter
  | 0, c, w => (c, w)
  | turns + 1, c, w =>
    match w.turn now c with
    | some (c, w) => attend now turns c w
    | none => (c, w)

end Waiter

end Fanout
