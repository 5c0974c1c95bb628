import Fanout.Program.Ending

/-!
# What is still to be found out

A run in a network that is known in part may rest on guesses. Its earliest
guesses are about calls that are made whatever comes of any other guess, so
these are the requests to send next. When there is none left the run is known to
its end.
-/

namespace Fanout

/-- A request that is to be sent before a run can be known. -/
structure Inquiry where
  /-- The place of its call. -/
  place : Nat
  started : Instant
  /-- After this time nothing that comes of it counts. -/
  limit : Span
  request : Http.HttpRequest

namespace Ending

/-- The guesses of a run as inquiries. -/
def guesses (e : Ending) : List Inquiry :=
  match e.rehearsal with
  | none => []
  | some s =>
    let config := s.engine.config
    (s.engine.calls.zip s.plans).zipIdx.filterMap fun ((c, plan), place) =>
      if plan.isGuess then
        plan.sent.map fun request =>
          { place, started := c.started, request
            limit := ⟨min plan.delay.nanos
              (min c.timeout.nanos config.responseTimeout.nanos)⟩ }
      else none

/-- The inquiries to make next. No call comes before these that is not known, so
they are made in every run that agrees with what is known. -/
def inquiries (e : Ending) : List Inquiry :=
  e.guesses.filter fun i => e.guesses.all fun other => i.started ≤ other.started

end Ending

end Fanout
