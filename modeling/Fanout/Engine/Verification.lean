import Fanout.Engine.Admission

/-!
# Verification

Before a change is delivered its targets are asked, each by a probe, whether
they would accept it. The answer that accepts is one particular status; another
success will not do. A round passes when every probe has been accepted. The
first probe that is not ends it, and then the probes still under way are given
up and the targets not yet asked are not asked at all.
-/

namespace Fanout

/-- Why an answer to a probe does not accept the request, if it does not. -/
def Answer.refusal? (a : Answer) : Option String :=
  match a.failure with
  | some failure => some failure.message
  | none =>
    if a.status = acceptedStatus then none
    else
      some ("answered " ++ toString a.status ++ " instead of " ++
        toString acceptedStatus ++ ": " ++ a.bodyText)

namespace Engine

/-- Sets how a round stands. -/
def setRound (r : Nat) (change : Round → Round) (e : Engine) : Engine :=
  { e with rounds := e.rounds.modify r change }

/-- Opens a round for targets that are all connected. -/
def openRound (outbound : Outbound) (targets : List Node) (timeout : Span)
    (submission : Option Nat) (e : Engine) : Engine :=
  { e.tell [.verifying outbound.method outbound.uri targets.length
    outbound.id] with
    metrics := { e.metrics with verifications := e.metrics.verifications + 1 }
    rounds := e.rounds ++
      [{ outbound, targets, timeout, deadline := Instant.deadline e.now timeout,
         submission, unasked := targets }] }

/-- Probes the next target of a round. -/
def startProbe (r : Nat) (e : Engine) : Option Engine := do
  let round ← e.rounds[r]?
  match round.phase, round.unasked with
  | .running, node :: rest =>
    let call := e.calls.length
    let opened := e.openCall node round.outbound.probe (.probe r) round.timeout
    return opened.setRound r fun round =>
      { round with unasked := rest, asked := round.asked ++ [call] }
  | _, _ => none

/-- Ends a round with a fault and rejects its submission. -/
def failRound (r : Nat) (round : Round) (fault : Fault) (e : Engine) : Engine :=
  let e := (e.abandonCalls round.asked).setRound r fun round =>
    { round with asked := [], phase := .failed fault }
  match round.submission with
  | none => e
  | some s =>
    match e.submissions[s]? with
    | some sub => e.reject s sub fault
    | none => e

/-- Ends a round in which every target has accepted, and admits its
submission. -/
def passRound (r : Nat) (round : Round) (e : Engine) : Engine :=
  let e := (e.tell [.allAccepted round.outbound.id]).setRound r fun round =>
    { round with phase := .passed }
  match round.submission with
  | none => e
  | some s =>
    match e.submissions[s]? with
    | some sub => e.enroll s sub round.targets
    | none => e

/-- Passes a round if there is nothing left to ask or to wait for. -/
def passIfDone (r : Nat) (e : Engine) : Engine :=
  match e.rounds[r]? with
  | some round =>
    match round.phase, round.unasked, round.asked with
    | .running, [], [] => e.passRound r round
    | _, _, _ => e
  | none => e

/-- Judges a probe of a running round. -/
def judge (r : Nat) (round : Round) (call : Nat) (answer : Answer)
    (e : Engine) : Engine :=
  let e :=
    e.setRound r fun round => { round with asked := round.asked.erase call }
  match answer.refusal? with
  | none => e.passIfDone r
  | some reason =>
    let fault := .verificationFailed answer.node.display reason
    (e.tell [.refused answer.node round.outbound.id reason]).failRound r
      { round with asked := round.asked.erase call } fault

/-- Ends a round whose deadline has come. The probes have the same time as the
round, so this is seen only where no clock can represent that time. -/
def expireRound (r : Nat) (e : Engine) : Option Engine := do
  let round ← e.rounds[r]?
  match round.phase with
  | .running =>
    guard (round.deadline ≤ e.now)
    let pending := round.asked.filterMap fun c => e.calls[c]?
    let late := ascending (pending.map (·.node) ++ round.unasked)
    let fault := .verificationFailed ((late.head?.map Node.display).getD "")
      ("no answer within " ++ round.timeout.text)
    return (e.tell [.roundTimedOut round.outbound.id round.timeout]).failRound r
      round fault
  | _ => none

end Engine

end Fanout
