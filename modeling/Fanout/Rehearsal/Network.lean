import Fanout.Http.Client
import Fanout.Rehearsal.Script

/-!
# Networks

Between the engine and its nodes there is a network, and all that a run has to
know of it is what came of each request that was sent. A network may be known in
part. A call that it knows nothing of gets a guess, which is marked as one: a
run with a guess in it says what is to be found out next, and a run without any
is what would have happened.

A request that cannot be made is never sent, so its call fails at once. All
other calls take some time, and the client does not wait for ever: it gives up
on a connection that is not there in time, and on a reply that has not come to
its end in time. What the network says is what would have come of the request
without that.

A reply may lead the client on to another address. The request that it makes
there, and whether a reply leads on at all, are for its transport to tell, so
the network says that too. How often the client goes along is its own affair,
and its time for the call does not begin again on the way.
-/

namespace Fanout

/-- What would come of a request that was sent, if nobody gave up on it. -/
inductive Echo where
  /-- There is no connection, which is known after a while. -/
  | unreachable (after : Span)
  /-- There is a connection after a while, some time later the reply begins, and
  some time later still nothing more comes. -/
  | replied (connecting waiting reading : Span) (bytes : Text.Bytes)
  /-- There is a connection after a while, and some time later a reply that
  leads on to a next request, of which something comes in turn. -/
  | ledOn (connecting waiting : Span) (next : Http.HttpRequest) (echo : Echo)

/-- What is known to have come of the request of each call. -/
abbrev Network := Nat → Http.HttpRequest → Option Echo

namespace ClientConfig

/-- How often a client lets itself be led on. -/
def mostLeads : Nat := 10

/-- The time of a call at which a client stops waiting for a connection that it
began to wait for at some time of the call. -/
def connectLimit (config : ClientConfig) (spent : Nat) : Nat :=
  min (spent + config.connectTimeout.nanos) config.requestTimeout.nanos

/-- The time of a call at which a reply begins, or else the time at which the
client gives up. -/
def begun (config : ClientConfig) (spent : Nat) (connecting waiting : Span) :
    Except Nat Nat :=
  let moment := spent + connecting.nanos + waiting.nanos
  if config.connectTimeout.nanos < connecting.nanos then
    .error (config.connectLimit spent)
  else if config.requestTimeout.nanos ≤ moment then
    .error config.requestTimeout.nanos
  else .ok moment

variable {config : ClientConfig} {spent : Nat} {connecting waiting : Span}

theorem begun_le {ended : Nat}
    (h : config.begun spent connecting waiting = .error ended) :
    ended ≤ config.requestTimeout.nanos := by
  unfold begun at h
  dsimp only at h
  split at h
  · cases h
    exact Nat.min_le_right _ _
  split at h
  · cases h
    exact Nat.le_refl _
  · cases h

theorem begun_lt {moment : Nat}
    (h : config.begun spent connecting waiting = .ok moment) :
    moment < config.requestTimeout.nanos := by
  unfold begun at h
  dsimp only at h
  split at h
  · cases h
  split at h
  · cases h
  · next hlate =>
    cases h
    exact Nat.lt_of_not_le hlate

end ClientConfig

namespace Echo

/-- What a client makes of an echo to a request that it sends at some time of a
call, and the time of the call at which it does. It can still be led on some
times. -/
def outcome (config : ClientConfig) :
    Echo → Nat → Nat → Http.HttpRequest → Span × CallResult
  | unreachable after, _, spent, r =>
    (⟨min (spent + after.nanos) (config.connectLimit spent)⟩,
      .error (Http.sendingFault r.url))
  | replied connecting waiting reading bytes, _, spent, r =>
    match config.begun spent connecting waiting with
    | .error ended => (⟨ended⟩, .error (Http.sendingFault r.url))
    | .ok begun =>
      let ended := begun + reading.nanos
      if config.requestTimeout.nanos ≤ ended then
        (config.requestTimeout, .error (Http.bodyFault r.url))
      else (⟨ended⟩, Http.result r bytes)
  | ledOn connecting waiting next echo, leads, spent, r =>
    match config.begun spent connecting waiting with
    | .error ended => (⟨ended⟩, .error (Http.sendingFault r.url))
    | .ok begun =>
      match leads with
      | 0 => (⟨begun⟩, .error (Http.leadingFault r.url))
      | leads + 1 =>
        if next.url.isWeb then echo.outcome config leads begun next
        else (⟨begun⟩, .error (Http.requestFault next.url))

variable {config : ClientConfig} {spent : Nat}

/-- Nothing takes longer than the client waits, however often it is led on. -/
theorem outcome_le (e : Echo) (leads spent : Nat) (r : Http.HttpRequest) :
    (e.outcome config leads spent r).1.nanos ≤ config.requestTimeout.nanos := by
  induction e generalizing leads spent r with
  | unreachable after =>
    exact Nat.le_trans (Nat.min_le_right _ _) (Nat.min_le_right _ _)
  | replied connecting waiting reading bytes =>
    unfold outcome
    split
    · next hended => exact ClientConfig.begun_le hended
    · dsimp only
      split
      · exact Nat.le_refl _
      · next hended => exact Nat.le_of_lt (Nat.lt_of_not_le hended)
  | ledOn connecting waiting next echo ih =>
    unfold outcome
    split
    · next hended => exact ClientConfig.begun_le hended
    · next hbegun =>
      split
      · exact Nat.le_of_lt (ClientConfig.begun_lt hbegun)
      split
      · exact ih _ _ _
      · exact Nat.le_of_lt (ClientConfig.begun_lt hbegun)

/-- A reply is one that came to its end before the client gave up. -/
theorem outcome_of_reply {e : Echo} {leads : Nat} {r : Http.HttpRequest}
    {reply : Reply} (h : (e.outcome config leads spent r).2 = .ok reply) :
    (e.outcome config leads spent r).1.nanos < config.requestTimeout.nanos := by
  induction e generalizing leads spent r with
  | unreachable after => cases h
  | replied connecting waiting reading bytes =>
    unfold outcome at h ⊢
    split at h
    · cases h
    · dsimp only at h ⊢
      split at h
      · cases h
      · next hended =>
        rw [if_neg hended]
        exact Nat.lt_of_not_le hended
  | ledOn connecting waiting next echo ih =>
    unfold outcome at h ⊢
    split at h
    · cases h
    · split at h
      · cases h
      split at h
      · next hweb =>
        rw [if_pos hweb]
        exact ih h
      · cases h

end Echo

namespace Script

/-- The script of nodes behind a network. -/
def ofNetwork (config : ClientConfig) (network : Network) :
    Script := fun place c =>
  let notices := [Http.sendingNotice config c.node c.outbound]
  match Http.request config c.node c.outbound with
  | .error fault => { result := .error fault, notices }
  | .ok r =>
    match network place r with
    | some echo =>
      let (delay, result) := echo.outcome config ClientConfig.mostLeads 0 r
      { delay, result, sent := some r, notices }
    | none =>
      { delay := config.requestTimeout,
        result := .error (Http.sendingFault r.url),
        sent := some r, notices, isGuess := true }

/-- No call to such a node takes longer than the client waits. -/
theorem delay_ofNetwork_le (config : ClientConfig) (network : Network)
    (place : Nat) (c : Call) :
    (ofNetwork config network place c).delay.nanos ≤
      config.requestTimeout.nanos := by
  rw [ofNetwork]
  split
  · exact Nat.zero_le _
  · split
    · exact Echo.outcome_le _ _ _ _
    · exact Nat.le_refl _

/-- Nothing is guessed of a network that is known. -/
theorem isGuess_ofNetwork {config : ClientConfig} {network : Network}
    (h : ∀ place r, (network place r).isSome) (place : Nat) (c : Call) :
    (ofNetwork config network place c).isGuess = false := by
  rw [ofNetwork]
  split
  · rfl
  · next r _ =>
    obtain ⟨echo, hecho⟩ := Option.isSome_iff_exists.1 (h place r)
    simp [hecho]

end Script

end Fanout
