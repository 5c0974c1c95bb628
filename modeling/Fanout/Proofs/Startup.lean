import Fanout.Proofs.Deciding
import Fanout.Proofs.Polling
import Fanout.Proofs.Results
import Fanout.Proofs.Sources

/-!
# What settings can break

A reader of the configuration takes every integer of 64 bits with a sign that is
not negative, and the parts of the program must stand what it takes. A period of
none is made a millisecond, a pool of none gets a permit, and a moment out of
the reach of the clock is replaced by one within. Spans from the settings never
come to that: the clock counts seconds with as many bits as a reader has for
milliseconds.

The pool is the exception. It cannot have as many permits as a reader takes, and
nobody makes them fewer, so a run breaks down as soon as it sets up its engine.
A run that gets past this point has its request accepted or rejected, and goes
on to its end.
-/

namespace Fanout

/-! ## What readers make of numbers -/

theorem readInt?_le {cs : List Char} {n : Int}
    (h : readInt? cs = some n) : n ≤ mostInteger := by
  have hfits := (Option.filter_eq_some_iff.1 h).2
  exact (of_decide_eq_true hfits).2

namespace Setting

theorem nearestInteger_le (x : Binary64) : nearestInteger x ≤ mostInteger := by
  unfold nearestInteger
  split_ifs
  · decide
  · decide
  · exact Int.le_refl _
  · have hleast : leastInteger ≤ mostInteger := by decide
    omega

theorem int?_le {s : Setting} {n : Int}
    (h : s.int? = some n) : n ≤ mostInteger := by
  cases s with
  | bool b => cases b <;> cases h <;> decide
  | int m =>
      rw [int?] at h
      split_ifs at h with hfits
      cases h
      exact hfits.2
  | real x =>
      cases h
      exact nearestInteger_le x
  | text t =>
      rw [int?] at h
      split_ifs at h
      · cases h
        decide
      · cases h
        decide
      · exact readInt?_le h
  | nil | list | table _ => cases h

theorem nat?_eq_some_iff {s : Setting} {n : Nat} :
    s.nat? = some n ↔ s.int? = some (n : Int) := by
  unfold nat?
  cases s.int? with
  | none => exact iff_of_false (fun h => nomatch h) fun h => nomatch h
  | some m =>
      rw [Option.bind_some, Option.some.injEq]
      split
      · rw [Option.some.injEq]
        omega
      · exact iff_of_false (fun h => nomatch h) (by omega)

theorem nat?_le {s : Setting} {n : Nat} (h : s.nat? = some n) :
    (n : Int) ≤ mostInteger :=
  int?_le (nat?_eq_some_iff.1 h)

end Setting

namespace Settings

theorem replication_le (settings : Settings) (name : String) {standard : Nat}
    (h : (standard : Int) ≤ mostInteger) :
    (settings.replication name standard : Int) ≤ mostInteger := by
  unfold replication
  cases hread : (settings.find? ["replix", "replication", name]).bind
    Setting.nat? with
  | none => exact h
  | some n =>
      obtain ⟨value, -, hvalue⟩ := Option.bind_eq_some_iff.1 hread
      exact Setting.nat?_le hvalue

/-- A pool that is larger than the standard one has been asked for. -/
theorem lt_workerPoolSize_iff (settings : Settings) {bound : Nat}
    (hbound : 20 ≤ bound) : bound < settings.workerPoolSize ↔ ∃ value n,
      settings.find? ["replix", "replication", "worker-pool-size"] =
        some value ∧ Setting.int? value = some ((n : Nat) : Int) ∧
          bound < n := by
  unfold workerPoolSize replication
  cases hread :
      (settings.find? ["replix", "replication", "worker-pool-size"]).bind
      Setting.nat? with
  | none =>
      refine iff_of_false (Nat.not_lt.2 hbound) ?_
      rintro ⟨value, n, hvalue, hn, -⟩
      rw [hvalue, Option.bind_some, Setting.nat?_eq_some_iff.2 hn] at hread
      cases hread
  | some size =>
      obtain ⟨value, hvalue, hsize⟩ := Option.bind_eq_some_iff.1 hread
      rw [Option.getD_some]
      have hsize' : bound < (if size = 0 then 20 else size) ↔ bound < size := by
        split <;> omega
      refine hsize'.trans ⟨fun hlt =>
        ⟨value, size, hvalue, Setting.nat?_eq_some_iff.1 hsize, hlt⟩, ?_⟩
      rintro ⟨value', n, hvalue', hn, hlt⟩
      rw [hvalue, Option.some.injEq] at hvalue'
      rw [hvalue', Setting.nat?_eq_some_iff.2 hn, Option.some.injEq] at hsize
      rwa [hsize] at hlt

end Settings

/-! ## What the clock can represent -/

namespace Instant

/-- A moment that the clock can represent is the deadline and the end of a
timer. -/
theorem exact_of_lt {t : Instant} {span : Span} (h : t + span.nanos < limit) :
    deadline t span = t + span.nanos ∧ timer t span = t + span.nanos := by
  have hafter : after? t span = some (t + span.nanos) := if_pos h
  rw [deadline, timer, hafter]
  exact ⟨rfl, rfl⟩

/-- Whatever a span is, the clock can represent what becomes of it. -/
theorem timer_lt_limit {t : Instant}
    (h : t + (Span.ofDays (365 * 30)).nanos < limit)
    (span : Span) : timer t span < limit := by
  unfold timer after?
  split
  · next hlt => exact hlt
  · exact h

end Instant

namespace Settings

/-- The spans that the parts of the program are given. -/
def spans (settings : Settings) : List Span :=
  let engine := settings.engineConfig
  let client := settings.clientConfig
  [engine.responseTimeout, engine.verificationTimeout, engine.nodeTimeout,
    engine.registry.retention, engine.registry.sweepPeriod,
    client.connectTimeout,
    client.requestTimeout]

/-- The span of the greatest number of milliseconds that a reader takes. -/
def longestSpan : Span := Span.ofMillis mostInteger.toNat

theorem ofMillis_replication_le (settings : Settings) (name : String)
    {standard : Nat} (h : (standard : Int) ≤ mostInteger) :
    (Span.ofMillis (settings.replication name standard)).nanos ≤
      longestSpan.nanos := by
  have hle := settings.replication_le name h
  exact Nat.mul_le_mul_right _ (by omega)

theorem spans_le (settings : Settings) :
    ∀ span ∈ settings.spans, span.nanos ≤ longestSpan.nanos := by
  simp only [spans, List.forall_mem_cons, List.not_mem_nil, false_imp_iff,
    implies_true, and_true]
  refine ⟨?_, ?_, ?_, ?_, ?_, ?_, ?_⟩
  · exact settings.ofMillis_replication_le "response-timeout" (by decide)
  · exact settings.ofMillis_replication_le "verification-timeout" (by decide)
  · exact settings.ofMillis_replication_le "request-timeout" (by decide)
  · exact settings.ofMillis_replication_le "retention" (by decide)
  · exact Nat.max_le.2
      ⟨settings.ofMillis_replication_le "sweep-interval" (by decide), by decide⟩
  · exact settings.ofMillis_replication_le "connect-timeout" (by decide)
  · exact settings.ofMillis_replication_le "request-timeout" (by decide)

/-- What the parts of the program need: a permit at least, a period of a
millisecond at least, and moments that the clock can represent. It can represent
the true ones wherever there is room for the longest of the spans, and their
substitutes until the last thirty years. -/
structure Bearable (settings : Settings) : Prop where
  permits : 1 ≤ settings.engineConfig.permits
  sweepPeriod : (Span.ofMillis 1).nanos ≤
    settings.engineConfig.registry.sweepPeriod.nanos
  exact : ∀ span ∈ settings.spans, ∀ t, t + longestSpan.nanos < Instant.limit →
    Instant.deadline t span = t + span.nanos ∧
    Instant.timer t span = t + span.nanos
  representable : ∀ span ∈ settings.spans, ∀ t,
    t + (Span.ofDays (365 * 30)).nanos < Instant.limit →
      Instant.deadline t span < Instant.limit ∧
      Instant.timer t span < Instant.limit

theorem bearable (settings : Settings) : settings.Bearable where
  permits := Nat.le_max_right _ _
  sweepPeriod := Nat.le_max_right _ _
  exact span hspan _ hroom :=
    Instant.exact_of_lt (Nat.lt_of_le_of_lt
      (Nat.add_le_add_left (settings.spans_le span hspan) _) hroom)
  representable span _ t hroom :=
    ⟨Nat.lt_of_le_of_lt (Instant.deadline_le_timer t span)
      (Instant.timer_lt_limit hroom span), Instant.timer_lt_limit hroom span⟩

end Settings

/-! ## Runs that break down -/

namespace Errand

open Rehearsal (Calm Decided)

/-- A request that has been decided about leads a run to its end. -/
theorem rehearsal_conclude (e : Errand) {entries : List (Node × Connectivity)}
    {target : Target} {request : Request} {s : Rehearsal} {sub : Submission}
    (h : Decided e.settings.engineConfig entries target request s sub)
    (hdecided : s.roundOf? 0 = none) : (e.conclude 0 s).rehearsal.isSome := by
  have hget : s.engine.submissions[0]? = some sub := congrArg (·[0]?) h.only
  cases hphase : sub.phase with
  | accepted handle => simp [conclude, hget, hphase]
  | rejected fault => simp [conclude, hget, hphase]
  | verifying round =>
      rw [(Rehearsal.roundOf?_of_only h.only round).2 hphase] at hdecided
      cases hdecided

/-- A run whose pool can be set up comes to its end. -/
theorem rehearsal_carryOut (e : Errand) {world : World}
    (hknown : ∀ place r, (world.network place r).isSome)
    (hpermits : e.settings.engineConfig.permits ≤ mostPermits) :
    (e.carryOut world).rehearsal.isSome := by
  have hcalm := e.calm_rehearsal hknown
  obtain ⟨sub, hfirst, hdecided⟩ := hcalm.replicate rfl e.target e.request
  have hover := hcalm.roundOf?_replicate rfl rfl e.target e.request
  unfold carryOut
  rw [if_neg (Nat.not_lt.2 hpermits)]
  dsimp only
  rw [hfirst]
  exact e.rehearsal_conclude hdecided hover

theorem carryOut_eq_crashed_iff (e : Errand) {world : World}
    (hknown : ∀ place r, (world.network place r).isSome) :
    e.carryOut world = .crashed ↔
      mostPermits < e.settings.engineConfig.permits := by
  constructor
  · intro hcrashed
    by_contra hpermits
    have hended := e.rehearsal_carryOut hknown (Nat.not_lt.1 hpermits)
    rw [hcrashed] at hended
    cases hended
  · exact fun hpermits => if_pos hpermits

/-- Whatever a setting is, the parts of the program get what they can work with,
with one exception, and a run breaks down in no other case: the value of the
pool size converts to an integer that is more than a pool can have of permits.
Every other run has its request accepted or rejected, and comes to its end. -/
theorem crashes_by_pool_size_alone (e : Errand) (world : World)
    (hknown : ∀ place r, (world.network place r).isSome) :
    e.settings.Bearable ∧
      (e.carryOut world = .crashed ↔ ∃ value n,
        e.settings.find? ["replix", "replication", "worker-pool-size"] =
          some value ∧ Setting.int? value = some ((n : Nat) : Int) ∧
            mostPermits < n) ∧
      ((e.carryOut world).rehearsal.isSome ↔
        e.settings.engineConfig.permits ≤ mostPermits) := by
  have hcrashed := e.carryOut_eq_crashed_iff hknown
  refine ⟨e.settings.bearable, ?_, ?_⟩
  · rw [hcrashed, ← e.settings.lt_workerPoolSize_iff (by decide)]
    have hsome : 1 ≤ mostPermits := by decide
    show mostPermits < max e.settings.workerPoolSize 1 ↔ _
    omega
  · refine ⟨fun hended => ?_, e.rehearsal_carryOut hknown⟩
    rw [← Nat.not_lt, ← hcrashed]
    intro heq
    rw [heq] at hended
    cases hended

/-- The largest pool that there can be does its work. -/
theorem crashes_by_pool_size_alone_at_limit :
    let pool : Settings := [("replix", .table [("replication", .table [
      ("worker-pool-size", .int 2305843009213693951)])])]
    let e : Errand := {
      settings := pool
      nodes := [⟨"n1", "127.0.0.1", 8080⟩]
      target := .allConnected
      request := { method := .get, uri := "/api/flow" }
      pause := .ofMillis 100 }
    let reply := Text.utf8 "HTTP/1.1 200 OK\r\nContent-Length: 2\r\n\r\nok"
    let world : World :=
      { network := fun _ _ => some (.replied .zero (.ofMillis 5) .zero reply) }
    pool.engineConfig.permits = mostPermits ∧ e.carryOut world ≠ .crashed ∧
      (e.carryOut world).rehearsal.isSome := by
  intro pool e reply world
  have hpermits : pool.engineConfig.permits = mostPermits := by decide +kernel
  obtain ⟨-, hcrashed, hended⟩ :=
    crashes_by_pool_size_alone e world fun _ _ => rfl
  refine ⟨hpermits, fun heq => ?_, hended.2 (Nat.le_of_eq hpermits)⟩
  have hran := hended.2 (Nat.le_of_eq hpermits)
  rw [heq] at hran
  cases hran

/-- A variable asks for a pool that is too large, and the run breaks down for
it. -/
theorem crashed_by_pool_size :
    let reply := Text.utf8 "HTTP/1.1 200 OK\r\nContent-Length: 2\r\n\r\nok"
    let world : World := {
      environment :=
        [("REPLIX__REPLICATION__WORKER-POOL-SIZE", "4611686018427387904")]
      network := fun _ _ => some (.replied .zero (.ofMillis 5) .zero reply) }
    let words := ["/api/flow", "-n", "n1@127.0.0.1:8080"]
    ∃ a settings, ∃ e : Errand, Arguments.read words world.environment = .ok a ∧
      a.settings world.files world.environment = .ok settings ∧
      ofArguments settings a = .ok e ∧
      mostPermits < e.settings.engineConfig.permits ∧
      e.carryOut world = .crashed ∧ (world.run words).rehearsal.isNone := by
  intro reply world words
  let a : Arguments := { uri := "/api/flow", nodes := ["n1@127.0.0.1:8080"] }
  have hread : Arguments.read words world.environment = .ok a := by
    decide +kernel
  have hended : (world.run words).rehearsal.isNone := by decide +kernel
  have hlarge :
      ((a.settings world.files world.environment).toOption.any fun settings =>
      (ofArguments settings a).toOption.any fun e =>
        mostPermits < e.settings.engineConfig.permits) =
          true := by decide +kernel
  obtain ⟨settings, hsettings, hlarge⟩ := (Option.any_eq_true _ _).1 hlarge
  obtain ⟨e, herrand, hlarge⟩ := (Option.any_eq_true _ _).1 hlarge
  exact ⟨a, settings, e, hread, ok_of_toOption hsettings,
    ok_of_toOption herrand, of_decide_eq_true hlarge,
    if_pos (of_decide_eq_true hlarge), hended⟩

end Errand

end Fanout
