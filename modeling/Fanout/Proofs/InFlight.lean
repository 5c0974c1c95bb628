import Fanout.Proofs.Verdict
import Mathlib.Data.List.Perm.Subperm

/-!
# What the pool limits

A job waits for a permit before it calls its node, a probe does not: a round
asks all of its targets as fast as it can, whoever holds the permits. So the
size of the pool limits the deliveries under way, and of all calls under way it
limits no more than what the rounds leave.

What the rounds take is limited by their targets. A probe that is not over is
known to the round it belongs to, as one that it waits for, and a round never
waits for more probes than it has targets. That this is no loose bound shows
`run_startProbe`: in any state a running round can put all the targets that it
has not asked under way at once.
-/

namespace Fanout

/-! ## Two kinds of calls -/

/-- The positions at which a test holds are as many as the elements for which it
does. -/
theorem countP_range_getElem? {α : Type} (p : α → Bool) (l : List α) :
    (List.range l.length).countP (fun k => l[k]?.any p) = l.countP p := by
  induction l with
  | nil => rfl
  | cons a l ih =>
      rw [List.length_cons, List.range_succ_eq_map, List.countP_cons,
        List.countP_map, List.countP_cons, ← ih]
      rfl

namespace Call

theorem isProbe_iff {c : Call} :
    c.isProbe = true ↔ ∃ r, c.purpose = .probe r := by
  unfold isProbe
  cases c.purpose with
  | probe r => exact ⟨fun _ => ⟨r, rfl⟩, fun _ => rfl⟩
  | delivery _ | single => exact ⟨nofun, fun ⟨_, h⟩ => nomatch h⟩

end Call

namespace Engine

/-- The deliveries that are under way. -/
def deliveriesUnderWay (e : Engine) :
    Nat := e.calls.countP fun c => c.isUnderWay && c.isDelivery

/-- The probes that are under way. -/
def probesUnderWay (e : Engine) :
    Nat := e.calls.countP fun c => c.isUnderWay && c.isProbe

/-- The rounds that are running. -/
def runningRounds (e : Engine) : List Round := e.rounds.filter Round.isRunning

section

variable {e e' : Engine} {event : Event}

/-- A call is made for a job or for a round. -/
theorem Linked.inFlight_eq (hl : Linked e) :
    e.inFlight = e.deliveriesUnderWay + e.probesUnderWay := by
  have hkinds : ∀ c ∈ e.calls, c.isProbe = !c.isDelivery := by
    intro c hc
    obtain ⟨k, hk⟩ := List.mem_iff_getElem?.1 hc
    have hsingle := hl.single k c hk
    unfold Call.isProbe Call.isDelivery
    cases hpurpose : c.purpose with
    | probe r | delivery j => rfl
    | single => exact absurd hpurpose hsingle
  unfold inFlight deliveriesUnderWay probesUnderWay
  generalize e.calls = calls at hkinds
  induction calls with
  | nil => rfl
  | cons c calls ih =>
      have hc := hkinds c List.mem_cons_self
      have hrest := ih fun c hc => hkinds c (List.mem_cons_of_mem _ hc)
      simp only [List.countP_cons, hrest, hc]
      cases c.isUnderWay <;> cases c.isDelivery <;> simp <;> omega

/-- Each probe under way is one of those that a running round waits for. -/
theorem Linked.probesUnderWay_le (hl : Linked e) :
    e.probesUnderWay ≤ (e.runningRounds.flatMap Round.asked).length := by
  rw [probesUnderWay, ← countP_range_getElem?, List.countP_eq_length_filter]
  have hnodup : ((List.range e.calls.length).filter
      fun k => e.calls[k]?.any fun c => c.isUnderWay && c.isProbe).Nodup :=
    List.nodup_range.filter _
  refine (hnodup.subperm fun k hk => ?_).length_le
  obtain ⟨c, hc, hprobe⟩ := (Option.any_eq_true ..).1 (List.mem_filter.1 hk).2
  rw [Bool.and_eq_true] at hprobe
  obtain ⟨r, hpurpose⟩ := Call.isProbe_iff.1 hprobe.2
  obtain ⟨round, hround, hphase, hasked⟩ :=
    hl.probes k c r hc hpurpose (Call.isOpen_of_isUnderWay hprobe.1)
  refine List.mem_flatMap.2 ⟨round,
    List.mem_filter.2 ⟨List.mem_of_getElem? hround, ?_⟩, hasked⟩
  exact Round.isRunning_iff.2 hphase

/-! ## Rounds and their targets -/

/-- No round waits for more probes than it has targets that it has asked. -/
def Measured (e : Engine) : Prop :=
  ∀ round ∈ e.rounds, round.asked.length + round.unasked.length ≤
    round.targets.length

theorem Measured.of_transition (hm : e.Measured)
    (h : Transition e event e') : e'.Measured := by
  have hset : ∀ {r : Nat} {old new : Round}, e.rounds[r]? = some old →
      (old.asked.length + old.unasked.length ≤ old.targets.length →
        new.asked.length + new.unasked.length ≤ new.targets.length) →
      ∀ round ∈ e.rounds.set r new,
        round.asked.length + round.unasked.length ≤ round.targets.length := by
    intro r old new hold hnew round hround
    rcases List.mem_or_eq_of_mem_set hround with hround | rfl
    · exact hm round hround
    · exact hnew (hm old (List.mem_of_getElem? hold))
  cases h with
  | aside | refused | admitted | started | arrived | finished => exact hm
  | verified target request id seed nodes =>
      intro round hround
      rcases List.mem_append.1 hround with hround | hround
      · exact hm round hround
      · rw [List.mem_singleton.1 hround]
        exact Nat.le_of_eq (Nat.zero_add _)
  | probed r round node rest hround hphase hunasked =>
      refine hset hround fun hle => ?_
      show (round.asked ++ [e.calls.length]).length + rest.length ≤
          round.targets.length
      rw [hunasked, List.length_cons] at hle
      rw [List.length_append, List.length_singleton]
      omega
  | accepted k c answer r round metrics journal hcall hanswer hpurpose hround =>
      refine hset hround fun hle => Nat.le_trans (Nat.add_le_add_right ?_ _) hle
      exact List.length_erase_le
  | passed k c answer r round s sub registry handle metrics journal hcall
      hanswer hpurpose hround =>
      exact hset hround fun hle =>
        Nat.le_trans (Nat.add_le_add_right (Nat.zero_le _) _) hle
  | turnedDown k c answer r round s sub fault registry metrics journal hcall
      hanswer hpurpose hround =>
      exact hset hround fun hle =>
        Nat.le_trans (Nat.add_le_add_right (Nat.zero_le _) _) hle
  | failed event r round s sub fault calls metrics journal hround =>
      exact hset hround fun hle =>
        Nat.le_trans (Nat.add_le_add_right (Nat.zero_le _) _) hle

theorem measured_of_run {config : EngineConfig}
    {entries : List (Node × Connectivity)} {wants : Bool} {events : List Event}
    (h : (start config (.ofEntries entries) wants).run events = some e) :
    e.Measured :=
  (run_invariant (P := fun _ e => e.Measured)
    (reached_start config entries wants) (fun _ h => nomatch h)
      (fun _ _ _ _ _ _ hm _ ht => hm.of_transition ht) h).1

theorem Measured.asked_le (hm : e.Measured) :
    (e.runningRounds.flatMap Round.asked).length ≤
      (e.runningRounds.flatMap Round.targets).length := by
  have hrounds : ∀ round ∈ e.runningRounds, round.asked.length ≤
      round.targets.length :=
    fun round hround => Nat.le_trans (Nat.le_add_right ..)
      (hm round (List.mem_filter.1 hround).1)
  generalize e.runningRounds = rounds at hrounds
  induction rounds with
  | nil => exact Nat.le_refl _
  | cons round rounds ih =>
      rw [List.flatMap_cons, List.flatMap_cons, List.length_append,
        List.length_append]
      exact Nat.add_le_add (hrounds round List.mem_cons_self)
        (ih fun round hround => hrounds round (List.mem_cons_of_mem _ hround))

/-- A running round can put all its targets that it has not asked under way at
once. -/
theorem run_startProbe {r : Nat} {round : Round}
    (hround : e.rounds[r]? = some round) (hphase : round.phase = .running) :
    ∃ e', e.run (List.replicate round.unasked.length (.startProbe r)) =
      some e' ∧ e'.inFlight = e.inFlight + round.unasked.length := by
  generalize hunasked : round.unasked = unasked
  induction unasked generalizing e round with
  | nil => exact ⟨e, rfl, rfl⟩
  | cons n rest ih =>
      obtain ⟨e₁, hstep⟩ := exists_startProbe hround hphase hunasked
      obtain ⟨n', rest', hunasked', -, -, hcalls, hrounds⟩ :=
        startProbe_frame hround hstep
      cases hunasked.symm.trans hunasked'
      have hround₁ : e₁.rounds[r]? =
          some { round with unasked := rest, asked := round.asked ++
            [e.calls.length] } := by
        rw [hrounds, getElem?_set_of_some hround, if_pos rfl]
      obtain ⟨e', hrun, hmore⟩ := ih hround₁ hphase rfl
      refine ⟨e', ?_, ?_⟩
      · rw [List.length_cons, List.replicate_succ]
        exact run_cons.2 ⟨e₁, hstep, hrun⟩
      · rw [hmore, inFlight_of_opened hcalls rfl, List.length_cons]
        omega

end

/-- The pool limits the deliveries under way to its size, and nothing else. The
probes come on top: those under way are at most as many as the running rounds
have targets, and a running round can have all that it has not asked under way
at once, whoever holds the permits. So the calls under way stay within the size
of the pool just as long as the probes fit into what the deliveries leave, as
they do when no round is running. -/
theorem pool_limits_deliveries {config : EngineConfig}
    {entries : List (Node × Connectivity)} {wants : Bool} {events : List Event}
    {e : Engine}
    (h : (start config (.ofEntries entries) wants).run events = some e)
    (hpool : 1 ≤ config.poolSize) :
    e.inFlight = e.deliveriesUnderWay + e.probesUnderWay ∧
    e.deliveriesUnderWay ≤ config.poolSize ∧
    e.probesUnderWay ≤ (e.runningRounds.flatMap Round.targets).length ∧
    (e.inFlight ≤ config.poolSize ↔
      e.probesUnderWay ≤ config.poolSize - e.deliveriesUnderWay) ∧
    (e.runningRounds = [] → e.inFlight ≤ config.poolSize) ∧
    ∀ (r : Nat) round, e.rounds[r]? = some round → round.isRunning = true →
      ∃ e', e.run (List.replicate round.unasked.length (.startProbe r)) =
        some e' ∧ e'.inFlight = e.inFlight + round.unasked.length := by
  have hr := reached_of_run h
  have hsum := hr.linked.inFlight_eq
  have hprobes :=
    Nat.le_trans hr.linked.probesUnderWay_le (measured_of_run h).asked_le
  have hdeliveries : e.deliveriesUnderWay ≤ config.poolSize := by
    have hle := hr.staffed.countP_underWay_le
    rw [hr.later.config] at hle
    exact Nat.le_trans hle (Nat.max_le.2 ⟨Nat.le_refl _, hpool⟩)
  refine ⟨hsum, hdeliveries,
    hprobes, by omega, fun hnone => ?_, fun r round hround hrunning =>
    run_startProbe hround (Round.isRunning_iff.1 hrunning)⟩
  rw [hnone, List.flatMap_nil, List.length_nil] at hprobes
  omega

/-- With a pool of one, a delivery and both probes of a round are under way at
once. -/
theorem pool_limits_deliveries_of_one :
    let a : Node := ⟨"a", "localhost", 1⟩
    let b : Node := ⟨"b", "localhost", 2⟩
    let config : EngineConfig := { poolSize := 1 }
    let e₀ := start config (.ofEntries [(a, .connected), (b, .connected)])
    let events : List Event :=
      [.submit .allConnected { method := .get, uri := "/" } "r" "s", .startJob,
        .submit .allConnected { method := .put, uri := "/" } "q" "t"]
    1 ≤ config.poolSize ∧ ∃ e, e₀.run events = some e ∧
      e.deliveriesUnderWay ≤ 1 ∧ ∃ round, e.rounds[0]? = some round ∧
        round.isRunning = true ∧
          ∃ e', e.run (List.replicate round.unasked.length (.startProbe 0)) =
            some e' ∧
          e'.inFlight = 3 := by
  intro a b config e₀ events
  have hend : (e₀.run events).map (fun e =>
      (e.inFlight, e.rounds.map fun round =>
        (round.isRunning, round.unasked))) = some (1, [(true, [a, b])]) := by
    decide +kernel
  obtain ⟨e, hrun, hseen⟩ := Option.map_eq_some_iff.1 hend
  rw [Prod.mk.injEq] at hseen
  obtain ⟨hflight, hrounds⟩ := hseen
  obtain ⟨round, hround, hparts⟩ : ∃ round, e.rounds[0]? = some round ∧
      (round.isRunning, round.unasked) = (true, [a, b]) := by
    have hfirst := congrArg (·[0]?) hrounds
    rw [List.getElem?_map] at hfirst
    exact Option.map_eq_some_iff.1 hfirst
  rw [Prod.mk.injEq] at hparts
  obtain ⟨hrunning, hunasked⟩ := hparts
  obtain ⟨-, hdeliveries, -, -, -, hall⟩ :=
    pool_limits_deliveries hrun (Nat.le_refl 1)
  obtain ⟨e', hprobes, hmore⟩ := hall 0 round hround hrunning
  refine ⟨Nat.le_refl 1, e, hrun, hdeliveries, round, hround, hrunning, e',
    hprobes, ?_⟩
  rw [hmore, hflight, hunasked]
  rfl

/-- A change of both members is announced to both at once, in spite of a pool of
one. -/
theorem probes_exceed_pool :
    let a : Node := ⟨"n1", "10.0.0.1", 8080⟩
    let b : Node := ⟨"n2", "10.0.0.1", 8080⟩
    let config : EngineConfig := { poolSize := 1 }
    let events : List Event :=
      [.submit .allConnected { method := .put, uri := "/api/flow" } "req-1" "s",
        .startProbe 0, .startProbe 0]
    1 ≤ config.poolSize ∧ config.poolSize < 2 ∧
      ((start config (.ofEntries [(a, .connected), (b, .connected)])).run
        events).map inFlight = some 2 := by
  decide +kernel

end Engine

end Fanout
