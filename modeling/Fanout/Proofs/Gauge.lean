import Fanout.Proofs.Capacity
import Fanout.Proofs.Rejection

/-!
# What the gauge shows

The gauge is set where a request is accepted, where somebody asks for a
collation, and where the engine is stopped. What is held changes at one more
place: a sweep takes out what has expired, and says so to nobody. From then on
the gauge shows too much, until one of the others sets it again.

That is all that can make it wrong. A registration that is refused has purged
the registry as well, but if it is refused for want of room the purge has found
nothing; and no identifier is in use that was freshly drawn. So the gauge is
never too low, and it is too high by as many entries as the sweeps have taken
out since it was last set. `sweptOut` counts those along a run.
-/

namespace Fanout

namespace Registry

/-- A purge takes out as many entries as have expired. -/
theorem size_purge_add {r : Registry} (hr : r.Sound) (now : Instant) :
    (r.purge now).size + r.entries.countP (fun e => r.HasExpired now e) =
      r.size := by
  have hleft : r.unexpired now = r.entries.filter fun e =>
      !decide (r.HasExpired now e) := by
    refine List.filter_congr fun e he => Bool.eq_iff_iff.2 ?_
    have hmem : e ∈ r.unexpired now ↔ e ∈ r.entries ∧ ¬ r.HasExpired now e :=
      mem_unexpired hr
    rw [unexpired, List.mem_filter] at hmem
    simp only [he, true_and] at hmem
    rw [hmem, Bool.not_eq_true', decide_eq_false_iff_not]
  have hpurged := entries_purge_of_placed now fun e he =>
    (hr.placed e he).imp fun _ => And.left
  rw [size, size, hpurged, hleft, ← List.countP_eq_length_filter, Nat.add_comm]
  simpa using (List.length_eq_countP_add_countP _).symm

end Registry

namespace Engine

/-- What the gauge shows. Before it is set there is nothing to show. -/
def shown (e : Engine) : Nat := e.metrics.outstanding.getD 0

/-- Whether a delivery has begun between two states. -/
def hasBegun (e e' : Engine) : Bool := e.batches.length < e'.batches.length

/-- Whether a step sets the gauge: somebody asks for a collation, the engine is
stopped for the first time, or a request is accepted, whose delivery then
begins. -/
def setsGauge (e : Engine) (event : Event) (e' : Engine) : Bool :=
  match event with
  | .lookUp _ => true
  | .shutDown => !e.isStopped
  | _ => e.hasBegun e'

/-- How many entries an event takes out unseen. -/
def sweeps (e : Engine) : Event → Nat
  | .sweep => e.registry.entries.countP fun entry =>
      e.registry.HasExpired e.now entry
  | _ => 0

/-- How many entries the sweeps of a run have taken out since the gauge was last
set, if there were as many before the run. -/
def sweptOut (before : Nat) (e : Engine) : List Event → Nat
  | [] => before
  | event :: events =>
    match e.step event with
    | none => before
    | some e' =>
      let before := if e.setsGauge event e' then 0 else before + e.sweeps event
      sweptOut before e' events

theorem sweptOut_snoc {e₀ e e' : Engine} {events : List Event} {event : Event}
    (hrun : e₀.run events = some e) (hstep : e.step event = some e')
    (before : Nat) : sweptOut before e₀ (events ++ [event]) =
      if e.setsGauge event e' then 0 else sweptOut before e₀ events +
        e.sweeps event := by
  induction events generalizing e₀ before with
  | nil =>
      cases hrun
      rw [List.nil_append, sweptOut.eq_2, hstep]
      rfl
  | cons first events ih =>
      obtain ⟨e₁, hfirst, hrest⟩ := run_cons.1 hrun
      rw [List.cons_append, sweptOut, sweptOut, hfirst]
      exact ih hrest _

/-! ## Where the gauge is set -/

/-- Either the gauge is left alone and no delivery has begun, or one has and the
gauge is set to what is held. -/
inductive Gauged (e e' : Engine) : Prop where
  | left (hgauge : e'.metrics.outstanding = e.metrics.outstanding)
      (hbatches : e'.batches.length = e.batches.length)
  | set (hgauge : e'.metrics.outstanding = some e'.registry.size)
      (hbatches : e.batches.length < e'.batches.length)

theorem Gauged.of_same {e e₁ e' : Engine} (h : Gauged e₁ e')
    (hgauge : e₁.metrics.outstanding = e.metrics.outstanding)
    (hbatches : e₁.batches.length = e.batches.length) : Gauged e e' := by
  cases h with
  | left hgauge' hbatches' =>
      exact .left (hgauge'.trans hgauge) (hbatches'.trans hbatches)
  | set hgauge' hbatches' => exact .set hgauge' (hbatches ▸ hbatches')

theorem Gauged.outstanding {e e' : Engine} (h : Gauged e e') :
    e'.metrics.outstanding =
      if e.hasBegun e' then some e'.registry.size
      else e.metrics.outstanding := by
  rw [hasBegun]
  cases h with
  | left hgauge hbatches =>
      rw [if_neg (by rw [decide_eq_true_iff, hbatches]; exact Nat.lt_irrefl _),
        hgauge]
  | set hgauge hbatches => rw [if_pos (decide_eq_true hbatches), hgauge]

section

variable (e : Engine)

theorem gauged_enroll (s : Nat) (sub : Submission) (nodes : List Node) :
    Gauged e (e.enroll s sub nodes) := by
  unfold enroll takeOn hold
  split
  · exact .left rfl rfl
  · dsimp only
    split
    · exact .left rfl rfl
    · refine .set rfl ?_
      show e.batches.length < (e.batches ++ [_]).length
      rw [List.length_append]
      exact Nat.lt_succ_self _

theorem gauged_failRound (r : Nat) (round : Round) (fault : Fault) :
    Gauged e (e.failRound r round fault) := by
  unfold failRound
  dsimp only
  split
  · exact .left rfl rfl
  · split <;> exact .left rfl rfl

theorem gauged_passIfDone (r : Nat) : Gauged e (e.passIfDone r) := by
  unfold passIfDone passRound
  dsimp only
  split
  · split
    · split
      · exact .left rfl rfl
      · split
        · exact (gauged_enroll ..).of_same rfl rfl
        · exact .left rfl rfl
    · exact .left rfl rfl
  · exact .left rfl rfl

theorem gauged_judge (r : Nat) (round : Round) (call : Nat) (answer : Answer) :
    Gauged e (e.judge r round call answer) := by
  unfold judge
  dsimp only
  split
  · exact (gauged_passIfDone ..).of_same rfl rfl
  · exact (gauged_failRound ..).of_same rfl rfl

theorem gauged_submit (target : Target) (request : Request) (id seed : String) :
    Gauged e (e.submit target request id seed) := by
  unfold submit
  dsimp only
  split
  · exact .left rfl rfl
  · split
    · exact .left rfl rfl
    · split
      · split
        · exact .left rfl rfl
        · exact (gauged_passIfDone ..).of_same rfl rfl
      · exact (gauged_enroll ..).of_same rfl rfl

theorem settle_aside (handle : Handle) :
    (e.settle handle).metrics = e.metrics ∧
      (e.settle handle).batches = e.batches := by
  unfold settle
  split <;> exact ⟨rfl, rfl⟩

theorem merge_aside (handle : Handle) (answer : Answer) :
    (e.merge handle answer).metrics = e.metrics ∧
      (e.merge handle answer).batches = e.batches := by
  unfold merge
  split <;> exact ⟨rfl, rfl⟩

theorem callBack_aside (handle : Handle) :
    (e.callBack handle).metrics = e.metrics ∧
      (e.callBack handle).batches = e.batches := by
  unfold callBack
  split
  · split
    · exact settle_aside e handle
    · exact ⟨rfl, rfl⟩
  · exact ⟨rfl, rfl⟩

theorem gauged_countOff (b : Nat) : Gauged e (e.countOff b) := by
  have hlength : ∀ change : Batch → Batch,
      (e.batches.modify b change).length = e.batches.length := fun change =>
    List.length_modify ..
  unfold countOff
  dsimp only
  split
  · split
    · next batch _ _ =>
        obtain ⟨hmetrics, hbatches⟩ :=
          callBack_aside { e with batches := e.batches.modify b _ } batch.handle
        exact .left (congrArg Metrics.outstanding hmetrics)
          ((congrArg List.length hbatches).trans (hlength _))
    · exact .left rfl (hlength _)
  · exact .left rfl (hlength _)

theorem gauged_finishJob (j : Nat) (answer : Answer) :
    Gauged e (e.finishJob j answer) := by
  unfold finishJob
  split
  · exact .left rfl rfl
  · dsimp only
    split
    · exact .left rfl rfl
    · obtain ⟨hmetrics, hbatches⟩ :=
        merge_aside { e with freePermits := _, jobs := _ } _ answer
      exact (gauged_countOff ..).of_same (congrArg Metrics.outstanding hmetrics)
        (congrArg List.length hbatches)

end

/-- The gauge after a step is what is held then, if the step sets it, and as
before if not. -/
theorem outstanding_of_step {e e' : Engine} {event : Event}
    (h : e.step event = some e') : e'.metrics.outstanding =
      if e.setsGauge event e' then some e'.registry.size
      else e.metrics.outstanding := by
  cases event with
  | lookUp id =>
      cases h
      rfl
  | shutDown =>
      cases h
      unfold shutDown setsGauge
      cases e.isStopped <;> rfl
  | submit target request id seed =>
      cases h
      exact (gauged_submit ..).outstanding
  | look handle =>
      cases h
      obtain ⟨hmetrics, hbatches⟩ := settle_aside e handle
      exact Gauged.outstanding (.left (congrArg Metrics.outstanding hmetrics)
        (congrArg List.length hbatches))
  | arrive | sweep | addNode | setState | removeNode =>
      cases h
      exact Gauged.outstanding (.left rfl rfl)
  | advance now =>
      rw [step] at h
      split at h <;> cases h
      exact Gauged.outstanding (.left rfl rfl)
  | startProbe r =>
      rw [step, startProbe] at h
      obtain ⟨round, -, h⟩ := Option.bind_eq_some_iff.1 h
      split at h <;> cases h
      exact Gauged.outstanding (.left rfl rfl)
  | startJob =>
      rw [step, startJob] at h
      obtain ⟨_, -, h⟩ := Option.bind_eq_some_iff.1 h
      obtain ⟨j, -, h⟩ := Option.bind_eq_some_iff.1 h
      obtain ⟨job, -, h⟩ := Option.bind_eq_some_iff.1 h
      obtain ⟨batch, -, h⟩ := Option.bind_eq_some_iff.1 h
      cases h
      exact Gauged.outstanding (.left rfl rfl)
  | expireRound r =>
      rw [step, expireRound] at h
      obtain ⟨round, -, h⟩ := Option.bind_eq_some_iff.1 h
      split at h
      · obtain ⟨_, -, h⟩ := Option.bind_eq_some_iff.1 h
        cases h
        exact (Gauged.of_same (gauged_failRound ..) rfl rfl).outstanding
      · cases h
  | finish k =>
      rw [step, finish] at h
      obtain ⟨c, -, h⟩ := Option.bind_eq_some_iff.1 h
      obtain ⟨answer, -, h⟩ := Option.bind_eq_some_iff.1 h
      dsimp only at h
      split at h
      · cases h
        exact Gauged.outstanding (.left rfl rfl)
      · cases h
        exact (Gauged.of_same (gauged_finishJob ..) rfl rfl).outstanding
      · obtain ⟨round, -, h⟩ := Option.bind_eq_some_iff.1 h
        cases h
        exact (Gauged.of_same (gauged_judge ..) rfl rfl).outstanding

/-! ## What else changes what is held -/

section

variable {e₀ e e' : Engine} {events : List Event} {event : Event}

theorem not_shared_of_nodup (h : (e.submissions.map (·.id)).Nodup) {s : Nat}
    {sub : Submission} (hsub : e.submissions[s]? = some sub) :
    ¬ e.Shared s sub := by
  rintro ⟨i, other, hne, hother, hid⟩
  have hlt : i < (e.submissions.map (·.id)).length := by
    rw [List.length_map]
    exact (List.getElem?_eq_some_iff.1 hother).1
  refine hne ((List.getElem?_inj hlt h).1 ?_)
  rw [List.getElem?_map, List.getElem?_map, hother, hsub, Option.map_some,
    Option.map_some, hid]

theorem hasBegun_of_concat {batch : Batch}
    (h : e'.batches = e.batches ++ [batch]) : e.hasBegun e' = true := by
  rw [hasBegun, h, List.length_append]
  exact decide_eq_true (Nat.lt_succ_self _)

/-- A step that does not set the gauge changes nothing in what is held, unless
it is a sweep. -/
theorem entries_of_unset (hr : Reached e₀ events e) (howned : e.Owned)
    (hstep : e.step event = some e') (hunset : e.setsGauge event e' = false)
    (hids : (e'.submissions.map (·.id)).Nodup) (hother : event ≠ .sweep) :
    e'.registry.entries = e.registry.entries := by
  have htransition := step_transition hr.linked hstep
  have hlater := htransition.later
  cases htransition with
  | aside event now members isStopped isSweeping registry metrics journal hnow
      hadvance hmembers hregistry hjournal hoperation =>
      rcases hoperation with rfl | ⟨op, hop, rfl⟩
      · rfl
      · cases event with
        | lookUp id => cases hunset
        | look handle =>
            cases hop
            rfl
        | sweep => exact absurd rfl hother
        | shutDown =>
            have hstopped : e.isStopped = true := by
              simpa [setsGauge] using hunset
            have hsame := Option.some.inj hstep
            rw [shutDown, if_pos hstopped] at hsame
            exact congrArg (fun e => e.registry.entries) hsame.symm
        | _ => cases hop
  | refused target request id seed fault isSweeping registry metrics
      journal hregistry hjournal hrefuses =>
      cases hrefuses with
      | stopped | unresolved | unconnected => rfl
      | denied nodes registry fault hrunning hresolve hround hdenies =>
          rcases hdenies.cases howned fun sub handle hsub =>
            absurd hsub (getElem?_ne_some (Nat.le_refl _) sub) with ⟨hentries,
              -⟩ | hshared
          · exact hentries
          · have hnew : (e.submissions ++ [e.handedIn target request id seed
                (.rejected fault)])[e.submissions.length]? = some _ :=
                  List.getElem?_concat_length
            exact (not_shared_of_nodup hids hnew
              (hshared.later hlater ⟨rfl, rfl, rfl, rfl, rfl⟩)).elim
  | verified | probed | started | arrived | finished | accepted | failed => rfl
  | admitted =>
      exact absurd (hasBegun_of_concat rfl) (Bool.eq_false_iff.1 hunset)
  | passed => exact absurd (hasBegun_of_concat rfl) (Bool.eq_false_iff.1 hunset)
  | turnedDown k c answer r round i sub fault registry metrics
      journal hcall hanswer hpurpose hround hrunning hasked haccepts hunasked
        hlast hs hsub hregistry hjournal
      hdenies =>
      rcases hdenies.cases howned
        (hr.origins.not_accepted hround hrunning hs) with
        ⟨hentries, -⟩ | hshared
      · exact hentries
      · have hset :
            (e.submissions.set i { sub with phase := .rejected fault })[i]? =
            some { sub with phase := .rejected fault } := by
          rw [getElem?_set_of_some hsub, if_pos rfl]
        exact (not_shared_of_nodup hids hset
          (hshared.later hlater ⟨rfl, rfl, rfl, rfl, rfl⟩)).elim

/-- Between two moments at which the gauge is set, what is held and what the
sweeps have taken out make up the same sum. -/
theorem size_add_sweeps (hr : Reached e₀ events e) (howned : e.Owned)
    (hstep : e.step event = some e') (hunset : e.setsGauge event e' = false)
    (hids : (e'.submissions.map (·.id)).Nodup) :
    e'.registry.size + e.sweeps event = e.registry.size := by
  by_cases hsweep : event = .sweep
  · subst hsweep
    cases hstep
    exact Registry.size_purge_add howned.sound e.now
  · have hentries := entries_of_unset hr howned hstep hunset hids hsweep
    have hnone : e.sweeps event = 0 := by
      cases event with
      | sweep => exact absurd rfl hsweep
      | _ => rfl
    rw [hnone, Nat.add_zero, Registry.size, Registry.size, hentries]

/-- The identifiers of an earlier state are among those of a later one. -/
theorem Later.nodup_ids (h : Later e e')
    (hids : (e'.submissions.map (·.id)).Nodup) :
    (e.submissions.map (·.id)).Nodup := by
  refine hids.sublist
    (List.IsPrefix.sublist (List.prefix_iff_getElem?.2 fun s hs => ?_))
  rw [List.length_map] at hs
  obtain ⟨sub', hsub', hsame⟩ := h.submissions s _ (List.getElem?_eq_getElem hs)
  rw [List.getElem?_map, hsub', Option.map_some, hsame.id, List.getElem_map]

end

section

variable {config : EngineConfig} {entries : List (Node × Connectivity)}
  {wants : Bool} {events : List Event} {e : Engine}

theorem shown_of_run
    (h : (start config (.ofEntries entries) wants).run events = some e)
    (hids : (e.submissions.map (·.id)).Nodup) :
    e.shown =
      e.registry.size + sweptOut 0 (start config (.ofEntries entries) wants)
        events := by
  refine (run_invariant (P := fun events e => e.Owned ∧
      ((e.submissions.map (·.id)).Nodup → e.shown = e.registry.size +
        sweptOut 0 (start config (.ofEntries entries) wants) events))
    (reached_start config entries wants)
    ⟨owned_start config _ wants, fun _ => rfl⟩ ?_ h).1.2 hids
  intro events event e e' hpre hr ⟨howned, hsum⟩ hstep htransition
  refine ⟨howned.of_transition hr.origins htransition, fun hids' => ?_⟩
  rw [sweptOut_snoc hpre hstep, shown, outstanding_of_step hstep]
  split
  · rfl
  · next hunset =>
      have hsize :=
        size_add_sweeps hr howned hstep (Bool.eq_false_iff.2 hunset) hids'
      have hshown := hsum (htransition.later.nodup_ids hids')
      rw [shown] at hshown
      omega

end

/-- In every run in which no identifier is drawn twice, the gauge shows as many
collations as are held and those that sweeps have taken out since it was last
set. Accepting a request, asking for a collation and the first shutdown set it
to what is held. The other steps leave it as it is, and of these only a sweep
changes what is held. -/
theorem gauge_shows (config : EngineConfig)
    (entries : List (Node × Connectivity)) (wants : Bool) {events : List Event}
    {e : Engine}
    (h : (start config (.ofEntries entries) wants).run events = some e)
    (hids : (e.submissions.map (·.id)).Nodup) :
    e.shown = e.registry.size +
      sweptOut 0 (start config (.ofEntries entries) wants) events ∧
    Along (fun e₁ event => ∀ e₂, e₁.step event = some e₂ →
      if e₁.setsGauge event e₂ then
        e₂.metrics.outstanding = some e₂.registry.size
      else e₂.metrics.outstanding = e₁.metrics.outstanding ∧
        (event = .sweep ∨ e₂.registry.entries = e₁.registry.entries))
      (start config (.ofEntries entries) wants) events := by
  refine ⟨shown_of_run h hids,
    fun pre event post e₁ hevents hpre e₂ hstep => ?_⟩
  have hr₁ := reached_of_run hpre
  have hgauge := outstanding_of_step hstep
  split at hgauge
  · next hset =>
      rw [if_pos hset]
      exact hgauge
  · next hunset =>
      rw [if_neg hunset]
      refine ⟨hgauge, or_iff_not_imp_left.2 fun hother => ?_⟩
      obtain ⟨_, hstep', hpost⟩ := run_cons.1 (run_append hpre (hevents ▸ h))
      cases hstep.symm.trans hstep'
      have hids₂ :=
        (later_of_run (hr₁.step hpre hstep).linked hpost).nodup_ids hids
      exact entries_of_unset hr₁ (owned_of_run hpre) hstep
        (Bool.eq_false_iff.2 hunset) hids₂ hother

/-- Two requests are accepted and answered. The first is taken out by a sweep
that comes too early for the second one, and the gauge shows two until somebody
asks for the second. -/
theorem gauge_shows_one_swept :
    let a : Node := ⟨"a", "localhost", 1⟩
    let config : EngineConfig := { registry := { retention := ⟨10⟩ } }
    let e₀ := start config (.ofEntries [(a, .connected)])
    let events : List Event :=
      [.submit .allConnected { method := .get, uri := "/" } "r" "s", .startJob,
        .arrive 0 (.ok { status := 200 }), .finish 0, .advance 5,
        .submit .allConnected { method := .get, uri := "/" } "q" "t",
        .advance 10, .sweep]
    ∃ e, e₀.run events = some e ∧ e.shown = e.registry.size + 1 ∧
      e.registry.entries = [⟨"q", 1, 5⟩] ∧
      (e.lookUp "q").1.metrics.outstanding =
        some (e.lookUp "q").1.registry.size := by
  intro a config e₀ events
  have hrun : (e₀.run events).map
      (fun e => (e.submissions.map (·.id), e.registry.entries)) =
      some (["r", "q"], [⟨"q", 1, 5⟩]) := by
    decide +kernel
  obtain ⟨e, he, hseen⟩ := Option.map_eq_some_iff.1 hrun
  rw [Prod.mk.injEq] at hseen
  obtain ⟨hids, hentries⟩ := hseen
  have hswept : sweptOut 0 e₀ events = 1 := by decide +kernel
  have hmore : e₀.run (events ++ [.lookUp "q"]) = some (e.lookUp "q").1 :=
    run_snoc.2 ⟨e, he, rfl⟩
  obtain ⟨hshown, -⟩ := gauge_shows config _ false he (by rw [hids]; decide)
  obtain ⟨-, halong⟩ := gauge_shows config _ false hmore (by
    show (e.submissions.map (·.id)).Nodup
    rw [hids]
    decide)
  exact ⟨e, he, hswept ▸ hshown, hentries, halong.last he _ rfl⟩

/-- A request is answered at once, and a sweep takes it out when the retention
time is over. Nothing is held then, and the gauge still shows one. -/
theorem gauge_lags_behind_sweep :
    let n : Node := ⟨"n1", "10.0.0.1", 8080⟩
    let config : EngineConfig := { registry :=
      { retention := .ofMillis 1000, sweepInterval := .ofMillis 500 } }
    let events : List Event :=
      [.submit .allConnected { method := .get, uri := "/api/flow" } "req-1" "s",
        .startJob, .arrive 0 (.ok { status := 200 }), .finish 0,
        .advance (Span.ofMillis 500).nanos,
        .sweep, .advance (Span.ofMillis 1000).nanos, .sweep]
    ((start config (.ofEntries [(n, .connected)])).run events).map
      (fun e => (e.registry.size, e.metrics.outstanding)) =
        some (0, some 1) := by
  decide +kernel

end Engine

end Fanout
