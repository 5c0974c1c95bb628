import Fanout.Proofs.Gate
import Fanout.Proofs.Heading
import Fanout.Proofs.Outcome
import Fanout.Proofs.Owners

/-!
# Every node of a request gets the same

The calls of one request are made at many moments. Its probes are sent while a
round runs, and its deliveries wait for permits; in between other requests come
and go. What they carry was put together once, when the request was handed in,
and nothing on the way puts it together again.

A call is followed back to its submission by what it was made for: a probe by
its round, a delivery by its batch. Identifiers play no part in this, so it
holds as well of requests that happen to share one. Each call was made for one
submission and no other, because every collation has its own handle.
-/

namespace Fanout

/-! ## The seed -/

namespace Request

theorem mem_names_withHeaders {r : Request} (hr : r.headers = [])
    {given : List (String × String)} {n : String} :
    n ∈ (r.withHeaders given).headers.names ↔
      Header.isCallers n = true ∧ ∃ value, (n, value) ∈ given := by
  induction given using List.reverseRecOn with
  | nil =>
      show n ∈ Headers.names r.headers ↔ _
      simp [hr]
  | append_singleton given entry ih =>
      rw [withHeaders_snoc, withHeader]
      by_cases hc : Header.isCallers entry.1 = true
      · rw [if_pos hc, Headers.mem_names_put, ih]
        grind
      · rw [if_neg hc, ih]
        grind

end Request

/-- Whether one of the headers that a caller gives reads like a seed. -/
def bringsSeed (given : List (String × String)) : Bool :=
  given.any fun entry => Text.sameIgnoringCase entry.1 Header.seed

theorem bringsSeed_of_lastGiven {name value : String}
    {given : List (String × String)}
    (hsame : Text.sameIgnoringCase name Header.seed = true)
    (hlast : lastGiven name given = some value) : bringsSeed given = true := by
  induction given using List.reverseRecOn with
  | nil => cases hlast
  | append_singleton given entry ih =>
      rw [lastGiven_snoc] at hlast
      rw [bringsSeed, List.any_append, Bool.or_eq_true]
      by_cases hname : entry.1 = name
      · exact Or.inr (by simp [hname, hsame])
      · exact Or.inl (ih (by simpa [hname] using hlast))

namespace Outbound

variable {id seed : String} {r : Request} {given : List (String × String)}

/-- A seed is made for a request that makes things and brings none. -/
theorem takesSeed_withHeaders :
    takesSeed (Request.withHeaders { r with headers := [] } given) = true ↔
      r.method = .post ∧ bringsSeed given = false := by
  have hmethod : (Request.withHeaders { r with headers := [] } given).method =
      r.method := by
    rw [Request.withHeaders_eq]
  have hbrings :
      (Request.withHeaders { r with headers := [] } given).headers.has
        Header.seed =
      bringsSeed given := by
    rw [Bool.eq_iff_iff, Headers.has_iff, bringsSeed, List.any_eq_true]
    constructor
    · rintro ⟨n, hn, hsame⟩
      obtain ⟨-, value, hmem⟩ := (Request.mem_names_withHeaders rfl).1 hn
      exact ⟨(n, value), hmem, hsame⟩
    · rintro ⟨entry, hmem, hsame⟩
      have hcallers := Header.isCallers_of_same (by decide) hsame
      exact ⟨entry.1, (Request.mem_names_withHeaders rfl).2
        ⟨hcallers, entry.2, hmem⟩, hsame⟩
  rw [takesSeed, hmethod, hbrings, Bool.and_eq_true, beq_iff_eq,
    Bool.not_eq_true']

/-- Of the headers that read like a seed a call has the one that was made, if
one had to be, and else just those that the caller has given. -/
theorem mem_like_seed {name value : String}
    (hsame : Text.sameIgnoringCase name Header.seed = true) :
    (name, value) ∈ (ofGiven id seed r given).headers ↔
      if r.method = .post ∧ bringsSeed given = false then
        (name, value) = (Header.seed, seed)
      else lastGiven name given = some value := by
  have hcallers := Header.isCallers_of_same (by decide) hsame
  rw [mem_iff_valueAt? (guarded_ofGiven id seed r given).ascending.nodup,
    valueAt?_ofGiven, protocolValue_of_isCallers hcallers, if_pos hcallers,
    Option.none_or]
  simp only [takesSeed_withHeaders]
  by_cases htakes : r.method = .post ∧ bringsSeed given = false
  · by_cases hname : Header.seed = name
    · simp [htakes, hname, eq_comm]
    · have hnone : lastGiven name given ≠ some value := fun hlast => by
        rw [bringsSeed_of_lastGiven hsame hlast] at htakes
        cases htakes.2
      simp [htakes, hname, hnone, Ne.symm hname]
  · simp [htakes]

end Outbound

/-! ## What goes out for a submission -/

theorem Request.withHeaders_indicate (r : Request) (indicate : Bool)
    (given : List (String × String)) :
    Request.withHeaders { r with indicate } given =
      { r.withHeaders given with indicate } := by
  induction given using List.reverseRecOn with
  | nil => rfl
  | append_singleton given entry ih =>
      rw [withHeaders_snoc, withHeaders_snoc, ih, withHeader, withHeader]
      split <;> rfl

theorem Submission.outbound_eq {sub : Submission} {r : Request}
    {given : List (String × String)}
    (hrequest : sub.request = Request.withHeaders
      { r with headers := [] } given) :
    sub.outbound = .ofGiven sub.id sub.seed (sub.target.prepare r) given := by
  rw [outbound, Outbound.ofGiven, hrequest]
  cases sub.target with
  | coordinator node =>
      simp only [Target.prepare]
      rw [← Request.withHeaders_indicate]
  | allConnected | nodes nodes => rfl

namespace Engine

/-- A call was made for a submission: its round asks with it, or its batch
delivers with it. -/
inductive MadeFor (e : Engine) (s : Nat) (c : Call) : Prop where
  | probe (r : Nat) (round : Round) (hpurpose : c.purpose = .probe r)
      (hround : e.rounds[r]? = some round)
      (hsubmission : round.submission = some s)
  | delivery (sub : Submission) (handle : Handle)
      (hsub : e.submissions[s]? = some sub)
      (haccepted : sub.phase = .accepted handle)
      (hserving : e.Serving handle c.node c)

/-! ## Handles belong to one submission -/

/-- No two submissions were accepted under one handle. -/
def Unshared (e : Engine) : Prop :=
  ∀ (s s' : Nat) sub sub' handle, e.submissions[s]? = some sub →
    e.submissions[s']? = some sub' → sub.phase = .accepted handle →
    sub'.phase = .accepted handle → s = s'

section

variable {e₀ e e' : Engine} {events : List Event} {event : Event}

/-- What a step accepts gets a handle that there was not before, the engine is
not stopped, and the step decides about nothing else. -/
theorem Transition.accepted_new (h : Transition e event e') {s : Nat}
    {sub : Submission} {handle : Handle} (hsub : e'.submissions[s]? = some sub)
    (hphase : sub.phase = .accepted handle) :
    e.submissions[s]? = some sub ∨ e.isStopped = false ∧
      e.registry.collations.length = handle ∧
      ∀ s' ≠ s, e'.submissions[s']? = e.submissions[s']? := by
  cases h with
  | aside | probed | started | arrived | finished | accepted =>
      exact Or.inl hsub
  | refused | verified =>
      rcases getElem?_concat_cases hsub with hold | ⟨-, rfl⟩
      · exact Or.inl hold
      · cases hphase
  | admitted target request id seed nodes registry handle' metrics
      journal hresolve hround hadmits =>
      rcases getElem?_concat_cases hsub with hold | ⟨rfl, rfl⟩
      · exact Or.inl hold
      · cases hphase
        refine Or.inr ⟨hadmits.running,
          (Registry.handle_of_register hadmits.registered).symm,
            fun s' hs' => ?_⟩
        show (e.submissions ++ [_])[s']? = _
        rw [List.getElem?_append]
        grind
  | passed k c answer r round i sub₁ registry handle' metrics journal hcall
      hanswer hpurpose hround hrunning hasked haccepts hunasked hlast hs
        hsub₁ hadmits =>
      rcases getElem?_set_cases hsub₁ hsub with ⟨rfl, rfl⟩ | ⟨-, hold⟩
      · cases hphase
        refine Or.inr ⟨hadmits.running,
          (Registry.handle_of_register hadmits.registered).symm,
            fun s' hs' => ?_⟩
        exact List.getElem?_set_ne hs'.symm
      · exact Or.inl hold
  | turnedDown k c answer r round i sub₁ fault registry metrics
      journal hcall hanswer hpurpose hround hrunning hasked haccepts hunasked
        hlast hs hsub₁ =>
      rcases getElem?_set_cases hsub₁ hsub with ⟨-, rfl⟩ | ⟨-, hold⟩
      · cases hphase
      · exact Or.inl hold
  | failed event r round i sub₁ fault calls metrics journal hround
      hrunning hs hsub₁ =>
      rcases getElem?_set_cases hsub₁ hsub with ⟨-, rfl⟩ | ⟨-, hold⟩
      · cases hphase
      · exact Or.inl hold

theorem Unshared.of_transition (howned : e.Owned) (hunshared : e.Unshared)
    (h : Transition e event e') : e'.Unshared := by
  intro s s' sub sub' handle hsub hsub' hphase hphase'
  -- A handle that was there before has a collation, so it is not the new one.
  have hnot : ∀ {i : Nat} {other : Submission}, e.submissions[i]? = some other →
      other.phase = .accepted handle →
      e.registry.collations.length ≠ handle := by
    intro i other hother haccepted hlength
    obtain ⟨c, hc, -⟩ := howned.collations i other handle hother haccepted
    exact absurd hc (getElem?_ne_some (Nat.le_of_eq hlength) c)
  rcases h.accepted_new hsub hphase with hold | ⟨-, hnew, hothers⟩
  · rcases h.accepted_new hsub' hphase' with hold' | ⟨-, hnew', -⟩
    · exact hunshared s s' sub sub' handle hold hold' hphase hphase'
    · exact absurd hnew' (hnot hold hphase)
  · by_contra hne
    rw [hothers s' (Ne.symm hne)] at hsub'
    exact hnot hsub' hphase' hnew

/-- A call that was made for a submission is its request, or the probe of it. -/
theorem MadeFor.outbound_eq (hr : Reached e₀ events e) (hprobed : e.Probed)
    {k s : Nat} {c : Call} (hc : e.calls[k]? = some c) (h : MadeFor e s c)
    {sub : Submission} (hsub : e.submissions[s]? = some sub) :
    c.outbound = if c.isProbe then sub.outbound.probe else sub.outbound := by
  cases h with
  | probe r round hpurpose hround hsubmission =>
      obtain ⟨round', hround', hout, -⟩ := hprobed.probes k c r hc hpurpose
      obtain ⟨s', sub', hs', hsub', hout'⟩ := hprobed.owners r round hround
      rw [hround] at hround'
      cases hround'
      rw [hsubmission] at hs'
      cases hs'
      rw [hsub] at hsub'
      cases hsub'
      rw [hout, hout', Call.isProbe, hpurpose]
      rfl
  | delivery sub' handle hsub' haccepted hserving =>
      rw [hsub] at hsub'
      cases hsub'
      obtain ⟨b, -, -, hstanding⟩ := hr.origins.submissions s sub hsub
      unfold Standing at hstanding
      rw [haccepted] at hstanding
      obtain ⟨⟨n, batch, held, hdelivers⟩, -⟩ := hstanding
      rw [hdelivers.outbound_eq hr.staffed hc hserving]
      obtain ⟨j, job, batch', hp, -⟩ := hserving
      rw [Call.isProbe, hp]
      rfl

/-- Every call was made for a submission, and for no other. -/
theorem Reached.madeFor (hr : Reached e₀ events e) (hprobed : e.Probed)
    (hunshared : e.Unshared) {k : Nat} {c : Call} (hc : e.calls[k]? = some c) :
    ∃ s, MadeFor e s c ∧ ∀ s', MadeFor e s' c → s' = s := by
  cases hp : c.purpose with
  | single => exact absurd hp (hr.linked.single k c hc)
  | probe r =>
      obtain ⟨round, hround, -⟩ := hprobed.probes k c r hc hp
      obtain ⟨s, sub, hs, -⟩ := hprobed.owners r round hround
      refine ⟨s, .probe r round hp hround hs, fun s' h => ?_⟩
      cases h with
      | probe r' round' hp' hround' hs' => grind
      | delivery sub' handle hsub' haccepted hserving =>
          obtain ⟨j, job, batch, hp', -⟩ := hserving
          rw [hp] at hp'
          cases hp'
  | delivery j =>
      obtain ⟨job, batch, hj, hb, hnode, -⟩ := hr.staffed.serves k c j hc hp
      obtain ⟨s, sub, hsub, haccepted, -⟩ :=
        hr.origins.batches job.batch batch hb
      refine ⟨s, .delivery sub batch.handle hsub haccepted
        ⟨j, job, batch, hp, hj, hb, rfl, hnode.symm⟩, fun s' h => ?_⟩
      cases h with
      | probe r' round' hp' =>
          rw [hp] at hp'
          cases hp'
      | delivery sub' handle hsub' haccepted' hserving =>
          obtain ⟨j', job', batch', hp', hj', hb', hhandle, -⟩ := hserving
          rw [hp] at hp'
          cases hp'
          rw [hj] at hj'
          cases hj'
          rw [hb] at hb'
          cases hb'
          exact hunshared s' s sub' sub batch.handle hsub' hsub
            (hhandle ▸ haccepted') haccepted

/-! ## Looking up -/

theorem lookUp_eq (id : String) (e : Engine) :
    (e.lookUp id).2 = (e.registry.entry? id).map (·.handle) := by
  show (e.registry.get e.now id).2 = _
  rw [Registry.get]
  split
  · next hnone => rw [hnone, Option.map_none]
  · next entry hentry =>
      rw [hentry, Option.map_some]
      dsimp only
      split <;> rfl

/-- A collation is found under the identifier of its submission and under no
other. -/
theorem Owned.id_of_lookUp (howned : e.Owned) {s : Nat} {sub : Submission}
    {handle : Handle} (hsub : e.submissions[s]? = some sub)
    (haccepted : sub.phase = .accepted handle)
    {id : String} (hfound : (e.lookUp id).2 = some handle) : id = sub.id := by
  rw [lookUp_eq] at hfound
  obtain ⟨entry, hentry, rfl⟩ := Option.map_eq_some_iff.1 hfound
  obtain ⟨c, hc, hid⟩ :=
    howned.sound.placed entry (Registry.mem_of_entry hentry)
  obtain ⟨c', hc', hid'⟩ := howned.collations s sub entry.handle hsub haccepted
  rw [hc] at hc'
  cases hc'
  exact (Registry.id_of_entry hentry).symm.trans (hid.symm.trans hid')

end

section

variable {config : EngineConfig} {entries : List (Node × Connectivity)}
  {wants : Bool} {events : List Event} {e : Engine}

/-- A submission is what some event of the run has handed in. -/
theorem submit_mem_of_run
    (h : (start config (.ofEntries entries) wants).run events = some e)
    {s : Nat} {sub : Submission} (hsub : e.submissions[s]? = some sub) :
    .submit sub.target sub.request sub.id sub.seed ∈ events := by
  obtain ⟨_, hhanded, -⟩ := (reached_of_run h).origins.submissions s sub hsub
  obtain ⟨pre, post, hevents, -⟩ := hhanded.split
  rw [hevents]
  exact List.mem_append_right _ List.mem_cons_self

theorem unshared_of_run
    (h : (start config (.ofEntries entries) wants).run events = some e) :
    e.Unshared :=
  (run_invariant (P := fun _ e => e.Owned ∧ e.Unshared)
    (reached_start config entries wants)
      ⟨owned_start config _ wants, fun _ _ _ _ _ hs => nomatch hs⟩
    (fun _ _ _ _ _ hr ⟨howned, hunshared⟩ _ h =>
      ⟨howned.of_transition hr.origins h,
        hunshared.of_transition howned h⟩) h).1.2

/-- There was a moment at which an accepted submission had just been
accepted. -/
theorem fresh_of_run
    (h : (start config (.ofEntries entries) wants).run events = some e)
    {s : Nat} {sub : Submission} {handle : Handle}
    (hsub : e.submissions[s]? = some sub)
    (haccepted : sub.phase = .accepted handle) :
    ∃ pre post e₁, events = pre ++ post ∧
      (start config (.ofEntries entries) wants).run pre = some e₁ ∧
      e₁.submissions[s]? = some sub ∧ e₁.Fresh sub handle := by
  refine (run_invariant (P := fun events e => e.submissions[s]? = some sub →
    ∃ pre post e₁, events = pre ++ post ∧
      (start config (.ofEntries entries) wants).run pre = some e₁ ∧
      e₁.submissions[s]? = some sub ∧ e₁.Fresh sub handle)
    (reached_start config entries wants) nofun ?_ h).1 hsub
  intro events event e e' hrun _ hP hstep htransition hsub'
  rcases htransition.accepted_cases hsub' haccepted with hold | hfresh
  · obtain ⟨pre, post, e₁, rfl, hpre, hthen⟩ := hP hold
    exact ⟨pre, post ++ [event], e₁, List.append_assoc .., hpre, hthen⟩
  · exact ⟨events ++ [event], [], e', (List.append_nil _).symm,
      run_snoc.2 ⟨e, hrun, hstep⟩, hsub', hfresh⟩

end

/-- Whatever the run, all calls that deliver an accepted request carry the same,
and its probes carry that with one header more. The identifier that a receiver
reads in them is the one under which the collation was found when the request
was accepted, and no other finds it at any time. If the request makes things and
its caller has given no seed, each of them has the one that was drawn when the
request was handed in; else they have just the seeds that the caller has given.
Every call of the run belongs to one request and to no other. -/
theorem same_for_every_node (config : EngineConfig)
    (entries : List (Node × Connectivity)) (wants : Bool) {events : List Event}
    {e : Engine}
    (h : (start config (.ofEntries entries) wants).run events = some e)
    {s : Nat} {sub : Submission} {handle : Handle}
    (hsub : e.submissions[s]? = some sub)
    (haccepted : sub.phase = .accepted handle) {r : Request}
    {given : List (String × String)}
    (hrequest : sub.request = Request.withHeaders
      { r with headers := [] } given) :
    (sub.outbound.method = r.method ∧ sub.outbound.uri = r.uri ∧
      sub.outbound.entity = r.entity) ∧
    (∀ (k : Nat) c, e.calls[k]? = some c → MadeFor e s c →
      (c.isProbe = false → c.outbound = sub.outbound) ∧
      (c.isProbe = true → c.outbound =
        { sub.outbound with headers := c.outbound.headers } ∧
        ∀ entry, entry ∈ c.outbound.headers ↔
          entry = (Header.expectation, Header.expectationValue) ∨
            entry ∈ sub.outbound.headers) ∧
      ∀ l : Headers, l.Perm c.outbound.headers → l.requestId? = some sub.id) ∧
    (∃ pre post e₁, events = pre ++ post ∧
      (start config (.ofEntries entries) wants).run pre = some e₁ ∧
      e₁.submissions[s]? = some sub ∧ (e₁.lookUp sub.id).2 = some handle) ∧
    (∀ id, (e.lookUp id).2 = some handle → id = sub.id) ∧
    (∀ name value, Text.sameIgnoringCase name Header.seed = true →
      ((name, value) ∈ sub.outbound.headers ↔
        if r.method = .post ∧ bringsSeed given = false then
          (name, value) = (Header.seed, sub.seed)
        else lastGiven name given = some value)) ∧
    ∀ (k : Nat) c, e.calls[k]? = some c →
      ∃ s', MadeFor e s' c ∧ ∀ s'', MadeFor e s'' c → s'' = s' := by
  have hr := reached_of_run h
  have hprobed := probed_of_run h
  have hout := Submission.outbound_eq hrequest
  have hprepare : (sub.target.prepare r).method = r.method := by
    cases sub.target <;> rfl
  have hsame : sub.request.method = r.method ∧ sub.request.uri = r.uri ∧
      sub.request.entity = r.entity := by
    rw [hrequest, Request.withHeaders_eq]
    exact ⟨rfl, rfl, rfl⟩
  refine ⟨?_, fun k c hc hmade => ?_, ?_, fun id hfound =>
    ?_, fun name value hname => ?_, fun k c hc =>
      hr.madeFor hprobed (unshared_of_run h) hc⟩
  · obtain ⟨hmethod, huri, hentity⟩ := hsame
    rw [← hmethod, ← huri, ← hentity, Submission.outbound, Outbound.ofRequest]
    cases sub.target <;> exact ⟨rfl, rfl, rfl⟩
  · have hcall := hmade.outbound_eq hr hprobed hc hsub
    cases hprobe : c.isProbe with
    | false =>
        rw [hprobe] at hcall
        refine ⟨fun _ => hcall, by simp, fun l hperm => ?_⟩
        rw [hcall, if_neg Bool.false_ne_true, hout] at hperm
        exact (Outbound.reads_ofGiven _ _ _ _ hperm).requestId
    | true =>
        rw [hprobe, if_pos rfl] at hcall
        refine ⟨by simp, fun _ => ⟨by rw [hcall]; rfl, fun entry => ?_⟩,
          fun l hperm => ?_⟩
        · rw [hcall, hout]
          exact Outbound.mem_probe ..
        · rw [hcall, hout] at hperm
          exact (Outbound.reads_probe _ _ _ _ hperm).requestId
  · obtain ⟨pre, post, e₁, hevents, hpre, hsub₁, hfresh⟩ :=
      fresh_of_run h hsub haccepted
    refine ⟨pre, post, e₁, hevents, hpre, hsub₁, ?_⟩
    rw [lookUp_eq, hfresh.entry]
    rfl
  · exact (owned_of_run h).id_of_lookUp hsub haccepted hfound
  · rw [hout, Outbound.mem_like_seed hname, hprepare]

/-- Somebody else's request is delivered while the nodes are asked. The mark
that the caller has tried to set is not in the call that comes last, and the
seed in it is that of its own request. -/
theorem same_for_every_node_post :
    let a : Node := ⟨"a", "localhost", 1⟩
    let b : Node := ⟨"b", "localhost", 2⟩
    let base : Request := { method := .post, uri := "/" }
    let given := [("accept", "json"), ("x-request-replicated", "false")]
    let e₀ := start {} (.ofEntries [(b, .connected), (a, .connected)]) false
    let events : List Event :=
      [.submit .allConnected (Request.withHeaders
        { base with headers := [] } given) "r" "s",
        .startProbe 0, .startProbe 0, .arrive 1 (.ok { status := 202 }),
        .finish 1,
        .submit (.nodes [b]) { method := .put, uri := "/", verify := false }
          "q" "t",
        .startJob, .advance 7, .arrive 0 (.ok { status := 202 }), .finish 0,
        .startJob,
        .startJob]
    ∃ e sub c, e₀.run events = some e ∧ e.submissions[0]? = some sub ∧
      sub.phase = .accepted 1 ∧ e.calls[4]? = some c ∧ MadeFor e 0 c ∧
      c.node = b ∧
      c.outbound = sub.outbound ∧ (Header.seed, "s") ∈ c.outbound.headers ∧
      c.outbound.headers.requestId? = some "r" := by
  intro a b base given e₀ events
  have hrun : (e₀.run events).map (fun e =>
      (e.submissions.map fun sub => (sub.id, sub.seed, sub.phase),
        e.calls[4]?.map fun c => (c.isProbe, c.node, c.outbound.id))) =
      some ([("r", "s", .accepted 1), ("q", "t", .accepted 0)],
        some (false, b, "r")) := by
    decide +kernel
  obtain ⟨e, he, hseen⟩ := Option.map_eq_some_iff.1 hrun
  rw [Prod.mk.injEq] at hseen
  obtain ⟨hsubmissions, hcall⟩ := hseen
  obtain ⟨c, hc, hseen⟩ := Option.map_eq_some_iff.1 hcall
  simp only [Prod.mk.injEq] at hseen
  obtain ⟨hprobe, hnode, hid⟩ := hseen
  have hget : ∀ i : Nat, e.submissions[i]?.map
      (fun sub => (sub.id, sub.seed, sub.phase)) =
      [("r", "s", .accepted 1), ("q", "t", .accepted 0)][i]? := fun i => by
    rw [← List.getElem?_map, hsubmissions]
  obtain ⟨sub, hsub, hseen⟩ := Option.map_eq_some_iff.1 (hget 0)
  simp only [Prod.mk.injEq] at hseen
  obtain ⟨hsubId, hsubSeed, haccepted⟩ := hseen
  -- The submission was handed in by the one event that has its identifier.
  have hrequest : sub.request =
      Request.withHeaders { base with headers := [] } given := by
    have hmem := submit_mem_of_run he hsub
    rw [hsubId] at hmem
    simp only [events, List.mem_cons, Event.submit.injEq, reduceCtorEq,
      List.not_mem_nil, false_or, or_false] at hmem
    rcases hmem with ⟨-, hrequest, -⟩ | ⟨-, -, hother, -⟩
    · exact hrequest
    · exact absurd hother (by decide)
  obtain ⟨-, hcalls, -, -, hseed, hmade⟩ :=
    same_for_every_node {} _ false he hsub haccepted hrequest
  obtain ⟨s', hmade', -⟩ := hmade 4 c hc
  have hs' : s' = 0 := by
    have hout :=
      fun (sub' : Submission) (hsub' : e.submissions[s']? = some sub') =>
      hmade'.outbound_eq (reached_of_run he) (probed_of_run he) hc hsub'
    cases hmade' with
    | probe r round hpurpose =>
        rw [Call.isProbe, hpurpose] at hprobe
        cases hprobe
    | delivery sub' handle hsub' =>
        have hseen := hget s'
        rw [hsub'] at hseen
        match s', hseen with
        | 0, _ => rfl
        | 1, hseen =>
            simp only [Option.map_some, List.getElem?_cons_succ,
              List.getElem?_cons_zero, Option.some.injEq,
              Prod.mk.injEq] at hseen
            rw [hout sub' hsub', hprobe] at hid
            exact absurd (hseen.1.symm.trans hid) (by decide)
  subst hs'
  obtain ⟨hout, -, hreads⟩ := hcalls 4 c hc hmade'
  refine ⟨e, sub, c, he, hsub, haccepted, hc, hmade', hnode, hout hprobe,
    ?_, ?_⟩
  · rw [hout hprobe, hseed Header.seed "s" (by decide), if_pos (by decide),
      hsubSeed]
  · rw [hreads c.outbound.headers (List.Perm.refl _), hsubId]

end Engine

end Fanout
