import Fanout.Proofs.Probing

/-!
# The gate

A change that is verified reaches no node before every target was found
connected and has accepted it. The way to show this is backwards: a call that is
no probe was made for a job, its job belongs to a batch, and the batch delivers
a submission that was accepted. If that submission needs a round, then a round
for it has passed, and its probes are what `Probed` says they are. All this is
true of the state in which the call is made, so the probes were accepted before
it.

Calls are recognised by the identifier they carry. It is drawn for each request,
and what is said about a request here supposes that no other request has drawn
it too.
-/

namespace Fanout.Engine

/-! ## Where calls come from -/

/-- Every call that is no probe was made when a job got a permit. -/
def Born (e₀ : Engine) (events : List Event) (e : Engine) : Prop :=
  ∀ (k : Nat) c, e.calls[k]? = some c → (∀ r, c.purpose ≠ .probe r) →
    ∃ pre post e₁, ∃ (j : Nat) (job : Job) (batch : Batch),
      events = pre ++ .startJob :: post ∧ e₀.run pre = some e₁ ∧
      e₁.calls.length = k ∧ e₁.jobs[j]? = some job ∧
      e₁.batches[job.batch]? = some batch ∧ c.node = job.node ∧
      c.outbound = batch.outbound

theorem Born.snoc {e₀ e e' : Engine} {events : List Event} {event : Event}
    (hborn : Born e₀ events e) (hrun : e₀.run events = some e)
    (h : Transition e event e') : Born e₀ (events ++ [event]) e' := by
  intro k c' hc' hreal
  rcases h.later.calls.old_or_new hc' with ⟨c, hc, hcc⟩ | hnew
  · obtain ⟨pre, post, e₁, j, job, batch, hevents, hpre, hlength, hj, hb, hnode,
        hout⟩ :=
      hborn k c hc fun r hp => hreal r (hcc.purpose.trans hp)
    refine ⟨pre, post ++ [event], e₁, j, job, batch, ?_, hpre, hlength, hj, hb,
      hcc.node.trans hnode, hcc.outbound.trans hout⟩
    rw [hevents, List.append_assoc, List.cons_append]
  · obtain ⟨-, -, ⟨r, -, -, -, hp, -⟩ |
        ⟨rfl, hlength, j, job, batch, hj, hb, -, hnode, hout⟩⟩ :=
      h.new_call hnew hc'
    · exact absurd hp (hreal r)
    · exact ⟨events, [], e, j, job, batch, rfl, hrun, hlength, hj, hb,
        hnode, hout⟩

section

variable {config : EngineConfig} {entries : List (Node × Connectivity)}
  {wants : Bool} {events : List Event} {e : Engine}

theorem born_of_run
    (h : (start config (.ofEntries entries) wants).run events = some e) :
    Born (start config (.ofEntries entries) wants) events e :=
  (run_invariant (P := Born (start config (.ofEntries entries) wants))
    (reached_start config entries wants) (fun _ _ hc => nomatch hc)
    (fun _ _ _ _ hrun _ hborn _ h => hborn.snoc hrun h) h).1

theorem probed_of_run
    (h : (start config (.ofEntries entries) wants).run events = some e) :
    e.Probed :=
  (run_invariant (P := fun _ e => e.Probed) (reached_start config entries wants)
    (probed_start config _ wants)
    (fun _ _ _ _ _ hr hprobed _ h => hprobed.of_transition hr.linked h) h).1

theorem inTime_of_run
    (h : (start config (.ofEntries entries) wants).run events = some e)
    (hpunctual : Along Punctual (start config (.ofEntries entries) wants)
      events) :
    e.InTime :=
  (run_invariant
    (P := fun events e =>
      Along Punctual (start config (.ofEntries entries) wants) events →
        e.Probed ∧ e.InTime)
    (reached_start config entries wants)
    (fun _ => ⟨probed_start config _ wants, inTime_start config _ wants⟩)
    (fun _ _ _ _ hrun hr hP _ h hpunctual => by
      obtain ⟨hprobed, htime⟩ := hP hpunctual.of_snoc
      exact ⟨hprobed.of_transition hr.linked h,
        htime.of_transition hr.linked hr.ordered hprobed
          (hpunctual.last hrun) h⟩)
    h).1 hpunctual |>.2

end

/-! ## What a call has behind it -/

/-- A call is a probe of a submission, and its node has accepted it. -/
structure Consent (sub : Submission) (n : Node) (c : Call)
    (a : Answer) : Prop where
  probe : ∃ r, c.purpose = .probe r
  outbound : c.outbound = sub.outbound.probe
  node : c.node = n
  answered : c.phase = .answered a
  status : a.status = 202
  failure : a.failure = none

/-- A call, other than a probe, that carries the identifier of a submission. -/
structure Carries (e : Engine) (sub : Submission) (k : Nat)
    (c : Call) : Prop where
  call : e.calls[k]? = some c
  real : ∀ r, c.purpose ≠ .probe r
  id : c.outbound.id = sub.id

/-- What has happened when a submission is delivered to its targets: it was
handed in, they all were connected at that time, and they all have accepted its
probe since. -/
structure Cleared (e₀ : Engine) (pre : List Event) (b e : Engine) (s : Nat)
    (sub : Submission) (nodes : List Node) : Prop where
  handedIn : HandedIn e₀ pre s sub b
  resolved : sub.target.resolve b.members sub.request = .ok nodes
  connected : ∀ n ∈ nodes, b.members.state? n = some .connected
  consents : ∀ n ∈ nodes, ∃ (k : Nat) (c : Call) (a : Answer), e.calls[k]? =
    some c ∧ Consent sub n c a ∧ (Along Punctual e₀ pre →
      c.endedAt a ≤ Instant.deadline b.now e₀.config.verificationTimeout)

theorem Probed.consent {e : Engine} (hl : Linked e) (hprobed : e.Probed)
    {r k : Nat} {round : Round} {c : Call} {sub : Submission}
    (hr : e.rounds[r]? = some round) (hpassed : round.phase = .passed)
    (hout : round.outbound = sub.outbound) (hc : e.calls[k]? = some c)
    (hp : c.purpose = .probe r) :
    c.node ∈ round.targets ∧ ∃ a, Consent sub c.node c a := by
  obtain ⟨round', hr', hprobe, hmem⟩ := hprobed.probes k c r hc hp
  rw [hr] at hr'
  cases hr'
  obtain ⟨a, ha, haccepts⟩ := hprobed.accepted hl hr hpassed hc hp
  obtain ⟨hfailure, hstatus⟩ := Answer.refusal?_eq_none haccepts
  exact ⟨hmem, a, ⟨r, hp⟩, hout ▸ hprobe, rfl, ha, hstatus, hfailure⟩

/-- The batch of a job delivers an accepted submission. If that needs a round,
it has passed one, and the node of the job was asked in it. -/
theorem Reached.submission_of_job {e₀ e : Engine} {events : List Event}
    (hr : Reached e₀ events e) {j : Nat} {job : Job} {batch : Batch}
    (hj : e.jobs[j]? = some job) (hb : e.batches[job.batch]? = some batch) :
    ∃ (s : Nat) (sub : Submission) (b : Engine), e.submissions[s]? = some sub ∧
      HandedIn e₀ events s sub b ∧ sub.phase = .accepted batch.handle ∧
      batch.outbound = sub.outbound ∧
      (sub.target.needsRound sub.request = true → ∃ (r : Nat) (round : Round),
        e.rounds[r]? = some round ∧ round.phase = .passed ∧ Asks b s sub round ∧
        job.node ∈ round.targets) := by
  obtain ⟨s, sub, hsub, haccepted, hout⟩ :=
    hr.origins.batches job.batch batch hb
  obtain ⟨b, hhanded, -, hstanding⟩ := hr.origins.submissions s sub hsub
  refine ⟨s, sub, b, hsub, hhanded, haccepted, hout, fun hneeds => ?_⟩
  unfold Standing at hstanding
  rw [haccepted] at hstanding
  obtain ⟨⟨n, batch', c, hdelivers⟩, hpassed⟩ := hstanding
  obtain ⟨r, round, hround, hphase, hasks⟩ := hpassed hneeds
  have hn := hr.staffed.eq_of_handle hb hdelivers.found hdelivers.fills.symm
  have hnodes : e.nodesOf n = round.targets :=
    Except.ok.inj (hdelivers.resolved.symm.trans hasks.resolved)
  refine ⟨r, round, hround, hphase, hasks, hnodes ▸ ?_⟩
  exact List.mem_filterMap.2 ⟨job, List.mem_of_getElem? hj, if_pos hn⟩

/-- A submission that is handed in is found with what it was handed in with. -/
theorem HandedIn.becomes {e₀ b : Engine} {events : List Event} {s : Nat}
    {sub sub' : Submission} (h : HandedIn e₀ events s sub b)
    (hsame : sub.Becomes sub') : HandedIn e₀ events s sub' b := by
  obtain ⟨pre, post, hevents, hrun⟩ := h.split
  refine ⟨⟨pre, post, ?_, hrun⟩, h.index⟩
  rw [hsame.target, hsame.request, hsame.id, hsame.seed]
  exact hevents

section

variable {e : Engine} {s : Nat} {sub : Submission}

/-- A call that carries the identifier of a submission delivers it. -/
theorem Carries.serving {e₀ : Engine} {events : List Event}
    (hr : Reached e₀ events e) (hsub : e.submissions[s]? = some sub)
    (hfresh : ∀ (s' : Nat) sub', e.submissions[s']? = some sub' →
      sub'.id = sub.id → s' = s)
    {k : Nat} {c : Call} (h : Carries e sub k c) :
    ∃ handle, sub.phase = .accepted handle ∧ e.Serving handle c.node c := by
  cases hp : c.purpose with
  | probe r => exact absurd hp (h.real r)
  | single => exact absurd hp (hr.linked.single k c h.call)
  | delivery j =>
      obtain ⟨job, batch, hj, hb, hnode, hout, -⟩ :=
        hr.staffed.serves k c j h.call hp
      obtain ⟨s', sub', hsub', haccepted, hout'⟩ :=
        hr.origins.batches job.batch batch hb
      have hid : sub'.id = sub.id := by
        rw [← h.id, hout, hout']
        rfl
      cases hfresh s' sub' hsub' hid
      rw [hsub] at hsub'
      cases hsub'
      exact ⟨batch.handle, haccepted, j, job, batch, hp, hj, hb, rfl,
        hnode.symm⟩

end

/-- A round that has passed clears the submission that it was opened for. -/
theorem cleared_of_passed {config : EngineConfig}
    {entries : List (Node × Connectivity)} {wants : Bool} {pre : List Event}
    {b e : Engine} {s r : Nat} {sub : Submission}
    {round : Round}
    (hpre : (start config (.ofEntries entries) wants).run pre = some e)
    (hhanded : HandedIn (start config (.ofEntries entries) wants) pre s sub b)
    (hround : e.rounds[r]? = some round) (hpassed : round.phase = .passed)
    (hasks : Asks b s sub round) :
    Cleared (start config (.ofEntries entries) wants) pre b e s sub
      round.targets where
  handedIn := hhanded
  resolved := hasks.resolved
  connected _ hn := Membership.state?_of_unconnected? hasks.connected hn
  consents n hn := by
    have hprobed := probed_of_run hpre
    have hasked := hprobed.reached r round hround n hn
    rw [hprobed.passed r round hround hpassed] at hasked
    obtain ⟨k, c, hc, hp, rfl⟩ := hasked.resolve_left List.not_mem_nil
    obtain ⟨-, a, hconsent⟩ :=
      hprobed.consent (reached_of_run hpre).linked hround hpassed
        hasks.outbound hc hp
    refine ⟨k, c, a, hc, hconsent, fun hpunctual => ?_⟩
    -- The deadline of the round is counted from when the submission was handed
    -- in.
    have hdeadline : round.deadline =
        Instant.deadline b.now (start config (.ofEntries entries)
          wants).config.verificationTimeout := by
      obtain ⟨first, -, -, hfirst⟩ := hhanded.split
      rw [hasks.deadline, (reached_of_run hfirst).later.config]
    rw [← hdeadline]
    refine ((inTime_of_run hpre hpunctual).probes k c r round a hc hp hround
      hconsent.answered).resolve_right fun ⟨fault, hfailed⟩ => ?_
    cases hpassed.symm.trans hfailed

/-- A probe that carries the identifier of a submission belongs to its round. -/
theorem Probed.round_of_id {e : Engine} (hprobed : e.Probed) {s : Nat}
    {sub : Submission}
    (hfresh : ∀ (s' : Nat) sub', e.submissions[s']? = some sub' →
      sub'.id = sub.id → s' = s)
    {k r : Nat} {c : Call} (hc : e.calls[k]? = some c)
    (hp : c.purpose = .probe r) (hid : c.outbound.id = sub.id) :
    ∃ round, e.rounds[r]? = some round ∧ round.submission = some s := by
  obtain ⟨round, hround, hout, -⟩ := hprobed.probes k c r hc hp
  obtain ⟨s', sub', hs', hsub', hout'⟩ := hprobed.owners r round hround
  have hs : s' = s := by
    refine hfresh s' sub' hsub' ?_
    rw [← hid, hout, hout']
    rfl
  exact ⟨round, hround, hs ▸ hs'⟩

/-- The probes that carry the identifier of a submission are those of the round
that it has passed. -/
theorem Probed.consent_of_id {b e : Engine} (hl : Linked e) (hprobed : e.Probed)
    {s r : Nat} {sub : Submission} {round : Round}
    (hfresh : ∀ (s' : Nat) sub', e.submissions[s']? = some sub' →
      sub'.id = sub.id → s' = s)
    (hround : e.rounds[r]? = some round) (hpassed : round.phase = .passed)
    (hasks : Asks b s sub round) {k r' : Nat} {c : Call}
    (hc : e.calls[k]? = some c) (hp : c.purpose = .probe r')
    (hid : c.outbound.id = sub.id) :
    c.node ∈ round.targets ∧ ∃ a, Consent sub c.node c a := by
  obtain ⟨round', hround', hs'⟩ := hprobed.round_of_id hfresh hc hp hid
  have hrounds := hprobed.once r' r round' round hround' hround
    (hs'.trans hasks.submission.symm)
  subst hrounds
  exact hprobed.consent hl hround hpassed hasks.outbound hc hp

/-- In every run, for a submission that is verified and whose identifier is its
own: a call, other than a probe, carries this identifier only if before it was
made the submission was handed in, its targets all were connected at that time,
and each of them has accepted its probe since. The call goes to one of these
targets, no other probe of the submission has another outcome, and no other call
goes to the same node. If no round is looked at too late, the probes were
answered in the time for the round. -/
theorem mutation_gate (config : EngineConfig)
    (entries : List (Node × Connectivity)) (wants : Bool) {events : List Event}
    {e : Engine}
    (h : (start config (.ofEntries entries) wants).run events = some e)
    {s : Nat} {sub : Submission} (hsub : e.submissions[s]? = some sub)
    (hneeds : sub.target.needsRound sub.request = true)
    (hfresh : ∀ (s' : Nat) sub', e.submissions[s']? = some sub' →
      sub'.id = sub.id → s' = s) :
    (∀ (k : Nat) c, Carries e sub k c →
      ∃ pre post b e₁ nodes, events = pre ++ .startJob :: post ∧
        (start config (.ofEntries entries) wants).run pre = some e₁ ∧
        e₁.calls.length = k ∧
        Cleared (start config (.ofEntries entries) wants) pre b e₁ s sub nodes ∧
        c.node ∈ nodes ∧ c.outbound = sub.outbound ∧
        ∀ (k' : Nat) c' r, e.calls[k']? = some c' → c'.purpose = .probe r →
          c'.outbound.id = sub.id → c'.node ∈ nodes ∧
          ∃ a, Consent sub c'.node c' a) ∧
    ∀ (k k' : Nat) c c', Carries e sub k c → Carries e sub k' c' →
      c.node = c'.node → k = k' := by
  have hr := reached_of_run h
  have hprobed := probed_of_run h
  refine ⟨fun k c hcarries => ?_, fun k k' c c' hc hc' hnode => ?_⟩
  · obtain ⟨pre, post, e₁, j, job, batch, hevents, hpre, hlength, hj, hb, hnode,
        hout⟩ :=
      born_of_run h k c hcarries.call hcarries.real
    have hr₁ := reached_of_run hpre
    have hlater : Later e₁ e :=
      later_of_run hr₁.linked (run_append hpre (hevents ▸ h))
    obtain ⟨s₁, sub₁, b, hsub₁, hhanded, -, hout₁, hround⟩ :=
      hr₁.submission_of_job hj hb
    -- The submission that is delivered is the one whose identifier the call
    -- carries.
    obtain ⟨sub', hsub', hsame⟩ := hlater.submissions s₁ sub₁ hsub₁
    have hid : sub'.id = sub.id := by
      rw [hsame.id, ← hcarries.id, hout, hout₁]
      rfl
    cases hfresh s₁ sub' hsub' hid
    rw [hsub] at hsub'
    cases hsub'
    rw [hsame.target, hsame.request] at hneeds
    obtain ⟨r, round, hround₁, hpassed, hasks, hmem⟩ := hround hneeds
    have hround' : e.rounds[r]? = some round := by
      refine hlater.round_of_ended hround₁ fun hrunning => ?_
      cases hpassed.symm.trans hrunning
    refine ⟨pre, post, b, e₁, round.targets, hevents, hpre, hlength,
      cleared_of_passed hpre (hhanded.becomes hsame) hround₁ hpassed
        (hasks.later hsame),
      hnode ▸ hmem, ?_, fun k' c' r' hc' hp' hid' => ?_⟩
    · rw [hout, hout₁]
      exact hsame.outbound_eq.symm
    · exact hprobed.consent_of_id hr.linked hfresh hround' hpassed
        (hasks.later hsame) hc' hp' hid'
  · obtain ⟨handle, haccepted, hserving⟩ := hc.serving hr hsub hfresh
    obtain ⟨handle', haccepted', hserving'⟩ := hc'.serving hr hsub hfresh
    rw [haccepted] at haccepted'
    cases haccepted'
    rw [← hnode] at hserving'
    exact hr.filled.eq_of_serving hr.staffed hc.call hserving hc'.call hserving'

/-- Two targets are asked, and one of them leaves after it has accepted. The
call that is made then has both answers behind it. -/
theorem mutation_gate_two_targets :
    let a : Node := ⟨"a", "localhost", 1⟩
    let b : Node := ⟨"b", "localhost", 2⟩
    let e₀ := start {} (.ofEntries [(b, .connected), (a, .connected)]) false
    let events : List Event :=
      [.submit (.nodes [b, a]) { method := .put, uri := "/" } "r" "s",
        .startProbe 0, .startProbe 0, .arrive 1 (.ok { status := 202 }),
        .finish 1, .removeNode b,
        .advance 7, .arrive 0 (.ok { status := 202 }), .finish 0, .startJob]
    ∃ e sub c, e₀.run events = some e ∧ e.submissions[0]? = some sub ∧
      Carries e sub 2 c ∧ ∃ pre b e₁ nodes, e₀.run pre = some e₁ ∧
        e₁.calls.length = 2 ∧ Cleared e₀ pre b e₁ 0 sub nodes ∧
        c.node ∈ nodes := by
  intro a b e₀ events
  have hrun : (e₀.run events).map (fun e =>
      (e.submissions.map fun sub => (sub.id, sub.target.needsRound sub.request),
        e.calls[2]?.map fun c => (c.isDelivery, c.outbound.id))) =
      some ([("r", true)], some (true, "r")) := by
    decide +kernel
  obtain ⟨e, he, hseen⟩ := Option.map_eq_some_iff.1 hrun
  rw [Prod.mk.injEq] at hseen
  obtain ⟨hsubmissions, hcall⟩ := hseen
  obtain ⟨sub, hsub, hsame⟩ := List.map_eq_singleton_iff.1 hsubmissions
  obtain ⟨c, hc, hdelivery⟩ := Option.map_eq_some_iff.1 hcall
  rw [Prod.mk.injEq] at hsame hdelivery
  have hget : e.submissions[0]? = some sub := by rw [hsub]; rfl
  have hcarries : Carries e sub 2 c := by
    refine ⟨hc, fun r hp => ?_, hdelivery.2.trans hsame.1.symm⟩
    cases (isDelivery_of_probe hp).symm.trans hdelivery.1
  have hfresh : ∀ (s' : Nat) sub', e.submissions[s']? = some sub' →
      sub'.id = sub.id → s' = 0 := by
    intro s' sub' hs' _
    have hlt := (List.getElem?_eq_some_iff.1 hs').1
    rw [hsub, List.length_singleton] at hlt
    omega
  obtain ⟨pre, -, b', e₁, nodes, -, hpre, hlength, hcleared, hmem, -⟩ :=
    (mutation_gate {} _ false he hget hsame.2 hfresh).1 2 c hcarries
  exact ⟨e, sub, c, he, hget, hcarries, pre, b', e₁, nodes, hpre, hlength,
    hcleared, hmem⟩

end Fanout.Engine
