import Fanout.Proofs.Alongside
import Fanout.Proofs.Uniform

/-!
# Shutting down

A shutdown does three things to three kinds of requests. What was dispatched
before goes on to its end, as it would have without the shutdown. What was still
being verified comes to nothing, also if all its nodes accept it, because the
engine looks again whether it was stopped before it admits anything. What is
handed in later is turned away.

From the shutdown on nothing is held, so nothing is found. That is kept by every
step, since only an admission puts an entry into the registry.

All this is about a shutdown between two events. Where threads share an engine
one can come in the middle of an admission, and the parts of an admission tell
what it finds there: the engine is not asked again whether it was stopped, so
the request is delivered, and it may be held from then on.
-/

namespace Fanout.Engine

/-! ## Only the shutdown stops -/

section

variable (e : Engine)

theorem isStopped_enroll (s : Nat) (sub : Submission) (nodes : List Node) :
    (e.enroll s sub nodes).isStopped = e.isStopped := by
  rcases e.enroll_cases s sub nodes with
    ⟨fault, registry, metrics, journal, -, -, -, heq⟩ |
    ⟨registry, handle, metrics, journal, -, -, heq⟩
  · rw [heq]
  · rw [heq]

theorem isStopped_failRound (r : Nat) (round : Round) (fault : Fault) :
    (e.failRound r round fault).isStopped = e.isStopped := by
  unfold failRound
  dsimp only
  split
  · rfl
  · split <;> rfl

theorem isStopped_passIfDone (r : Nat) :
    (e.passIfDone r).isStopped = e.isStopped := by
  unfold passIfDone passRound
  dsimp only
  split
  · split
    · split
      · rfl
      · split
        · exact isStopped_enroll ..
        · rfl
    · rfl
  · rfl

theorem isStopped_judge (r : Nat) (round : Round) (call : Nat)
    (answer : Answer) :
    (e.judge r round call answer).isStopped = e.isStopped := by
  unfold judge
  dsimp only
  split
  · exact isStopped_passIfDone ..
  · exact isStopped_failRound ..

theorem isStopped_submit (target : Target) (request : Request)
    (id seed : String) :
    (e.submit target request id seed).isStopped = e.isStopped := by
  unfold submit
  dsimp only
  split
  · rfl
  · split
    · rfl
    · split
      · split
        · rfl
        · rw [isStopped_passIfDone]
          rfl
      · rw [isStopped_enroll]

theorem isStopped_settle (handle : Handle) :
    (e.settle handle).isStopped = e.isStopped := by
  unfold settle
  split <;> rfl

theorem isStopped_merge (handle : Handle) (answer : Answer) :
    (e.merge handle answer).isStopped = e.isStopped := by
  unfold merge
  split <;> rfl

theorem isStopped_countOff (b : Nat) :
    (e.countOff b).isStopped = e.isStopped := by
  unfold countOff callBack
  dsimp only
  split
  · split
    · split
      · split
        · exact isStopped_settle ..
        · rfl
      · rfl
    · rfl
  · rfl

theorem isStopped_finishJob (j : Nat) (answer : Answer) :
    (e.finishJob j answer).isStopped = e.isStopped := by
  unfold finishJob
  split
  · rfl
  · dsimp only
    split
    · rfl
    · exact (isStopped_countOff ..).trans (isStopped_merge ..)

end

theorem isStopped_step {e e' : Engine} {event : Event}
    (h : e.step event = some e') (hother : event ≠ .shutDown) :
    e'.isStopped = e.isStopped := by
  cases event with
  | shutDown => exact absurd rfl hother
  | submit target request id seed =>
      cases h
      exact isStopped_submit ..
  | look handle =>
      cases h
      exact isStopped_settle ..
  | arrive | lookUp | sweep | addNode | setState | removeNode =>
      cases h
      rfl
  | advance now =>
      rw [step] at h
      split at h <;> cases h
      rfl
  | startProbe r =>
      rw [step, startProbe] at h
      obtain ⟨round, -, h⟩ := Option.bind_eq_some_iff.1 h
      split at h <;> cases h
      rfl
  | startJob =>
      rw [step, startJob] at h
      obtain ⟨_, -, h⟩ := Option.bind_eq_some_iff.1 h
      obtain ⟨j, -, h⟩ := Option.bind_eq_some_iff.1 h
      obtain ⟨job, -, h⟩ := Option.bind_eq_some_iff.1 h
      obtain ⟨batch, -, h⟩ := Option.bind_eq_some_iff.1 h
      cases h
      rfl
  | expireRound r =>
      rw [step, expireRound] at h
      obtain ⟨round, -, h⟩ := Option.bind_eq_some_iff.1 h
      split at h
      · obtain ⟨_, -, h⟩ := Option.bind_eq_some_iff.1 h
        cases h
        exact isStopped_failRound ..
      · cases h
  | finish k =>
      rw [step, finish] at h
      obtain ⟨c, -, h⟩ := Option.bind_eq_some_iff.1 h
      obtain ⟨answer, -, h⟩ := Option.bind_eq_some_iff.1 h
      dsimp only at h
      split at h
      · cases h
        rfl
      · cases h
        exact isStopped_finishJob ..
      · obtain ⟨round, -, h⟩ := Option.bind_eq_some_iff.1 h
        cases h
        exact isStopped_judge ..

theorem isStopped_shutDown (e : Engine) : e.shutDown.isStopped = true := by
  unfold shutDown
  split
  · next hstopped => exact hstopped
  · rfl

theorem stays_stopped {e e' : Engine} {event : Event}
    (h : e.step event = some e') (hstopped : e.isStopped = true) :
    e'.isStopped = true := by
  by_cases hevent : event = .shutDown
  · subst hevent
    cases h
    exact isStopped_shutDown e
  · rw [isStopped_step h hevent]
    exact hstopped

/-! ## Nothing is held -/

section

variable {e₀ e e' : Engine} {events more : List Event} {event : Event}

theorem alongside_self (hf : e.Filled) (hstopped : e.isStopped = true)
    (hempty : e.registry.entries = []) : Alongside e e where
  stopped := hstopped
  empty := hempty
  config := rfl
  wantsCallback := rfl
  now := rfl
  rounds := rfl
  calls := rfl
  freePermits := rfl
  callbacks := rfl
  merged := rfl
  batches := ⟨[], (List.append_nil _).symm⟩
  jobs := ⟨[], (List.append_nil _).symm, fun _ h => nomatch h⟩
  collations handle c hc := by
    obtain ⟨held, hagrees, -⟩ := hf handle c hc
    exact ⟨c, hc, hagrees.akin⟩

/-- A stopped engine holds nothing. -/
def Emptied (e : Engine) : Prop := e.isStopped = true → e.registry.entries = []

theorem Emptied.of_step (hl : Linked e) (hf : e.Filled) (h : e.Emptied)
    (hstep : e.step event = some e') : e'.Emptied := by
  intro hstopped'
  by_cases hstopped : e.isStopped = true
  · -- It goes on alongside itself, and what is alongside another engine holds
    -- nothing.
    have hnext := (alongside_self hf hstopped (h hstopped)).step hl hstep
    split at hnext
    · exact hnext.empty
    · obtain ⟨b, -, hnext⟩ := hnext
      exact hnext.empty
  · have hevent : event = .shutDown := by
      by_contra hother
      exact hstopped (isStopped_step hstep hother ▸ hstopped')
    subst hevent
    cases hstep
    unfold shutDown
    rw [if_neg hstopped]
    rfl

/-- A shutdown changes nothing for the deliveries. -/
theorem alongside_shutDown (hf : e.Filled) (h : e.Emptied) :
    Alongside e.shutDown e := by
  by_cases hstopped : e.isStopped = true
  · exact (alongside_self hf hstopped (h hstopped)).shutDown_left
  · unfold shutDown
    rw [if_neg hstopped]
    exact {
      stopped := rfl
      empty := rfl
      config := rfl
      wantsCallback := rfl
      now := rfl
      rounds := rfl
      calls := rfl
      freePermits := rfl
      callbacks := rfl
      merged := by
        show merged e.journal =
            merged (e.journal ++ ([.registryStopped _] ++ [.stopped]))
        rw [merged_append, merged_eq_nil (j := [_] ++ _) rfl, List.append_nil]
      batches := ⟨[], (List.append_nil _).symm⟩
      jobs := ⟨[], (List.append_nil _).symm, fun _ h => nomatch h⟩
      collations := fun handle c hc => by
        obtain ⟨held, hagrees, -⟩ := hf handle c hc
        exact ⟨c, hc, hagrees.akin⟩ }

/-! ## Nothing is admitted -/

/-- What there is since a shutdown: nothing has been accepted, and what was
handed in was turned away without a round. -/
structure Closed (e₁ e : Engine) : Prop where
  accepted : ∀ (s : Nat) sub handle, e.submissions[s]? = some sub →
    sub.phase = .accepted handle → e₁.submissions[s]? = some sub
  turnedAway : ∀ (s : Nat) sub, e₁.submissions.length ≤ s →
    e.submissions[s]? = some sub → sub.phase = .rejected .stopped
  rounds : ∀ (r : Nat) round (s : Nat), e.rounds[r]? = some round →
    round.submission = some s → s < e₁.submissions.length

theorem Transition.turned_away (hstopped : e.isStopped = true)
    (h : Transition e event e') {s : Nat} {sub : Submission}
    (hnew : e.submissions.length ≤ s) (hsub : e'.submissions[s]? = some sub) :
    sub.phase = .rejected .stopped := by
  have hnot : e.isStopped ≠ false := by simp [hstopped]
  cases h with
  | aside | probed | started | arrived | finished | accepted =>
      exact absurd hsub (getElem?_ne_some hnew sub)
  | passed | turnedDown | failed =>
      exact absurd hsub (getElem?_set_ne_some hnew sub _)
  | verified target request id seed nodes metrics journal hrunning =>
      exact absurd hrunning hnot
  | admitted target request id seed nodes registry handle metrics
      journal hresolve hround hadmits => exact absurd hadmits.running hnot
  | refused target request id seed fault isSweeping registry metrics
      journal hregistry hjournal hrefuses =>
      obtain ⟨-, rfl⟩ := eq_of_getElem?_concat hnew hsub
      cases hrefuses with
      | stopped => rfl
      | unresolved _ hrunning | unconnected _ _ hrunning
      | denied _ _ _ hrunning =>
          exact absurd hrunning hnot

theorem closed_shutDown (hprobed : e.Probed) : Closed e e.shutDown := by
  have hsame : e.shutDown.submissions = e.submissions ∧
      e.shutDown.rounds = e.rounds := by
    unfold shutDown
    split <;> exact ⟨rfl, rfl⟩
  refine ⟨fun s sub handle hsub _ => ?_, fun s sub hnew hsub =>
    ?_, fun r round s hr hs => ?_⟩
  · rw [hsame.1] at hsub
    exact hsub
  · rw [hsame.1] at hsub
    exact absurd hsub (getElem?_ne_some hnew sub)
  · rw [hsame.2] at hr
    obtain ⟨s', sub, hs', hsub, -⟩ := hprobed.owners r round hr
    rw [hs] at hs'
    cases hs'
    exact (List.getElem?_eq_some_iff.1 hsub).1

theorem Closed.of_transition {e₁ : Engine} (ho : Origins e₀ events e)
    (hstopped : e.isStopped = true) (hclosed : Closed e₁ e)
    (h : Transition e event e') : Closed e₁ e' where
  accepted s sub handle hsub hphase := by
    rcases h.accepted_new hsub hphase with hold | ⟨hrunning, -⟩
    · exact hclosed.accepted s sub handle hold hphase
    · rw [hstopped] at hrunning
      cases hrunning
  turnedAway s sub' hlate hsub' := by
    by_cases hlt : s < e.submissions.length
    · have hsub := List.getElem?_eq_getElem hlt
      have hphase := hclosed.turnedAway s _ hlate hsub
      have hkept :=
        h.submission_of_decided ho
          hsub fun r hv => by rw [hphase] at hv; cases hv
      rw [hsub'] at hkept
      cases hkept
      exact hphase
    · exact h.turned_away hstopped (Nat.le_of_not_lt hlt) hsub'
  rounds r round' s hr' hs := by
    rcases h.later.rounds.old_or_new hr' with ⟨round, hr, hrr⟩ | hnew
    · exact hclosed.rounds r round s hr (hrr.submission ▸ hs)
    · cases hstopped.symm.trans (h.new_round_needed hnew hr').1

theorem Closed.run {e₁ : Engine} (hr : Reached e₀ events e)
    (hrun : e₀.run events = some e) (hstopped : e.isStopped = true)
    (hclosed : Closed e₁ e) (hmore : e.run more = some e') : Closed e₁ e' := by
  induction more generalizing events e with
  | nil =>
      cases hmore
      exact hclosed
  | cons event more ih =>
      obtain ⟨e₂, hstep, hmore⟩ := run_cons.1 hmore
      exact ih (hr.step hrun hstep) (run_snoc.2 ⟨e, hrun, hstep⟩)
        (stays_stopped hstep hstopped)
          (hclosed.of_transition hr.origins hstopped
            (step_transition hr.linked hstep)) hmore

end

theorem emptied_of_run {config : EngineConfig}
    {entries : List (Node × Connectivity)} {wants : Bool} {events : List Event}
    {e : Engine}
    (h : (start config (.ofEntries entries) wants).run events = some e) :
    e.Emptied :=
  (run_invariant (P := fun _ e => e.Emptied)
    (reached_start config entries wants) (fun _ => rfl)
    (fun _ _ _ _ _ hr hemptied hstep _ =>
      hemptied.of_step hr.linked hr.filled hstep) h).1

/-- A run is stopped after any of its events, perhaps not for the first time.
From then on nothing is held, and no look-up finds anything. Every request
handed in after that is rejected because the engine was stopped, and nobody is
called for it. A request that was still being verified is never accepted, and of
its calls all are probes. For the others it makes no difference: the same
events, without the shutdowns and the requests that come later, lead to the same
calls, the same merges, the same callbacks, and to the same report on every
request that had been accepted before. -/
theorem after_shutDown (config : EngineConfig)
    (entries : List (Node × Connectivity)) (wants : Bool)
    {pre post : List Event} {e₁ e : Engine}
    (h₁ : (start config (.ofEntries entries) wants).run pre = some e₁)
    (h : e₁.run (.shutDown :: post) = some e) :
    (e.registry.entries = [] ∧ ∀ id, (e.lookUp id).2 = none) ∧
    (∀ (s : Nat) sub, e₁.submissions.length ≤ s → e.submissions[s]? = some sub →
      sub.phase = .rejected .stopped ∧
      ∀ (k : Nat) c, e.calls[k]? = some c → ¬ MadeFor e s c) ∧
    (∀ (s : Nat) sub₁ r, e₁.submissions[s]? = some sub₁ →
      sub₁.phase = .verifying r → ∃ sub, e.submissions[s]? = some sub ∧
        ((∃ r', sub.phase = .verifying r') ∨
          ∃ fault, sub.phase = .rejected fault) ∧
        ∀ (k : Nat) c, e.calls[k]? = some c → MadeFor e s c →
          c.isProbe = true) ∧
    ∃ e', e₁.run (post.filter fun event => !event.isEntrance) = some e' ∧
      e'.calls = e.calls ∧ merged e'.journal = merged e.journal ∧
      e'.callbacks = e.callbacks ∧
      ∀ (s : Nat) sub handle, e₁.submissions[s]? = some sub →
        sub.phase = .accepted handle →
        ∃ report, e.report? handle = some report ∧
          e'.report? handle = some report := by
  have hr₁ := reached_of_run h₁
  have hstep : e₁.step .shutDown = some e₁.shutDown := rfl
  obtain ⟨_, hstopping, hpost⟩ := run_cons.1 h
  cases hstopping
  have hr₂ := hr₁.step h₁ hstep
  have hlater : Later e₁ e := later_of_run hr₁.linked h
  obtain ⟨e', hrun', halong⟩ :=
    (alongside_shutDown hr₁.filled (emptied_of_run h₁)).run hr₂.linked hpost
  have hclosed : Closed e₁ e := (closed_shutDown (probed_of_run h₁)).run hr₂
    (run_snoc.2 ⟨e₁, h₁, hstep⟩) (isStopped_shutDown e₁) hpost
  refine ⟨⟨halong.empty, fun id => ?_⟩, fun s sub hlate hsub => ?_,
    fun s sub₁ r hsub₁ hverifying => ?_, e', hrun', halong.calls, halong.merged,
    halong.callbacks, fun s sub handle hsub haccepted => ?_⟩
  · rw [lookUp_eq, Registry.entry?, halong.empty]
    rfl
  · have hphase := hclosed.turnedAway s sub hlate hsub
    refine ⟨hphase, fun k c hc hmade => ?_⟩
    -- A call would need a round for it, and there is none, or that it was
    -- accepted.
    cases hmade with
    | probe r round hpurpose hround hsubmission =>
        exact absurd (hclosed.rounds r round s hround hsubmission)
          (Nat.not_lt.2 hlate)
    | delivery sub' handle hsub' haccepted =>
        rw [hsub] at hsub'
        cases hsub'
        rw [hphase] at haccepted
        cases haccepted
  · obtain ⟨sub, hsub, -⟩ := hlater.submissions s sub₁ hsub₁
    have hnever : ∀ handle, sub.phase ≠ .accepted handle := by
      intro handle haccepted
      have hold := hclosed.accepted s sub handle hsub haccepted
      rw [hsub₁] at hold
      cases hold
      rw [hverifying] at haccepted
      cases haccepted
    refine ⟨sub, hsub, ?_, fun k c hc hmade => ?_⟩
    · cases hphase : sub.phase with
      | verifying r' => exact Or.inl ⟨r', rfl⟩
      | accepted handle => exact absurd hphase (hnever handle)
      | rejected fault => exact Or.inr ⟨fault, rfl⟩
    · cases hmade with
      | probe r round hpurpose => rw [Call.isProbe, hpurpose]
      | delivery sub' handle hsub' haccepted =>
          rw [hsub] at hsub'
          cases hsub'
          exact absurd haccepted (hnever handle)
  · obtain ⟨c₁, hc₁, -⟩ :=
      (owned_of_run h₁).collations s sub handle hsub haccepted
    obtain ⟨c, hc, -⟩ := hlater.collations handle c₁ hc₁
    have hreport : e.report? handle = some (c.report e.now) := by
      rw [report?, Registry.collation?, hc]
      rfl
    exact ⟨_, hreport, (halong.report?_eq hc).trans hreport⟩

/-- The shutdown comes while one request is being delivered and another is being
verified. The node accepts the second one, which would have been admitted, and
answers the first one, which is called back as it would have been. -/
example :
    let a : Node := ⟨"a", "localhost", 1⟩
    let b : Node := ⟨"b", "localhost", 2⟩
    let e₀ := start {} (.ofEntries [(a, .connected), (b, .connected)]) true
    let pre : List Event :=
      [.submit (.nodes [a]) { method := .put, uri := "/", verify := false }
        "r" "s", .startJob, .submit (.nodes [b]) { method := .put, uri := "/" }
          "q" "t", .startProbe 0]
    let post : List Event :=
      [.submit .allConnected { method := .get, uri := "/" } "p" "u",
        .arrive 1 (.ok { status := 202 }), .finish 1, .shutDown, .advance 5,
        .arrive 0 (.ok { status := 200 }), .finish 0]
    let seen := fun e : Engine =>
      (e.submissions.map fun sub => sub.phase, e.callbacks.length,
        e.registry.size)
    (e₀.run (pre ++ .shutDown :: post)).map seen =
        some ([.accepted 0, .rejected .stopped, .rejected .stopped], 1, 0) ∧
      (e₀.run (pre ++ post.filter fun event => !event.isEntrance)).map seen =
        some ([.accepted 0, .accepted 1], 1, 2) := by
  decide +kernel

/-! ## A shutdown in the middle of an admission -/

section

variable {e : Engine} (sub : Submission) (nodes : List Node)

theorem hold_of_empty (hempty : e.registry.entries = [])
    (hlimit : 0 < e.registry.config.limit) :
    (e.hold sub nodes).2 = .ok e.registry.collations.length ∧
      (e.hold sub nodes).1.registry.entries =
        [⟨sub.id, e.registry.collations.length, e.now⟩] := by
  have hroom : ∀ c : Collation, (e.registry.make c).withRoom e.now =
      e.registry.make c := by
    intro c
    rw [Registry.withRoom, Registry.size]
    exact if_neg (by rw [Registry.make, hempty]; exact Nat.not_le.2 hlimit)
  have hfree : ∀ c : Collation, (e.registry.make c).refusal? sub.id = none := by
    intro c
    rw [Registry.refusal?, Registry.size, Registry.contains, Registry.entry?,
      Registry.make]
    dsimp only
    rw [hempty]
    exact if_neg (Nat.not_le.2 hlimit)
  unfold hold Registry.register
  dsimp only
  rw [hroom, Collation.new]
  dsimp only
  rw [hfree]
  refine ⟨rfl, ?_⟩
  show e.registry.entries ++ _ = _
  rw [hempty]
  rfl

theorem shutDown_of_running (hrunning : e.isStopped = false) :
    e.shutDown = { e.tell (e.registry.stopNotices ++ [.stopped]) with
      isStopped := true
      isSweeping := false
      registry := e.registry.stop
      metrics := e.metrics.setOutstanding 0 } := by
  rw [shutDown, if_neg (by rw [hrunning]; exact Bool.false_ne_true)]

/-- A thread finds the engine running and another one stops it. The collation is
held by the stopped engine from then on, and the request is delivered. -/
theorem takeOn_shutDown (s : Nat) (hrunning : e.isStopped = false)
    (hlimit : 0 < e.registry.config.limit) :
    let late := e.shutDown.takeOn s sub nodes
    late.isStopped = true ∧
      late.registry.entries = [⟨sub.id, e.registry.collations.length, e.now⟩] ∧
      late.jobs = e.jobs ++ nodes.map fun node =>
        { batch := e.batches.length, node } := by
  have hstopped := shutDown_of_running hrunning
  obtain ⟨hok, hentries⟩ := hold_of_empty (e := e.shutDown) sub nodes
    (by rw [hstopped]; rfl) (by rw [hstopped]; exact hlimit)
  rw [hstopped] at hok hentries ⊢
  dsimp only
  rw [takeOn]
  dsimp only
  rw [hok]
  exact ⟨rfl, hentries, rfl⟩

/-- A thread has a collation held and another one stops the engine. Then nothing
is held, and still the request is delivered. -/
theorem accept_shutDown (s : Nat) (hrunning : e.isStopped = false)
    (handle : Handle) :
    let late := (e.hold sub nodes).1.shutDown.accept s sub nodes handle
    late.isStopped = true ∧ late.registry.entries = [] ∧
      late.jobs = e.jobs ++ nodes.map fun node =>
        { batch := e.batches.length, node } := by
  have hrunning' : (e.hold sub nodes).1.isStopped = false := hrunning
  rw [shutDown_of_running hrunning']
  exact ⟨rfl, rfl, rfl⟩

end

end Fanout.Engine
