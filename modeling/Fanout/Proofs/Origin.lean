import Fanout.Proofs.Delivery

/-!
# Where requests come from

A submission was handed in at some point of the run, and the state at that point
decided who its targets are. Everything that is done for it later goes back to
that state: the round asks those targets, and after it, or at once if none is
needed, a batch delivers to those targets what was handed in. `Origins` keeps
for each submission the point of the run where it was born, and for its phase
the record that carries it on.

The invariant is about a run and the state it leads to. Since a run only gets
longer, a point of it stays a point of it.
-/

namespace Fanout.Engine

/-! ## Points of a run -/

/-- A submission was handed in when the engine was in some state. -/
structure HandedIn (e₀ : Engine) (events : List Event) (s : Nat)
    (sub : Submission) (b : Engine) : Prop where
  split : ∃ pre post,
    events = pre ++ .submit sub.target sub.request sub.id sub.seed :: post ∧
      e₀.run pre = some b
  index : b.submissions.length = s

/-- A round asks the targets of a submission, which all were connected. -/
structure Asks (b : Engine) (s : Nat) (sub : Submission)
    (round : Round) : Prop where
  submission : round.submission = some s
  outbound : round.outbound = sub.outbound
  resolved : sub.target.resolve b.members sub.request = .ok round.targets
  connected : b.members.unconnected? round.targets = none
  deadline : round.deadline = Instant.deadline b.now
    b.config.verificationTimeout

/-- A batch delivers a submission to its targets, and a collation that was made
for it since gathers the answers. -/
structure Delivers (b e : Engine) (sub : Submission) (handle : Handle) (n : Nat)
    (batch : Batch) (c : Collation) : Prop where
  found : e.batches[n]? = some batch
  fills : batch.handle = handle
  outbound : batch.outbound = sub.outbound
  resolved : sub.target.resolve b.members sub.request = .ok (e.nodesOf n)
  collation : e.registry.collations[handle]? = some c
  timeout : c.timeout = e.config.responseTimeout
  deadline : ∃ t, b.now ≤ t ∧ t ≤ e.now ∧
    c.deadline = Instant.deadline t e.config.responseTimeout

/-- How a submission that was handed in at one state stands in another. -/
def Standing (b e : Engine) (s : Nat) (sub : Submission) : Prop :=
  match sub.phase with
  | .verifying r => sub.target.needsRound sub.request = true ∧
      ∃ round, e.rounds[r]? = some round ∧ round.phase = .running ∧
        Asks b s sub round
  | .accepted handle => (∃ n batch c, Delivers b e sub handle n batch c) ∧
      (sub.target.needsRound sub.request = true →
        ∃ (r : Nat) (round : Round), e.rounds[r]? = some round ∧
          round.phase = .passed ∧ Asks b s sub round)
  | .rejected _ => True

/-- Every submission has its origin, and rounds and batches belong to one. -/
structure Origins (e₀ : Engine) (events : List Event) (e : Engine) : Prop where
  submissions : ∀ (s : Nat) sub, e.submissions[s]? = some sub →
    ∃ b, HandedIn e₀ events s sub b ∧ b.now ≤ e.now ∧ Standing b e s sub
  rounds : ∀ (r : Nat) round, e.rounds[r]? = some round →
    round.phase = .running → ∃ s sub, round.submission = some s ∧
      e.submissions[s]? = some sub ∧ sub.phase = .verifying r
  batches : ∀ (n : Nat) batch, e.batches[n]? = some batch →
    ∃ (s : Nat) (sub : Submission), e.submissions[s]? = some sub ∧
      sub.phase = .accepted batch.handle ∧ batch.outbound = sub.outbound

theorem origins_start (config : EngineConfig) (members : Membership)
    (wants : Bool) :
    Origins (start config members wants) [] (start config members wants) where
  submissions _ _ h := nomatch h
  rounds _ _ h := nomatch h
  batches _ _ h := nomatch h

theorem HandedIn.snoc {e₀ : Engine} {events : List Event} {s : Nat}
    {sub : Submission} {b : Engine} (h : HandedIn e₀ events s sub b)
    (event : Event) : HandedIn e₀ (events ++ [event]) s sub b := by
  obtain ⟨pre, post, hevents, hrun⟩ := h.split
  refine ⟨⟨pre, post ++ [event], ?_, hrun⟩, h.index⟩
  rw [hevents, List.append_assoc, List.cons_append]

theorem Asks.becomes {b : Engine} {s : Nat} {sub : Submission}
    {round round' : Round} (h : Asks b s sub round)
    (hrr : round.Becomes round') : Asks b s sub round' where
  submission := hrr.submission.trans h.submission
  outbound := hrr.outbound.trans h.outbound
  resolved := hrr.targets ▸ h.resolved
  connected := hrr.targets ▸ h.connected
  deadline := hrr.deadline.trans h.deadline

theorem Asks.later {b : Engine} {s : Nat} {sub sub' : Submission}
    {round : Round} (h : Asks b s sub round) (hsame : sub.Becomes sub') :
    Asks b s sub' round where
  submission := h.submission
  outbound := h.outbound.trans hsame.outbound_eq.symm
  resolved := by
    rw [hsame.target, hsame.request]
    exact h.resolved
  connected := h.connected
  deadline := h.deadline

theorem Delivers.later {b e e' : Engine} (hlater : Later e e')
    (hnodes : ∀ n, n < e.batches.length → e'.nodesOf n = e.nodesOf n)
    {sub : Submission} {handle : Handle} {n : Nat} {batch : Batch}
    {c : Collation} (h : Delivers b e sub handle n batch c) :
    ∃ batch' c', Delivers b e' sub handle n batch' c' := by
  obtain ⟨batch', hb', hbb⟩ := hlater.batches n batch h.found
  obtain ⟨c', hc', hsame⟩ := hlater.collations handle c h.collation
  obtain ⟨t, hbt, hte, hdeadline⟩ := h.deadline
  refine ⟨batch', c', hb', hbb.handle.trans h.fills,
    hbb.outbound.trans h.outbound, ?_, hc', ?_, t, hbt,
    Nat.le_trans hte hlater.now, ?_⟩
  · rw [hnodes n (List.getElem?_eq_some_iff.1 h.found).1]
    exact h.resolved
  · rw [hsame.timeout, hlater.config]
    exact h.timeout
  · rw [hsame.deadline, hlater.config]
    exact hdeadline

/-! ## What a step keeps -/

section

variable {e₀ e e' : Engine} {events : List Event} {event : Event}

/-- An unchanged submission stands as before, unless the round that decides
about it has ended. -/
theorem Standing.later {b : Engine} {s : Nat} {sub : Submission}
    (hlater : Later e e')
    (hnodes : ∀ n, n < e.batches.length → e'.nodesOf n = e.nodesOf n)
    (hrounds : ∀ (r : Nat) round, e.rounds[r]? = some round →
      round.phase = .running → round.submission = some s →
      ∃ round', e'.rounds[r]? = some round' ∧ round'.phase = .running)
    (h : Standing b e s sub) : Standing b e' s sub := by
  unfold Standing at h ⊢
  split
  · next r hphase =>
      rw [hphase] at h
      obtain ⟨hneeds, round, hr, hrunning, hasks⟩ := h
      obtain ⟨round', hr', hrunning'⟩ :=
        hrounds r round hr hrunning hasks.submission
      obtain ⟨round'', hr'', hrr⟩ := hlater.rounds r round hr
      rw [hr'] at hr''
      cases hr''
      exact ⟨hneeds, round', hr', hrunning', hasks.becomes hrr⟩
  · next handle hphase =>
      rw [hphase] at h
      obtain ⟨⟨n, batch, c, hdelivers⟩, hpassed⟩ := h
      refine ⟨?_, fun hneeds => ?_⟩
      · obtain ⟨batch', c', hdelivers'⟩ := hdelivers.later hlater hnodes
        exact ⟨n, batch', c', hdelivers'⟩
      · obtain ⟨r, round, hr, hp, hasks⟩ := hpassed hneeds
        refine ⟨r, round, hlater.round_of_ended hr fun hrunning =>
          ?_, hp, hasks⟩
        cases hp.symm.trans hrunning
  · trivial

/-- A step keeps the origins if what it changes in them has one. -/
theorem Origins.step (ho : Origins e₀ events e) (hlater : Later e e')
    (hnodes : ∀ n, n < e.batches.length → e'.nodesOf n = e.nodesOf n)
    (hsubmissions : ∀ (s : Nat) sub, e'.submissions[s]? = some sub →
      e.submissions[s]? = some sub ∧
        (∀ (r : Nat) round, e.rounds[r]? = some round →
        round.phase = .running → round.submission = some s →
        ∃ round', e'.rounds[r]? = some round' ∧ round'.phase = .running) ∨
      ∃ b, HandedIn e₀ (events ++ [event]) s sub b ∧ b.now ≤ e'.now ∧
        Standing b e' s sub)
    (hrounds : ∀ (r : Nat) round, e'.rounds[r]? = some round →
      round.phase = .running → ∃ s sub, round.submission = some s ∧
        e'.submissions[s]? = some sub ∧ sub.phase = .verifying r)
    (hbatches : ∀ (n : Nat) batch, e.batches.length ≤ n →
      e'.batches[n]? = some batch →
        ∃ (s : Nat) (sub : Submission), e'.submissions[s]? = some sub ∧
        sub.phase = .accepted batch.handle ∧ batch.outbound = sub.outbound)
    (haccepted : ∀ (s : Nat) sub handle, e.submissions[s]? = some sub →
      sub.phase = .accepted handle → e'.submissions[s]? = some sub) :
    Origins e₀ (events ++ [event]) e' where
  submissions s sub hs := by
    rcases hsubmissions s sub hs with ⟨hs₀, hkept⟩ | hnew
    · obtain ⟨b, hhanded, hbe, hstanding⟩ := ho.submissions s sub hs₀
      exact ⟨b, hhanded.snoc event, Nat.le_trans hbe hlater.now,
        hstanding.later hlater hnodes hkept⟩
    · exact hnew
  rounds := hrounds
  batches n batch hb := by
    rcases hlater.batches.old_or_new hb with ⟨batch₀, hb₀, hbb⟩ | hnew
    · obtain ⟨s, sub, hs, hphase, hout⟩ := ho.batches n batch₀ hb₀
      refine ⟨s, sub, haccepted s sub batch₀.handle hs hphase, ?_,
        hbb.outbound.trans hout⟩
      rw [hbb.handle]
      exact hphase
    · exact hbatches n batch hnew hb

/-- A step that changes no submission and no round, except for what a running
round waits for. -/
theorem Origins.of_same (ho : Origins e₀ events e) (hlater : Later e e')
    (hnodes : ∀ n, n < e.batches.length → e'.nodesOf n = e.nodesOf n)
    (hsubmissions : e'.submissions = e.submissions)
    (hbatches : e'.batches.length = e.batches.length)
    (hrounds : ∀ (r : Nat) round', e'.rounds[r]? = some round' →
      round'.phase = .running → ∃ round, e.rounds[r]? = some round ∧
        round.phase = .running ∧ round'.submission = round.submission)
    (hrunning : ∀ (r : Nat) round, e.rounds[r]? = some round →
      round.phase = .running → ∃ round', e'.rounds[r]? = some round' ∧
      round'.phase = .running) :
    Origins e₀ (events ++ [event]) e' := by
  refine ho.step hlater hnodes (fun s sub hs => ?_) (fun r round' hr hp => ?_)
    (fun n batch hn hb => ?_) (fun s sub handle hs _ => ?_)
  · rw [hsubmissions] at hs
    exact Or.inl ⟨hs, fun r round hr hp _ => hrunning r round hr hp⟩
  · obtain ⟨round, hr₀, hp₀, hsub⟩ := hrounds r round' hr hp
    rw [hsub, hsubmissions]
    exact ho.rounds r round hr₀ hp₀
  · rw [List.getElem?_eq_none (hbatches ▸ hn)] at hb
    cases hb
  · rw [hsubmissions]
    exact hs

/-- A submission is handed in now. -/
theorem Origins.of_handedIn (ho : Origins e₀ events e)
    (hrun : e₀.run events = some e) (hlater : Later e e')
    (hnodes : ∀ n, n < e.batches.length → e'.nodesOf n = e.nodesOf n)
    {target : Target} {request : Request} {id seed : String}
    {phase : SubmissionPhase} (hsubmissions : e'.submissions =
      e.submissions ++ [e.handedIn target request id seed phase])
    (hstanding : Standing e e' e.submissions.length
      (e.handedIn target request id seed phase))
    (hkept : ∀ (r : Nat) round, e.rounds[r]? = some round →
      e'.rounds[r]? = some round)
    (hrounds : ∀ (r : Nat) round, e.rounds.length ≤ r →
      e'.rounds[r]? = some round →
      round.submission = some e.submissions.length ∧ phase = .verifying r)
    (hbatches : ∀ (n : Nat) batch, e.batches.length ≤ n →
      e'.batches[n]? = some batch → phase = .accepted batch.handle ∧
        batch.outbound = (e.handedIn target request id seed phase).outbound) :
    Origins e₀ (events ++ [.submit target request id seed]) e' := by
  have hnew : e'.submissions[e.submissions.length]? =
      some (e.handedIn target request id seed phase) := by
    rw [hsubmissions]
    exact List.getElem?_concat_length
  have hold : ∀ {s : Nat} {sub : Submission}, e.submissions[s]? = some sub →
      e'.submissions[s]? = some sub := fun hs => by
    rw [hsubmissions]
    exact getElem?_append_of_some hs _
  refine ho.step hlater hnodes (fun s sub hs => ?_) (fun r round hr hp => ?_)
    (fun n batch hn hb => ?_) (fun s sub handle hs _ => hold hs)
  · rw [hsubmissions] at hs
    rcases getElem?_concat_cases hs with hs | ⟨rfl, rfl⟩
    · exact Or.inl ⟨hs, fun r round hr hp _ => ⟨round, hkept r round hr, hp⟩⟩
    · exact Or.inr ⟨e, ⟨⟨events, [], rfl, hrun⟩, rfl⟩, hlater.now, hstanding⟩
  · by_cases hlt : r < e.rounds.length
    · have hr₀ := hkept r _ (List.getElem?_eq_getElem hlt)
      rw [hr] at hr₀
      cases hr₀
      obtain ⟨s, sub, hs, hsub, hv⟩ :=
        ho.rounds r _ (List.getElem?_eq_getElem hlt) hp
      exact ⟨s, sub, hs, hold hsub, hv⟩
    · obtain ⟨hs, hphase⟩ := hrounds r round (Nat.le_of_not_lt hlt) hr
      exact ⟨_, _, hs, hnew, hphase⟩
  · obtain ⟨hphase, hout⟩ := hbatches n batch hn hb
    exact ⟨_, _, hnew, hphase, hout⟩

/-- A running round ends, and with it its submission is decided. -/
theorem Origins.of_ended (ho : Origins e₀ events e) (hlater : Later e e')
    (hnodes : ∀ n, n < e.batches.length → e'.nodesOf n = e.nodesOf n)
    {r s : Nat} {round round' : Round} {sub sub' : Submission}
    (hround : e.rounds[r]? = some round) (hphase : round.phase = .running)
    (hs : round.submission = some s) (hsub : e.submissions[s]? = some sub)
    (hrounds : e'.rounds = e.rounds.set r round')
    (hended : round'.phase ≠ .running)
    (hsubmissions : e'.submissions = e.submissions.set s sub')
    (hsame : sub.Becomes sub')
    (hstanding : ∀ b, b.now ≤ e.now → Asks b s sub round →
      sub.target.needsRound sub.request = true → Standing b e' s sub')
    (hbatches : ∀ (n : Nat) batch, e.batches.length ≤ n →
      e'.batches[n]? = some batch → sub'.phase = .accepted batch.handle ∧
      batch.outbound = sub'.outbound) :
    Origins e₀ (events ++ [event]) e' := by
  -- The round that has ended is the one that decides about the submission.
  obtain ⟨s', sub₁, hs', hsub₁, hverifying⟩ := ho.rounds r round hround hphase
  rw [hs] at hs'
  cases hs'
  rw [hsub] at hsub₁
  cases hsub₁
  have hget : e'.submissions[s]? = some sub' := by
    rw [hsubmissions, getElem?_set_of_some hsub, if_pos rfl]
  refine ho.step hlater hnodes (fun i sub₁ hi => ?_) (fun i round₁ hi hp => ?_)
    (fun n batch hn hb => ?_) (fun i sub₁ handle hi ha => ?_)
  · rw [hsubmissions] at hi
    rcases getElem?_set_cases hsub hi with ⟨rfl, rfl⟩ | ⟨hsi, hi⟩
    · obtain ⟨b, hhanded, hbe, hstands⟩ := ho.submissions s sub hsub
      unfold Standing at hstands
      rw [hverifying] at hstands
      obtain ⟨hneeds, round₁, hr₁, -, hasks⟩ := hstands
      rw [hround] at hr₁
      cases hr₁
      refine Or.inr ⟨b, ?_, Nat.le_trans hbe hlater.now,
        hstanding b hbe hasks hneeds⟩
      obtain ⟨pre, post, hevents, hrun⟩ := (hhanded.snoc event).split
      refine ⟨⟨pre, post, ?_, hrun⟩, hhanded.index⟩
      rw [hsame.target, hsame.request, hsame.id, hsame.seed]
      exact hevents
    · refine Or.inl ⟨hi, fun i' round₁ hi' hp hs₁ => ⟨round₁, ?_, hp⟩⟩
      rw [hrounds, getElem?_set_of_some hround, if_neg]
      · exact hi'
      · intro hri
        subst hri
        rw [hround] at hi'
        cases hi'
        rw [hs] at hs₁
        cases hs₁
        exact hsi rfl
  · rw [hrounds] at hi
    rcases getElem?_set_cases hround hi with ⟨-, rfl⟩ | ⟨hri, hi⟩
    · exact absurd hp hended
    · obtain ⟨s₁, sub₁, hs₁, hsub₁, hv₁⟩ := ho.rounds i round₁ hi hp
      refine ⟨s₁, sub₁, hs₁, ?_, hv₁⟩
      rw [hsubmissions, getElem?_set_of_some hsub, if_neg]
      · exact hsub₁
      · intro hss
        subst hss
        rw [hsub] at hsub₁
        cases hsub₁
        rw [hverifying] at hv₁
        cases hv₁
        exact hri rfl
  · obtain ⟨hphase', hout⟩ := hbatches n batch hn hb
    exact ⟨s, sub', hget, hphase', hout⟩
  · rw [hsubmissions, getElem?_set_of_some hsub, if_neg]
    · exact hi
    · intro hsi
      subst hsi
      rw [hsub] at hi
      cases hi
      rw [hverifying] at ha
      cases ha

/-- An admitted submission has a batch for the nodes it is delivered to. -/
theorem Admits.delivers {b : Engine} {sub : Submission} {nodes : List Node}
    {registry : Registry} {handle : Handle} (hl : Linked e)
    (hadmits : e.Admits sub nodes registry handle) (hbe : b.now ≤ e.now)
    (hresolve : sub.target.resolve b.members sub.request = .ok nodes)
    {sub' : Submission} (hsame : sub.Becomes sub') (hnow : e'.now = e.now)
    (hconfig : e'.config = e.config) (hregistry : e'.registry = registry)
    (hbatches : e'.batches = e.batches ++
      [{ handle, outbound := sub.outbound, remaining := nodes.length }])
    (hjobs : e'.jobs = e.jobs ++ e.jobsFor nodes) :
    ∃ n batch c, Delivers b e' sub' handle n batch c := by
  obtain ⟨c, hc, hseen⟩ := hadmits.collation
  have hcollation := hseen.same
  refine ⟨e.batches.length, _, c,
    by rw [hbatches]; exact List.getElem?_concat_length, rfl, ?_, ?_,
    by rw [hregistry]; exact hc, ?_, e.now, hbe, Nat.le_of_eq hnow.symm, ?_⟩
  · exact hsame.outbound_eq.symm
  · have hnodes :=
      nodesOf_dispatched (fun _ hj => hl.batch_lt hj) nodes e.batches.length
    rw [if_pos rfl] at hnodes
    rw [hsame.target, hsame.request, nodesOf, hjobs, hnodes]
    exact hresolve
  · rw [hcollation.timeout, hconfig]
    rfl
  · rw [hcollation.deadline, hconfig]
    rfl

/-- If a running round is set and goes on, the running rounds are those that
were. -/
theorem running_of_set {rounds : List Round} {r : Nat} {round : Round}
    (round' : Round) (hround : rounds[r]? = some round)
    (hp : round.phase = .running) (hp' : round'.phase = .running)
    (hs : round'.submission = round.submission) :
    (∀ (i : Nat) new, (rounds.set r round')[i]? = some new →
      new.phase = .running → ∃ old, rounds[i]? = some old ∧
        old.phase = .running ∧ new.submission = old.submission) ∧
    ∀ (i : Nat) old, rounds[i]? = some old → old.phase = .running →
      ∃ new, (rounds.set r round')[i]? = some new ∧ new.phase = .running := by
  refine ⟨fun i new hi hnew => ?_, fun i old hi hold => ?_⟩
  · rcases getElem?_set_cases hround hi with ⟨hri, rfl⟩ | ⟨-, hi⟩
    · exact ⟨round, hri ▸ hround, hp, hs⟩
    · exact ⟨new, hi, hnew, rfl⟩
  · rw [getElem?_set_of_some hround]
    split
    · exact ⟨round', rfl, hp'⟩
    · exact ⟨old, hi, hold⟩

theorem Origins.of_transition (hl : Linked e) (hordered : Ordered e)
    (ho : Origins e₀ events e) (hrun : e₀.run events = some e)
    (h : Transition e event e') : Origins e₀ (events ++ [event]) e' := by
  have hlater := h.later
  have hnodes : ∀ n, n < e.batches.length → e'.nodesOf n = e.nodesOf n :=
    fun n hn => (h.shift hl hordered).nodesOf_eq hn
  cases h with
  | aside event now members isStopped isSweeping registry metrics journal =>
      exact ho.of_same hlater hnodes rfl rfl (fun r round hr hp =>
        ⟨round, hr, hp, rfl⟩) fun r round hr hp => ⟨round, hr, hp⟩
  | refused target request id seed fault =>
      exact ho.of_handedIn hrun hlater hnodes rfl trivial (fun r round hr => hr)
        (fun r round hr h => absurd h (getElem?_ne_some hr round))
        fun n batch hn h => absurd h (getElem?_ne_some hn batch)
  | verified target request id seed nodes metrics journal
      hstopped hresolve hround hconnected hjournal =>
      refine ho.of_handedIn hrun hlater hnodes rfl ?_ (fun r round hr => ?_)
        (fun r round hr h => ?_) fun n batch hn h =>
          absurd h (getElem?_ne_some hn batch)
      · exact ⟨hround, _, List.getElem?_concat_length, rfl, rfl, rfl, hresolve,
          hconnected, rfl⟩
      · exact getElem?_append_of_some hr _
      · obtain ⟨rfl, rfl⟩ := eq_of_getElem?_concat hr h
        exact ⟨rfl, rfl⟩
  | admitted target request id seed nodes registry handle metrics
      journal hresolve hround hadmits hjournal =>
      refine ho.of_handedIn hrun hlater hnodes rfl ?_ (fun r round hr => hr)
        (fun r round hr h => absurd h (getElem?_ne_some hr round))
          fun n batch hn h => ?_
      · refine ⟨?_, fun hneeds => ?_⟩
        · exact hadmits.delivers hl (Nat.le_refl _) hresolve
            ⟨rfl, rfl, rfl, rfl, rfl⟩ rfl rfl rfl rfl rfl
        · have hneeds' : target.needsRound request = true := hneeds
          rw [hround] at hneeds'
          cases hneeds'
      · obtain ⟨-, rfl⟩ := eq_of_getElem?_concat hn h
        exact ⟨rfl, rfl⟩
  | probed r round node rest hround hphase hunasked =>
      obtain ⟨hback, hforth⟩ := running_of_set { round with
        unasked := rest, asked := round.asked ++ [e.calls.length] } hround
          hphase hphase rfl
      exact ho.of_same hlater hnodes rfl rfl hback hforth
  | started | arrived =>
      exact ho.of_same hlater hnodes rfl rfl (fun r round hr hp =>
        ⟨round, hr, hp, rfl⟩) fun r round hr hp => ⟨round, hr, hp⟩
  | finished =>
      exact ho.of_same hlater hnodes rfl List.length_set
        (fun r round hr hp => ⟨round, hr, hp, rfl⟩) fun r round hr hp =>
          ⟨round, hr, hp⟩
  | accepted k c answer r round metrics journal hcall hanswer hpurpose
      hround hphase =>
      obtain ⟨hback, hforth⟩ :=
        running_of_set { round with asked := round.asked.erase k }
        hround hphase hphase rfl
      exact ho.of_same hlater hnodes rfl rfl hback hforth
  | passed k c answer r round s sub registry handle metrics journal hcall
      hanswer hpurpose hround hphase hasked haccepts hunasked hlast hs hsub
        hadmits hjournal =>
      have hpassed :
          (e.rounds.set r { round with asked := [], phase := .passed })[r]? =
          some { round with asked := [], phase := .passed } := by
        rw [getElem?_set_of_some hround, if_pos rfl]
      refine ho.of_ended hlater hnodes hround hphase hs hsub rfl
        (fun h => (nomatch h)) rfl ⟨rfl, rfl, rfl, rfl, rfl⟩
          (fun b hbe hasks hneeds => ?_) fun n batch hn h => ?_
      · refine ⟨?_, fun _ => ⟨r, _, hpassed, rfl, hasks.submission,
          hasks.outbound, hasks.resolved, hasks.connected, hasks.deadline⟩⟩
        exact hadmits.delivers hl hbe hasks.resolved
          ⟨rfl, rfl, rfl, rfl, rfl⟩ rfl rfl rfl rfl rfl
      · obtain ⟨-, rfl⟩ := eq_of_getElem?_concat hn h
        exact ⟨rfl, rfl⟩
  | turnedDown k c answer r round s sub fault registry metrics
      journal hcall hanswer hpurpose hround hphase hasked haccepts hunasked
        hlast hs hsub hregistry hjournal =>
      exact ho.of_ended hlater hnodes hround hphase hs hsub rfl
        (fun h => (nomatch h)) rfl ⟨rfl, rfl, rfl, rfl, rfl⟩
          (fun b hbe hasks hneeds => trivial)
        fun n batch hn h => absurd h (getElem?_ne_some hn batch)
  | failed event r round s sub fault calls metrics journal hround hphase
      hs hsub hgiven =>
      exact ho.of_ended hlater hnodes hround hphase hs hsub rfl
        (fun h => (nomatch h)) rfl ⟨rfl, rfl, rfl, rfl, rfl⟩
          (fun b hbe hasks hneeds => trivial)
        fun n batch hn h => absurd h (getElem?_ne_some hn batch)

end

/-! ## After every run -/

/-- What is known of the state that a run leads to. -/
structure Reached (e₀ : Engine) (events : List Event) (e : Engine) : Prop where
  linked : Linked e
  ordered : Ordered e
  staffed : Staffed e
  filled : Filled e
  timely : Timely e
  origins : Origins e₀ events e
  later : Later e₀ e

theorem reached_start (config : EngineConfig)
    (entries : List (Node × Connectivity)) (wants : Bool) :
      Reached (start config (.ofEntries entries) wants) []
      (start config (.ofEntries entries) wants) where
  linked := linked_start config _ wants
  ordered := ordered_start config entries wants
  staffed := staffed_start config _ wants
  filled _ _ h := nomatch h
  timely _ _ _ _ h := nomatch h
  origins := origins_start config _ wants
  later := Later.refl _

theorem Reached.step {e₀ e e' : Engine} {events : List Event} {event : Event}
    (hr : Reached e₀ events e) (hrun : e₀.run events = some e)
    (h : e.step event = some e') : Reached e₀ (events ++ [event]) e' := by
  have htransition := step_transition hr.linked h
  have hshift := htransition.shift hr.linked hr.ordered
  exact {
    linked := htransition.linked hr.linked
    ordered := htransition.ordered hr.ordered
    staffed := hshift.staffed hr.linked hr.staffed
    filled := hshift.filled hr.linked hr.ordered hr.staffed hr.filled
    timely := hshift.timely hr.ordered hr.timely
    origins := hr.origins.of_transition hr.linked hr.ordered hrun htransition
    later := hr.later.trans htransition.later }

/-- An invariant of runs: it may use everything that is known of the states on
the way. -/
theorem run_invariant {e₀ : Engine} {P : List Event → Engine → Prop}
    (hreached : Reached e₀ [] e₀) (hstart : P [] e₀)
    (hstep : ∀ events event e e', e₀.run events = some e → Reached e₀ events e →
      P events e → e.step event = some e' → Transition e event e' →
      P (events ++ [event]) e') :
    ∀ {events : List Event} {e : Engine}, e₀.run events = some e →
      P events e ∧ Reached e₀ events e := by
  intro events e hrun
  refine foldlM_invariant (P := fun events e => P events e ∧
    Reached e₀ events e) ⟨hstart, hreached⟩
      (fun events event e e' hrun hPr he => ?_) hrun
  obtain ⟨hP, hr⟩ := hPr
  exact ⟨hstep events event e e' hrun hr hP he (step_transition hr.linked he),
    hr.step hrun he⟩

theorem reached_of_run {config : EngineConfig}
    {entries : List (Node × Connectivity)} {wants : Bool} {events : List Event}
    {e : Engine}
    (h : (start config (.ofEntries entries) wants).run events = some e) :
    Reached (start config (.ofEntries entries) wants) events e :=
  (run_invariant (P := fun _ _ => True) (reached_start config entries wants)
    trivial (fun _ _ _ _ _ _ _ _ _ => trivial) h).2

end Fanout.Engine
