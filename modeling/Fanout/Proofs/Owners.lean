import Fanout.Proofs.Origin

/-!
# What is held belongs to an accepted submission

A submission is decided once. What exists because of it, the entry under which
its collation is held and the report that is called back, exists only if the
decision was to accept it, and can be traced back to it by the handle. So there
is nothing of this kind for a submission that was rejected, at that time or at
any later one.

The registry is looked at through its own laws: a step of the engine does at
most one operation of the registry, and which one it is can be told from the
event.
-/

namespace Fanout.Engine

/-! ## Decisions are final -/

section

variable {e₀ e e' : Engine} {events more : List Event} {event : Event}

theorem Transition.submission_of_decided (ho : Origins e₀ events e)
    (h : Transition e event e') {s : Nat} {sub : Submission}
    (hsub : e.submissions[s]? = some sub)
    (hdecided : ∀ r, sub.phase ≠ .verifying r) :
    e'.submissions[s]? = some sub := by
  -- The submission that a round decides about is another one, because it still
  -- waits.
  have hset :
      ∀ {r i : Nat} {round : Round} {sub₁ : Submission} (new : Submission),
      e.rounds[r]? = some round → round.phase = .running →
        round.submission = some i →
      e.submissions[i]? = some sub₁ →
        (e.submissions.set i new)[s]? = some sub := by
    intro r i round sub₁ new hround hphase hi hsub₁
    obtain ⟨i', sub', hi', hsub', hverifying⟩ := ho.rounds r round hround hphase
    rw [hi] at hi'
    cases hi'
    rw [getElem?_set_of_some hsub₁, if_neg]
    · exact hsub
    · intro his
      subst his
      rw [hsub] at hsub'
      cases hsub'
      exact hdecided r hverifying
  cases h with
  | aside | probed | started | arrived | finished | accepted => exact hsub
  | refused | verified | admitted => exact getElem?_append_of_some hsub _
  | passed k c answer r round i sub₁ registry handle metrics journal hcall
      hanswer hpurpose hround hphase hasked haccepts hunasked hlast hi hsub₁ =>
      exact hset _ hround hphase hi hsub₁
  | turnedDown k c answer r round i sub₁ fault registry metrics
      journal hcall hanswer hpurpose hround hphase hasked haccepts hunasked
        hlast hi hsub₁ =>
      exact hset _ hround hphase hi hsub₁
  | failed event r round i sub₁ fault calls metrics journal hround
      hphase hi hsub₁ =>
      exact hset _ hround hphase hi hsub₁

theorem Reached.submission_of_decided (hr : Reached e₀ events e)
    (hrun : e₀.run events = some e) (hmore : e.run more = some e') {s : Nat}
    {sub : Submission} (hsub : e.submissions[s]? = some sub)
    (hdecided : ∀ r, sub.phase ≠ .verifying r) :
    e'.submissions[s]? = some sub := by
  induction more generalizing events e with
  | nil =>
      cases hmore
      exact hsub
  | cons event more ih =>
      obtain ⟨e₁, hstep, hmore⟩ := run_cons.1 hmore
      exact ih (hr.step hrun hstep) (run_snoc.2 ⟨e, hrun, hstep⟩) hmore
        ((step_transition hr.linked hstep).submission_of_decided
          hr.origins hsub hdecided)

/-! ## One operation at a time -/

theorem Denies.performs {sub : Submission} {nodes : List Node}
    {registry : Registry} {fault : Fault}
    (h : e.Denies sub nodes registry fault) : registry = e.registry ∨
      ∃ c sound, registry = e.registry.perform e.now (.register c sound) := by
  cases h with
  | stopped => exact Or.inl rfl
  | unheld registry fault hrunning hregister =>
      refine Or.inr ⟨_, (e.agrees_collationOf sub nodes).sound, ?_⟩
      rw [Registry.perform, hregister]

/-- A step does at most one operation of the registry. Only a look-up looks up,
and only the shutdown stops. -/
theorem Transition.performs (h : Transition e event e') :
    e'.registry = e.registry ∨ ∃ op, e'.registry = e.registry.perform e.now op ∧
      (op.isStop = true → event = .shutDown) ∧
      ∀ id, op.asked? = some id → event = .lookUp id := by
  have hregister : ∀ {registry : Registry}, (registry = e.registry ∨
      ∃ c sound, registry = e.registry.perform e.now (.register c sound)) →
      registry = e.registry ∨ ∃ op, registry = e.registry.perform e.now op ∧
        (op.isStop = true → event = .shutDown) ∧
        ∀ id, op.asked? = some id → event = .lookUp id :=
    fun h => h.imp_right fun ⟨c, sound, heq⟩ =>
      ⟨.register c sound, heq, nofun, nofun⟩
  have hadmitted :
      ∀ {sub : Submission} {nodes : List Node} {registry : Registry}
      {handle : Handle}, e.Admits sub nodes registry handle →
      ∃ c sound, registry = e.registry.perform e.now (.register c sound) := by
    intro sub nodes registry handle hadmits
    refine ⟨_, (e.agrees_collationOf sub nodes).sound, ?_⟩
    rw [Registry.perform, hadmits.registered]
  cases h with
  | aside event now members isStopped isSweeping registry metrics journal hnow
      hadvance hmembers hregistry hjournal hoperation =>
      refine hoperation.imp_right fun ⟨op, hop, heq⟩ => ⟨op, heq, ?_⟩
      cases event with
      | lookUp id =>
          cases hop
          exact ⟨nofun, fun id h => by cases h; rfl⟩
      | look | sweep =>
          cases hop
          exact ⟨nofun, nofun⟩
      | shutDown =>
          cases hop
          exact ⟨fun _ => rfl, nofun⟩
      | _ => cases hop
  | refused target request id seed fault isSweeping registry metrics
      journal hregistry hjournal hrefuses =>
      cases hrefuses with
      | stopped | unresolved | unconnected => exact Or.inl rfl
      | denied nodes registry fault hrunning hresolve hround hdenies =>
          exact hregister hdenies.performs
  | verified | probed | started | arrived | accepted | failed =>
      exact Or.inl rfl
  | admitted target request id seed nodes registry handle metrics
      journal hresolve hround hadmits =>
        exact hregister (Or.inr (hadmitted hadmits))
  | finished k c answer j job batch held callbacks metrics journal hcall
      hanswer hpurpose hjob hbatch hheld =>
      refine Or.inr ⟨.merge batch.handle answer, ?_, nofun, nofun⟩
      rw [Registry.perform, Registry.update, modify_eq_set_of_some hheld]
  | passed k c answer r round s sub registry handle metrics journal hcall
      hanswer hpurpose hround hphase hasked haccepts hunasked hlast
        hs hsub hadmits =>
      exact hregister (Or.inr (hadmitted hadmits))
  | turnedDown k c answer r round s sub fault registry metrics
      journal hcall hanswer hpurpose hround hphase hasked haccepts hunasked
        hlast hs hsub hregistry hjournal
      hdenies => exact hregister hdenies.performs

theorem Transition.sound (hsound : e.registry.Sound)
    (h : Transition e event e') : e'.registry.Sound := by
  rcases h.performs with heq | ⟨op, heq, -⟩
  · rw [heq]
    exact hsound
  · rw [heq]
    exact Registry.sound_perform hsound e.now op

/-! ## Owners -/

theorem Denies.mem_entries {sub : Submission} {nodes : List Node}
    {registry : Registry} {fault : Fault}
    (h : e.Denies sub nodes registry fault) {entry : Entry}
    (hentry : entry ∈ registry.entries) : entry ∈ e.registry.entries := by
  cases h with
  | stopped => exact hentry
  | unheld registry fault hrunning hregister =>
      have hmem : entry ∈
          (e.registry.register e.now (e.collationOf sub nodes)).1.entries := by
        rw [hregister]
        exact hentry
      refine (Registry.mem_register hmem).resolve_right fun ⟨_, hok⟩ => ?_
      rw [hregister] at hok
      cases hok

theorem Admits.mem_entries {sub : Submission} {nodes : List Node}
    {registry : Registry} {handle : Handle}
    (h : e.Admits sub nodes registry handle) {entry : Entry}
    (hentry : entry ∈ registry.entries) :
    entry ∈ e.registry.entries ∨ entry.id = sub.id ∧ entry.handle = handle := by
  have hmem : entry ∈
      (e.registry.register e.now (e.collationOf sub nodes)).1.entries := by
    rw [h.registered]
    exact hentry
  refine (Registry.mem_register hmem).imp_right fun ⟨heq, hok⟩ => ?_
  rw [h.registered] at hok
  rw [heq]
  exact ⟨rfl, (Except.ok.inj hok).symm⟩

/-- An entry that a step puts in belongs to the submission that is admitted. -/
theorem Transition.entry_cases (h : Transition e event e') {entry : Entry}
    (hentry : entry ∈ e'.registry.entries) :
    (entry.id, entry.handle) ∈ e.registry.named ∨
      ∃ (s : Nat) (sub : Submission), e'.submissions[s]? = some sub ∧
        sub.phase = .accepted entry.handle ∧ sub.id = entry.id := by
  have hold : entry ∈ e.registry.entries →
      (entry.id, entry.handle) ∈ e.registry.named :=
    fun hmem => Registry.mem_named.2 ⟨entry, hmem, rfl, rfl⟩
  cases h with
  | aside event now members isStopped isSweeping registry metrics journal hnow
      hadvance hmembers hregistry hjournal hoperation =>
      rcases hoperation with rfl | ⟨op, hop, rfl⟩
      · exact Or.inl (hold hentry)
      · refine Or.inl ((Registry.named_perform ?_ e.now e.registry).subset
          (Registry.mem_named.2 ⟨entry, hentry, rfl, rfl⟩))
        rintro c sound rfl
        cases event <;> cases hop
  | refused target request id seed fault isSweeping registry metrics
      journal hregistry hjournal hrefuses =>
      cases hrefuses with
      | stopped | unresolved | unconnected => exact Or.inl (hold hentry)
      | denied nodes registry fault hrunning hresolve hround hdenies =>
          exact Or.inl (hold (hdenies.mem_entries hentry))
  | verified | probed | started | arrived | finished | accepted | failed =>
      exact Or.inl (hold hentry)
  | admitted target request id seed nodes registry handle metrics
      journal hresolve hround hadmits =>
      rcases hadmits.mem_entries hentry with hmem | ⟨hid, hhandle⟩
      · exact Or.inl (hold hmem)
      · exact Or.inr
          ⟨_, _, List.getElem?_concat_length, by rw [hhandle]; rfl, hid.symm⟩
  | passed k c answer r round s sub registry handle metrics journal hcall
      hanswer hpurpose hround hphase hasked haccepts hunasked hlast
        hs hsub hadmits =>
      rcases hadmits.mem_entries hentry with hmem | ⟨hid, hhandle⟩
      · exact Or.inl (hold hmem)
      · refine Or.inr ⟨s, { sub with phase := .accepted handle },
          ?_, by rw [hhandle], hid.symm⟩
        rw [getElem?_set_of_some hsub, if_pos rfl]
  | turnedDown k c answer r round s sub fault registry metrics
      journal hcall hanswer hpurpose hround hphase hasked haccepts hunasked
        hlast hs hsub hregistry hjournal
      hdenies => exact Or.inl (hold (hdenies.mem_entries hentry))

/-- A submission that has just been accepted: its collation begins now, and it
is held under the identifier of the submission, as if somebody had asked for it
now. -/
structure Fresh (e : Engine) (sub : Submission) (handle : Handle) : Prop where
  entry : e.registry.entry? sub.id = some ⟨sub.id, handle, e.now⟩
  collation : ∃ c, e.registry.collations[handle]? = some c ∧ c.id = sub.id ∧
    c.deadline = Instant.deadline e.now e.config.responseTimeout

theorem Admits.fresh {sub : Submission} {nodes : List Node}
    {registry : Registry} {handle : Handle}
    (h : e.Admits sub nodes registry handle) {sub' : Submission}
    (hid : sub'.id = sub.id) (hnow : e'.now = e.now)
    (hconfig : e'.config = e.config) (hregistry : e'.registry = registry) :
    e'.Fresh sub' handle := by
  have hok : (e.registry.register e.now (e.collationOf sub nodes)).2 =
      .ok handle := by
    rw [h.registered]
  obtain ⟨hentry, c, hc, hsame⟩ := Registry.entry?_of_registered hok
  rw [h.registered] at hentry hc
  refine ⟨?_, c, by rw [hregistry]; exact hc, hsame.id.trans hid.symm, ?_⟩
  · rw [hregistry, hnow, hid]
    exact hentry
  · rw [hsame.deadline, hnow, hconfig]
    rfl

theorem Transition.accepted_cases (h : Transition e event e') {s : Nat}
    {sub : Submission} {handle : Handle} (hsub : e'.submissions[s]? = some sub)
    (hphase : sub.phase = .accepted handle) :
    e.submissions[s]? = some sub ∨ e'.Fresh sub handle := by
  cases h with
  | aside | probed | started | arrived | finished | accepted =>
      exact Or.inl hsub
  | refused | verified =>
      rcases getElem?_concat_cases hsub with hold | ⟨-, rfl⟩
      · exact Or.inl hold
      · cases hphase
  | admitted target request id seed nodes registry handle' metrics
      journal hresolve hround hadmits =>
      rcases getElem?_concat_cases hsub with hold | ⟨-, rfl⟩
      · exact Or.inl hold
      · cases hphase
        exact Or.inr (hadmits.fresh rfl rfl rfl rfl)
  | passed k c answer r round i sub₁ registry handle' metrics journal hcall
      hanswer hpurpose hround hrunning hasked haccepts hunasked hlast hs
        hsub₁ hadmits =>
      rcases getElem?_set_cases hsub₁ hsub with ⟨-, rfl⟩ | ⟨-, hold⟩
      · cases hphase
        exact Or.inr (hadmits.fresh rfl rfl rfl rfl)
      · exact Or.inl hold
  | turnedDown k c answer r round i sub₁ fault registry metrics
      journal hcall hanswer hpurpose hround hrunning hasked haccepts hunasked
        hlast hs hsub₁ =>
      rcases getElem?_set_cases hsub₁ hsub with ⟨-, rfl⟩ | ⟨-, hold⟩
      · cases hphase
      · exact Or.inl hold
  | failed event r round i sub₁ fault calls metrics journal hround
      hrunning hs hsub₁ =>
      rcases getElem?_set_cases hsub₁ hsub with ⟨-, rfl⟩ | ⟨-, hold⟩
      · cases hphase
      · exact Or.inl hold

/-- Collations, entries and callbacks go back to accepted submissions. -/
structure Owned (e : Engine) : Prop where
  sound : e.registry.Sound
  collations : ∀ (s : Nat) sub handle, e.submissions[s]? = some sub →
    sub.phase = .accepted handle →
    ∃ c, e.registry.collations[handle]? = some c ∧ c.id = sub.id
  entries : ∀ entry ∈ e.registry.entries,
    ∃ (s : Nat) (sub : Submission), e.submissions[s]? = some sub ∧
      sub.phase = .accepted entry.handle ∧ sub.id = entry.id
  callbacks : ∀ call ∈ e.callbacks,
    ∃ (s : Nat) (sub : Submission) (handle : Handle), e.submissions[s]? =
      some sub ∧ sub.phase = .accepted handle ∧ sub.id = call.2.id

theorem owned_start (config : EngineConfig) (members : Membership)
    (wants : Bool) : (start config members wants).Owned where
  sound := Registry.sound_start config.registry
  collations _ _ _ h := nomatch h
  entries _ h := nomatch h
  callbacks _ h := nomatch h

theorem report_id (now : Instant) (c : Collation) : (c.report now).id = c.id :=
  (Collation.same_settle now c).id

theorem Owned.of_transition (ho : Origins e₀ events e) (howned : e.Owned)
    (h : Transition e event e') : e'.Owned := by
  have hkept : ∀ {s : Nat} {sub : Submission} {handle : Handle},
      e.submissions[s]? = some sub → sub.phase = .accepted handle →
      e'.submissions[s]? = some sub := fun hsub hphase =>
    h.submission_of_decided ho hsub fun r hv => by rw [hphase] at hv; cases hv
  have hold : ∀ call ∈ e.callbacks,
      ∃ (s : Nat) (sub : Submission) (handle : Handle),
      e'.submissions[s]? = some sub ∧ sub.phase = .accepted handle ∧
        sub.id = call.2.id := by
    intro call hcall
    obtain ⟨s, sub, handle, hsub, hphase, hid⟩ := howned.callbacks call hcall
    exact ⟨s, sub, handle, hkept hsub hphase, hphase, hid⟩
  refine ⟨h.sound howned.sound, fun s sub handle hsub hphase =>
    ?_, fun entry hentry => ?_, ?_⟩
  · rcases h.accepted_cases hsub hphase with hsub₀ | hnew
    · obtain ⟨c, hc, hid⟩ := howned.collations s sub handle hsub₀ hphase
      obtain ⟨c', hc', hsame⟩ := h.later.collations handle c hc
      exact ⟨c', hc', hsame.id.trans hid⟩
    · obtain ⟨c, hc, hid, -⟩ := hnew.collation
      exact ⟨c, hc, hid⟩
  · rcases h.entry_cases hentry with hmem | hnew
    · obtain ⟨entry₀, hentry₀, hid₀, hhandle₀⟩ := Registry.mem_named.1 hmem
      obtain ⟨s, sub, hsub, hphase, hid⟩ := howned.entries entry₀ hentry₀
      exact ⟨s, sub, hkept hsub hphase, hhandle₀ ▸ hphase, hid.trans hid₀⟩
    · exact hnew
  · cases h with
    | finished k c answer j job batch held callbacks metrics journal hcall
        hanswer hpurpose hjob hbatch hheld hcallbacks =>
        intro call hmem
        have hcases : call ∈ e.callbacks ∨
            call = (e.now, (held.merge e.now answer).report e.now) := by
          rw [hcallbacks] at hmem
          split at hmem
          · exact (List.mem_append.1 hmem).imp_right List.mem_singleton.1
          · exact Or.inl hmem
        rcases hcases with hmem | rfl
        · exact hold call hmem
        · obtain ⟨s, sub, hsub, hphase, -⟩ := ho.batches job.batch batch hbatch
          obtain ⟨c', hc', hid⟩ :=
            howned.collations s sub batch.handle hsub hphase
          rw [hheld] at hc'
          cases hc'
          refine ⟨s, sub, batch.handle, hkept hsub hphase, hphase,
            hid.symm.trans ?_⟩
          rw [report_id, (Collation.same_merge e.now answer held).id]
    | _ => exact hold

end

section

variable {config : EngineConfig} {entries : List (Node × Connectivity)}
  {wants : Bool} {events : List Event} {e : Engine}

theorem owned_of_run
    (h : (start config (.ofEntries entries) wants).run events = some e) :
    e.Owned :=
  (run_invariant (P := fun _ e => e.Owned) (reached_start config entries wants)
    (owned_start config _ wants)
    (fun _ _ _ _ _ hr howned _ h => howned.of_transition hr.origins h) h).1

theorem registry_config_of_run
    (h : (start config (.ofEntries entries) wants).run events = some e) :
    e.registry.config = config.registry := by
  refine (run_invariant (P := fun _ e => e.registry.config = config.registry)
    (reached_start config entries wants) rfl
      (fun _ _ e e' _ _ heq _ htransition => ?_) h).1
  rcases htransition.performs with hsame | ⟨op, hop, -⟩
  · rw [hsame, heq]
  · rw [hop, Registry.config_perform, heq]

end

end Fanout.Engine
