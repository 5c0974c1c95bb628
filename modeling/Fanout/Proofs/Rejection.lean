import Fanout.Proofs.Gate
import Fanout.Proofs.Owners

/-!
# A rejected request leaves nothing behind

A request can be rejected at seven points, and two of them lie behind a round in
which nodes have been asked already. Wherever it happens, nothing may come of
the request: no call delivers it, nobody is called back, and the registry holds
after the rejection what it held before it was handed in.

The last of these is not obvious, because a registration that is refused has
purged the registry before. What saves it is that the registry never holds more
than its limit. If the purge had taken anything out there would be room, and the
registration would not have been refused.

A fault that can be found at once is found before anything is sent. `Judged`
says it the other way round: once there is a round for a submission, only
faults of another kind are left for it.
-/

namespace Fanout

/-- Whether a fault is about the target, the method or the states of the nodes.
All of these are looked at before anything is sent. -/
def Fault.isImmediate : Fault → Bool
  | .illegalArgument _ | .invalidTarget _ | .connecting _ | .disconnected _ =>
      true
  | _ => false

namespace Engine

/-! ## Faults after a round -/

/-- Whether another submission has the same identifier. -/
def Shared (e : Engine) (s : Nat) (sub : Submission) : Prop :=
  ∃ (s' : Nat) (sub' : Submission), s' ≠ s ∧ e.submissions[s']? = some sub' ∧
    sub'.id = sub.id

/-- Where a round has been opened for a submission, it is rejected for none of
the faults that are found at once. -/
def Judged (e : Engine) : Prop :=
  ∀ (r : Nat) round (s : Nat) sub fault, e.rounds[r]? = some round →
    round.submission = some s → e.submissions[s]? = some sub →
    sub.phase = .rejected fault → fault.isImmediate = false ∨ e.Shared s sub

section

variable {e₀ e e' : Engine} {events : List Event} {event : Event}

theorem Shared.later (hlater : Later e e') {s : Nat} {sub sub' : Submission}
    (hsame : sub.Becomes sub') (h : e.Shared s sub) : e'.Shared s sub' := by
  obtain ⟨i, other, hne, hother, hid⟩ := h
  obtain ⟨other', hother', hsame'⟩ := hlater.submissions i other hother
  refine ⟨i, other', hne, hother', ?_⟩
  rw [hsame'.id, hid, hsame.id]

/-- An identifier that is held belongs to an accepted submission, which is
another one. -/
theorem Owned.shared (howned : e.Owned) {s : Nat} {sub : Submission}
    (hsub : ∀ (sub' : Submission) (handle : Handle), e.submissions[s]? =
      some sub' → sub'.phase ≠ .accepted handle) {entry : Entry}
    (hentry : e.registry.entry? sub.id = some entry) : e.Shared s sub := by
  obtain ⟨i, other, hother, hphase, hid⟩ :=
    howned.entries entry (Registry.mem_of_entry hentry)
  refine ⟨i, other, fun his =>
    ?_, hother, hid.trans (Registry.id_of_entry hentry)⟩
  subst his
  exact hsub other entry.handle hother hphase

/-- A submission that is not admitted is not rejected for a fault that is found
at once, and the registry holds what it held, if its identifier is its own. -/
theorem Denies.cases (howned : e.Owned) {s : Nat} {sub : Submission}
    {nodes : List Node} {registry : Registry} {fault : Fault}
    (h : e.Denies sub nodes registry fault)
      (hsub : ∀ (sub' : Submission) (handle : Handle), e.submissions[s]? =
        some sub' →
      sub'.phase ≠ .accepted handle) :
    registry.entries = e.registry.entries ∧ fault.isImmediate = false ∨
      e.Shared s sub := by
  cases h with
  | stopped => exact Or.inl ⟨rfl, rfl⟩
  | unheld registry fault hrunning hregister =>
      cases hfree : e.registry.entry? sub.id with
      | some entry => exact Or.inr (howned.shared hsub hfree)
      | none =>
          obtain ⟨hentries, rfl⟩ :=
            Registry.entries_of_refused howned.sound hregister hfree
          exact Or.inl ⟨hentries, rfl⟩

/-- A submission that a round decides about is not accepted yet. -/
theorem Origins.not_accepted (ho : Origins e₀ events e) {r s : Nat}
    {round : Round} (hround : e.rounds[r]? = some round)
    (hphase : round.phase = .running) (hs : round.submission = some s)
    (sub : Submission) (handle : Handle) (hsub : e.submissions[s]? = some sub) :
    sub.phase ≠ .accepted handle := by
  intro haccepted
  obtain ⟨s', sub', hs', hsub', hverifying⟩ := ho.rounds r round hround hphase
  rw [hs] at hs'
  cases hs'
  rw [hsub] at hsub'
  cases hsub'
  rw [haccepted] at hverifying
  cases hverifying

/-- What a step rejects it has just been handed, or its round has ended. -/
theorem Transition.rejected_cases (ho : Origins e₀ events e) (howned : e.Owned)
    (h : Transition e event e') {s : Nat} {sub : Submission} {fault : Fault}
    (hsub : e'.submissions[s]? = some sub)
    (hphase : sub.phase = .rejected fault) :
    e.submissions[s]? = some sub ∨ e.submissions.length = s ∧
      e'.rounds = e.rounds ∨ fault.isImmediate = false ∨ e'.Shared s sub := by
  have hlater := h.later
  cases h with
  | aside | probed | started | arrived | finished | accepted =>
      exact Or.inl hsub
  | refused =>
      rcases getElem?_concat_cases hsub with hold | ⟨rfl, -⟩
      · exact Or.inl hold
      · exact Or.inr (Or.inl ⟨rfl, rfl⟩)
  | verified | admitted =>
      rcases getElem?_concat_cases hsub with hold | ⟨-, rfl⟩
      · exact Or.inl hold
      · cases hphase
  | passed k c answer r round i sub₁ registry handle metrics journal hcall
      hanswer hpurpose hround hrunning hasked haccepts hunasked
        hlast hs hsub₁ =>
      rcases getElem?_set_cases hsub₁ hsub with ⟨-, rfl⟩ | ⟨-, hold⟩
      · cases hphase
      · exact Or.inl hold
  | turnedDown k c answer r round i sub₁ fault registry metrics
      journal hcall hanswer hpurpose hround hrunning hasked haccepts hunasked
        hlast hs hsub₁ hregistry hjournal
      hdenies =>
      rcases getElem?_set_cases hsub₁ hsub with ⟨rfl, rfl⟩ | ⟨-, hold⟩
      · cases hphase
        rcases hdenies.cases howned (ho.not_accepted hround hrunning hs) with
          ⟨-, hlate⟩ | hshared
        · exact Or.inr (Or.inr (Or.inl hlate))
        · exact Or.inr
            (Or.inr (Or.inr (hshared.later hlater ⟨rfl, rfl, rfl, rfl, rfl⟩)))
      · exact Or.inl hold
  | failed event r round i sub₁ fault calls metrics journal hround
      hrunning hs hsub₁ hgiven hjournal hfault =>
      rcases getElem?_set_cases hsub₁ hsub with ⟨-, rfl⟩ | ⟨-, hold⟩
      · cases hphase
        obtain ⟨node, reason, rfl⟩ := hfault
        exact Or.inr (Or.inr (Or.inl rfl))
      · exact Or.inl hold

theorem Judged.of_transition (ho : Origins e₀ events e) (hprobed : e.Probed)
    (howned : e.Owned) (hjudged : e.Judged)
    (h : Transition e event e') : e'.Judged := by
  intro r round' s sub fault hr' hs hsub hphase
  rcases h.rejected_cases ho howned hsub hphase with hold |
    ⟨hlength, hrounds⟩ | hdone
  · rcases h.later.rounds.old_or_new hr' with ⟨round, hr, hrr⟩ | hnew
    · rw [hrr.submission] at hs
      refine (hjudged r round s sub fault hr hs hold hphase).imp_right
        fun hshared => ?_
      exact hshared.later h.later (Submission.Becomes.refl sub)
    · obtain ⟨-, -, -, -, hs', -⟩ := h.new_round hnew hr'
      rw [hs] at hs'
      cases hs'
      exact absurd hold (getElem?_ne_some (Nat.le_refl _) sub)
  · rw [hrounds] at hr'
    rw [← hlength] at hs
    exact absurd hs (hprobed.submission_ne hr')
  · exact hdone

end

section

variable {config : EngineConfig} {entries : List (Node × Connectivity)}
  {wants : Bool} {events : List Event} {e : Engine}

theorem judged_of_run
    (h : (start config (.ofEntries entries) wants).run events = some e) :
    e.Judged :=
  (run_invariant (P := fun _ e => e.Probed ∧ e.Owned ∧ e.Judged)
    (reached_start config entries wants)
    ⟨probed_start config _ wants, owned_start config _ wants, fun _ _ _ _ _ h =>
      nomatch h⟩
    (fun _ _ _ _ _ hr ⟨hprobed, howned, hjudged⟩ _ h =>
      ⟨hprobed.of_transition hr.linked h, howned.of_transition hr.origins h,
        hjudged.of_transition hr.origins hprobed howned h⟩) h).1.2.2

end

/-! ## The registry during the call -/

/-- Whether an event is a step of the call that handed a submission in: that
step itself, or one of its round. -/
def StepOf (s : Nat) (e : Engine) : Event → Prop
  | .submit _ _ _ _ => e.submissions.length = s
  | .startProbe r | .expireRound r =>
    ∃ round : Round, e.rounds[r]? = some round ∧ round.submission = some s
  | .arrive k _ | .finish k => ∃ (c : Call) (r : Nat) (round : Round),
    e.calls[k]? = some c ∧ c.purpose = .probe r ∧ e.rounds[r]? = some round ∧
      round.submission = some s
  | _ => False

section

variable {e₀ e e' : Engine} {events more : List Event} {event : Event}

theorem StepOf.eq_of_probe {s i k r : Nat} {c : Call} {round : Round}
    (h : StepOf s e (.finish k)) (hcall : e.calls[k]? = some c)
    (hpurpose : c.purpose = .probe r) (hround : e.rounds[r]? = some round)
    (hi : round.submission = some i) : s = i := by
  obtain ⟨c', r', round', hc', hp', hr', hs⟩ := h
  rw [hcall] at hc'
  cases hc'
  rw [hpurpose] at hp'
  cases hp'
  rw [hround] at hr'
  cases hr'
  rw [hi] at hs
  exact (Option.some.inj hs).symm

/-- The steps of a call that ends in a rejection change nothing in what is
held. -/
theorem Transition.entries_eq (ho : Origins e₀ events e) (howned : e.Owned)
    (h : Transition e event e') {s : Nat} (hstep : StepOf s e event)
    (hnever : ∀ (sub : Submission) (handle : Handle), e'.submissions[s]? =
      some sub → sub.phase ≠ .accepted handle)
    (hown : ∀ sub, e'.submissions[s]? = some sub → ¬ e'.Shared s sub) :
    e'.registry.entries = e.registry.entries := by
  have hlater := h.later
  cases h with
  | aside event now members isStopped isSweeping registry metrics journal hnow
      hadvance hmembers hregistry hjournal hoperation =>
      rcases hoperation with rfl | ⟨op, hop, -⟩
      · rfl
      · cases event with
        | lookUp | look | sweep | shutDown => cases hstep
        | _ => cases hop
  | refused target request id seed fault isSweeping registry metrics
      journal hregistry hjournal hrefuses =>
      cases hrefuses with
      | stopped | unresolved | unconnected => rfl
      | denied nodes registry fault hrunning hresolve hround hdenies =>
          have hlength : e.submissions.length = s := hstep
          subst hlength
          rcases hdenies.cases howned fun sub handle hsub =>
            absurd hsub (getElem?_ne_some (Nat.le_refl _) sub) with ⟨hentries,
              -⟩ | hshared
          · exact hentries
          · refine absurd (hshared.later hlater ⟨rfl, rfl, rfl, rfl, rfl⟩)
              (hown (e.handedIn target request id seed (.rejected fault)) ?_)
            exact List.getElem?_concat_length
  | verified | probed | started | arrived | finished | accepted | failed => rfl
  | admitted target request id seed nodes registry handle =>
      have hlength : e.submissions.length = s := hstep
      subst hlength
      exact absurd rfl (hnever _ handle List.getElem?_concat_length)
  | passed k c answer r round i sub registry handle metrics journal hcall
      hanswer hpurpose hround hrunning hasked haccepts hunasked hlast hs hsub =>
      obtain rfl := StepOf.eq_of_probe hstep hcall hpurpose hround hs
      refine absurd rfl
        (hnever { sub with phase := .accepted handle } handle ?_)
      rw [getElem?_set_of_some hsub, if_pos rfl]
  | turnedDown k c answer r round i sub fault registry metrics
      journal hcall hanswer hpurpose hround hrunning hasked haccepts hunasked
        hlast hs hsub hregistry hjournal
      hdenies =>
      obtain rfl := StepOf.eq_of_probe hstep hcall hpurpose hround hs
      rcases hdenies.cases howned (ho.not_accepted hround hrunning hs) with
        ⟨hentries, -⟩ | hshared
      · exact hentries
      · refine absurd (hshared.later hlater ⟨rfl, rfl, rfl, rfl, rfl⟩)
          (hown { sub with phase := .rejected fault } ?_)
        rw [getElem?_set_of_some hsub, if_pos rfl]

/-! ## Nobody is asked -/

/-- Whether no round has been opened for a submission. -/
def Unasked (s : Nat) (e : Engine) : Prop :=
  ∀ (r : Nat) (round : Round), e.rounds[r]? = some round →
    round.submission ≠ some s

/-- A round is opened when its submission is handed in or never. -/
theorem Unasked.later {s : Nat} (hl : Linked e) (hs : s < e.submissions.length)
    (h : Unasked s e) (hmore : e.run more = some e') : Unasked s e' := by
  induction more generalizing e with
  | nil =>
      cases hmore
      exact h
  | cons event more ih =>
      obtain ⟨e₁, hstep, hmore⟩ := run_cons.1 hmore
      have htransition := step_transition hl hstep
      refine ih (htransition.linked hl) ?_ ?_ hmore
      · obtain ⟨sub', hsub', -⟩ :=
          htransition.later.submissions s _ (List.getElem?_eq_getElem hs)
        exact (List.getElem?_eq_some_iff.1 hsub').1
      · intro r round hr hnamed
        rcases htransition.later.rounds.old_or_new hr with ⟨old, hold, hrr⟩ |
          hnew
        · exact h r old hold (hrr.submission.symm.trans hnamed)
        · obtain ⟨-, -, -, -, hs', -⟩ := htransition.new_round hnew hr
          rw [hnamed] at hs'
          cases hs'
          omega

/-- A stopped engine opens no round for what it is handed. -/
theorem unasked_of_stopped (hprobed : e.Probed) (hstopped : e.isStopped = true)
    (target : Target) (request : Request) (id seed : String) :
    e.submissions.length <
      (e.submit target request id seed).submissions.length ∧
      Unasked e.submissions.length (e.submit target request id seed) := by
  unfold submit
  dsimp only
  rw [if_pos hstopped]
  unfold reject setSubmission tell
  refine ⟨?_, fun r round hr => hprobed.submission_ne hr⟩
  dsimp only
  rw [List.length_modify, List.length_append, List.length_singleton]
  omega

/-- A call that carries the identifier of a rejected submission is a probe of
its round. -/
theorem Reached.round_of_call (hr : Reached e₀ events e) (hprobed : e.Probed)
    {s : Nat} {sub : Submission} {fault : Fault}
    (hsub : e.submissions[s]? = some sub)
    (hrejected : sub.phase = .rejected fault)
    (hfresh : ∀ (s' : Nat) sub', e.submissions[s']? = some sub' →
      sub'.id = sub.id → s' = s)
    {k : Nat} {c : Call} (hc : e.calls[k]? = some c)
    (hid : c.outbound.id = sub.id) :
    ∃ (r : Nat) (round : Round), e.rounds[r]? = some round ∧
      round.submission = some s := by
  by_cases hreal : ∀ r, c.purpose ≠ .probe r
  · obtain ⟨handle, haccepted, -⟩ :=
      Carries.serving hr hsub hfresh ⟨hc, hreal, hid⟩
    rw [hrejected] at haccepted
    cases haccepted
  · obtain ⟨r, hp⟩ := not_forall.1 hreal
    exact ⟨r, hprobed.round_of_id hfresh hc (not_not.1 hp) hid⟩

end

/-! ## Nothing is left behind -/

section

variable {config : EngineConfig} {entries : List (Node × Connectivity)}
  {wants : Bool} {events : List Event} {e : Engine} {s : Nat} {sub : Submission}
  {fault : Fault}

/-- The call that handed a rejected submission in left what is held alone. -/
theorem entries_along
    (h : (start config (.ofEntries entries) wants).run events = some e)
    (hsub : e.submissions[s]? = some sub)
    (hrejected : sub.phase = .rejected fault)
    (hfresh : ∀ (s' : Nat) sub', e.submissions[s']? = some sub' →
      sub'.id = sub.id → s' = s) :
    Along (fun e₁ event => StepOf s e₁ event → ∀ e₂, e₁.step event = some e₂ →
      e₂.registry.entries = e₁.registry.entries)
      (start config (.ofEntries entries) wants) events := by
  intro pre event post e₁ hevents hpre hstepof e₂ hstep
  have hr₁ := reached_of_run hpre
  have htransition := step_transition hr₁.linked hstep
  obtain ⟨_, hstep', hpost⟩ := run_cons.1 (run_append hpre (hevents ▸ h))
  cases hstep.symm.trans hstep'
  have hr₂ := hr₁.step hpre hstep
  have hlater : Later e₂ e := later_of_run hr₂.linked hpost
  refine htransition.entries_eq hr₁.origins (owned_of_run hpre) hstepof ?_ ?_
  -- Had it been accepted in between, or shared its identifier, it would be so
  -- at the end.
  · intro sub₂ handle hsub₂ haccepted
    have hkept :=
      hr₂.submission_of_decided (run_snoc.2 ⟨e₁, hpre, hstep⟩) hpost hsub₂
      fun r hv => by rw [haccepted] at hv; cases hv
    rw [hsub] at hkept
    cases hkept
    rw [hrejected] at haccepted
    cases haccepted
  · intro sub₂ hsub₂ hshared
    obtain ⟨sub₃, hsub₃, hsame⟩ := hlater.submissions s sub₂ hsub₂
    rw [hsub] at hsub₃
    cases hsub₃
    obtain ⟨i, other, hne, hother, hid⟩ := hshared.later hlater hsame
    exact hne (hfresh i other hother hid)

/-- A stopped engine never opens a round for what it was handed. -/
theorem unasked_of_handedIn
    (h : (start config (.ofEntries entries) wants).run events = some e)
    {b : Engine} (hhanded :
      HandedIn (start config (.ofEntries entries) wants) events s sub b)
    (hstopped : b.isStopped = true) : Unasked s e := by
  obtain ⟨pre, post, rfl, hpre⟩ := hhanded.split
  obtain ⟨hlt, hunasked⟩ := unasked_of_stopped (probed_of_run hpre) hstopped
    sub.target sub.request sub.id sub.seed
  obtain ⟨_, hstep, hrest⟩ := run_cons.1 (run_append hpre h)
  have hl := ((reached_of_run hpre).step hpre hstep).linked
  cases hstep
  rw [hhanded.index] at hlt hunasked
  exact hunasked.later hl hlt hrest

end

/-- Whatever a submission is rejected for, if its identifier is its own, no call
other than a probe ever carries the identifier, nobody is ever called back with
it, it is never held, and the steps of the call that handed it in change nothing
in what is held. If the fault is about the target, the method or the states of
the nodes, or if the engine was stopped when the submission was handed in, no
probe carries the identifier either. -/
theorem rejected_leaves_nothing (config : EngineConfig)
    (entries : List (Node × Connectivity)) (wants : Bool)
    {events more : List Event} {e e' : Engine}
    (h : (start config (.ofEntries entries) wants).run events = some e)
    {s : Nat} {sub : Submission} {fault : Fault}
    (hsub : e.submissions[s]? = some sub)
    (hrejected : sub.phase = .rejected fault) (hmore : e.run more = some e')
    (hfresh : ∀ (s' : Nat) sub', e'.submissions[s']? = some sub' →
      sub'.id = sub.id → s' = s) :
    (∀ (k : Nat) c, ¬ Carries e' sub k c) ∧
    (∀ call ∈ e'.callbacks, call.2.id ≠ sub.id) ∧
    e'.registry.contains sub.id = false ∧
    Along (fun e₁ event => StepOf s e₁ event → ∀ e₂, e₁.step event = some e₂ →
      e₂.registry.entries = e₁.registry.entries)
      (start config (.ofEntries entries) wants) (events ++ more) ∧
    (fault.isImmediate = true ∨ (∃ b,
        HandedIn (start config (.ofEntries entries) wants) events s sub b ∧
          b.isStopped = true) →
      ∀ (k : Nat) c, e'.calls[k]? = some c → c.outbound.id ≠ sub.id) := by
  have hundecided : ∀ r, sub.phase ≠ .verifying r := fun r hv => by
    rw [hrejected] at hv
    cases hv
  have hall := run_trans h hmore
  have hr' := reached_of_run hall
  have howned' := owned_of_run hall
  have hsub' : e'.submissions[s]? = some sub :=
    (reached_of_run h).submission_of_decided h hmore hsub hundecided
  have hnever : ∀ (i : Nat) (other : Submission) (handle : Handle),
      e'.submissions[i]? = some other → other.phase = .accepted handle →
      other.id ≠ sub.id := by
    intro i other handle hother haccepted hid
    cases hfresh i other hother hid
    rw [hsub'] at hother
    cases hother
    rw [hrejected] at haccepted
    cases haccepted
  refine ⟨fun k c hc => ?_, fun call hcall hid =>
    ?_, ?_, ?_, fun hearly k c hc hid => ?_⟩
  · obtain ⟨handle, haccepted, -⟩ := Carries.serving hr' hsub' hfresh hc
    rw [hrejected] at haccepted
    cases haccepted
  · obtain ⟨i, other, handle, hother, haccepted, hid'⟩ :=
      howned'.callbacks call hcall
    exact hnever i other handle hother haccepted (hid'.trans hid)
  · refine Registry.contains_eq_false.2
      (Registry.entry?_eq_none.2 fun entry hentry hid => ?_)
    obtain ⟨i, other, hother, haccepted, hid'⟩ := howned'.entries entry hentry
    exact hnever i other _ hother haccepted (hid'.trans hid)
  · exact entries_along hall hsub' hrejected hfresh
  · obtain ⟨r, round, hround, hnamed⟩ :=
      hr'.round_of_call (probed_of_run hall) hsub' hrejected hfresh hc hid
    rcases hearly with himmediate | ⟨b, hhanded, hstopped⟩
    · rcases judged_of_run hall r round s sub fault hround hnamed
        hsub' hrejected with
        hlate | ⟨i, other, hne, hother, hid'⟩
      · rw [himmediate] at hlate
        cases hlate
      · exact hne (hfresh i other hother hid')
    · obtain ⟨pre, post, hevents, hpre⟩ := hhanded.split
      have hlonger : HandedIn (start config (.ofEntries entries) wants)
          (events ++ more) s sub b :=
        ⟨⟨pre, post ++ more, by rw [hevents, List.append_assoc]; rfl, hpre⟩,
          hhanded.index⟩
      exact unasked_of_handedIn hall hlonger hstopped r round hround hnamed

/-- The registry is full when the round has passed. The probe has been sent by
then, but nothing else is, also not when the calls of the other request are
made. -/
theorem rejected_leaves_nothing_full :
    let a : Node := ⟨"a", "localhost", 1⟩
    let config : EngineConfig := { registry := { limit := 1 } }
    let e₀ := start config (.ofEntries [(a, .connected)]) true
    let events : List Event :=
      [.submit .allConnected { method := .put, uri := "/", verify := false }
        "r" "s", .submit (.nodes [a]) { method := .put, uri := "/" } "q" "t",
          .startProbe 0,
        .arrive 0 (.ok { status := 202 }), .finish 0]
    let more : List Event :=
      [.startJob, .arrive 1 (.ok { status := 200 }), .finish 1]
    ∃ e e' sub, e₀.run events = some e ∧ e.submissions[1]? = some sub ∧
      sub.phase = .rejected (.tooManyRequests 1) ∧ e.run more = some e' ∧
      (∀ (k : Nat) c, ¬ Carries e' sub k c) ∧
      (∀ call ∈ e'.callbacks, call.2.id ≠ "q") ∧
      e'.registry.contains "q" = false := by
  intro a config e₀ events more
  have hrun : (e₀.run events).bind (fun e => (e.run more).map fun e' =>
      ((e.submissions[1]?.map fun sub => (sub.id, match sub.phase with
        | .rejected fault => some fault
        | _ => none)),
        e'.submissions.map (·.id))) =
      some (some ("q", some (.tooManyRequests 1)), ["r", "q"]) := by
    decide +kernel
  obtain ⟨e, he, hseen⟩ := Option.bind_eq_some_iff.1 hrun
  obtain ⟨e', he', hseen⟩ := Option.map_eq_some_iff.1 hseen
  rw [Prod.mk.injEq] at hseen
  obtain ⟨hrejected, hids⟩ := hseen
  obtain ⟨sub, hsub, hseen⟩ := Option.map_eq_some_iff.1 hrejected
  rw [Prod.mk.injEq] at hseen
  obtain ⟨hid, hphase⟩ := hseen
  have hrejected : sub.phase = .rejected (.tooManyRequests 1) := by
    split at hphase
    · next fault hfault =>
        cases hphase
        exact hfault
    · cases hphase
  have hfresh : ∀ (s' : Nat) sub', e'.submissions[s']? = some sub' →
      sub'.id = sub.id → s' = 1 := by
    intro s' sub' hsub' hid'
    have hget : (e'.submissions.map (·.id))[s']? = some "q" := by
      rw [List.getElem?_map, hsub', Option.map_some, hid', hid]
    rw [hids] at hget
    match s', hget with
    | 0, hget => exact absurd hget (by decide)
    | 1, _ => rfl
  obtain ⟨hcalls, hcallbacks, hheld, -⟩ :=
    rejected_leaves_nothing config _ true he hsub hrejected he' hfresh
  rw [hid] at hcallbacks hheld
  exact ⟨e, e', sub, he, hsub, hrejected, he', hcalls, hcallbacks, hheld⟩

end Engine

end Fanout
