import Fanout.Program.Ending
import Fanout.Proofs.Outcome
import Fanout.Proofs.Rehearsed

/-!
# A request alone in its engine

Somebody hands one request in and then asks for it from time to time. In
between, time passes, jobs call nodes, and the registry is swept. None of this
takes the entry out as long as the collation is not complete. Once it is, a
sweep may take it out, if a retention time has passed since the last time that
it was asked for.

`Held` is what all that leaves unchanged. It is kept by every event that nobody
outside asks for, and somebody who asks finds either that nothing is held, and
then the time was long enough, or the collation of the request.
-/

namespace Fanout

/-- Whether somebody outside asks for an event. -/
def Event.isOutside : Event → Bool
  | .submit _ _ _ _ | .lookUp _ | .shutDown | .addNode _ _ | .setState _ _ |
      .removeNode _ =>
    true
  | _ => false

namespace Engine

section

variable {config : EngineConfig} {entries : List (Node × Connectivity)}
  {e e' : Engine} {event : Event}

theorem isMembership_of_isOutside (h : event.isOutside = false) :
    event.isMembership = false := by
  cases event with
  | addNode | setState | removeNode => cases h
  | _ => rfl

/-- Only a round that is still running changes a submission that was handed in
before. -/
theorem Transition.submissions_eq (h : Transition e event e')
    (houtside : event.isOutside = false)
    (hended : ∀ (r : Nat) round, e.rounds[r]? = some round →
      round.phase ≠ .running) :
    e'.submissions = e.submissions := by
  cases h with
  | aside | probed | started | arrived | finished | accepted => rfl
  | refused | verified | admitted => cases houtside
  | passed k c answer r round s sub registry handle metrics journal hcall
      hanswer hpurpose hround hphase =>
        exact absurd hphase (hended r round hround)
  | turnedDown k c answer r round s sub fault registry metrics
      journal hcall hanswer hpurpose hround hphase =>
        exact absurd hphase (hended r round hround)
  | failed event r round s sub fault calls metrics journal hround hphase =>
      exact absurd hphase (hended r round hround)

theorem Transition.journal_subset (h : Transition e event e') :
    e.journal ⊆ e'.journal := by
  have htold : ∀ {told : List (Node × String)} {journal : Journal},
      Tells told e.journal journal → e.journal ⊆ journal := by
    rintro told journal ⟨more, rfl, -⟩
    exact List.subset_append_left _ more
  cases h with
  | probed | started | arrived => exact List.Subset.refl _
  | _ => exact htold ‹Tells _ _ _›

/-- Among the events that nobody outside asks for, only a sweep lets entries
go. -/
theorem Transition.entries_of_ended (h : Transition e event e')
    (houtside : event.isOutside = false)
    (hended : ∀ (r : Nat) round, e.rounds[r]? = some round →
      round.phase ≠ .running)
    (hsweep : event ≠ .sweep) : e'.registry.entries = e.registry.entries := by
  cases h with
  | probed | started | arrived | finished | accepted | failed => rfl
  | refused | verified | admitted => cases houtside
  | passed k c answer r round s sub registry handle metrics journal hcall
      hanswer hpurpose hround hphase =>
        exact absurd hphase (hended r round hround)
  | turnedDown k c answer r round s sub fault registry metrics
      journal hcall hanswer hpurpose hround hphase =>
        exact absurd hphase (hended r round hround)
  | aside event now members isStopped isSweeping registry metrics journal hnow
      hadvance hmembers hregistry hjournal hoperation =>
      rcases hoperation with rfl | ⟨op, hop, rfl⟩
      · rfl
      · cases event with
        | sweep => exact absurd rfl hsweep
        | look handle =>
            cases hop
            rfl
        | lookUp | shutDown => cases houtside
        | _ => cases hop

theorem Transition.collation_of_isComplete (h : Transition e event e')
    {handle : Handle} {c : Collation}
    (hc : e.registry.collation? handle = some c)
    (hcomplete : c.isComplete = true) :
    e'.registry.collation? handle = some c := by
  rcases h.performs with hsame | ⟨op, hop, -⟩
  · rw [hsame]
    exact hc
  · rw [hop]
    exact Registry.collation?_perform_of_isComplete hc hcomplete e.now op

/-! ## The only submission -/

/-- The only submission was accepted. -/
structure Alone (e : Engine) (sub : Submission) (handle : Handle) : Prop where
  only : e.submissions = [sub]
  accepted : sub.phase = .accepted handle

theorem Alone.getElem? {sub : Submission} {handle : Handle}
    (h : e.Alone sub handle) : e.submissions[0]? = some sub := by
  rw [h.only]
  rfl

theorem Alone.eq {sub sub' : Submission} {handle : Handle}
    (h : e.Alone sub handle) {s : Nat}
    (hsub : e.submissions[s]? = some sub') : sub' = sub := by
  rw [h.only] at hsub
  exact List.mem_singleton.1 (List.mem_of_getElem? hsub)

theorem Rehearsed.ended (hr : Rehearsed config entries e) {sub : Submission}
    {handle : Handle} (h : e.Alone sub handle) (r : Nat) (round : Round)
    (hround : e.rounds[r]? = some round) : round.phase ≠ .running := by
  intro hphase
  obtain ⟨events, journal, hrun, -⟩ := hr
  obtain ⟨s, sub', -, hsub, hverifying⟩ :=
    (reached_of_run hrun).origins.rounds r round hround hphase
  rw [h.eq hsub, h.accepted] at hverifying
  cases hverifying

/-- What is held is the collation of the only submission. -/
theorem Alone.handle_eq {sub : Submission} {handle : Handle}
    (h : e.Alone sub handle) (howned : e.Owned) {id : String} {entry : Entry}
    (hentry : e.registry.entry? id = some entry) : entry.handle = handle := by
  obtain ⟨s, sub', hsub, hphase, -⟩ :=
    howned.entries entry (Registry.mem_of_entry hentry)
  rw [h.eq hsub, h.accepted] at hphase
  cases hphase
  rfl

theorem Rehearsed.registry_config (h : Rehearsed config entries e) :
    e.registry.config = config.registry := by
  obtain ⟨events, journal, hrun, -⟩ := h
  exact registry_config_of_run (e := { e with journal }) hrun

theorem members_of_run {events : List Event}
    (hrun : (start config (.ofEntries entries)).run events = some e)
    (hevents : ∀ event ∈ events, event.isMembership = false) :
    e.members = .ofEntries entries := by
  refine (run_invariant (P := fun events e =>
    (∀ event ∈ events, event.isMembership = false) →
      e.members = .ofEntries entries) (reached_start config entries false)
        (fun _ => rfl)
    (fun events event e e' _ _ heq _ htransition hall => ?_) hrun).1 hevents
  rw [htransition.members_eq
    (hall event (List.mem_append_right _ List.mem_cons_self))]
  exact heq fun event hevent => hall event (List.mem_append_left _ hevent)

/-- The collation of the only submission waits for the nodes that it was meant
for. -/
theorem Rehearsed.targets (hr : Rehearsed config entries e) {sub : Submission}
    {handle : Handle} (h : e.Alone sub handle) :
    ∃ c, e.registry.collation? handle = some c ∧ c.id = sub.id ∧
      sub.target.resolve (.ofEntries entries) sub.request = .ok c.expected := by
  obtain ⟨c, hc, hid⟩ := hr.owned.collations 0 sub handle h.getElem? h.accepted
  obtain ⟨events, journal, hrun, hevents⟩ := hr
  have hreached := reached_of_run hrun
  obtain ⟨b, hhanded, -, hstanding⟩ :=
    hreached.origins.submissions 0 sub h.getElem?
  obtain ⟨pre, post, rfl, hpre⟩ := hhanded.split
  unfold Standing at hstanding
  rw [h.accepted] at hstanding
  obtain ⟨⟨n, batch, c', hdelivers⟩, -⟩ := hstanding
  have hmembers := members_of_run hpre fun event hevent =>
    hevents event (List.mem_append_left _ hevent)
  have hresolved := hdelivers.resolved
  rw [hdelivers.nodes_eq (reached_of_run hpre).ordered hreached.staffed
    hreached.filled, hmembers] at hresolved
  have hc' : e.registry.collations[handle]? = some c' := hdelivers.collation
  rw [hc] at hc'
  cases hc'
  exact ⟨c, hc, hid, hresolved⟩

end

/-! ## Between two times that it is asked for -/

/-- A sweep has taken the entry of the only submission out: by then its
collation had been complete for a retention time, and for so long nobody had
asked for it. -/
structure Missed (config : EngineConfig) (sub : Submission) (handle : Handle)
    (touched : Instant) (e : Engine) : Prop where
  long : touched + config.registry.retention.nanos ≤ e.now
  complete : ∃ c completed, e.registry.collation? handle = some c ∧
    c.completedAt = some completed ∧
    config.registry.retention.nanos ≤ e.now - completed
  told : .purging sub.id ∈ e.journal

/-- The only submission was accepted and last asked for at some time, and since
then its entry is still there or has been swept. -/
structure Held (config : EngineConfig) (entries : List (Node × Connectivity))
    (sub : Submission) (handle : Handle) (deadline touched : Instant)
    (e : Engine) : Prop where
  rehearsed : Rehearsed config entries e
  alone : e.Alone sub handle
  past : touched ≤ e.now
  collation : ∃ c, e.registry.collation? handle = some c ∧ c.deadline = deadline
  entry : e.registry.entry? sub.id = some ⟨sub.id, handle, touched⟩ ∨
    e.Missed config sub handle touched

section

variable {config : EngineConfig} {entries : List (Node × Connectivity)}
  {sub : Submission} {handle : Handle} {deadline touched : Instant}
  {e e' : Engine} {event : Event}

theorem Missed.tell (h : e.Missed config sub handle touched)
    (notices : Journal) :
    (e.tell notices).Missed config sub handle touched where
  long := h.long
  complete := h.complete
  told := List.mem_append_left _ h.told

theorem Missed.of_transition (h : e.Missed config sub handle touched)
    (htransition : Transition e event e') :
    e'.Missed config sub handle touched where
  long := Nat.le_trans h.long htransition.later.now
  complete := by
    obtain ⟨c, completed, hc, hcompleted, hlong⟩ := h.complete
    have hkept := htransition.collation_of_isComplete hc
      (Collation.isComplete_of_completedAt hcompleted)
    exact ⟨c, completed, hkept, hcompleted,
      Nat.le_trans hlong (Nat.sub_le_sub_right htransition.later.now completed)⟩
  told := htransition.journal_subset h.told

theorem Held.tell (h : Held config entries sub handle deadline touched e)
    (notices : Journal) :
    Held config entries sub handle deadline touched (e.tell notices) where
  rehearsed := h.rehearsed.tell notices
  alone := ⟨h.alone.only, h.alone.accepted⟩
  past := h.past
  collation := h.collation
  entry := h.entry.imp_right fun hmissed => hmissed.tell notices

theorem Held.sweep (h : Held config entries sub handle deadline touched e)
    (hentry : e.registry.entry? sub.id = some ⟨sub.id, handle, touched⟩) :
    Registry.entry? sub.id e.sweep.registry = some ⟨sub.id, handle, touched⟩ ∨
      e.sweep.Missed config sub handle touched := by
  obtain ⟨c, hc, -⟩ := h.collation
  have hsound := h.rehearsed.owned.sound.collations handle c hc
  by_cases hkept : Registry.entry? sub.id (e.registry.purge e.now) =
      some ⟨sub.id, handle, touched⟩
  · exact Or.inl hkept
  · obtain ⟨-, hcomplete, huntouched⟩ :=
      (Registry.entry?_purge hentry hc hsound e.now).resolve_left hkept
    rw [h.rehearsed.registry_config] at hcomplete huntouched
    refine Or.inr ⟨Nat.add_le_of_le_sub' h.past huntouched, hcomplete, ?_⟩
    exact List.mem_append_right _ (Registry.mem_purgeNotices hentry hkept)

theorem Held.step (h : Held config entries sub handle deadline touched e)
    (houtside : event.isOutside = false) (hstep : e.step event = some e') :
    Held config entries sub handle deadline touched e' := by
  have htransition := h.rehearsed.transition hstep
  have hlater := htransition.later
  have hended := h.rehearsed.ended h.alone
  have hkept : e'.submissions = e.submissions :=
    htransition.submissions_eq houtside hended
  refine ⟨h.rehearsed.step hstep (isMembership_of_isOutside houtside),
    ⟨hkept.trans h.alone.only, h.alone.accepted⟩,
    Nat.le_trans h.past hlater.now, ?_, ?_⟩
  · obtain ⟨c, hc, hdeadline⟩ := h.collation
    obtain ⟨c', hc', hsame⟩ := hlater.collations handle c hc
    exact ⟨c', hc', hsame.deadline.trans hdeadline⟩
  · rcases h.entry with hentry | hmissed
    · by_cases hsweep : event = .sweep
      · subst hsweep
        cases hstep
        exact h.sweep hentry
      · refine Or.inl ?_
        rw [Registry.entry?, htransition.entries_of_ended
          houtside hended hsweep]
        exact hentry
    · exact Or.inr (hmissed.of_transition htransition)

/-! ## When it is asked for -/

/-- What somebody who asks for the only submission finds. -/
structure Found (config : EngineConfig) (entries : List (Node × Connectivity))
    (sub : Submission) (handle : Handle) (deadline touched : Instant)
    (e e' : Engine) (finding : Finding) : Prop where
  rehearsed : Rehearsed config entries e'
  alone : e'.Alone sub handle
  now : e'.now = e.now
  jobs : e'.jobs = e.jobs
  finding : match finding with
    | .gone => e'.Missed config sub handle touched
    | .complete report => ∃ c, e'.registry.collation? handle = some c ∧
        c.isComplete = true ∧ report = c.view
    | .incomplete _ =>
        Held config entries sub handle deadline e.now e' ∧ e.now < deadline

theorem Held.found_of_none
    (h : Held config entries sub handle deadline touched e)
    (hnone : e.registry.entry? sub.id = none) :
    Found config entries sub handle deadline touched e (e.find sub.id).1
      (e.find sub.id).2 := by
  have hget := Registry.get_of_none hnone e.now
  have hfind : e.find sub.id = ((e.lookUp sub.id).1, .gone) := by
    unfold find lookUp
    rw [hget]
  rw [hfind]
  have hstep : e.step (.lookUp sub.id) = some (e.lookUp sub.id).1 := rfl
  refine ⟨h.rehearsed.step hstep rfl,
    ⟨h.alone.only, h.alone.accepted⟩, rfl, rfl, ?_⟩
  rcases h.entry with hentry | hmissed
  · rw [hnone] at hentry
    cases hentry
  · exact hmissed.of_transition (h.rehearsed.transition hstep)

/-- Whoever looks at a collation sees it settled. -/
theorem settle_looked {c : Collation}
    (hc : e.registry.collation? handle = some c) :
    (e.settle handle).registry.collation? handle = some (c.settle e.now) ∧
      (e.settle handle).report? handle = some (c.settle e.now).view := by
  have hsettled : (e.registry.update handle (Collation.settle e.now)).collation?
      handle = some (c.settle e.now) := by
    rw [Registry.collation?] at hc
    rw [Registry.collation?, Registry.update, List.getElem?_modify, hc]
    exact congrArg some (if_pos rfl)
  unfold settle
  rw [hc]
  refine ⟨hsettled, ?_⟩
  show ((e.registry.update handle (Collation.settle e.now)).collation?
    handle).map (Collation.report e.now) = _
  rw [hsettled, Option.map_some, Collation.report, Collation.settle_idem]

theorem settle_frame (e : Engine) (handle : Handle) :
    (e.settle handle).now = e.now ∧ (e.settle handle).jobs = e.jobs ∧
      (e.settle handle).submissions = e.submissions := by
  unfold settle
  split
  · exact ⟨rfl, rfl, rfl⟩
  · exact ⟨rfl, rfl, rfl⟩

/-- What is found where something is held is its collation, settled. -/
theorem Held.find_eq (h : Held config entries sub handle deadline touched e)
    {entry : Entry} (hentry : e.registry.entry? sub.id = some entry)
    {c : Collation} (hc : e.registry.collation? handle = some c) :
    ((e.lookUp sub.id).1.settle handle).registry.collation? handle =
      some (c.settle e.now) ∧ e.find sub.id =
        ((e.lookUp sub.id).1.settle handle, if (c.settle e.now).isComplete then
          .complete (c.settle e.now).view
        else .incomplete (c.settle e.now).view) := by
  have hhandle := h.alone.handle_eq h.rehearsed.owned hentry
  obtain ⟨c₁, hc₁, hseen⟩ :=
    (Registry.kept_get e.now sub.id e.registry).collations handle c hc
  have hsettled : c₁.settle e.now = c.settle e.now := by
    rcases hseen with rfl | rfl
    · rfl
    · exact Collation.settle_idem e.now c
  have hheld : (e.lookUp sub.id).1.registry.collation? handle = some c₁ := hc₁
  obtain ⟨hlooked, hreport⟩ := settle_looked hheld
  have hlookUp : e.lookUp sub.id = ((e.lookUp sub.id).1, some handle) := by
    rw [← hhandle] at hc
    obtain ⟨hget, -⟩ := Registry.get_of_entry hentry hc e.now
    exact Prod.ext rfl (hget.trans (congrArg some hhandle))
  refine ⟨hlooked.trans (congrArg some hsettled), ?_⟩
  unfold find
  rw [hlookUp]
  dsimp only
  rw [hreport]
  show _ = (_, if _ then _ else _)
  rw [← hsettled]
  rfl

/-- Whoever asks finds the collation of the request, or else a retention time
has passed since it was last asked for, and it is complete. -/
theorem Held.found (h : Held config entries sub handle deadline touched e) :
    Found config entries sub handle deadline touched e (e.find sub.id).1
      (e.find sub.id).2 := by
  cases hentry : e.registry.entry? sub.id with
  | none => exact h.found_of_none hentry
  | some entry =>
      obtain ⟨c, hc, hdeadline⟩ := h.collation
      have hsound := h.rehearsed.owned.sound.collations handle c hc
      obtain ⟨hlooked, hfind⟩ := h.find_eq hentry hc
      obtain ⟨hnow, hjobs, hsubmissions⟩ :=
        settle_frame (e.lookUp sub.id).1 handle
      have hstep : e.step (.lookUp sub.id) = some (e.lookUp sub.id).1 := rfl
      have hlook : (e.lookUp sub.id).1.step (.look handle) =
          some ((e.lookUp sub.id).1.settle handle) := rfl
      have hrehearsed := (h.rehearsed.step hstep rfl).step hlook rfl
      have halone : ((e.lookUp sub.id).1.settle handle).Alone sub handle :=
        ⟨hsubmissions.trans h.alone.only, h.alone.accepted⟩
      rw [hfind]
      refine ⟨hrehearsed, halone, hnow, hjobs, ?_⟩
      cases hcomplete : (c.settle e.now).isComplete with
      | true => exact ⟨c.settle e.now, hlooked, hcomplete, rfl⟩
      | false =>
          have hopen : ¬ c.IsOver e.now := fun hover => by
            rw [(hsound.isComplete_settle e.now).2 hover] at hcomplete
            cases hcomplete
          have htouched : Registry.entry? sub.id
              (e.registry.get e.now sub.id).1 =
              some ⟨sub.id, handle, e.now⟩ := by
            have hhandle := h.alone.handle_eq h.rehearsed.owned hentry
            have hid := Registry.id_of_entry hentry
            rw [← hhandle] at hc
            rw [(Registry.entry?_get hentry hc hsound e.now).2 hopen, hid,
              hhandle]
          refine ⟨⟨hrehearsed, halone, Nat.le_of_eq hnow.symm, ?_, Or.inl ?_⟩,
            ?_⟩
          · refine ⟨c.settle e.now, hlooked, ?_⟩
            rw [(Collation.same_settle e.now c).deadline, hdeadline]
          · unfold settle
            split
            · exact htouched
            · exact htouched
          · rw [← hdeadline]
            exact Nat.not_le.1 fun hle => hopen (Or.inr hle)

end

end Engine

end Fanout
