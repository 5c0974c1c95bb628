import Fanout.Proofs.Sleeping

/-!
# From handing in to the decision

A request is handed in to an engine that has none. It may be accepted at once,
or a round has to decide about it first, and the conductor waits for that.
Before it is accepted there is no job, so whatever runs in the background
meanwhile only sweeps. As soon as it is accepted nobody waits any more. So the
conductor that looks at it then sees it as it was accepted: nothing has happened
to its collation, and no time has passed.
-/

namespace Fanout

namespace Engine

/-- No submission has been accepted. -/
def Unaccepted (e : Engine) : Prop :=
  ∀ sub ∈ e.submissions, ∀ handle, sub.phase ≠ .accepted handle

/-- A request is the only submission, and if it was accepted, that was just
now. -/
structure Tried (target : Target) (request : Request) (e : Engine)
    (sub : Submission) : Prop where
  only : e.submissions = [sub]
  asks : sub.target = target ∧ sub.request = request
  fresh : ∀ handle, sub.phase = .accepted handle → e.Fresh sub handle

section

variable {config : EngineConfig} {entries : List (Node × Connectivity)}
  {e e' : Engine} {event : Event} {target : Target} {request : Request}
  {sub : Submission}

theorem Unaccepted.of_submissions_eq (h : e.Unaccepted)
    (hsame : e'.submissions = e.submissions) : e'.Unaccepted := by
  intro sub hsub
  rw [hsame] at hsub
  exact h sub hsub

theorem Rehearsed.jobs_eq_nil (hr : Rehearsed config entries e)
    (h : e.Unaccepted) : e.jobs = [] := by
  by_contra hjobs
  obtain ⟨job, rest, heq⟩ := List.exists_cons_of_ne_nil hjobs
  obtain ⟨batch, hbatch⟩ := hr.linked.jobs 0 job (by rw [heq]; rfl)
  obtain ⟨events, journal, hrun, -⟩ := hr
  obtain ⟨s, sub, hsub, hphase, -⟩ :=
    (reached_of_run hrun).origins.batches job.batch batch hbatch
  exact h sub (List.mem_of_getElem? hsub) batch.handle hphase

theorem Rehearsed.submissions_of_enacts (hr : Rehearsed config entries e)
    (hnone : e.Unaccepted) (h : Enacts Backstage e e') :
    e'.submissions = e.submissions :=
  (h.idle (hr.jobs_eq_nil hnone)).2.1

theorem Transition.length_submissions (h : Transition e event e')
    (houtside : event.isOutside = false) :
    e'.submissions.length = e.submissions.length := by
  cases h with
  | aside | probed | started | arrived | finished | accepted => rfl
  | refused | verified | admitted => cases houtside
  | passed | turnedDown | failed => exact List.length_set

/-! ## Being tried -/

theorem Tried.of_unaccepted (h : Tried target request e sub)
    (hnone : e.Unaccepted) (hsame : e'.submissions = e.submissions) :
    Tried target request e' sub where
  only := hsame.trans h.only
  asks := h.asks
  fresh handle hphase := by
    refine absurd hphase (hnone sub ?_ handle)
    rw [h.only]
    exact List.mem_singleton_self sub

theorem Tried.tell (h : Tried target request e sub) (notices : Journal) :
    Tried target request (e.tell notices) sub where
  only := h.only
  asks := h.asks
  fresh handle hphase :=
    ⟨(h.fresh handle hphase).entry, (h.fresh handle hphase).collation⟩

/-- While its round runs, a request has not been accepted. -/
theorem Tried.unaccepted (h : Tried target request e sub)
    (hr : Rehearsed config entries e) {r : Nat} {round : Round}
    (hround : e.rounds[r]? = some round)
    (hrunning : round.phase = .running) : e.Unaccepted := by
  intro sub' hsub' handle hphase
  rw [h.only, List.mem_singleton] at hsub'
  subst hsub'
  exact hr.ended ⟨h.only, hphase⟩ r round hround hrunning

theorem Tried.step (h : Tried target request e sub)
    (hr : Rehearsed config entries e) (hnone : e.Unaccepted)
    (houtside : event.isOutside = false) (hstep : e.step event = some e') :
    ∃ sub', Tried target request e' sub' := by
  have htransition := hr.transition hstep
  have hlength := htransition.length_submissions houtside
  rw [h.only] at hlength
  obtain ⟨sub', honly⟩ := List.length_eq_one_iff.1 hlength
  have hsub' : e'.submissions[0]? = some sub' := by
    rw [honly]
    rfl
  obtain ⟨same, hsame, hbecomes⟩ :=
    htransition.later.submissions 0 sub (by rw [h.only]; rfl)
  rw [hsub'] at hsame
  cases hsame
  refine ⟨sub', honly, ?_, fun handle hphase => ?_⟩
  · rw [hbecomes.target, hbecomes.request]
    exact h.asks
  · rcases htransition.accepted_cases hsub' hphase with hold | hfresh
    · exact absurd hphase (hnone sub' (List.mem_of_getElem? hold) handle)
    · exact hfresh

theorem tried_submit (hempty : e.submissions = []) (target : Target)
    (request : Request) (id seed : String) :
    ∃ sub, Tried target request (e.submit target request id seed) sub := by
  have htransition := submit_transition e target request id seed
  have honly : ∃ phase, (e.submit target request id seed).submissions =
      [e.handedIn target request id seed phase] := by
    generalize e.submit target request id seed = e' at htransition
    cases htransition with
    | aside _ _ _ _ _ _ _ _ _ _ _ _ _ _ _ hother => cases hother
    | refused | verified | admitted => exact ⟨_, congrArg (· ++ _) hempty⟩
    | failed _ r round s sub _ _ _ _ hround hrunning hs hsub =>
        rw [hempty] at hsub
        cases hsub
  obtain ⟨phase, honly⟩ := honly
  refine ⟨_, honly, ⟨rfl, rfl⟩, fun handle hphase => ?_⟩
  have hget : (e.submit target request id seed).submissions[0]? =
      some (e.handedIn target request id seed phase) := by
    rw [honly]
    rfl
  rcases htransition.accepted_cases hget hphase with hold | hfresh
  · rw [hempty] at hold
    cases hold
  · exact hfresh

theorem Rehearsed.config_eq (h : Rehearsed config entries e) : e.config =
    config := by
  obtain ⟨events, journal, hrun, -⟩ := h
  exact (later_of_run (linked_start config (.ofEntries entries) false)
    hrun).config

/-- What has just been accepted is held from now on. -/
theorem Fresh.held {handle : Handle} (h : e.Fresh sub handle)
    (hr : Rehearsed config entries e) (halone : e.Alone sub handle) :
    Held config entries sub handle
      (Instant.deadline e.now config.responseTimeout) e.now e where
  rehearsed := hr
  alone := halone
  past := Nat.le_refl _
  collation := by
    obtain ⟨c, hc, -, hdeadline⟩ := h.collation
    rw [hr.config_eq] at hdeadline
    exact ⟨c, hc, hdeadline⟩
  entry := Or.inl h.entry

end

end Engine

namespace Rehearsal

open Engine (Rehearsed Held Tried)

/-! ## Seeing to the round -/

/-- The rehearsal of a request that is being tried. -/
structure Trying (config : EngineConfig) (entries : List (Node × Connectivity))
    (target : Target) (request : Request) (s : Rehearsal) : Prop where
  calm : Calm config entries s
  tried : ∃ sub, Tried target request s.engine sub

section

variable {config : EngineConfig} {entries : List (Node × Connectivity)}
  {target : Target} {request : Request} {s s' : Rehearsal}

theorem Trying.of_unaccepted (h : Trying config entries target request s)
    (hnone : s.engine.Unaccepted) (hcalm : Calm config entries s')
    (hsame : s'.engine.submissions = s.engine.submissions) :
    Trying config entries target request s' where
  calm := hcalm
  tried := h.tried.imp fun _ htried => htried.of_unaccepted hnone hsame

theorem Trying.apply (h : Trying config entries target request s)
    (hnone : s.engine.Unaccepted) (event : Event)
    (houtside : event.isOutside = false) :
    Trying config entries target request (s.apply event) := by
  obtain ⟨hcalm, harranged⟩ :=
    h.calm.happen event (Engine.isMembership_of_isOutside houtside)
  obtain ⟨sub, htried⟩ := h.tried
  refine ⟨hcalm, ?_⟩
  rw [harranged.engine]
  cases hstep : s.engine.step event with
  | none => exact ⟨sub, htried⟩
  | some e => exact htried.step h.calm.rehearsed hnone houtside hstep

theorem noteCalls_engine (s : Rehearsal) (w : Waker) :
    ∃ notices, (s.noteCalls w).engine = s.engine.tell notices := by
  unfold noteCalls
  dsimp only
  induction s.engine.calls.drop s.plans.length generalizing s with
  | nil => exact ⟨[], by rw [List.foldl_nil, Engine.tell, List.append_nil]⟩
  | cons c rest ih =>
      obtain ⟨shownIds, hshown⟩ := showId_eq c.outbound.id s
      rw [List.foldl_cons, hshown]
      dsimp only
      obtain ⟨first, hfirst⟩ : ∃ first, first =
          (s.script s.plans.length c).notices := ⟨_, rfl⟩
      have hjoin : ∀ notices, (s.engine.tell first).tell notices =
          s.engine.tell (first ++ notices) := by
        intro notices
        rw [Engine.tell, Engine.tell, Engine.tell, List.append_assoc]
      rw [← hfirst]
      split
      · exact (ih _).imp' (first ++ ·) fun notices hrest =>
          hrest.trans (hjoin notices)
      · exact (ih _).imp' (first ++ ·) fun notices hrest =>
          hrest.trans (hjoin notices)

theorem Trying.noteCalls (h : Trying config entries target request s)
    (w : Waker) : Trying config entries target request (s.noteCalls w) := by
  obtain ⟨notices, heq⟩ := noteCalls_engine s w
  refine ⟨(h.calm.noteCalls w).calm, ?_⟩
  rw [heq]
  exact h.tried.imp fun _ htried => htried.tell notices

/-- A result that comes decides nothing yet. -/
theorem Trying.lookAt (h : Trying config entries target request s)
    (hnone : s.engine.Unaccepted) (call : Nat) :
    Trying config entries target request (s.lookAt call) := by
  unfold Rehearsal.lookAt
  split
  · next c plan hcall hplan =>
      dsimp only
      split
      · have hcame := h.apply hnone (.arrive call plan.result) rfl
        have hsame : (s.apply (.arrive call plan.result)).engine.submissions =
            s.engine.submissions := by
          rw [(h.calm.happen (.arrive call plan.result) rfl).2.engine]
          rfl
        exact hcame.apply (hnone.of_submissions_eq hsame) _ rfl
      · exact h.apply hnone _ rfl
  · exact h

theorem Trying.pursueRound (r : Nat) (w : Waker) :
    ∀ (turns : Nat) {s : Rehearsal}, Trying config entries target request s →
    Trying config entries target request (s.pursueRound r w turns)
  | 0, _, h => h
  | turns + 1, s, h => by
    rw [Rehearsal.pursueRound]
    split
    · exact h
    · next round hround =>
        split
        · next hrunning =>
            obtain ⟨sub, htried⟩ := h.tried
            have hnone := htried.unaccepted h.calm.rehearsed hround hrunning
            split
            · exact Trying.pursueRound r w turns (h.lookAt hnone _)
            · split
              · exact Trying.pursueRound r w turns
                  ((h.apply hnone _ rfl).noteCalls w)
              · split
                · exact h.apply hnone _ rfl
                · exact h
        · exact h

theorem Trying.runRound (h : Trying config entries target request s) (r : Nat)
    (w : Waker) : Trying config entries target request (s.runRound r w) := by
  unfold Rehearsal.runRound
  split
  · exact Trying.pursueRound r w _ h
  · exact h

theorem Trying.beginRound (h : Trying config entries target request s) (r : Nat)
    (w : Waker) : Trying config entries target request (s.beginRound r w) := by
  unfold Rehearsal.beginRound
  split
  · next round _ =>
      have htimed : Trying config entries target request
          (s.setTimer round.deadline w) :=
        ⟨h.calm.adjust, h.tried⟩
      exact htimed.runRound r w
  · exact h

/-- The conductor that waits for a round is called, or nothing has been accepted
yet. -/
theorem Trying.await (r : Nat) : ∀ (turns : Nat) {s : Rehearsal},
    Trying config entries target request s →
    s.conductorWoken = true ∨ s.engine.Unaccepted →
    Trying config entries target request (await (.round r) turns s)
  | 0, _, h, _ => h
  | turns + 1, s, h, hturn => by
    rw [Rehearsal.await]
    -- Of what a turn does only the look of the conductor can accept the
    -- request, and then the round is over and the wait ends. So the background
    -- and the clock come upon an engine that has accepted nothing.
    have hlook : ∃ s₁ has, (if s.conductorWoken then
          ({ s with conductorWoken := false } : Rehearsal).look (.round r)
        else (s, false)) = (s₁, has) ∧ Trying config entries target request s₁ ∧
        (has = false → s₁.engine.Unaccepted) := by
      split
      · have hcalled : Trying config entries target request
            { s with conductorWoken := false } :=
          ⟨h.calm.adjust, h.tried⟩
        have hran := hcalled.runRound r .conductor
        refine ⟨_, _, rfl, hran, fun hundecided => ?_⟩
        obtain ⟨sub, htried⟩ := hran.tried
        unfold isDecided at hundecided
        split at hundecided
        · next round hround =>
            split at hundecided
            · next hrunning =>
                exact htried.unaccepted hran.calm.rehearsed hround hrunning
            · cases hundecided
        · cases hundecided
      · next hasleep => exact ⟨s, false, rfl, h, fun _ =>
          hturn.resolve_left hasleep⟩
    obtain ⟨s₁, has, heq, h₁, hnone⟩ := hlook
    rw [heq]
    dsimp only
    split
    · exact h₁
    · next hhas =>
        have hnone₁ := hnone (Bool.eq_false_iff.2 hhas)
        have hrest := h₁.calm.rest
        have hsame :=
          h₁.calm.rehearsed.submissions_of_enacts hnone₁ hrest.enacts
        have h₂ := h₁.of_unaccepted hnone₁ hrest.calm hsame
        have hnone₂ := hnone₁.of_submissions_eq hsame
        split
        · exact Trying.await r turns h₂ (Or.inr hnone₂)
        · split
          · exact h₂
          · next s₃ hadvance =>
              have htimers : s₁.rest.timers ≠ [] := by
                intro hnil
                rw [Rehearsal.advance, hnil] at hadvance
                cases hadvance
              obtain ⟨s', hs', hadvanced⟩ := h₂.calm.advance htimers
              rw [hadvance] at hs'
              cases hs'
              have hsame' : s₃.engine.submissions =
                  s₁.rest.engine.submissions := by
                rw [hadvanced.engine]
              exact Trying.await r turns
                (h₂.of_unaccepted hnone₂ hadvanced.calm hsame')
                (Or.inr (hnone₂.of_submissions_eq hsame'))

/-! ## The decision -/

/-- What handing in a request comes to: if it is accepted, it is held from then
on. -/
structure Decided (config : EngineConfig) (entries : List (Node × Connectivity))
    (target : Target) (request : Request) (s : Rehearsal)
    (sub : Submission) : Prop where
  calm : Calm config entries s
  only : s.engine.submissions = [sub]
  asks : sub.target = target ∧ sub.request = request
  held : ∀ handle, sub.phase = .accepted handle →
    Held config entries sub handle
      (Instant.deadline s.now config.responseTimeout) s.now s.engine

theorem Decided.tell {sub : Submission}
    (h : Decided config entries target request s sub) (notices : Journal) :
    Decided config entries target request
      { s with engine := s.engine.tell notices } sub where
  calm := h.calm.tell notices
  only := h.only
  asks := h.asks
  held handle hphase := (h.held handle hphase).tell notices

theorem Trying.lookAtSubmission (h : Trying config entries target request s) :
    ∃ sub, Decided config entries target request
      (s.lookAtSubmission 0).1 sub := by
  obtain ⟨sub, htried⟩ := h.tried
  have hsub : s.engine.submissions[0]? = some sub := by
    rw [htried.only]
    rfl
  unfold Rehearsal.lookAtSubmission
  split
  · next target' request' id seed submitted handle heq =>
      rw [hsub] at heq
      cases heq
      obtain ⟨shownIds, hshown⟩ := showId_eq id s
      rw [hshown]
      dsimp only
      have hshownCalm : Calm config entries { s with shownIds } := h.calm.adjust
      obtain ⟨hlooked, harranged⟩ := hshownCalm.happen (.look handle) rfl
      have hengine :
          (({ s with shownIds } : Rehearsal).apply (.look handle)).engine =
          s.engine.settle handle := harranged.engine
      obtain ⟨hnow, -, hsubmissions⟩ := Engine.settle_frame s.engine handle
      refine ⟨_, hlooked, ?_, htried.asks, fun handle' hphase => ?_⟩
      · rw [hengine, hsubmissions, htried.only]
      · have hheld := (htried.fresh handle' hphase).held h.calm.rehearsed
          ⟨htried.only, hphase⟩
        have hstep : s.engine.step (.look handle) =
            some (s.engine.settle handle) := rfl
        rw [Rehearsal.now, hengine, hnow]
        exact hheld.step rfl hstep
  · next hother =>
      refine ⟨sub, h.calm, htried.only, htried.asks, fun handle hphase => ?_⟩
      exact absurd hsub (by
        obtain ⟨target', request', id, seed, submitted, phase⟩ := sub
        cases hphase
        exact hother target' request' id seed submitted handle)

/-- Handing in to an engine that has nothing yet. -/
theorem Calm.submit (hs : Calm config entries s)
    (hempty : s.engine.submissions = []) (target : Target) (request : Request) :
    Trying config entries target request (s.submit target request) ∧
      (s.submit target request).engine = s.engine.submit target request
        (s.identifiers s.drawn) (s.identifiers (s.drawn + 1)) ∧
      (s.submit target request).timers = s.timers := by
  have hdrawn : Calm config entries { s with drawn := s.drawn + 2 } := hs.adjust
  obtain ⟨hcalm, harranged⟩ := hdrawn.happen
    (.submit target request (s.identifiers s.drawn)
      (s.identifiers (s.drawn + 1))) rfl
  refine ⟨⟨hcalm, ?_⟩, harranged.engine, harranged.timers⟩
  show ∃ sub, Tried target request (Rehearsal.apply _ _).engine sub
  rw [harranged.engine]
  exact Engine.tried_submit hempty target request _ _

theorem Calm.replicate (hs : Calm config entries s)
    (hempty : s.engine.submissions = []) (target : Target) (request : Request) :
    ∃ sub, (s.replicate target request).2.submission = 0 ∧
      Decided config entries target request (s.replicate target request).1
        sub := by
  have hfirst : s.engine.submissions.length = 0 := by
    rw [hempty]
    rfl
  obtain ⟨htrying, -⟩ := hs.submit hempty target request
  have hround : ∀ r, Trying config entries target request
      (((s.submit target request).beginRound r .conductor).waitFor
        (.round r)) := by
    intro r
    have hbegun := htrying.beginRound r .conductor
    exact Trying.await r _ ⟨hbegun.calm.adjust, hbegun.tried⟩ (Or.inl rfl)
  unfold Rehearsal.replicate
  dsimp only
  rw [hfirst]
  cases (s.submit target request).roundOf? 0 with
  | none =>
      obtain ⟨sub, hdecided⟩ := htrying.lookAtSubmission
      exact ⟨sub, rfl, hdecided⟩
  | some r =>
      obtain ⟨sub, hdecided⟩ := (hround r).lookAtSubmission
      exact ⟨sub, rfl, hdecided⟩

end

end Rehearsal

end Fanout
