import Fanout.Proofs.Origin

/-!
# What a round finds out

A round asks each of its targets once, and it passes only when every probe has
been accepted. `Probed` keeps what is known on the way: a target is still to be
asked or has a probe, and a probe of a round that has not failed is open or was
accepted. No probe is open once its round is over, so the probes of a round that
has passed were all accepted.

Whether they were accepted in time depends on the clock. Nobody who is late to
look at a round can tell, so this is proved of the runs in which the clock does
not pass the deadline of a round that is still running.
-/

namespace Fanout

theorem Answer.refusal?_eq_none {a : Answer} (h : a.refusal? = none) :
    a.failure = none ∧ a.status = 202 := by
  rw [refusal?] at h
  split at h
  · cases h
  · next hfailure =>
      split at h
      · next hstatus => exact ⟨hfailure, hstatus⟩
      · cases h

theorem Membership.state?_of_unconnected? {m : Membership} {nodes : List Node}
    (h : m.unconnected? nodes = none) {n : Node} (hn : n ∈ nodes) :
    m.state? n = some .connected := by
  rw [unconnected?] at h
  split at h
  · cases h
  · have hfind := List.find?_eq_none.1 (Option.map_eq_none_iff.1 h) n hn
    simpa using hfind

namespace Engine

/-! ## Probes and rounds -/

/-- What is known of rounds and of their probes. -/
structure Probed (e : Engine) : Prop where
  owners : ∀ (r : Nat) round, e.rounds[r]? = some round →
    ∃ s sub, round.submission = some s ∧ e.submissions[s]? = some sub ∧
      round.outbound = sub.outbound
  once : ∀ (r r' : Nat) round round', e.rounds[r]? = some round →
    e.rounds[r']? = some round' → round.submission = round'.submission → r = r'
  probes : ∀ (k : Nat) c r, e.calls[k]? = some c → c.purpose = .probe r →
    ∃ round, e.rounds[r]? = some round ∧ c.outbound = round.outbound.probe ∧
      c.node ∈ round.targets
  unasked : ∀ (r : Nat) round, e.rounds[r]? = some round →
    ∀ n ∈ round.unasked, n ∈ round.targets
  reached : ∀ (r : Nat) round, e.rounds[r]? = some round → ∀ n ∈ round.targets,
    n ∈ round.unasked ∨
      ∃ (k : Nat) (c : Call), e.calls[k]? = some c ∧ c.purpose = .probe r ∧
        c.node = n
  passed : ∀ (r : Nat) round, e.rounds[r]? = some round →
    round.phase = .passed → round.unasked = []
  judged : ∀ (k : Nat) c r round, e.calls[k]? = some c → c.purpose = .probe r →
    e.rounds[r]? = some round →
    c.isOpen = true ∨ (∃ a, c.phase = .answered a ∧ a.refusal? = none) ∨
      ∃ fault, round.phase = .failed fault

theorem probed_start (config : EngineConfig) (members : Membership)
    (wants : Bool) : (start config members wants).Probed where
  owners _ _ h := nomatch h
  once _ _ _ _ h := nomatch h
  probes _ _ _ h := nomatch h
  unasked _ _ h := nomatch h
  reached _ _ h := nomatch h
  passed _ _ h := nomatch h
  judged _ _ _ _ h := nomatch h

section

variable {e e' : Engine} {event : Event}

/-- No round decides about a submission that is still to come. -/
theorem Probed.submission_ne (hprobed : e.Probed) {r : Nat} {round : Round}
    (hr : e.rounds[r]? = some round) :
    round.submission ≠ some e.submissions.length := by
  intro hlength
  obtain ⟨s, sub, hs, hsub, -⟩ := hprobed.owners r round hr
  rw [hs] at hlength
  cases hlength
  exact absurd hsub (getElem?_ne_some (Nat.le_refl _) sub)

theorem Probed.of_transition (hl : Linked e) (hprobed : e.Probed)
    (h : Transition e event e') : e'.Probed where
  owners r round' hr' := by
    rcases h.later.rounds.old_or_new hr' with ⟨round, hr, hrr⟩ | hnew
    · obtain ⟨s, sub, hs, hsub, hout⟩ := hprobed.owners r round hr
      obtain ⟨sub', hsub', hss⟩ := h.later.submissions s sub hsub
      exact ⟨s, sub', hrr.submission.trans hs, hsub',
        hrr.outbound.trans (hout.trans hss.outbound_eq.symm)⟩
    · obtain ⟨-, -, -, -, hs, sub, hsub, hout⟩ := h.new_round hnew hr'
      exact ⟨_, sub, hs, hsub, hout⟩
  once r₁ r₂ round₁' round₂' hr₁' hr₂' hsame := by
    rcases h.later.rounds.old_or_new hr₁' with ⟨round₁, hr₁, hrr₁⟩ | hnew₁
    · rw [hrr₁.submission] at hsame
      rcases h.later.rounds.old_or_new hr₂' with ⟨round₂, hr₂, hrr₂⟩ | hnew₂
      · rw [hrr₂.submission] at hsame
        exact hprobed.once r₁ r₂ round₁ round₂ hr₁ hr₂ hsame
      · obtain ⟨-, -, -, -, hs₂, -⟩ := h.new_round hnew₂ hr₂'
        exact absurd (hsame.trans hs₂) (hprobed.submission_ne hr₁)
    · obtain ⟨hlength₁, -, -, -, hs₁, -⟩ := h.new_round hnew₁ hr₁'
      rcases h.later.rounds.old_or_new hr₂' with ⟨round₂, hr₂, hrr₂⟩ | hnew₂
      · rw [hrr₂.submission] at hsame
        exact absurd (hsame.symm.trans hs₁) (hprobed.submission_ne hr₂)
      · obtain ⟨hlength₂, -⟩ := h.new_round hnew₂ hr₂'
        exact hlength₁.symm.trans hlength₂
  probes k c' r hc' hp' := by
    rcases h.later.calls.old_or_new hc' with ⟨c, hc, hcc⟩ | hnew
    · obtain ⟨round, hr, hout, hmem⟩ :=
        hprobed.probes k c r hc (hcc.purpose ▸ hp')
      obtain ⟨round', hr', hrr⟩ := h.later.rounds r round hr
      refine ⟨round', hr', ?_, ?_⟩
      · rw [hcc.outbound, hrr.outbound]
        exact hout
      · rw [hcc.node, hrr.targets]
        exact hmem
    · obtain ⟨-, -, ⟨r₁, round, hr, -, hp, hout, hmem⟩ |
          ⟨-, -, j, job, batch, -, -, hp, -⟩⟩ :=
        h.new_call hnew hc'
      · rw [hp'] at hp
        cases hp
        obtain ⟨round', hr', hrr⟩ := h.later.rounds r round hr
        refine ⟨round', hr', ?_, ?_⟩
        · rw [hrr.outbound]
          exact hout
        · rw [hrr.targets]
          exact hprobed.unasked r round hr _ hmem
      · rw [hp'] at hp
        cases hp
  unasked r round' hr' n hn := by
    rcases h.later.rounds.old_or_new hr' with ⟨round, hr, hrr⟩ | hnew
    · rw [hrr.targets]
      rcases h.round_cases hr hr' with rfl | ⟨-, ⟨node, hnext, -⟩ | ⟨hsame, -⟩⟩
      · exact hprobed.unasked r _ hr n hn
      · exact hprobed.unasked r round hr n (hnext ▸ List.mem_cons_of_mem _ hn)
      · exact hprobed.unasked r round hr n (hsame ▸ hn)
    · obtain ⟨-, -, hall, -⟩ := h.new_round hnew hr'
      exact hall ▸ hn
  reached r round' hr' n hn := by
    rcases h.later.rounds.old_or_new hr' with ⟨round, hr, hrr⟩ | hnew
    · rw [hrr.targets] at hn
      rcases hprobed.reached r round hr n hn with hunasked |
        ⟨k, c, hc, hp, hnode⟩
      · rcases h.round_cases hr hr' with rfl |
          ⟨-, ⟨node, hnext, -, hcall⟩ | ⟨hsame, -⟩⟩
        · exact Or.inl hunasked
        · rw [hnext] at hunasked
          rcases List.mem_cons.1 hunasked with rfl | hrest
          · exact Or.inr hcall
          · exact Or.inl hrest
        · exact Or.inl (hsame ▸ hunasked)
      · obtain ⟨c', hc', hcc⟩ := h.later.calls k c hc
        exact Or.inr ⟨k, c', hc', hcc.purpose.trans hp, hcc.node.trans hnode⟩
    · obtain ⟨-, -, hall, -⟩ := h.new_round hnew hr'
      exact Or.inl (hall ▸ hn)
  passed r round' hr' hpassed := by
    rcases h.later.rounds.old_or_new hr' with ⟨round, hr, hrr⟩ | hnew
    · rcases h.round_cases hr hr' with rfl | ⟨-, ⟨node, -, hrunning, -⟩ |
        ⟨hsame, hrunning | ⟨-, hunasked⟩ | ⟨fault, hfailed⟩⟩⟩
      · exact hprobed.passed r _ hr hpassed
      · cases hpassed.symm.trans hrunning
      · cases hpassed.symm.trans hrunning
      · exact hsame.trans hunasked
      · cases hpassed.symm.trans hfailed
    · obtain ⟨-, hrunning, -⟩ := h.new_round hnew hr'
      cases hpassed.symm.trans hrunning
  judged k c' r round' hc' hp' hr' := by
    rcases h.later.calls.old_or_new hc' with ⟨c, hc, hcc⟩ | hnew
    · have hp : c.purpose = .probe r := hcc.purpose ▸ hp'
      obtain ⟨round, hr, -⟩ := hprobed.probes k c r hc hp
      rcases hprobed.judged k c r round hc hp hr with ho | ⟨a, ha, haccepts⟩ |
        ⟨fault, hfailed⟩
      · cases ho' : c'.isOpen with
        | true => exact Or.inl rfl
        | false =>
            rcases h.closed_probe hl hc hp ho hc'
              ho' with ⟨a, -, ha, haccepts, -⟩ | ⟨round₁, fault, hr₁, hfailed⟩
            · exact Or.inr (Or.inl ⟨a, ha, haccepts⟩)
            · rw [hr'] at hr₁
              cases hr₁
              exact Or.inr (Or.inr ⟨fault, hfailed⟩)
      · refine Or.inr (Or.inl ⟨a, (hcc.ended ?_).trans ha, haccepts⟩)
        rw [Call.isOpen, ha]
      · rcases h.round_cases hr hr' with rfl | ⟨hrunning, -⟩
        · exact Or.inr (Or.inr ⟨fault, hfailed⟩)
        · cases hfailed.symm.trans hrunning
    · exact Or.inl (by rw [Call.isOpen, (h.new_call hnew hc').2.1])

/-- The probes of a round that has passed were accepted. -/
theorem Probed.accepted (hl : Linked e) (hprobed : e.Probed) {r k : Nat}
    {round : Round} {c : Call} (hr : e.rounds[r]? = some round)
    (hpassed : round.phase = .passed) (hc : e.calls[k]? = some c)
    (hp : c.purpose = .probe r) :
    ∃ a, c.phase = .answered a ∧ a.refusal? = none := by
  rcases hprobed.judged k c r round hc hp hr with ho | haccepted |
    ⟨fault, hfailed⟩
  · obtain ⟨round', hr', hrunning, -⟩ := hl.probes k c r hc hp ho
    rw [hr] at hr'
    cases hr'
    cases hpassed.symm.trans hrunning
  · exact haccepted
  · cases hpassed.symm.trans hfailed

/-! ## The clock -/

/-- Whether the clock stops for every round that has to be looked at. -/
def Punctual (e : Engine) : Event → Prop
  | .advance now => ∀ (r : Nat) round, e.rounds[r]? = some round →
      round.phase = .running → now ≤ round.deadline
  | _ => True

/-- A running round has time left, and the probes of a round that has not failed
were answered in its time. -/
structure InTime (e : Engine) : Prop where
  running : ∀ (r : Nat) round, e.rounds[r]? = some round →
    round.phase = .running → e.now ≤ round.deadline
  probes : ∀ (k : Nat) c r round a, e.calls[k]? = some c →
    c.purpose = .probe r → e.rounds[r]? = some round → c.phase = .answered a →
    c.endedAt a ≤ round.deadline ∨ ∃ fault, round.phase = .failed fault

theorem inTime_start (config : EngineConfig) (members : Membership)
    (wants : Bool) : (start config members wants).InTime where
  running _ _ h := nomatch h
  probes _ _ _ _ _ h := nomatch h

theorem InTime.of_transition (hl : Linked e) (hordered : Ordered e)
    (hprobed : e.Probed) (ht : e.InTime) (hpunctual : e.Punctual event)
    (h : Transition e event e') : e'.InTime where
  running r round' hr' hphase' := by
    rcases h.later.rounds.old_or_new hr' with ⟨round, hr, hrr⟩ | hnew
    · have hphase : round.phase = .running := by
        rcases h.round_cases hr hr' with rfl | ⟨hrunning, -⟩
        · exact hphase'
        · exact hrunning
      rw [hrr.deadline]
      rcases h.now_cases with hnow | rfl
      · rw [hnow]
        exact ht.running r round hr hphase
      · exact hpunctual r round hr hphase
    · obtain ⟨-, -, -, htime, -⟩ := h.new_round hnew hr'
      exact htime
  probes k c' r round' a hc' hp' hr' ha' := by
    rcases h.later.calls.old_or_new hc' with ⟨c, hc, hcc⟩ | hnew
    · have hp : c.purpose = .probe r := hcc.purpose ▸ hp'
      obtain ⟨round, hr, -⟩ := hprobed.probes k c r hc hp
      obtain ⟨round₁, hr₁, hrr⟩ := h.later.rounds r round hr
      rw [hr'] at hr₁
      cases hr₁
      rw [Call.endedAt, hcc.started, hrr.deadline]
      cases ho : c.isOpen with
      | true =>
          have ho' : c'.isOpen = false := by rw [Call.isOpen, ha']
          rcases h.closed_probe hl hc hp ho hc' ho' with ⟨a', hanswer, ha₁, -⟩ |
            ⟨round₁, fault, hr₁, hfailed⟩
          · rw [ha'] at ha₁
            cases ha₁
            obtain ⟨round₁, hr₁, hrunning, -⟩ := hl.probes k c r hc hp ho
            rw [hr] at hr₁
            cases hr₁
            have hended :=
              Call.endedAt_of_answer? hanswer (hordered.started k c hc)
            rw [Call.endedAt] at hended
            rw [hended]
            exact Or.inl (ht.running r round hr hrunning)
          · rw [hr'] at hr₁
            cases hr₁
            exact Or.inr ⟨fault, hfailed⟩
      | false =>
          have ha : c.phase = .answered a := (hcc.ended ho).symm.trans ha'
          rcases ht.probes k c r round a hc hp hr ha with htime |
            ⟨fault, hfailed⟩
          · exact Or.inl htime
          · rcases hrr.ended with hrunning | rfl
            · cases hfailed.symm.trans hrunning
            · exact Or.inr ⟨fault, hfailed⟩
    · rw [(h.new_call hnew hc').2.1] at ha'
      cases ha'

end

end Engine

end Fanout
