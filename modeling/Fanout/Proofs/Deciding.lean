import Fanout.Proofs.Asking
import Fanout.Proofs.Decision

/-!
# A round is decided by its deadline

The conductor that hands a request in waits for its round, and its turns are
numbered. Two bounds show that they are enough. At one moment, every turn that
is spent on the round judges a probe or makes one, so what is left to do is
twice the targets that are not asked and once the probes that are not judged
(`Round.effort`). Between two moments the clock moves, and it cannot pass the
deadline, for which a timer of the conductor is set. When that comes, whatever
is not judged yet is late, and the round is over.

A round that is over leaves nothing to verify, so the request has been accepted
or rejected.
-/

namespace Fanout

/-- What there is still to do for a round. -/
def Round.effort (round : Round) :
    Nat := round.asked.length + 2 * round.unasked.length

namespace Engine

/-! ## What can be done for a running round -/

section

variable {e : Engine} {r k : Nat} {round : Round}

/-- Judging a probe ends the round, or there is one probe less to judge. -/
theorem finish_running (hl : e.Linked) (hround : e.rounds[r]? = some round)
    (hrunning : round.phase = .running) (hk : k ∈ round.asked) {c : Call}
    {answer : Answer} (hcall : e.calls[k]? = some c)
    (hanswer : c.answer? e.now = some answer) :
    ∃ e' round', e.step (.finish k) = some e' ∧
      e'.rounds = e.rounds.set r round' ∧
      (round'.phase ≠ .running ∨
        round' = { round with asked := round.asked.erase k }) := by
  obtain ⟨c', hc', hpurpose⟩ := hl.asked r round hround k hk
  rw [hcall, Option.some.injEq] at hc'
  rw [← hc'] at hpurpose
  have hfinish : e.step (.finish k) =
      some ((e.closeCall k c answer).judge r round k answer) := by
    simp only [step, finish, hcall, hanswer, hpurpose, hround,
      Option.bind_eq_bind, Option.bind_some]
    rfl
  have hclosed : (e.closeCall k c answer).rounds[r]? = some round := hround
  cases hrefusal : answer.refusal? with
  | none =>
      obtain ⟨e₁, -, -, -, ⟨-, -, hrounds, heq⟩ | ⟨-, hrounds, heq⟩⟩ :=
        judge_of_accepted (k := k) hclosed hrunning hrefusal
      · exact ⟨_, _, hfinish,
          (congrArg rounds heq).trans
            ((admitAfter_frame round e₁).2.2.trans hrounds),
          Or.inl (by simp)⟩
      · exact ⟨_, _, hfinish, (congrArg rounds heq).trans hrounds, Or.inr rfl⟩
  | some reason =>
      obtain ⟨e₁, -, -, -, hrounds, heq⟩ :=
        judge_of_refused (k := k) hclosed hrefusal
      exact ⟨_, _, hfinish,
        (congrArg rounds heq).trans
          ((rejectAfter_frame round _ e₁).2.2.trans hrounds),
        Or.inl (by simp)⟩

theorem startProbe_running (hround : e.rounds[r]? = some round)
    (hrunning : round.phase = .running) {node : Node} {rest : List Node}
    (hunasked : round.unasked = node :: rest) :
    ∃ e', e.step (.startProbe r) = some e' ∧
      e'.rounds = e.rounds.set r { round with
        unasked := rest, asked := round.asked ++ [e.calls.length] } := by
  have hstarted : e.step (.startProbe r) = some
      ((e.openCall node round.outbound.probe (.probe r)
        round.timeout).setRound r fun round => { round with
          unasked := rest, asked := round.asked ++ [e.calls.length] }) := by
    simp only [step, startProbe, hround, hrunning, hunasked,
      Option.bind_eq_bind, Option.bind_some]
    rfl
  exact ⟨_, hstarted, modify_eq_set_of_some hround _⟩

theorem expireRound_running (hround : e.rounds[r]? = some round)
    (hrunning : round.phase = .running) (hover : round.deadline ≤ e.now) :
    ∃ e' round', e.step (.expireRound r) = some e' ∧
      e'.rounds = e.rounds.set r round' ∧ round'.phase ≠ .running := by
  obtain ⟨e', hexpired⟩ : ∃ e', e.expireRound r = some e' := by
    simp only [expireRound, hround, hrunning, Option.bind_eq_bind,
      Option.bind_some, guard, if_pos hover]
    exact ⟨_, rfl⟩
  obtain ⟨late, reason, e₁, -, -, -, -, hrounds, rfl⟩ :=
    expireRound_shape hround hexpired
  exact ⟨_, _, hexpired, (rejectAfter_frame round _ e₁).2.2.trans
    hrounds, by simp⟩

/-- If a round is to decide about the first submission, it is the only round,
and there is as much to do for it as there can be. -/
theorem submit_round (hl : e.Linked) (hempty : e.submissions = [])
    (target : Target) (request : Request) (id seed : String) {sub : Submission}
    (honly : (e.submit target request id seed).submissions = [sub])
    (hphase : sub.phase = .verifying r) :
    r = 0 ∧ ∃ round, (e.submit target request id seed).rounds = [round] ∧
      round.phase = .running ∧ round.effort = 2 * round.targets.length := by
  have hnone : e.rounds = [] := by
    rw [← List.length_eq_zero_iff]
    by_contra hsome
    obtain ⟨s, sub, -, hsub⟩ :=
      hl.rounds 0 _ (List.getElem?_eq_getElem (Nat.pos_of_ne_zero hsome))
    rw [hempty] at hsub
    cases hsub
  have htransition := submit_transition e target request id seed
  generalize e.submit target request id seed = e' at htransition honly
  cases htransition with
  | aside _ _ _ _ _ _ _ _ _ _ _ _ _ _ _ hother => cases hother
  | refused | admitted =>
      rw [hempty] at honly
      cases honly
      cases hphase
  | verified _ _ _ _ nodes =>
      dsimp only at honly ⊢
      rw [hempty] at honly
      cases honly
      cases hphase
      rw [hnone]
      exact ⟨rfl, _, rfl, rfl, Nat.zero_add _⟩
  | failed _ r round s sub _ _ _ _ hround hrunning hs hsub =>
      rw [hempty] at hsub
      cases hsub

/-- A call that is due has an answer as soon as the result that has come is
taken in. -/
theorem answer_of_due {c : Call} (hunderWay : c.isUnderWay = true)
    (now : Instant) (result : CallResult) :
    (∃ answer, (c.receive result).answer? now = some answer) ∧
      (c.due ≤ now → ∃ answer, c.answer? now = some answer) := by
  constructor
  · rw [Call.receive_of_isUnderWay hunderWay]
    cases result <;> exact ⟨_, rfl⟩
  · intro hdue
    have hphase : c.phase = .underWay := by
      unfold Call.isUnderWay at hunderWay
      split at hunderWay
      · next hphase => exact hphase
      · cases hunderWay
    simp [Call.answer?, hphase, hdue]

end

/-- The only round is over. -/
def RoundOver (e : Engine) :
    Prop := ∃ round, e.rounds = [round] ∧ round.phase ≠ .running

/-- The only round is over, or it goes on: its deadline is still to come, and
there is not more to do for it than there was. -/
def GoesOn (round : Round) (e : Engine) : Prop :=
  e.RoundOver ∨ e.now < round.deadline ∧ ∃ round', e.rounds = [round'] ∧
    round'.phase = .running ∧ round'.deadline = round.deadline ∧
    round'.targets = round.targets ∧ round'.effort ≤ round.effort

theorem GoesOn.of_effort_le {e : Engine} {round round₁ : Round}
    (h : e.GoesOn round₁) (hdeadline : round₁.deadline = round.deadline)
    (htargets : round₁.targets = round.targets)
    (hless : round₁.effort ≤ round.effort) : e.GoesOn round := by
  refine h.imp_right ?_
  rintro ⟨hearly, round', honly, hrunning, hdeadline', htargets', hless'⟩
  exact ⟨hdeadline ▸ hearly, round', honly, hrunning,
    hdeadline'.trans hdeadline, htargets'.trans htargets,
    Nat.le_trans hless' hless⟩

end Engine

namespace Rehearsal

/-! ## One moment -/

/-- What is done about a round at one moment: the clock stands still, timers are
set for later, and nobody calls the conductor. -/
structure Pursued (config : EngineConfig) (entries : List (Node × Connectivity))
    (target : Target) (request : Request) (s s' : Rehearsal) : Prop where
  trying : Trying config entries target request s'
  now : s'.now = s.now
  timers : ∃ more, s'.timers = s.timers ++ more ∧ ∀ t ∈ more, s.now < t.due
  woken : s'.conductorWoken = s.conductorWoken

/-- There is one round, it is not decided, and there is not more to do for it
than there was when it began. -/
structure Undecided (config : EngineConfig)
    (entries : List (Node × Connectivity)) (target : Target) (request : Request)
    (due : Instant) (s : Rehearsal) : Prop where
  trying : Trying config entries target request s
  round : ∃ round, s.engine.rounds = [round] ∧ round.phase = .running ∧
    round.deadline = due ∧ round.effort ≤ 2 * round.targets.length

section

variable {config : EngineConfig} {entries : List (Node × Connectivity)}
  {target : Target} {request : Request} {s s' s₁ s₂ : Rehearsal} {round : Round}
  {k : Nat} {due : Instant}

theorem Pursued.refl (h : Trying config entries target request s) :
    Pursued config entries target request s s where
  trying := h
  now := rfl
  timers := ⟨[], (List.append_nil _).symm, fun _ h => nomatch h⟩
  woken := rfl

theorem Pursued.trans (h : Pursued config entries target request s s₁)
    (h' : Pursued config entries target request s₁ s₂) :
    Pursued config entries target request s s₂ where
  trying := h'.trying
  now := h'.now.trans h.now
  timers := by
    obtain ⟨more, hmore, hlater⟩ := h.timers
    obtain ⟨more', hmore', hlater'⟩ := h'.timers
    refine ⟨more ++
      more', by rw [hmore', hmore, List.append_assoc], fun t ht => ?_⟩
    rcases List.mem_append.1 ht with ht | ht
    · exact hlater t ht
    · rw [← h.now]
      exact hlater' t ht
  woken := h'.woken.trans h.woken

theorem Trying.unaccepted (h : Trying config entries target request s)
    (honly : s.engine.rounds = [round]) (hrunning : round.phase = .running) :
    s.engine.Unaccepted := by
  obtain ⟨sub, htried⟩ := h.tried
  refine htried.unaccepted h.calm.rehearsed (r := 0) ?_ hrunning
  rw [honly]
  rfl

theorem Trying.pursued_apply (h : Trying config entries target request s)
    (hnone : s.engine.Unaccepted) (event : Event)
    (houtside : event.isOutside = false) (hstays : ∀ now, event ≠ .advance now)
    {e : Engine} (hstep : s.engine.step event = some e) :
    Pursued config entries target request s (s.apply event) ∧
      (s.apply event).engine = e := by
  obtain ⟨-, harranged⟩ :=
    h.calm.happen event (Engine.isMembership_of_isOutside houtside)
  have hengine : (s.apply event).engine = e := by
    rw [harranged.engine, hstep, Option.getD_some]
  refine ⟨⟨h.apply hnone event houtside, ?_, ⟨[], ?_, fun _ h => nomatch h⟩,
    harranged.woken⟩, hengine⟩
  · rw [Rehearsal.now, hengine]
    exact (h.calm.rehearsed.transition hstep).now_cases.resolve_right (hstays _)
  · rw [harranged.timers, List.append_nil]

theorem Trying.pursued_noteCalls (h : Trying config entries target request s)
    (w : Waker) : Pursued config entries target request s (s.noteCalls w) where
  trying := h.noteCalls w
  now := (h.calm.noteCalls w).now_eq h.calm
  timers := (h.calm.noteCalls w).timers
  woken := (h.calm.noteCalls w).woken

theorem Trying.finish_probe (h : Trying config entries target request s)
    (honly : s.engine.rounds = [round]) (hrunning : round.phase = .running)
    (hk : k ∈ round.asked) {c : Call} {answer : Answer}
    (hcall : s.engine.calls[k]? = some c)
    (hanswer : c.answer? s.now = some answer) :
    ∃ round', Pursued config entries target request s (s.apply (.finish k)) ∧
      (s.apply (.finish k)).engine.rounds = [round'] ∧
      (round'.phase ≠ .running ∨
        round' = { round with asked := round.asked.erase k }) := by
  have hround : s.engine.rounds[0]? = some round := congrArg (·[0]?) honly
  obtain ⟨e', round', hstep, hrounds, hround'⟩ :=
    Engine.finish_running h.calm.rehearsed.linked hround hrunning
      hk hcall hanswer
  obtain ⟨hpursued, hengine⟩ :=
    h.pursued_apply (h.unaccepted honly hrunning) (.finish k) rfl
    (by simp) hstep
  refine ⟨round', hpursued, ?_, hround'⟩
  rw [hengine, hrounds, honly]
  rfl

/-- A look at a probe that is due ends the round or judges the probe. -/
theorem Trying.look_probe (h : Trying config entries target request s)
    (honly : s.engine.rounds = [round]) (hrunning : round.phase = .running)
    (hk : k ∈ round.asked) (hdue : s.isDue k = true) :
    ∃ round', Pursued config entries target request s (s.lookAt k) ∧
      (s.lookAt k).engine.rounds = [round'] ∧
      (round'.phase ≠ .running ∨
        round' = { round with asked := round.asked.erase k }) := by
  unfold isDue at hdue
  split at hdue
  · next c plan hcall hplan =>
      simp only [Bool.and_eq_true, Bool.or_eq_true, decide_eq_true_eq] at hdue
      obtain ⟨hunderWay, hdue⟩ := hdue
      simp only [Rehearsal.lookAt, hcall, hplan]
      split
      · obtain ⟨hcame, hengine⟩ := h.pursued_apply (h.unaccepted honly hrunning)
          (.arrive k plan.result) rfl (by simp) rfl
        obtain ⟨answer, hanswer⟩ :=
          (Engine.answer_of_due hunderWay (s.apply (.arrive k plan.result)).now
            plan.result).1
        have honly' : (s.apply (.arrive k plan.result)).engine.rounds =
            [round] := by
          rw [hengine]
          exact honly
        have hcall' : (s.apply (.arrive k plan.result)).engine.calls[k]? =
            some (c.receive plan.result) := by
          rw [hengine, Engine.arrive, modify_eq_set_of_some hcall,
            getElem?_set_of_some hcall, if_pos rfl]
        obtain ⟨round', hfinished, hrest⟩ :=
          hcame.trying.finish_probe honly' hrunning hk hcall' hanswer
        exact ⟨round', hcame.trans hfinished, hrest⟩
      · next hwaits =>
          obtain ⟨answer, hanswer⟩ :=
            (Engine.answer_of_due hunderWay s.now plan.result).2
              (hdue.resolve_left hwaits)
          exact h.finish_probe honly hrunning hk hcall hanswer
  · cases hdue

theorem pursueRound_of_over (h : s.engine.RoundOver) (w : Waker) (turns : Nat) :
    s.pursueRound 0 w turns = s := by
  obtain ⟨round, honly, hover⟩ := h
  have hround : s.engine.rounds[0]? = some round := congrArg (·[0]?) honly
  cases turns with
  | zero => rfl
  | succ turns =>
      rw [Rehearsal.pursueRound, hround]
      dsimp only
      split
      · next hrunning => exact absurd hrunning hover
      · rfl

/-- Once all that can be done for a round is done, it is over or goes on. -/
theorem Trying.pursued (w : Waker) :
    ∀ (turns : Nat) {s : Rehearsal} {round : Round},
    Trying config entries target request s → s.engine.rounds = [round] →
    round.phase = .running → round.effort < turns →
    Pursued config entries target request s (s.pursueRound 0 w turns) ∧
      (s.pursueRound 0 w turns).engine.GoesOn round
  | 0, _, _, _, _, _, hturns => absurd hturns (Nat.not_lt_zero _)
  | turns + 1, s, round, h, honly, hrunning, hturns => by
    have hround : s.engine.rounds[0]? = some round := congrArg (·[0]?) honly
    have hnone := h.unaccepted honly hrunning
    -- One thing has been done. That has ended the round, or there is less to
    -- do.
    have hnext : ∀ {s₁ : Rehearsal} {round₁ : Round},
        Pursued config entries target request s s₁ →
          s₁.engine.rounds = [round₁] →
        (round₁.phase ≠ .running ∨ round₁.phase = .running ∧
          round₁.deadline = round.deadline ∧ round₁.targets = round.targets ∧
          round₁.effort < round.effort) →
        Pursued config entries target request s (s₁.pursueRound 0 w turns) ∧
          (s₁.pursueRound 0 w turns).engine.GoesOn round := by
      intro s₁ round₁ hpursued honly₁ hround₁
      rcases hround₁ with hover | ⟨hrunning₁, hdeadline, htargets, hless⟩
      · rw [pursueRound_of_over ⟨round₁, honly₁, hover⟩]
        exact ⟨hpursued, Or.inl ⟨round₁, honly₁, hover⟩⟩
      · obtain ⟨hpursued', hgoes⟩ :=
          Trying.pursued w turns hpursued.trying honly₁ hrunning₁ (by omega)
        exact ⟨hpursued.trans hpursued',
          hgoes.of_effort_le hdeadline htargets (Nat.le_of_lt hless)⟩
    rw [Rehearsal.pursueRound, hround]
    dsimp only
    rw [hrunning]
    dsimp only
    cases hfind : round.asked.find? fun k => s.isDue k with
    | some k =>
        have hk := List.mem_of_find?_eq_some hfind
        have hdue := List.find?_some hfind
        obtain ⟨round₁, hpursued, honly₁, hround₁⟩ :=
          h.look_probe honly hrunning hk hdue
        refine hnext hpursued honly₁ (hround₁.imp_right ?_)
        rintro rfl
        have hlength := List.length_erase_of_mem hk
        have hpos := List.length_pos_of_mem hk
        refine ⟨hrunning, rfl, rfl, ?_⟩
        dsimp only [Round.effort]
        omega
    | none =>
        dsimp only
        cases hunasked : round.unasked with
        | cons node rest =>
            obtain ⟨e', hstep, hrounds⟩ :=
              Engine.startProbe_running hround hrunning hunasked
            obtain ⟨hpursued, hengine⟩ :=
              h.pursued_apply hnone (.startProbe 0) rfl (by simp) hstep
            obtain ⟨notices, hnoted⟩ :=
              noteCalls_engine (s.apply (.startProbe 0)) w
            have honly₁ :
                ((s.apply (.startProbe 0)).noteCalls w).engine.rounds =
                [{ round with
                  unasked := rest, asked := round.asked ++
                    [s.engine.calls.length] }] := by
              rw [hnoted, Engine.tell, hengine, hrounds, honly]
              rfl
            refine hnext (hpursued.trans (hpursued.trying.pursued_noteCalls w))
              honly₁ (Or.inr ⟨hrunning, rfl, rfl, ?_⟩)
            simp only [Round.effort, hunasked, List.length_append,
              List.length_cons, List.length_nil]
            omega
        | nil =>
            simp only [List.isEmpty_nil, Bool.not_true, Bool.false_eq_true,
              if_false]
            split
            · next hover =>
                obtain ⟨e', round', hstep, hrounds, hended⟩ :=
                  Engine.expireRound_running hround hrunning hover
                obtain ⟨hpursued, hengine⟩ :=
                  h.pursued_apply hnone (.expireRound 0) rfl (by simp) hstep
                refine ⟨hpursued, Or.inl ⟨round', ?_, hended⟩⟩
                rw [hengine, hrounds, honly]
                rfl
            · next hearly =>
                exact ⟨.refl h, Or.inr ⟨Nat.not_le.1 hearly, round, honly,
                  hrunning, rfl, rfl, Nat.le_refl _⟩⟩

theorem runRound_of_over (h : s.engine.RoundOver)
    (w : Waker) : s.runRound 0 w = s := by
  obtain ⟨round, honly, hover⟩ := h
  have hround : s.engine.rounds[0]? = some round := congrArg (·[0]?) honly
  rw [Rehearsal.runRound, hround]
  exact pursueRound_of_over ⟨round, honly, hover⟩ w _

/-- A round is seen through as far as it can go, and then it is over, or its
deadline is still to come. -/
theorem Undecided.runRound (h : Undecided config entries target request due s)
    (w : Waker) : Pursued config entries target request s (s.runRound 0 w) ∧
      ((s.runRound 0 w).engine.RoundOver ∨
        s.now < due ∧
        Undecided config entries target request due (s.runRound 0 w)) := by
  obtain ⟨round, honly, hrunning, rfl, heffort⟩ := h.round
  have hround : s.engine.rounds[0]? = some round := congrArg (·[0]?) honly
  obtain ⟨hpursued, hgoes⟩ :=
    h.trying.pursued w (2 * round.targets.length + 2) honly hrunning (by omega)
  rw [Rehearsal.runRound, hround]
  dsimp only
  refine ⟨hpursued, hgoes.imp_right ?_⟩
  rintro ⟨hearly, round', honly', hrunning', hdeadline, htargets, hless⟩
  refine ⟨hpursued.now ▸ hearly, hpursued.trying, round', honly', hrunning',
    hdeadline, ?_⟩
  rw [htargets]
  exact Nat.le_trans hless heffort

theorem isDecided_of_over (h : s.engine.RoundOver) : s.isDecided 0 = true := by
  obtain ⟨round, honly, hover⟩ := h
  have hround : s.engine.rounds[0]? = some round := congrArg (·[0]?) honly
  rw [isDecided, hround]
  dsimp only
  split
  · next hrunning => exact absurd hrunning hover
  · rfl

theorem Undecided.isDecided
    (h : Undecided config entries target request due s) :
    s.isDecided 0 = false := by
  obtain ⟨round, honly, hrunning, -⟩ := h.round
  have hround : s.engine.rounds[0]? = some round := congrArg (·[0]?) honly
  rw [Rehearsal.isDecided, hround]
  dsimp only
  rw [hrunning]

/-! ## One moment after the other -/

theorem Undecided.of_rounds_eq
    (h : Undecided config entries target request due s)
    (hcalm : Calm config entries s')
    (hsubmissions : s'.engine.submissions = s.engine.submissions)
    (hrounds : s'.engine.rounds = s.engine.rounds) :
    Undecided config entries target request due s' := by
  obtain ⟨round, honly, hrunning, hrest⟩ := h.round
  refine ⟨h.trying.of_unaccepted (h.trying.unaccepted honly hrunning) hcalm
    hsubmissions, round, hrounds.trans honly, hrunning, hrest⟩

/-- The tasks run to rest, and none of them sees to the round. -/
theorem Undecided.rest (h : Undecided config entries target request due s) :
    Undecided config entries target request due s.rest := by
  obtain ⟨round, honly, hrunning, -⟩ := h.round
  have hnone := h.trying.unaccepted honly hrunning
  have hworked := h.trying.calm.rest
  obtain ⟨-, hsubmissions, hrounds⟩ :=
    hworked.enacts.idle (h.trying.calm.rehearsed.jobs_eq_nil hnone)
  exact h.of_rounds_eq hworked.calm hsubmissions hrounds

/-- What the conductor finds that looks at the round, if it has been called. -/
theorem Undecided.look (h : Undecided config entries target request due s)
    (hpending : Pending due s) :
    ∃ s₁ has, (if s.conductorWoken then
        ({ s with conductorWoken := false } : Rehearsal).look (.round 0) else
          (s, false)) = (s₁, has) ∧
      (has = true ∧ s₁.engine.RoundOver ∨ has = false ∧ s.now < due ∧
        Undecided config entries target request due s₁ ∧
        Pursued config entries target request { s with conductorWoken := false }
          s₁) := by
  have hcalled : Undecided config entries target request due
      { s with conductorWoken := false } :=
    ⟨⟨h.trying.calm.adjust, h.trying.tried⟩, h.round⟩
  split
  · refine ⟨_, _, rfl, ?_⟩
    obtain ⟨hpursued, hover | ⟨hearly, hagain⟩⟩ := hcalled.runRound .conductor
    · exact Or.inl ⟨isDecided_of_over hover, hover⟩
    · exact Or.inr ⟨hagain.isDecided, hearly, hagain, hpursued⟩
  · next hasleep =>
      have hsame : { s with conductorWoken := false } = s := by
        rw [← Bool.eq_false_iff.2 hasleep]
      have hearly : s.now < due := by
        rcases hpending with ⟨hlt, -⟩ | ⟨-, hwoken⟩
        · exact hlt
        · exact absurd hwoken hasleep
      rw [hsame] at hcalled ⊢
      exact ⟨s, false, rfl, Or.inr ⟨rfl, hearly, hcalled, .refl hcalled.trying⟩⟩

/-- The wait for a round ends with the round. -/
theorem Undecided.await : ∀ (turns : Nat) {s : Rehearsal},
    Undecided config entries target request due s →
      (∀ t ∈ s.timers, s.now < t.due) →
    Pending due s → due - s.now < turns →
      (await (.round 0) turns s).engine.RoundOver
  | 0, _, _, _, _, hturns => absurd hturns (Nat.not_lt_zero _)
  | turns + 1, s, h, hfresh, hpending, hturns => by
    obtain ⟨s₁, has, heq, ⟨rfl, hover⟩ | ⟨rfl, hearly, h₁, hpursued⟩⟩ :=
      h.look hpending
    · rw [Rehearsal.await, heq]
      exact hover
    · have hset : ⟨due, .conductor⟩ ∈ s.timers := by
        rcases hpending with ⟨-, hset⟩ | ⟨hnow, -⟩
        · exact hset
        · exact absurd hearly (hnow ▸ Nat.lt_irrefl _)
      -- Everything that is set is set for later, by the look and by the tasks
      -- as well.
      have hworked := h₁.trying.calm.rest
      obtain ⟨more, hmore, hlater⟩ := hpursued.timers
      obtain ⟨more', hmore', hlater'⟩ := hworked.timers
      have hnow₁ : s₁.now = s.now := hpursued.now
      have hnow₂ : s₁.rest.now = s.now :=
        (hworked.now_eq h₁.trying.calm).trans hnow₁
      have hset₂ : ⟨due, .conductor⟩ ∈ s₁.rest.timers := by
        rw [hmore', hmore]
        exact List.mem_append_left _ (List.mem_append_left _ hset)
      have hfresh₂ : ∀ t ∈ s₁.rest.timers, s₁.rest.now < t.due := by
        intro t ht
        rw [hmore', hmore] at ht
        rw [hnow₂]
        rcases List.mem_append.1 ht with ht | ht
        · exact (List.mem_append.1 ht).elim (hfresh t) (hlater t)
        · exact hnow₁ ▸ hlater' t ht
      obtain ⟨s₃, hadvance, hadvanced⟩ :=
        h₁.rest.trying.calm.advance (List.ne_nil_of_mem hset₂)
      have h₃ : Undecided config entries target request due s₃ := by
        refine h₁.rest.of_rounds_eq hadvanced.calm ?_ ?_
        · rw [hadvanced.engine]
        · rw [hadvanced.engine]
      have hmoved : s.now < s₃.now := hnow₂ ▸ hadvanced.lt_now hfresh₂
      have hpending₃ : Pending due s₃ := by
        rcases hadvanced.fired _ hset₂ with hwaiting | ⟨hover, hwoken⟩
        · exact Or.inl hwaiting
        · have hle : s₃.now ≤ max s₁.rest.now due := hadvanced.le_due _ hset₂
          rw [hnow₂, Nat.max_eq_right (Nat.le_of_lt hearly)] at hle
          exact Or.inr ⟨Nat.le_antisymm hle hover, hwoken rfl⟩
      have hasleep : s₁.rest.conductorWoken = false :=
        hworked.woken.trans hpursued.woken
      rw [Rehearsal.await, heq]
      dsimp only
      rw [if_neg Bool.false_ne_true, hasleep, if_neg Bool.false_ne_true,
        hadvance]
      exact Undecided.await turns h₃ hadvanced.timers hpending₃
        (Nat.lt_of_lt_of_le (Nat.sub_lt_sub_left hearly hmoved)
          (Nat.lt_succ_iff.1 hturns))

/-! ## From handing in to the decision -/

theorem waitFor_of_over (h : s.engine.RoundOver) :
    (s.waitFor (.round 0)).engine.RoundOver := by
  have hover :
      ({ s with conductorWoken := false } : Rehearsal).engine.RoundOver := h
  have hlook : ({ s with conductorWoken := false } : Rehearsal).look
      (.round 0) = ({ s with conductorWoken := false }, true) := by
    rw [Rehearsal.look, runRound_of_over hover, isDecided_of_over hover]
  have hturns : patience + (s.horizon (.round 0) - s.now) =
      (patience - 1) + (s.horizon (.round 0) - s.now) + 1 := by
    rw [Nat.add_right_comm]
    rfl
  rw [Rehearsal.waitFor, hturns, Rehearsal.await]
  dsimp only
  rw [if_pos rfl, hlook]
  exact h

/-- The conductor that begins a round and waits for it sees it over. The wait
has a turn for every moment up to the deadline. -/
theorem Undecided.waitFor (h : Undecided config entries target request due s)
    (hnone : s.timers = []) :
    ((s.beginRound 0 .conductor).waitFor (.round 0)).engine.RoundOver := by
  obtain ⟨round, honly, -, rfl, -⟩ := h.round
  have hbegin : s.beginRound 0 .conductor =
      (s.setTimer round.deadline .conductor).runRound 0 .conductor := by
    rw [Rehearsal.beginRound, congrArg (·[0]?) honly]
    rfl
  have htimed : Undecided config entries target request round.deadline
      (s.setTimer round.deadline .conductor) :=
    h.of_rounds_eq h.trying.calm.adjust rfl rfl
  have hset : (s.setTimer round.deadline .conductor).timers =
      [⟨round.deadline, .conductor⟩] := by
    rw [setTimer, hnone]
    rfl
  obtain ⟨hpursued, hover | ⟨hearly, hbegun⟩⟩ := htimed.runRound .conductor
  · rw [hbegin]
    exact waitFor_of_over hover
  · rw [← hbegin] at hpursued hbegun
    obtain ⟨more, hmore, hlater⟩ := hpursued.timers
    rw [hset] at hmore
    have hnow : (s.beginRound 0 .conductor).now = s.now := hpursued.now
    have hcalled : Undecided config entries target request round.deadline
        { s.beginRound 0 .conductor with conductorWoken := true } :=
      hbegun.of_rounds_eq hbegun.trying.calm.adjust rfl rfl
    obtain ⟨round', honly', -, hdeadline, -⟩ := hbegun.round
    have hhorizon : (s.beginRound 0 .conductor).horizon (.round 0) =
        round.deadline := by
      rw [horizon, congrArg (·[0]?) honly', ← hdeadline]
      rfl
    unfold Rehearsal.waitFor
    refine hcalled.await _ (fun t ht => ?_) (Or.inl ⟨hnow ▸ hearly, ?_⟩) ?_
    · rw [hmore] at ht
      show (s.beginRound 0 .conductor).now < t.due
      rw [hnow]
      rcases List.mem_cons.1 ht with rfl | ht
      · exact hearly
      · exact hlater t ht
    · rw [hmore]
      exact List.mem_cons_self
    · rw [hhorizon]
      exact Nat.lt_add_of_pos_left (by decide)

/-- The submission that a rehearsal begins with. -/
theorem roundOf?_of_only {sub : Submission}
    (honly : s.engine.submissions = [sub]) (r : Nat) :
    s.roundOf? 0 = some r ↔ sub.phase = .verifying r := by
  have hget : s.engine.submissions[0]? = some sub := congrArg (·[0]?) honly
  simp only [Rehearsal.roundOf?, hget]
  cases sub.phase with
  | verifying r' => simp
  | accepted handle => simp
  | rejected fault => simp

/-- A request that is handed in for a round to decide about gets the only
round. -/
theorem Calm.undecided_submit (hs : Calm config entries s)
    (hempty : s.engine.submissions = []) (target : Target) (request : Request)
    {r : Nat} (hdecides : (s.submit target request).roundOf? 0 = some r) :
    r = 0 ∧ ∃ due, Undecided config entries target request due
      (s.submit target request) := by
  obtain ⟨htrying, hengine, -⟩ := hs.submit hempty target request
  obtain ⟨sub, htried⟩ := htrying.tried
  have hphase := (roundOf?_of_only htried.only r).1 hdecides
  obtain ⟨rfl, round, honly, hrunning, heffort⟩ :=
    Engine.submit_round hs.rehearsed.linked hempty target request _ _
      (hengine ▸ htried.only) hphase
  rw [← hengine] at honly
  exact ⟨rfl, round.deadline, htrying, round, honly, hrunning, rfl,
    Nat.le_of_eq heffort⟩

/-- A round that is over has decided about its submission. -/
theorem Trying.roundOf?_of_over (h : Trying config entries target request s)
    (hover : s.engine.RoundOver) : s.roundOf? 0 = none := by
  rw [Option.eq_none_iff_forall_ne_some]
  intro r hround
  obtain ⟨sub, htried⟩ := h.tried
  have hphase := (roundOf?_of_only htried.only r).1 hround
  obtain ⟨events, journal, hrun, -⟩ := h.calm.rehearsed
  obtain ⟨b, -, -, hstanding⟩ :=
    (Engine.reached_of_run hrun).origins.submissions 0 sub
      (congrArg (·[0]?) htried.only)
  unfold Engine.Standing at hstanding
  rw [hphase] at hstanding
  obtain ⟨-, round', hround', hrunning, -⟩ := hstanding
  obtain ⟨round, honly, hover⟩ := hover
  have hmem : round' ∈ s.engine.rounds := List.mem_of_getElem? hround'
  rw [honly, List.mem_singleton] at hmem
  exact hover (hmem ▸ hrunning)

theorem Trying.submissions_lookAtSubmission
    (h : Trying config entries target request s) :
    (s.lookAtSubmission 0).1.engine.submissions = s.engine.submissions := by
  unfold Rehearsal.lookAtSubmission
  split
  · next target' request' id seed submitted handle heq =>
      obtain ⟨shownIds, hshown⟩ := showId_eq id s
      rw [hshown]
      have hshownCalm : Calm config entries { s with shownIds } := h.calm.adjust
      obtain ⟨-, harranged⟩ := hshownCalm.happen (.look handle) rfl
      exact (congrArg Engine.submissions harranged.engine).trans
        (Engine.settle_frame s.engine handle).2.2
  · rfl

/-- Whoever hands a request in waits until it has been accepted or rejected. -/
theorem Calm.roundOf?_replicate (hs : Calm config entries s)
    (hempty : s.engine.submissions = []) (htimers : s.timers = [])
    (target : Target) (request : Request) :
    (s.replicate target request).1.roundOf? 0 = none := by
  have hfirst : s.engine.submissions.length = 0 :=
    List.length_eq_zero_iff.2 hempty
  obtain ⟨htrying, -, hsame⟩ := hs.submit hempty target request
  have hlook : ∀ {t : Rehearsal}, Trying config entries target request t →
      t.roundOf? 0 = none → (t.lookAtSubmission 0).1.roundOf? 0 = none := by
    intro t ht hnone
    unfold Rehearsal.roundOf?
    rw [ht.submissions_lookAtSubmission]
    exact hnone
  unfold Rehearsal.replicate
  dsimp only
  rw [hfirst]
  cases hdecides : (s.submit target request).roundOf? 0 with
  | none => exact hlook htrying hdecides
  | some r =>
      obtain ⟨rfl, due, hundecided⟩ :=
        hs.undecided_submit hempty target request hdecides
      have hbegun := htrying.beginRound 0 .conductor
      have hwaited : Trying config entries target request
          (((s.submit target request).beginRound 0 .conductor).waitFor
            (.round 0)) :=
        Trying.await 0 _ ⟨hbegun.calm.adjust, hbegun.tried⟩ (Or.inl rfl)
      exact hlook hwaited
        (hwaited.roundOf?_of_over (hundecided.waitFor (hsame.trans htimers)))

end

end Rehearsal

end Fanout
