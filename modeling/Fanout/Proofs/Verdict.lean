import Fanout.Proofs.Asking

/-!
# The verdict of a round

A round that is left to itself passes exactly if every target accepts in time.
Otherwise it fails because of a target that does not, and none that fails was
known of earlier. It comes to its verdict, too: as long as it runs something can
happen in it, and with whatever happens there is less before it.

A round that has passed admits its submission at the moment at which the last of
its targets is known to accept, and one that has failed rejects it. Elsewhere
nothing changes, so that the state after the verdict can be read off the state
before the round.
-/

namespace Fanout

namespace Engine

/-! ## One step of the round -/

/-- The calls, events and rounds that a look at a probe leaves to be judged. -/
theorem finish_probe {e e' : Engine} {r k : Nat} {c : Call} {round : Round}
    (hc : e.calls[k]? = some c) (hpurpose : c.purpose = .probe r)
    (hround : e.rounds[r]? = some round) (h : e.finish k = some e') :
    ∃ answer, c.answer? e.now = some answer ∧
      e' = (e.closeCall k c answer).judge r round k answer := by
  unfold finish at h
  obtain ⟨c', hc', h⟩ := Option.bind_eq_some_iff.1 h
  rw [hc] at hc'
  cases hc'
  obtain ⟨answer, hanswer, h⟩ := Option.bind_eq_some_iff.1 h
  rw [hpurpose] at h
  obtain ⟨round', hround', h⟩ := Option.bind_eq_some_iff.1 h
  rw [hround] at hround'
  cases hround'
  cases h
  exact ⟨answer, hanswer, rfl⟩

theorem startProbe_frame {e e' : Engine} {r : Nat} {round : Round}
    (hround : e.rounds[r]? = some round) (h : e.startProbe r = some e') :
    ∃ n rest, round.unasked = n :: rest ∧ e.Elsewhere e' ∧ e'.now = e.now ∧
      e'.calls = e.calls ++ [{
        node := n, outbound := round.outbound.probe, purpose := .probe r,
          started := e.now
        timeout := round.timeout }] ∧
      e'.rounds = e.rounds.set r
        { round with unasked := rest, asked := round.asked ++
          [e.calls.length] } := by
  unfold startProbe at h
  obtain ⟨round', hround', h⟩ := Option.bind_eq_some_iff.1 h
  rw [hround] at hround'
  cases hround'
  split at h
  · next n rest _ hunasked =>
      cases h
      exact ⟨n, rest, hunasked, ⟨_, _, _, _, _, rfl⟩, rfl, rfl,
        modify_eq_set_of_some hround _⟩
  · cases h

/-- A round that runs can ask its next target. -/
theorem exists_startProbe {e : Engine} {r : Nat} {round : Round} {n : Node}
    {rest : List Node} (hround : e.rounds[r]? = some round)
    (hphase : round.phase = .running) (hunasked : round.unasked = n :: rest) :
    ∃ e', e.step (.startProbe r) = some e' := by
  rw [step, startProbe, hround]
  dsimp only [Option.bind_eq_bind, Option.bind_some]
  rw [hphase, hunasked]
  exact ⟨_, rfl⟩

/-- One more call is under way. -/
theorem inFlight_of_opened {e e' : Engine} {c : Call}
    (hcalls : e'.calls = e.calls ++ [c]) (hc : c.phase = .underWay) :
    e'.inFlight = e.inFlight + 1 := by
  rw [inFlight, hcalls, List.countP_append, List.countP_singleton,
    Call.isUnderWay, hc]
  rfl

theorem closeCall_frame {e : Engine} {k : Nat} {c : Call}
    (hc : e.calls[k]? = some c) (answer : Answer) :
      e.Elsewhere (e.closeCall k c answer) ∧
      (e.closeCall k c answer).now = e.now ∧
      (e.closeCall k c answer).calls =
        e.calls.set k { c with phase := .answered answer } ∧
      (e.closeCall k c answer).rounds = e.rounds :=
  ⟨⟨_, _, _, _, _, rfl⟩, rfl, modify_eq_set_of_some hc _, rfl⟩

end Engine

/-- A round as it is opened: it runs, and the time of a probe is not up before
its own. -/
structure Round.Opens (round : Round) (now : Instant) : Prop where
  phase : round.phase = .running
  deadline : now + (round.allowance now).nanos = round.deadline
  clock : round.deadline ≤ Instant.timer now round.timeout

namespace Engine

/-- The round runs, and it has something to ask or to wait for. -/
structure Running (b : Bearing) (e₀ : Engine) (r : Nat) (round₀ : Round)
    (e : Engine) (unasked : List Node) (asked : List Nat) : Prop
    extends Asking b e₀ r round₀ e unasked asked where
  elsewhere : e₀.Elsewhere e
  present : e.rounds[r]? = some { round₀ with unasked, asked }
  more : ¬ (unasked = [] ∧ asked = [])

/-- The round has passed, as soon as it was known that every target accepts.
Each had one probe, and the submission is admitted. -/
structure Passed (b : Bearing) (e₀ : Engine) (r : Nat) (round₀ : Round)
    (e : Engine) : Prop where
  accepts : ∀ n ∈ round₀.targets, b.Accepts (round₀.allowance e₀.now) n
  now : e.now = e₀.now + b.latest (round₀.allowance e₀.now) round₀.targets
  probed : Asked e₀ r round₀ e []
  ended : ∃ round, e.rounds[r]? = some round ∧ round.phase = .passed ∧
    round.asked = []
  after : ∃ e₁, e₀.Elsewhere e₁ ∧ e₁.now = e.now ∧ e = e₁.admitAfter round₀

/-- The round has failed because of a node. The first of its targets had one
probe each, and the submission is rejected. -/
structure Failed (b : Bearing) (e₀ : Engine) (r : Nat) (round₀ : Round)
    (e : Engine) (n : Node) (reason : String) : Prop where
  first : b.FirstToFail (round₀.allowance e₀.now) round₀.targets n
  probed : ∃ rest, Asked e₀ r round₀ e rest
  ended : ∃ round, e.rounds[r]? = some round ∧
    round.phase = .failed (.verificationFailed n.display reason) ∧
    round.asked = []
  after : ∃ e₁, e₀.Elsewhere e₁ ∧
    e = e₁.rejectAfter round₀ (.verificationFailed n.display reason)

/-- A round that runs has this much before it at most. -/
def effort (round₀ : Round) (e : Engine) (unasked : List Node)
    (asked : List Nat) : Nat :=
  (round₀.deadline - e.now) + 3 * unasked.length + asked.length + e.inFlight

section

variable {b : Bearing} {e₀ e e' : Engine} {r k : Nat} {round₀ : Round}
  {unasked rest : List Node} {asked : List Nat}

theorem Running.eq_of_mem (h : Running b e₀ r round₀ e unasked asked)
    {round : Round} (hround : round ∈ e.rounds[r]?) :
    round = { round₀ with unasked, asked } := by
  rw [h.present] at hround
  exact (Option.some.inj hround).symm

theorem Running.inFlight_lt (h : Running b e₀ r round₀ e unasked asked) :
    e₀.inFlight < effort round₀ e unasked asked := by
  have hle := h.inFlight_le
  unfold effort
  cases unasked with
  | cons n rest =>
      rw [List.length_cons]
      omega
  | nil =>
      have hpos := List.length_pos_iff.2 fun hnil => h.more ⟨rfl, hnil⟩
      omega

theorem Running.step_advance (h : Running b e₀ r round₀ e unasked asked)
    (hopens : round₀.Opens e₀.now) {now : Instant}
    (hattends : e.Attends b r (.advance now))
    (hstep : e.step (.advance now) = some e') :
    ∃ unasked' asked', Running b e₀ r round₀ e' unasked' asked' ∧
      effort round₀ e' unasked' asked' < effort round₀ e unasked asked := by
  obtain ⟨round, hround, -, hunasked, hdeadline, htime⟩ := hattends
  rw [h.eq_of_mem hround] at hunasked hdeadline htime
  dsimp only at hunasked hdeadline htime
  subst hunasked
  rw [step] at hstep
  split at hstep
  · next hlt =>
      cases hstep
      have hinTime : now ≤ e₀.now + (round₀.allowance e₀.now).nanos := by
        rw [hopens.deadline]
        exact hdeadline
      refine ⟨[], asked,
        { h.toAsking.advance (Nat.le_of_lt hlt) hinTime htime with
        elsewhere := .trans h.elsewhere ⟨_, _, _, _, _, rfl⟩
        present := h.present
        more := h.more }, ?_⟩
      have hless := Nat.sub_lt_sub_left (Nat.lt_of_lt_of_le hlt hdeadline) hlt
      unfold effort inFlight
      dsimp only
      exact Nat.add_lt_add_right
        (Nat.add_lt_add_right (Nat.add_lt_add_right hless _) _) _
  · cases hstep

theorem Running.step_startProbe (h : Running b e₀ r round₀ e unasked asked)
    (hopens : round₀.Opens e₀.now) (hstep : e.startProbe r = some e') :
    ∃ unasked' asked', Running b e₀ r round₀ e' unasked' asked' ∧
      effort round₀ e' unasked' asked' < effort round₀ e unasked asked := by
  obtain ⟨n, rest, hunasked, helsewhere, hnow, hcalls, hrounds⟩ :=
    startProbe_frame h.present hstep
  dsimp only at hunasked hcalls hrounds
  subst hunasked
  have hclock : e₀.now + (round₀.allowance e₀.now).nanos ≤
      Instant.timer e₀.now round₀.timeout := by
    rw [hopens.deadline]
    exact hopens.clock
  refine ⟨rest, asked ++ [e.calls.length],
    { h.toAsking.ask hclock hnow hcalls with
    elsewhere := .trans h.elsewhere helsewhere
    present := ?_
    more := fun hnil =>
      List.append_ne_nil_of_right_ne_nil _ (List.cons_ne_nil _ _) hnil.2 }, ?_⟩
  · rw [hrounds, getElem?_set_of_some h.present, if_pos rfl]
  · have hflight := inFlight_of_opened hcalls rfl
    unfold effort
    rw [hnow, hflight, List.length_append, List.length_singleton,
      List.length_cons]
    generalize round₀.deadline - e.now = left
    omega

theorem Running.step_arrive (h : Running b e₀ r round₀ e unasked asked)
    {result : CallResult} (hattends : e.Attends b r (.arrive k result)) :
    Running b e₀ r round₀ (e.arrive k result) unasked asked ∧
      effort round₀ (e.arrive k result) unasked asked <
        effort round₀ e unasked asked := by
  obtain ⟨round, hround, hk, c, hc, hunderWay, hsent⟩ := hattends
  rw [h.eq_of_mem hround] at hk
  dsimp only at hk
  have hcalls : (e.arrive k result).calls =
      e.calls.set k { c with phase := .arrived result } := by
    rw [← Call.receive_of_isUnderWay hunderWay]
    exact modify_eq_set_of_some hc _
  have hnow : (e.arrive k result).now = e.now := rfl
  refine ⟨{ h.toAsking.receive hk hc hunderWay hsent hnow hcalls with
    elsewhere := .trans h.elsewhere ⟨_, _, _, _, _, rfl⟩
    present := h.present
    more := h.more }, ?_⟩
  have hflight := countP_set_of_some (b := { c with phase := .arrived result })
    (p := Call.isUnderWay) hc
  rw [hunderWay, ← hcalls] at hflight
  have hless : (e.arrive k result).inFlight < e.inFlight :=
    Nat.lt_of_succ_le (Nat.le_of_eq hflight)
  exact Nat.add_lt_add_left hless _

/-- What it is to look at a probe that is over. -/
theorem Running.look (h : Running b e₀ r round₀ e unasked asked)
    (hattends : e.Attends b r (.finish k)) (hstep : e.finish k = some e') :
    k ∈ asked ∧ ∃ c answer, e.calls[k]? = some c ∧
      c.Probing b r (round₀.allowance e₀.now) e₀.now e.now ∧ c.isOpen = true ∧
      c.outcome (b c.node) = (e.now, answer) ∧ answer.node = c.node ∧
      e' = (e.closeCall k c answer).judge r
        { round₀ with unasked, asked } k answer := by
  obtain ⟨round, hround, hk, c, hc, hlate⟩ := hattends
  rw [h.eq_of_mem hround] at hk
  dsimp only at hk
  obtain ⟨hopen, hprobing⟩ := h.probe hk hc
  obtain ⟨answer, hanswer, rfl⟩ :=
    finish_probe hc hprobing.purpose h.present hstep
  exact ⟨hk, c, answer, hc, hprobing, hopen,
    Call.outcome_of_look hanswer (hprobing.time hopen)
    hprobing.arrived hlate, Call.node_of_answer? hanswer, rfl⟩

/-- A look at a probe that is accepted. -/
theorem Running.step_accepted (h : Running b e₀ r round₀ e unasked asked)
    (hopens : round₀.Opens e₀.now) (hk : k ∈ asked) {c : Call} {answer : Answer}
    (hc : e.calls[k]? = some c)
    (hprobing : c.Probing b r (round₀.allowance e₀.now) e₀.now e.now)
    (hover : c.outcome (b c.node) = (e.now, answer))
    (haccepts : answer.refusal? = none)
    (heq : e' = (e.closeCall k c answer).judge r
      { round₀ with unasked, asked } k answer) :
    (∃ asked', Running b e₀ r round₀ e' unasked asked' ∧
      effort round₀ e' unasked asked' < effort round₀ e unasked asked) ∨
    Passed b e₀ r round₀ e' := by
  obtain ⟨hclosed, hnowclosed, hcallsclosed, hroundsclosed⟩ :=
    closeCall_frame hc answer
  have hpresent :
      (e.closeCall k c answer).rounds[r]? =
        some { round₀ with unasked, asked } := by
    rw [hroundsclosed]
    exact h.present
  obtain ⟨e₁, helsewhere, hnow, hcalls, hcases⟩ := judge_of_accepted
    (e := e.closeCall k c answer) (k := k) hpresent hopens.phase haccepts
  rw [hnowclosed] at hnow
  rw [hcallsclosed] at hcalls
  rw [hroundsclosed] at hcases
  dsimp only at hcases
  have hasking := h.toAsking.close hk hc hover haccepts hnow hcalls
  rcases hcases with ⟨hunasked, hasked, hrounds, hjudge⟩ |
    ⟨hmore, hrounds, hjudge⟩
  · -- It was the last one.
    right
    rw [hasked, hunasked] at hasking
    rw [hjudge] at heq
    subst heq
    obtain ⟨hnow', hcalls', hrounds'⟩ :=
      admitAfter_frame { round₀ with unasked, asked } e₁
    refine ⟨fun n hn => (hasking.accepts_of_done hn).1, ?_,
      hasking.toAsked.of_calls hcalls', ?_, e₁, ?_, hnow'.symm, rfl⟩
    · obtain ⟨hknown, -⟩ := hprobing.known h.inTime hover
      rw [hnow', hnow, hknown]
      congr 1
      refine Nat.le_antisymm (b.known_le_latest _
        (h.mem_targets hc ((h.waits k).1 hk).1)) (b.latest_le _ fun n hn => ?_)
      have hle := (hasking.accepts_of_done hn).2
      rw [hnow, hknown] at hle
      exact Nat.le_of_add_le_add_left hle
    · refine ⟨{ round₀ with unasked, asked := [], phase := .passed }, ?_,
        rfl, rfl⟩
      rw [hrounds', hrounds, getElem?_set_of_some h.present, if_pos rfl]
    · exact (h.elsewhere.trans hclosed).trans helsewhere
  · left
    rw [hjudge] at heq
    subst heq
    refine ⟨asked.erase k, { hasking with
      elsewhere := (h.elsewhere.trans hclosed).trans helsewhere
      present := ?_
      more := hmore }, ?_⟩
    · rw [hrounds, getElem?_set_of_some h.present, if_pos rfl]
    · have hflight :=
        countP_set_of_some (b := { c with phase := .answered answer })
        (p := Call.isUnderWay) hc
      rw [← hcalls] at hflight
      have hle : e'.inFlight ≤ e.inFlight :=
        Nat.le_of_add_right_le (Nat.le_of_eq hflight)
      unfold effort
      rw [hnow, List.length_erase_of_mem hk]
      have hpos := List.length_pos_of_mem hk
      generalize round₀.deadline - e.now = left
      omega

/-- The round fails because of a node. -/
theorem Running.fail (h : Running b e₀ r round₀ e unasked asked) {n : Node}
    {reason : String}
    (hfirst : b.FirstToFail (round₀.allowance e₀.now) round₀.targets n)
    {e₁ : Engine} (helsewhere : e.Elsewhere e₁)
    (hgiven : GivenUp asked e.calls e₁.calls)
    (hrounds : e₁.rounds = e.rounds.set r { round₀ with
      unasked, asked := [], phase := .failed
        (.verificationFailed n.display reason) }) :
    Failed b e₀ r round₀
      (e₁.rejectAfter round₀ (.verificationFailed n.display reason)) n
        reason := by
  obtain ⟨-, hcalls', hrounds'⟩ := rejectAfter_frame round₀
    (.verificationFailed n.display reason) e₁
  have hprobed : Asked e₀ r round₀ e₁ unasked :=
    h.toAsked.of_givenUp hgiven fun i hi => ((h.waits i).1 hi).1
  refine ⟨hfirst, ⟨unasked, hprobed.of_calls hcalls'⟩, ⟨{ round₀ with
    unasked, asked := [], phase := .failed
      (.verificationFailed n.display reason) },
    ?_, rfl, rfl⟩, e₁, h.elsewhere.trans helsewhere, rfl⟩
  rw [hrounds', hrounds, getElem?_set_of_some h.present, if_pos rfl]

/-- A look at a probe that is not accepted. -/
theorem Running.step_refused (h : Running b e₀ r round₀ e unasked asked)
    (hk : k ∈ asked) {c : Call} {answer : Answer} (hc : e.calls[k]? = some c)
    (hprobing : c.Probing b r (round₀.allowance e₀.now) e₀.now e.now)
    (hopen : c.isOpen = true) (hover : c.outcome (b c.node) = (e.now, answer))
    (hnode : answer.node = c.node) {reason : String}
    (hrefused : answer.refusal? = some reason)
    (heq : e' = (e.closeCall k c answer).judge r
      { round₀ with unasked, asked } k answer) :
    Failed b e₀ r round₀ e' c.node reason := by
  obtain ⟨hclosed, hnowclosed, hcallsclosed, hroundsclosed⟩ :=
    closeCall_frame hc answer
  have hpresent :
      (e.closeCall k c answer).rounds[r]? =
        some { round₀ with unasked, asked } := by
    rw [hroundsclosed]
    exact h.present
  obtain ⟨e₁, helsewhere, hnow, hgiven, hrounds, hjudge⟩ := judge_of_refused
    (e := e.closeCall k c answer) (k := k) hpresent hrefused
  rw [hcallsclosed] at hgiven
  rw [hroundsclosed, hnode] at hrounds
  rw [hjudge, hnode] at heq
  subst heq
  obtain ⟨hknown, hiff⟩ := hprobing.known h.inTime hover
  refine h.fail ⟨h.mem_targets hc ((h.waits k).1 hk).1, fun haccepts => ?_,
    fun n hn hfails => ?_⟩ (hclosed.trans helsewhere)
      (.of_answered hc hopen hk hgiven) hrounds
  · rw [hiff.2 haccepts] at hrefused
    cases hrefused
  · have hle := h.now_le_known hn hfails
    rw [hknown] at hle
    exact Nat.le_of_add_le_add_left hle

/-- The round's own time is up, while no probe has a result that counts. -/
theorem Running.step_expireRound (h : Running b e₀ r round₀ e unasked asked)
    (hopens : round₀.Opens e₀.now) (hattends : e.Attends b r (.expireRound k))
    (hstep : e.expireRound r = some e') :
    ∃ n reason, Failed b e₀ r round₀ e' n reason := by
  obtain ⟨-, round, hround, hunasked, hnone⟩ := hattends
  rw [h.eq_of_mem hround] at hunasked hnone
  dsimp only at hunasked hnone
  subst hunasked
  obtain ⟨late, reason, e₁, hdeadline, hlate, helsewhere, hgiven, hrounds,
      heq⟩ :=
    expireRound_shape h.present hstep
  dsimp only at hdeadline hlate hgiven hrounds
  -- Some probe is waited for, so somebody is late.
  have hmem : ∀ n, n ∈ late ↔ ∃ k ∈ asked, ∃ c, e.calls[k]? = some c ∧
      c.node = n := by
    intro n
    rw [hlate, mem_ascending, List.append_nil, List.mem_map]
    simp only [List.mem_filterMap]
    exact ⟨fun ⟨c, ⟨k, hk, hc⟩, hn⟩ => ⟨k, hk, c, hc, hn⟩,
      fun ⟨k, hk, c, hc, hn⟩ => ⟨c, ⟨k, hk, hc⟩, hn⟩⟩
  obtain ⟨k₀, hk₀⟩ := List.exists_mem_of_ne_nil asked fun hnil =>
    h.more ⟨rfl, hnil⟩
  obtain ⟨-, c₀, hc₀, -⟩ := (h.waits k₀).1 hk₀
  cases late with
  | nil => exact absurd ((hmem _).2 ⟨k₀, hk₀, c₀, hc₀, rfl⟩) List.not_mem_nil
  | cons n others =>
      obtain ⟨k, hk, c, hc, rfl⟩ := (hmem n).1 List.mem_cons_self
      obtain ⟨hopen, hprobing⟩ := h.probe hk hc
      subst heq
      rw [← hopens.deadline] at hdeadline
      refine ⟨c.node, reason, h.fail ⟨h.mem_targets hc ((h.waits k).1 hk).1, ?_,
        fun n hn hfails => ?_⟩ helsewhere hgiven hrounds⟩
      · rintro ⟨delay, reply, hsent, hle, -⟩
        have hlater := hnone k hk c hc _ hsent
        rw [hprobing.started] at hlater
        exact Nat.not_lt_of_le (Nat.le_trans (Nat.add_le_add_left hle _)
          hdeadline) hlater
      · have hle := Nat.le_trans hdeadline (h.now_le_known hn hfails)
        exact Nat.le_trans (b.known_le _ _) (Nat.le_of_add_le_add_left hle)

/-- The round has come to a verdict. -/
def Ended (b : Bearing) (e₀ : Engine) (r : Nat) (round₀ : Round)
    (e : Engine) : Prop :=
  Passed b e₀ r round₀ e ∨ ∃ n reason, Failed b e₀ r round₀ e n reason

/-- Whatever happens in a round that runs, it goes on with less before it, or it
comes to its verdict. -/
theorem Running.step (h : Running b e₀ r round₀ e unasked asked)
    (hopens : round₀.Opens e₀.now) {event : Event}
    (hattends : e.Attends b r event) (hstep : e.step event = some e') :
    (∃ unasked' asked', Running b e₀ r round₀ e' unasked' asked' ∧
      effort round₀ e' unasked' asked' < effort round₀ e unasked asked) ∨
    Ended b e₀ r round₀ e' := by
  cases event with
  | advance now => exact Or.inl (h.step_advance hopens hattends hstep)
  | startProbe r' =>
      cases (show r' = r from hattends)
      exact Or.inl (h.step_startProbe hopens hstep)
  | arrive k result =>
      cases hstep
      exact Or.inl ⟨_, _, h.step_arrive hattends⟩
  | finish k =>
      obtain ⟨hk, c, answer, hc, hprobing, hopen, hover, hnode, heq⟩ :=
        h.look hattends hstep
      cases hrefusal : answer.refusal? with
      | none =>
          rcases h.step_accepted hopens hk hc hprobing hover hrefusal heq with
            ⟨asked', hrunning⟩ | hpassed
          · exact Or.inl ⟨_, _, hrunning⟩
          · exact Or.inr (Or.inl hpassed)
      | some reason =>
          exact Or.inr (Or.inr ⟨_, _,
            h.step_refused hk hc hprobing hopen hover hnode hrefusal heq⟩)
  | expireRound r' =>
      cases hattends.1
      exact Or.inr (Or.inr (h.step_expireRound hopens hattends hstep))
  | submit | startJob | lookUp | look | sweep | shutDown | addNode | setState |
      removeNode =>
      exact hattends.elim

theorem Ended.round (h : Ended b e₀ r round₀ e) :
    ∃ round, e.rounds[r]? = some round ∧ round.phase ≠ .running ∧
      round.asked = [] := by
  rcases h with h | ⟨n, reason, h⟩
  · obtain ⟨round, hround, hphase, hasked⟩ := h.ended
    exact ⟨round, hround, fun hrunning => (nomatch hphase.symm.trans hrunning),
      hasked⟩
  · obtain ⟨round, hround, hphase, hasked⟩ := h.ended
    exact ⟨round, hround, fun hrunning => (nomatch hphase.symm.trans hrunning),
      hasked⟩

/-- After the verdict nothing happens in the round. -/
theorem Ended.step_eq_none (h : Ended b e₀ r round₀ e) {event : Event}
    (hattends : e.Attends b r event) : e.step event = none := by
  obtain ⟨round, hround, hphase, hasked⟩ := h.round
  have heq : ∀ round' ∈ e.rounds[r]?, round' = round := fun round' hround' =>
    Option.some.inj (hround'.symm.trans hround)
  cases event with
  | advance now =>
      obtain ⟨round', hround', hrunning, -⟩ := hattends
      rw [heq round' hround'] at hrunning
      exact absurd (Round.isRunning_iff.1 hrunning) hphase
  | startProbe r' =>
      cases (show r' = r from hattends)
      rw [step, startProbe, hround]
      dsimp only [Option.bind_eq_bind, Option.bind_some]
      split
      · next hrunning _ => exact absurd hrunning hphase
      · rfl
  | arrive k result =>
      obtain ⟨round', hround', hk, -⟩ := hattends
      rw [heq round' hround', hasked] at hk
      cases hk
  | finish k =>
      obtain ⟨round', hround', hk, -⟩ := hattends
      rw [heq round' hround', hasked] at hk
      cases hk
  | expireRound r' =>
      cases hattends.1
      rw [step, expireRound, hround]
      dsimp only [Option.bind_eq_bind, Option.bind_some]
      split
      · next hrunning => exact absurd hrunning hphase
      · rfl
  | submit | startJob | lookUp | look | sweep | shutDown | addNode | setState |
      removeNode =>
      exact hattends.elim

theorem Ended.run_eq_nil (h : Ended b e₀ r round₀ e) {events : List Event}
    (halong : Along (Attends b r) e events) (hrun : e.run events = some e') :
    events = [] :=
  Engine.run_eq_nil (fun _ hattends => h.step_eq_none hattends) halong hrun

/-- What a round that runs may come to, and how long that can take. -/
theorem Running.run {events : List Event} (hopens : round₀.Opens e₀.now) :
    ∀ {e : Engine} {unasked : List Node} {asked : List Nat},
      Running b e₀ r round₀ e unasked asked → Along (Attends b r) e events →
      e.run events = some e' →
      (∃ unasked' asked', Running b e₀ r round₀ e' unasked' asked' ∧
        events.length + effort round₀ e' unasked' asked' ≤
          effort round₀ e unasked asked) ∨
      (Ended b e₀ r round₀ e' ∧
        events.length + e₀.inFlight ≤ effort round₀ e unasked asked) := by
  induction events with
  | nil =>
      intro e unasked asked h _ hrun
      cases hrun
      exact Or.inl ⟨unasked, asked, h, Nat.le_of_eq (Nat.zero_add _)⟩
  | cons event events ih =>
      intro e unasked asked h halong hrun
      obtain ⟨hattends, hrest⟩ := along_cons.1 halong
      obtain ⟨e₁, hstep, hrun⟩ := run_cons.1 hrun
      rw [List.length_cons]
      rcases h.step hopens hattends hstep with ⟨unasked₁, asked₁, h₁, hless⟩ |
        hended
      · rcases ih h₁ (hrest e₁ hstep) hrun with ⟨unasked', asked', h', hle⟩ |
          ⟨hended, hle⟩
        · exact Or.inl ⟨unasked', asked', h', by omega⟩
        · exact Or.inr ⟨hended, by omega⟩
      · cases hended.run_eq_nil (hrest e₁ hstep) hrun
        cases hrun
        have hlt := h.inFlight_lt
        exact Or.inr ⟨hended, by
          rw [List.length_nil]
          omega⟩

/-! ## A round comes to an end -/

/-- A look at a probe gives an answer if a result is there or if its time is
up. -/
theorem Running.exists_finish (h : Running b e₀ r round₀ e unasked asked)
    (hk : k ∈ asked) {c : Call} (hc : e.calls[k]? = some c)
    (hover : (∃ result, c.phase = .arrived result) ∨
      c.phase = .underWay ∧ c.due ≤ e.now) :
    ∃ e', e.step (.finish k) = some e' := by
  have hpurpose := (h.probe hk hc).2.purpose
  have hanswer : ∃ answer, c.answer? e.now = some answer := by
    unfold Call.answer?
    rcases hover with ⟨result, hphase⟩ | ⟨hphase, hdue⟩
    · rw [hphase]
      cases result with
      | ok reply => exact ⟨_, rfl⟩
      | error fault => exact ⟨_, rfl⟩
    · rw [hphase]
      exact ⟨_, if_pos hdue⟩
  obtain ⟨answer, hanswer⟩ := hanswer
  refine ⟨(e.closeCall k c answer).judge r { round₀ with unasked, asked } k
    answer, ?_⟩
  rw [Engine.step, finish, hc]
  dsimp only [Option.bind_eq_bind, Option.bind_some]
  rw [hanswer]
  dsimp only [Option.bind_some]
  rw [hpurpose]
  dsimp only
  rw [h.present]
  rfl

/-- A probe that is over now can be dealt with now. -/
theorem Running.exists_next_of_over (h : Running b e₀ r round₀ e unasked asked)
    (hk : k ∈ asked) {c : Call} (hc : e.calls[k]? = some c)
    (hover : (c.outcome (b c.node)).1 = e.now) :
    ∃ event e', e.Attends b r event ∧ e.step event = some e' := by
  obtain ⟨hopen, hprobing⟩ := h.probe hk hc
  have hattends : (c.isUnderWay = true → ∀ sent ∈ b c.node,
      e.now < c.started + sent.1.nanos) → e.Attends b r (.finish k) :=
    fun hlate => ⟨_, h.present, hk, c, hc, hlate⟩
  cases hphase : c.phase with
  | arrived result =>
      obtain ⟨e', hstep⟩ := h.exists_finish hk hc (Or.inl ⟨result, hphase⟩)
      refine ⟨_, e', hattends fun hunderWay => ?_, hstep⟩
      rw [Call.isUnderWay, hphase] at hunderWay
      cases hunderWay
  | underWay =>
      have hunderWay : c.isUnderWay = true := by rw [Call.isUnderWay, hphase]
      by_cases hsent : ∃ sent ∈ b c.node, c.started + sent.1.nanos = e.now
      · -- The result comes now, and it has to come before anybody looks.
        obtain ⟨⟨delay, result⟩, hsent, hnow⟩ := hsent
        refine ⟨.arrive k result, _, ⟨_, h.present, hk, c, hc, hunderWay, ?_⟩,
          rfl⟩
        rw [show b c.node = some (delay, result) from hsent, Instant.since,
          ← hnow, Nat.add_sub_cancel_left]
      · have hlate : ∀ sent ∈ b c.node, e.now < c.started + sent.1.nanos := by
          intro sent hmem
          have hle := Call.outcome_le_reply c sent.1 sent.2
          rw [show some (sent.1, sent.2) =
            b c.node from hmem.symm, hover] at hle
          exact Nat.lt_of_le_of_ne hle fun heq => hsent ⟨sent, hmem, heq.symm⟩
        have hdue : c.due ≤ e.now := by
          refine Nat.le_of_not_lt fun hlt => ?_
          have hle : e.now + 1 ≤ (c.outcome (b c.node)).1 :=
            Call.le_outcome (fun delay result hmem =>
              hlate (delay, result) hmem) hlt
          rw [hover] at hle
          exact absurd hle (Nat.not_succ_le_self _)
        obtain ⟨e', hstep⟩ := h.exists_finish hk hc (Or.inr ⟨hphase, hdue⟩)
        exact ⟨_, e', hattends fun _ => hlate, hstep⟩
  | answered _ | abandoned =>
      rw [Call.isOpen, hphase] at hopen
      cases hopen

/-- A round that runs is never stuck. -/
theorem Running.exists_next (h : Running b e₀ r round₀ e unasked asked)
    (hopens : round₀.Opens e₀.now) :
    ∃ event e', e.Attends b r event ∧ e.step event = some e' := by
  cases unasked with
  | cons n rest =>
      obtain ⟨e', hstep⟩ := exists_startProbe h.present hopens.phase rfl
      exact ⟨.startProbe r, e', rfl, hstep⟩
  | nil =>
      by_cases hover : ∃ k ∈ asked, ∃ c, e.calls[k]? = some c ∧
          (c.outcome (b c.node)).1 = e.now
      · obtain ⟨k, hk, c, hc, hover⟩ := hover
        exact h.exists_next_of_over hk hc hover
      · have hlater : ∀ k ∈ asked, ∀ c ∈ e.calls[k]?, e.now <
            (c.outcome (b c.node)).1 := by
          intro k hk c hc
          obtain ⟨hopen, hprobing⟩ := h.probe hk hc
          exact Nat.lt_of_le_of_ne (hprobing.time hopen)
            fun heq => hover ⟨k, hk, c, hc, heq.symm⟩
        by_cases hdeadline : round₀.deadline ≤ e.now
        · have hstep : ∃ e', e.step (.expireRound r) = some e' := by
            rw [Engine.step, expireRound, h.present]
            dsimp only [Option.bind_eq_bind, Option.bind_some]
            rw [hopens.phase, guard, if_pos hdeadline]
            exact ⟨_, rfl⟩
          obtain ⟨e', hstep⟩ := hstep
          refine ⟨.expireRound r, e',
            ⟨rfl, _, h.present, rfl, fun k hk c hc sent hsent => ?_⟩, hstep⟩
          have hlt := hlater k hk c hc
          rw [show b c.node = some (sent.1, sent.2) from hsent] at hlt
          exact Nat.lt_of_lt_of_le hlt (Call.outcome_le_reply c sent.1 sent.2)
        · exact ⟨.advance (e.now + 1), _,
            ⟨_, h.present, Round.isRunning_iff.2 hopens.phase,
            rfl, Nat.lt_of_not_le hdeadline, hlater⟩,
              if_pos (Nat.lt_succ_self _)⟩

/-- However a round has run so far, it can come to its verdict. -/
theorem Running.can_end (h : Running b e₀ r round₀ e unasked asked)
    (hopens : round₀.Opens e₀.now) :
    ∃ events e', Along (Attends b r) e events ∧ e.run events = some e' ∧
      Ended b e₀ r round₀ e' := by
  generalize heffort : effort round₀ e unasked asked = left
  induction left using Nat.strongRecOn generalizing e unasked asked with
  | _ left ih =>
      obtain ⟨event, e₁, hattends, hstep⟩ := h.exists_next hopens
      rcases h.step hopens hattends hstep with ⟨unasked₁, asked₁, h₁, hless⟩ |
        hended
      · obtain ⟨events, e', halong, hrun, hended⟩ :=
          ih _ (heffort ▸ hless) h₁ rfl
        refine ⟨event :: events, e',
          along_cons.2 ⟨hattends, fun e₂ hstep₂ => ?_⟩,
          run_cons.2 ⟨e₁, hstep, hrun⟩, hended⟩
        rw [hstep] at hstep₂
        cases hstep₂
        exact halong
      · exact ⟨[event], e₁, along_cons.2 ⟨hattends, fun e₂ _ => along_nil e₂⟩,
          run_cons.2 ⟨e₁, hstep, rfl⟩, hended⟩

end

/-! ## The verdict -/

/-- Opens a round for targets that are all connected, if there is anything to
ask. -/
def opened (outbound : Outbound) (targets : List Node) (timeout : Span)
    (submission : Option Nat) (e : Engine) : Engine :=
  (e.openRound outbound targets timeout submission).passIfDone e.rounds.length

section

variable {b : Bearing} {e₀ e : Engine} {outbound : Outbound}
  {targets : List Node} {timeout : Span} {submission : Option Nat}

/-- A round as it is opened. -/
def roundOf (e : Engine) (outbound : Outbound) (targets : List Node)
    (timeout : Span) (submission : Option Nat) : Round :=
  { outbound, targets, timeout, deadline := Instant.deadline e.now timeout,
    submission, unasked := targets }

theorem opens_roundOf :
    (e₀.roundOf outbound targets timeout submission).Opens e₀.now where
  phase := rfl
  deadline := Nat.add_sub_cancel' (Instant.le_deadline _ _)
  clock := Instant.deadline_le_timer _ _

theorem asked_self (e₀ : Engine) (r : Nat) (round₀ : Round) :
    Asked e₀ r round₀ e₀ round₀.targets :=
  ⟨List.take_length, rfl⟩

theorem opened_of_ne_nil (hne : targets ≠ []) :
    e₀.opened outbound targets timeout submission =
      e₀.openRound outbound targets timeout submission := by
  have hround :
      (e₀.openRound outbound targets timeout
        submission).rounds[e₀.rounds.length]? =
      some (e₀.roundOf outbound targets timeout submission) :=
        List.getElem?_concat_length
  exact passIfDone_eq_self hround fun h => hne h.1

/-- A round that has targets begins to ask them. -/
theorem running_opened (b : Bearing) (hne : targets ≠ []) :
    Running b e₀ e₀.rounds.length
      (e₀.roundOf outbound targets timeout submission)
      (e₀.opened outbound targets timeout submission) targets [] := by
  rw [opened_of_ne_nil hne]
  have hnone : ∀ (k : Nat) c, e₀.calls[k]? = some c → ¬ e₀.calls.length ≤ k :=
    fun k c hc => Nat.not_le_of_lt (List.getElem?_eq_some_iff.1 hc).1
  exact {
    old := List.take_length
    errands := rfl
    probes := fun k c hc hle => absurd hle (hnone k c hc)
    waits := fun k => iff_of_false List.not_mem_nil fun ⟨hle, c, hc, _⟩ =>
      hnone k c hc hle
    nodup := List.nodup_nil
    began := Nat.le_refl _
    inTime := Nat.le_add_right _ _
    start := fun _ => rfl
    elsewhere := ⟨_, _, _, _, _, rfl⟩
    present := List.getElem?_concat_length
    more := fun h => hne h.1 }

/-- A round without targets has passed at once. -/
theorem passed_opened (b : Bearing) :
    Passed b e₀ e₀.rounds.length (e₀.roundOf outbound [] timeout submission)
      (e₀.opened outbound [] timeout submission) := by
  have hround :
      (e₀.openRound outbound [] timeout submission).rounds[e₀.rounds.length]? =
      some (e₀.roundOf outbound [] timeout submission) :=
        List.getElem?_concat_length
  have hphase : (e₀.roundOf outbound [] timeout submission).phase = .running :=
    rfl
  obtain ⟨e₁, helsewhere, hnow, hcalls, hrounds, heq⟩ :=
    passIfDone_of_done hround hphase rfl rfl
  obtain ⟨hnow', hcalls', hrounds'⟩ :=
    admitAfter_frame (e₀.roundOf outbound [] timeout submission) e₁
  rw [opened, heq]
  refine ⟨nofun, hnow'.trans hnow, ?_,
    ⟨{ e₀.roundOf outbound [] timeout submission with phase := .passed }, ?_,
      rfl, rfl⟩, e₁,
    .trans ⟨_, _, _, _, _, rfl⟩ helsewhere, hnow'.symm, rfl⟩
  · exact (asked_self e₀ _ (e₀.roundOf outbound [] timeout submission)).of_calls
      (hcalls'.trans hcalls)
  · rw [hrounds', hrounds, getElem?_set_of_some hround, if_pos rfl]

/-- What a round may be found to be, and how long it can take to come there. -/
theorem opened_run (b : Bearing) {events : List Event}
    (halong : Along (Attends b e₀.rounds.length)
      (e₀.opened outbound targets timeout submission) events)
    (hrun : (e₀.opened outbound targets timeout submission).run events =
      some e) :
    ((∃ unasked asked, Running b e₀ e₀.rounds.length
        (e₀.roundOf outbound targets timeout submission) e unasked asked) ∨
      Ended b e₀ e₀.rounds.length
        (e₀.roundOf outbound targets timeout submission) e) ∧
    events.length ≤ (Instant.allowance e₀.now timeout).nanos +
      3 * targets.length := by
  cases targets with
  | nil =>
      have hpassed : Ended b e₀ e₀.rounds.length
          (e₀.roundOf outbound [] timeout submission)
          (e₀.opened outbound [] timeout submission) := Or.inl (passed_opened b)
      cases hpassed.run_eq_nil halong hrun
      cases hrun
      exact ⟨Or.inr hpassed, Nat.zero_le _⟩
  | cons n rest =>
      have hrunning : Running b e₀ e₀.rounds.length
          (e₀.roundOf outbound (n :: rest) timeout submission)
          (e₀.opened outbound (n :: rest) timeout submission) (n :: rest) [] :=
        running_opened b (List.cons_ne_nil n rest)
      have heffort : effort (e₀.roundOf outbound (n :: rest) timeout submission)
          (e₀.opened outbound (n :: rest) timeout submission) (n :: rest) [] =
          (Instant.allowance e₀.now timeout).nanos + 3 * (n :: rest).length +
            e₀.inFlight := by
        rw [opened_of_ne_nil (List.cons_ne_nil n rest)]
        rfl
      have hrun := hrunning.run opens_roundOf halong hrun
      rw [heffort] at hrun
      rcases hrun with ⟨unasked, asked, h, hle⟩ | ⟨hended, hle⟩
      · have hlt := h.inFlight_lt
        exact ⟨Or.inl ⟨unasked, asked, h⟩, by omega⟩
      · exact ⟨Or.inr hended, Nat.le_of_add_le_add_right hle⟩

/-- What a round that was opened for some targets has come to. -/
structure Resolved (b : Bearing) (e₀ : Engine) (outbound : Outbound)
    (targets : List Node) (span : Span) (e : Engine) (round : Round)
    (asked : List Node) : Prop where
  present : e.rounds[e₀.rounds.length]? = some round
  /-- No target was asked twice, and none before those that come first. -/
  distinct : asked.Nodup
  inOrder : asked <+: targets
  probes : ∃ probes, e.calls = e₀.calls ++ probes ∧ probes.map Call.errand =
    asked.map fun n => (n, outbound.probe, .probe e₀.rounds.length)
  passed_iff : round.phase ≠ .running →
    (round.phase = .passed ↔ ∀ n ∈ targets, b.Accepts span n)
  everyone : round.phase = .passed → asked = targets
  failed : ∀ fault, round.phase = .failed fault → ∃ n reason,
    fault = .verificationFailed n.display reason ∧ b.FirstToFail span targets n

theorem Asked.resolved {span : Span} {round : Round} {rest : List Node}
    (hnodup : targets.Nodup)
    (h : Asked e₀ e₀.rounds.length
      (e₀.roundOf outbound targets timeout submission) e rest)
    (hround : e.rounds[e₀.rounds.length]? = some round)
    (hpassed : round.phase = .passed → rest = [] ∧
      ∀ n ∈ targets, b.Accepts span n)
    (hfailed : ∀ fault, round.phase = .failed fault → ∃ n reason,
      fault = .verificationFailed n.display reason ∧
        b.FirstToFail span targets n) :
    ∃ asked, Resolved b e₀ outbound targets span e round asked := by
  obtain ⟨asked, probes, htargets, hcalls, herrands⟩ := h.exists_probes
  have hprefix : asked <+: targets := ⟨rest, htargets⟩
  refine ⟨asked, hround, hnodup.sublist hprefix.sublist, hprefix,
    ⟨probes, hcalls, herrands⟩, fun hended =>
      ⟨fun hphase => (hpassed hphase).2, fun hall => ?_⟩,
    fun hphase => ?_, hfailed⟩
  · cases hphase : round.phase with
    | running => exact absurd hphase hended
    | passed => rfl
    | failed fault =>
        obtain ⟨n, reason, -, hfirst⟩ := hfailed fault hphase
        exact absurd (hall n hfirst.mem) hfirst.fails
  · obtain ⟨rfl, -⟩ := hpassed hphase
    rw [List.append_nil] at htargets
    exact htargets

theorem Running.resolved {unasked : List Node} {asked : List Nat}
    (hnodup : targets.Nodup)
      (h : Running b e₀ e₀.rounds.length
        (e₀.roundOf outbound targets timeout submission) e
      unasked asked) :
    ∃ round asked,
      Resolved b e₀ outbound targets (Instant.allowance e₀.now timeout)
        e round asked :=
  ⟨_, h.toAsked.resolved hnodup h.present nofun nofun⟩

theorem Ended.resolved (hnodup : targets.Nodup)
    (h : Ended b e₀ e₀.rounds.length
      (e₀.roundOf outbound targets timeout submission) e) :
    ∃ round asked,
      Resolved b e₀ outbound targets (Instant.allowance e₀.now timeout) e
        round asked := by
  rcases h with h | ⟨n, reason, h⟩
  · obtain ⟨round, hround, hphase, -⟩ := h.ended
    refine ⟨round, h.probed.resolved hnodup hround (fun _ => ⟨rfl, h.accepts⟩)
      fun fault hfailed => ?_⟩
    rw [hphase] at hfailed
    cases hfailed
  · obtain ⟨round, hround, hphase, -⟩ := h.ended
    obtain ⟨rest, hprobed⟩ := h.probed
    refine ⟨round, hprobed.resolved hnodup hround
      (fun hpassed => ?_) fun fault hfailed => ?_⟩
    · rw [hphase] at hpassed
      cases hpassed
    · rw [hphase] at hfailed
      cases hfailed
      exact ⟨n, reason, rfl, h.first⟩

end

theorem unconnected?_eq_none {m : Membership} {nodes : List Node}
    (h : ∀ n ∈ nodes, m.state? n = some .connected) :
    m.unconnected? nodes = none := by
  have hconnecting : (nodes.find? fun n => m.state? n == some .connecting) =
      none := by
    refine List.find?_eq_none.2 fun n hn => ?_
    rw [h n hn]
    decide
  have hother : (nodes.find? fun n => m.state? n != some .connected) =
      none := by
    refine List.find?_eq_none.2 fun n hn => ?_
    rw [h n hn]
    decide
  rw [Membership.unconnected?, hconnecting, hother]
  rfl

/-- A round for distinct nodes that are all connected, whose time the clock can
represent, and which is left to itself. Whatever the nodes make of their probes,
it comes to its verdict after a bounded number of events. It passes exactly if
all accept in time, and then each had one probe. Otherwise it fails because of
one that does not, and none that does not was known of earlier. -/
theorem verdict_of_round (b : Bearing) (e₀ : Engine) (outbound : Outbound)
    (targets : List Node) (timeout : Span) (submission : Option Nat)
    (hnodup : targets.Nodup)
    (hconnected : ∀ n ∈ targets, e₀.members.state? n = some .connected)
    (hclock : (Instant.after? e₀.now timeout).isSome = true) :
    e₀.members.unconnected? targets = none ∧
    ∀ events e,
      Along (Attends b e₀.rounds.length)
        (e₀.opened outbound targets timeout submission) events →
      (e₀.opened outbound targets timeout submission).run events = some e →
      events.length ≤ timeout.nanos + 3 * targets.length ∧
      (∃ round asked, Resolved b e₀ outbound targets timeout e round asked) ∧
      ∃ more e' round asked, Along (Attends b e₀.rounds.length) e more ∧
        e.run more = some e' ∧
        Resolved b e₀ outbound targets timeout e' round asked ∧
        round.phase ≠ .running := by
  refine ⟨unconnected?_eq_none hconnected, fun events e halong hrun => ?_⟩
  obtain ⟨hstands, hlength⟩ := opened_run b halong hrun
  rw [← Instant.allowance_of_after? hclock]
  have hresolved : ∀ {e' : Engine}, Ended b e₀ e₀.rounds.length
      (e₀.roundOf outbound targets timeout submission) e' →
      ∃ round asked,
        Resolved b e₀ outbound targets (Instant.allowance e₀.now timeout)
          e' round asked ∧
        round.phase ≠ .running := by
    intro e' hended
    obtain ⟨round, asked, hresolved⟩ := hended.resolved hnodup
    obtain ⟨round', hround', hphase, -⟩ := hended.round
    rw [hresolved.present] at hround'
    cases hround'
    exact ⟨round, asked, hresolved, hphase⟩
  rcases hstands with ⟨unasked, asked, h⟩ | hended
  · obtain ⟨more, e', halong', hrun', hended⟩ := h.can_end opens_roundOf
    obtain ⟨round, asked', hresolved'⟩ := hresolved hended
    exact ⟨hlength, h.resolved hnodup, more, e', round, asked', halong', hrun',
      hresolved'⟩
  · obtain ⟨round, asked, hresolved', hphase⟩ := hresolved hended
    exact ⟨hlength, ⟨round, asked, hresolved'⟩,
      [], e, round, asked, along_nil e, rfl, hresolved', hphase⟩

/-- Three targets, the first of which accepts at the last moment and the second
never replies. The third is done first, but its success is not the one that
accepts, so the round fails because of it. -/
theorem verdict_of_round_other_success :
    let a : Node := ⟨"a", "localhost", 1⟩
    let b : Node := ⟨"b", "localhost", 2⟩
    let c : Node := ⟨"c", "localhost", 3⟩
    let e₀ :=
      start {} (.ofEntries [(a, .connected), (b, .connected), (c, .connected)])
    let outbound := Outbound.ofRequest "r" "s" { method := .put, uri := "/" }
    let bearing : Bearing := fun n =>
      if n = a then some (⟨10⟩, .ok { status := 202 })
      else if n = c then some (⟨4⟩, .ok { status := 200 })
      else none
    let events : List Event :=
      [.startProbe 0, .startProbe 0, .startProbe 0, .advance 4,
        .arrive 2 (.ok { status := 200 }), .finish 2]
    ∃ e round n, (e₀.opened outbound [a, b, c] ⟨10⟩ none).run events = some e ∧
      Along (Attends bearing 0) (e₀.opened outbound [a, b, c] ⟨10⟩ none)
        events ∧
      e.rounds[0]? = some round ∧
      round.phase = .failed
        (.verificationFailed n.display "answered 200 instead of 202: ") ∧
      n.display = c.display ∧ bearing.FirstToFail ⟨10⟩ [a, b, c] n := by
  intro a b c e₀ outbound bearing events
  have halong : Along (Attends bearing 0)
      (e₀.opened outbound [a, b, c] ⟨10⟩ none) events := by
    decide +kernel
  have hseen : ((e₀.opened outbound [a, b, c] ⟨10⟩ none).run events).map
      (fun e => e.rounds.map fun round =>
        match round.phase with
        | .failed fault => some fault
        | _ => none) =
      some [some (.verificationFailed c.display
        "answered 200 instead of 202: ")] := by
    decide +kernel
  obtain ⟨e, hrun, hrounds⟩ := Option.map_eq_some_iff.1 hseen
  obtain ⟨round, hrounds, hphase⟩ := List.map_eq_singleton_iff.1 hrounds
  have hfailed : round.phase = .failed
      (.verificationFailed c.display "answered 200 instead of 202: ") := by
    split at hphase
    · next hfault =>
        cases hphase
        exact hfault
    · cases hphase
  have hround : e.rounds[0]? = some round := by rw [hrounds]; rfl
  obtain ⟨-, ⟨round', asked, hresolved⟩, -⟩ :=
    (verdict_of_round bearing e₀ outbound [a, b, c]
    ⟨10⟩ none (by decide) (by decide +kernel) (by decide +kernel)).2
      events e halong hrun
  have hsame := hresolved.present.symm.trans hround
  cases hsame
  obtain ⟨n, reason, hfault, hfirst⟩ := hresolved.failed _ hfailed
  obtain ⟨hdisplay, rfl⟩ := Fault.verificationFailed.inj hfault
  rw [hdisplay] at hfailed
  exact ⟨e, round, n, hrun, halong, hround, hfailed, hdisplay.symm, hfirst⟩

end Engine

end Fanout
