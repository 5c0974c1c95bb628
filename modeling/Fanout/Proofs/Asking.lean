import Fanout.Proofs.Outcome

/-!
# The probes of a round

A round is left to itself when only its own events happen: its targets are
asked, their results come when they come, and whoever runs the round looks at
each probe as soon as it is over. `Attends` says which events these are. What
they do to the probes is followed here call by call. At every moment each
target, in the order of the list, had one probe or is still to be asked; no
probe is over before now, and those that are judged have been accepted, since
the first that is not ends the round.

Nothing is said of how the round ends. That is what its verdict is about.
-/

namespace Fanout

namespace Instant

/-- The time that a deadline leaves. It is the span that was asked for, if the
clock can represent that. -/
def allowance (t : Instant) (s : Span) : Span := since (deadline t s) t

theorem allowance_of_after? {t : Instant} {s : Span}
    (h : (after? t s).isSome = true) : allowance t s = s := by
  obtain ⟨t', ht⟩ := Option.isSome_iff_exists.1 h
  have ht' : t' = t + s.nanos := by
    unfold after? at ht
    split at ht
    · exact (Option.some.inj ht).symm
    · cases ht
  rw [allowance, deadline, ht, ht', Option.getD_some, since,
    Nat.add_sub_cancel_left]

theorem le_deadline (t : Instant) (s : Span) : t ≤ deadline t s := by
  unfold deadline after?
  split
  · exact Nat.le_add_right _ _
  · exact Nat.le_add_right _ _

theorem deadline_le_timer (t : Instant) (s : Span) :
    deadline t s ≤ timer t s := by
  have hyears : (Span.ofDays 365).nanos ≤ (Span.ofDays (365 * 30)).nanos := by
    simp only [Span.ofDays, Span.ofSeconds]
    omega
  unfold deadline timer
  cases after? t s with
  | some later => exact Nat.le_refl later
  | none => exact Nat.add_le_add_left hyears t

end Instant

/-! ## How nodes bear themselves -/

/-- What nodes make of a probe: a result after a while, or nothing ever. -/
abbrev Bearing := Node → Option (Span × CallResult)

namespace Bearing

/-- A node accepts in time: it replies with the one status that accepts. -/
def Accepts (b : Bearing) (span : Span) (n : Node) : Prop :=
  ∃ delay reply, b n = some (delay, .ok reply) ∧ delay.nanos ≤ span.nanos ∧
    reply.status = 202

/-- How long it takes until it is known what a node makes of a probe. -/
def known (b : Bearing) (span : Span) (n : Node) : Nat :=
  match b n with
  | some (delay, _) => min delay.nanos span.nanos
  | none => span.nanos

theorem known_le (b : Bearing) (span : Span) (n : Node) :
    b.known span n ≤ span.nanos := by
  unfold known
  split
  · exact Nat.min_le_right _ _
  · exact Nat.le_refl _

/-- A moment that comes before any result and before the span is over is one at
which nothing is known. -/
theorem le_known {b : Bearing} {span : Span} {n : Node} {t : Nat}
    (hspan : t ≤ span.nanos) (hsent : ∀ sent ∈ b n, t ≤ sent.1.nanos) :
    t ≤ b.known span n := by
  unfold known
  split
  · next delay result h => exact Nat.le_min.2 ⟨hsent _ h, hspan⟩
  · exact hspan

/-- How long it takes until it is known what the last of some nodes makes of
it. -/
def latest (b : Bearing) (span : Span) (nodes : List Node) : Nat :=
  (nodes.map (b.known span)).foldr max 0

theorem known_le_latest (b : Bearing) (span : Span) {nodes : List Node}
    {n : Node} (h : n ∈ nodes) : b.known span n ≤ b.latest span nodes := by
  induction nodes with
  | nil => cases h
  | cons m rest ih =>
      rcases List.mem_cons.1 h with rfl | h
      · exact Nat.le_max_left _ _
      · exact Nat.le_trans (ih h) (Nat.le_max_right _ _)

theorem latest_le (b : Bearing) (span : Span) {nodes : List Node} {t : Nat}
    (h : ∀ n ∈ nodes, b.known span n ≤ t) : b.latest span nodes ≤ t := by
  induction nodes with
  | nil => exact Nat.zero_le _
  | cons m rest ih =>
      exact Nat.max_le.2 ⟨h m List.mem_cons_self,
        ih fun n hn => h n (List.mem_cons_of_mem _ hn)⟩

/-- One of the nodes that do not accept, and none of them is known of
earlier. -/
structure FirstToFail (b : Bearing) (span : Span) (nodes : List Node)
    (n : Node) : Prop where
  mem : n ∈ nodes
  fails : ¬ b.Accepts span n
  first : ∀ m ∈ nodes, ¬ b.Accepts span m → b.known span n ≤ b.known span m

end Bearing

namespace Call

/-- If a call is over within a span that its own time covers, then as soon as
that is known. -/
theorem outcome_known (b : Bearing) {c : Call} {span : Span}
    (hdue : c.started + span.nanos ≤ c.due)
    (hover : (c.outcome (b c.node)).1 ≤ c.started + span.nanos) :
    (c.outcome (b c.node)).1 = c.started + b.known span c.node := by
  unfold outcome at hover ⊢
  unfold Bearing.known
  cases hsent : b c.node with
  | none =>
      rw [hsent] at hover
      exact Nat.le_antisymm hover hdue
  | some sent =>
      obtain ⟨delay, result⟩ := sent
      rw [hsent] at hover
      dsimp only at hover ⊢
      split
      · next h =>
          rw [if_pos h] at hover
          rw [Nat.min_eq_left (Nat.le_of_add_le_add_left hover)]
      · next h =>
          rw [if_neg h] at hover
          have hle := Nat.le_trans hdue (Nat.le_of_lt (Nat.lt_of_not_le h))
          rw [Nat.min_eq_right (Nat.le_of_add_le_add_left hle)]
          exact Nat.le_antisymm hover hdue

theorem refusal?_answerOf_reply (n : Node) (latency : Span) (reply : Reply) :
    (answerOf n latency (.ok reply)).refusal? = none ↔ reply.status = 202 := by
  show (if reply.status = Answer.acceptedStatus then none else some _) =
      none ↔ _
  split
  · next hs => exact iff_of_true rfl hs
  · next hs => exact iff_of_false nofun hs

/-- If a call is over within a span that its own time covers, it is accepted
exactly if its node accepts within that span. -/
theorem outcome_accepts (b : Bearing) {c : Call} {span : Span}
    (hdue : c.started + span.nanos ≤ c.due)
    (hover : (c.outcome (b c.node)).1 ≤ c.started + span.nanos) :
    (c.outcome (b c.node)).2.refusal? = none ↔ b.Accepts span c.node := by
  unfold outcome at hover ⊢
  unfold Bearing.Accepts
  cases hsent : b c.node with
  | none => exact iff_of_false nofun fun ⟨_, _, h, _⟩ => nomatch h
  | some sent =>
      obtain ⟨delay, result⟩ := sent
      rw [hsent] at hover
      dsimp only at hover ⊢
      split
      · next h =>
          rw [if_pos h] at hover
          cases result with
          | error fault => exact iff_of_false nofun fun ⟨_, _, h, _⟩ =>
              nomatch h
          | ok reply =>
              rw [refusal?_answerOf_reply]
              refine ⟨fun hs => ⟨delay, reply, rfl,
                Nat.le_of_add_le_add_left hover, hs⟩,
                fun ⟨_, _, heq, _, hs⟩ => ?_⟩
              cases heq
              exact hs
      · next h =>
          refine iff_of_false nofun fun ⟨_, _, heq, hle, _⟩ => ?_
          cases heq
          exact h (Nat.le_trans (Nat.add_le_add_left hle _) hdue)

theorem isOpen_of_isUnderWay {c : Call}
    (h : c.isUnderWay = true) : c.isOpen = true := by
  unfold isUnderWay at h
  split at h
  · next hphase => rw [isOpen, hphase]
  · cases h

theorem receive_of_isUnderWay {c : Call} (h : c.isUnderWay = true)
    (result : CallResult) :
    c.receive result = { c with phase := .arrived result } := by
  unfold isUnderWay at h
  split at h
  · next hphase => rw [receive, hphase]
  · cases h

/-- An answer that a look gives is the outcome, if the call is looked at in time
and its results come when they are sent. -/
theorem outcome_of_look {c : Call} {now : Instant} {a : Answer}
    {sent? : Option (Span × CallResult)} (h : c.answer? now = some a)
    (htime : now ≤ (c.outcome sent?).1)
    (harrived : ∀ result, c.phase = .arrived result →
      ∃ delay, sent? = some (delay, result) ∧ c.started + delay.nanos = now)
    (hlate : c.isUnderWay = true →
      ∀ sent ∈ sent?, now < c.started + sent.1.nanos) :
    c.outcome sent? = (now, a) := by
  cases hphase : c.phase with
  | underWay =>
      refine outcome_of_underWay h hphase (fun delay result hk => ?_) htime
      exact hlate (by rw [isUnderWay, hphase]) _ hk
  | arrived result =>
      obtain ⟨delay, hsent, hnow⟩ := harrived result hphase
      subst hsent
      exact outcome_of_arrived h hphase hnow
        (Nat.le_trans htime (outcome_le_due _ _))
  | answered _ | abandoned =>
      have hopen := isOpen_of_answer? h
      rw [isOpen, hphase] at hopen
      cases hopen

end Call

namespace Round

def isRunning (round : Round) : Bool :=
  match round.phase with
  | .running => true
  | _ => false

theorem isRunning_iff {round : Round} :
    round.isRunning = true ↔ round.phase = .running := by
  unfold isRunning
  split
  · next h => exact iff_of_true rfl h
  · next h => exact iff_of_false nofun h

end Round

namespace Engine

/-! ## A round that is left to itself -/

/-- What happens in a round that is left to itself. Its targets are asked at
once. A result comes when its node sends it. A probe is looked at when a result
is there, or when its time is up and no result comes at that moment, and the
same goes for the round. Time passes while the round runs, but never its
deadline nor the moment at which a probe is over. -/
def Attends (b : Bearing) (r : Nat) (e : Engine) : Event → Prop
  | .advance now => ∃ round ∈ e.rounds[r]?, round.isRunning = true ∧
      round.unasked = [] ∧ now ≤ round.deadline ∧
        ∀ k ∈ round.asked, ∀ c ∈ e.calls[k]?, now ≤ (c.outcome (b c.node)).1
  | .startProbe r' => r' = r
  | .arrive k result => ∃ round ∈ e.rounds[r]?, k ∈ round.asked ∧
      ∃ c ∈ e.calls[k]?, c.isUnderWay = true ∧
        b c.node = some (Instant.since e.now c.started, result)
  | .finish k => ∃ round ∈ e.rounds[r]?, k ∈ round.asked ∧ ∃ c ∈ e.calls[k]?,
      c.isUnderWay = true → ∀ sent ∈ b c.node, e.now < c.started + sent.1.nanos
  | .expireRound r' => r' = r ∧ ∃ round ∈ e.rounds[r]?, round.unasked = [] ∧
      ∀ k ∈ round.asked, ∀ c ∈ e.calls[k]?, ∀ sent ∈ b c.node,
        e.now < c.started + sent.1.nanos
  | _ => False

instance (b : Bearing) (r : Nat) (e : Engine) : (event : Event) →
    Decidable (e.Attends b r event)
  | .advance now => inferInstanceAs (Decidable (∃ round ∈ e.rounds[r]?,
      round.isRunning = true ∧ round.unasked = [] ∧ now ≤ round.deadline ∧
        ∀ k ∈ round.asked, ∀ c ∈ e.calls[k]?, now ≤ (c.outcome (b c.node)).1))
  | .startProbe r' => inferInstanceAs (Decidable (r' = r))
  | .arrive k result => inferInstanceAs
      (Decidable (∃ round ∈ e.rounds[r]?, k ∈ round.asked ∧
      ∃ c ∈ e.calls[k]?, c.isUnderWay = true ∧
        b c.node = some (Instant.since e.now c.started, result)))
  | .finish k => inferInstanceAs
      (Decidable (∃ round ∈ e.rounds[r]?, k ∈ round.asked ∧
      ∃ c ∈ e.calls[k]?, c.isUnderWay = true →
        ∀ sent ∈ b c.node, e.now < c.started + sent.1.nanos))
  | .expireRound r' => inferInstanceAs
      (Decidable (r' = r ∧ ∃ round ∈ e.rounds[r]?,
      round.unasked = [] ∧ ∀ k ∈ round.asked, ∀ c ∈ e.calls[k]?,
        ∀ sent ∈ b c.node, e.now < c.started + sent.1.nanos))
  | .submit .. | .startJob | .lookUp _ | .look _ | .sweep | .shutDown |
      .addNode ..
  | .setState .. | .removeNode _ => isFalse id

/-- Only the clock, calls and rounds have changed, and what is counted and
told. -/
def Elsewhere (e e' : Engine) : Prop :=
  ∃ now calls rounds metrics journal, e' =
    { e with now, calls, rounds, metrics, journal }

theorem Elsewhere.trans {e₁ e₂ e₃ : Engine} (h : Elsewhere e₁ e₂)
    (h' : Elsewhere e₂ e₃) : Elsewhere e₁ e₃ := by
  obtain ⟨_, _, _, _, _, rfl⟩ := h
  obtain ⟨_, _, _, _, _, rfl⟩ := h'
  exact ⟨_, _, _, _, _, rfl⟩

/-- Admits the submission of a round, if it has one. -/
def admitAfter (round : Round) (e : Engine) : Engine :=
  match round.submission with
  | none => e
  | some s =>
    match e.submissions[s]? with
    | some sub => e.enroll s sub round.targets
    | none => e

/-- Rejects the submission of a round, if it has one. -/
def rejectAfter (round : Round) (fault : Fault) (e : Engine) : Engine :=
  match round.submission with
  | none => e
  | some s =>
    match e.submissions[s]? with
    | some sub => e.reject s sub fault
    | none => e

section

variable {e : Engine} {r k : Nat} {round : Round} {answer : Answer}

theorem enroll_frame (e : Engine) (s : Nat) (sub : Submission)
    (nodes : List Node) : (e.enroll s sub nodes).now = e.now ∧
      (e.enroll s sub nodes).calls = e.calls ∧
      (e.enroll s sub nodes).rounds = e.rounds := by
  rcases enroll_cases e s sub nodes with ⟨_, _, _, _, -, -, -, heq⟩ |
    ⟨_, _, _, _, -, -, heq⟩
  · rw [heq]
    exact ⟨rfl, rfl, rfl⟩
  · rw [heq]
    exact ⟨rfl, rfl, rfl⟩

theorem admitAfter_frame (round : Round) (e : Engine) :
    (e.admitAfter round).now = e.now ∧ (e.admitAfter round).calls = e.calls ∧
      (e.admitAfter round).rounds = e.rounds := by
  unfold admitAfter
  split
  · exact ⟨rfl, rfl, rfl⟩
  · split
    · exact enroll_frame _ _ _ _
    · exact ⟨rfl, rfl, rfl⟩

theorem rejectAfter_frame (round : Round) (fault : Fault) (e : Engine) :
    (e.rejectAfter round fault).now = e.now ∧
      (e.rejectAfter round fault).calls = e.calls ∧
      (e.rejectAfter round fault).rounds = e.rounds := by
  unfold rejectAfter
  split
  · exact ⟨rfl, rfl, rfl⟩
  · split
    · exact ⟨rfl, rfl, rfl⟩
    · exact ⟨rfl, rfl, rfl⟩

theorem passIfDone_of_done (hround : e.rounds[r]? = some round)
    (hphase : round.phase = .running) (hunasked : round.unasked = [])
    (hasked : round.asked = []) :
    ∃ e₁, e.Elsewhere e₁ ∧ e₁.now = e.now ∧ e₁.calls = e.calls ∧
      e₁.rounds = e.rounds.set r { round with phase := .passed } ∧
      e.passIfDone r = e₁.admitAfter round := by
  unfold passIfDone passRound
  rw [hround]
  dsimp only [setRound, tell]
  rw [modify_eq_set_of_some hround]
  split
  · exact ⟨{ e with
      journal := e.journal ++ [.allAccepted round.outbound.id]
      rounds := e.rounds.set r { round with phase := .passed } },
      ⟨_, _, _, _, _, rfl⟩, rfl, rfl, rfl, rfl⟩
  · next hne => exact absurd hasked (hne hphase hunasked)

theorem failRound_shape {old : Round} (hround : e.rounds[r]? = some old)
    (round : Round) (fault : Fault) :
    ∃ e₁, e.Elsewhere e₁ ∧ e₁.now = e.now ∧
      e₁.calls =
        round.asked.foldl (fun held k => held.modify k Call.abandon) e.calls ∧
      e₁.rounds =
        e.rounds.set r { old with asked := [], phase := .failed fault } ∧
      e.failRound r round fault = e₁.rejectAfter round fault := by
  refine ⟨(e.abandonCalls round.asked).setRound r fun round =>
    { round with asked := [], phase := .failed fault },
    ⟨_, _, _, _, _, rfl⟩, rfl, rfl, ?_, rfl⟩
  exact modify_eq_set_of_some hround _

theorem expireRound_shape {e' : Engine} (hround : e.rounds[r]? = some round)
    (h : e.expireRound r = some e') :
    ∃ late reason e₁, round.deadline ≤ e.now ∧
      late = ascending
        ((round.asked.filterMap fun k => e.calls[k]?).map (·.node) ++
          round.unasked) ∧
      e.Elsewhere e₁ ∧ GivenUp round.asked e.calls e₁.calls ∧
      e₁.rounds = e.rounds.set r { round with
        asked := []
        phase := .failed (.verificationFailed
          ((late.head?.map Node.display).getD "") reason) } ∧
      e' = e₁.rejectAfter round
        (.verificationFailed ((late.head?.map Node.display).getD "")
          reason) := by
  unfold expireRound at h
  obtain ⟨round', hround', h⟩ := Option.bind_eq_some_iff.1 h
  rw [hround] at hround'
  cases hround'
  split at h
  · obtain ⟨_, hguard, h⟩ := Option.bind_eq_some_iff.1 h
    cases h
    obtain ⟨e₁, helsewhere, -, hcalls, hrounds, heq⟩ := failRound_shape
      (e := e.tell [.roundTimedOut round.outbound.id round.timeout])
        hround round
      (.verificationFailed
        (((ascending ((round.asked.filterMap fun k => e.calls[k]?).map
        (·.node) ++ round.unasked)).head?.map Node.display).getD "")
        ("no answer within " ++ round.timeout.text))
    refine ⟨_, _, e₁, ?_, rfl, .trans ⟨_, _, _, _, _, rfl⟩ helsewhere, ?_,
      hrounds, heq⟩
    · rw [guard] at hguard
      split at hguard
      · next hle => exact hle
      · cases hguard
    · rw [hcalls]
      exact givenUp_abandon _
  · cases h

/-- Judging a probe that accepts. -/
theorem judge_of_accepted (hround : e.rounds[r]? = some round)
    (hphase : round.phase = .running) (haccepts : answer.refusal? = none) :
    ∃ e₁, e.Elsewhere e₁ ∧ e₁.now = e.now ∧ e₁.calls = e.calls ∧
      (round.unasked = [] ∧ round.asked.erase k = [] ∧
        e₁.rounds =
          e.rounds.set r { round with asked := [], phase := .passed } ∧
        e.judge r round k answer = e₁.admitAfter round ∨
      ¬ (round.unasked = [] ∧ round.asked.erase k = []) ∧
        e₁.rounds = e.rounds.set r { round with asked := round.asked.erase k } ∧
        e.judge r round k answer = e₁) := by
  have hget : (e.rounds.set r { round with asked := round.asked.erase k })[r]? =
      some { round with asked := round.asked.erase k } := by
    rw [getElem?_set_of_some hround, if_pos rfl]
  unfold judge
  rw [haccepts]
  dsimp only [setRound]
  rw [modify_eq_set_of_some hround]
  by_cases hlast : round.unasked = [] ∧ round.asked.erase k = []
  · obtain ⟨e₁, helsewhere, hnow, hcalls, hrounds, heq⟩ := passIfDone_of_done
      (e := { e with rounds := e.rounds.set r {
        round with asked := round.asked.erase k } })
      hget hphase hlast.1 hlast.2
    refine ⟨e₁, .trans ⟨_, _, _, _, _, rfl⟩ helsewhere, hnow, hcalls,
      Or.inl ⟨hlast.1, hlast.2, ?_, heq⟩⟩
    rw [hrounds, List.set_set, hlast.2]
  · refine ⟨{ e with rounds := e.rounds.set r {
      round with asked := round.asked.erase k } },
      ⟨_, _, _, _, _, rfl⟩, rfl, rfl, Or.inr ⟨hlast, rfl, ?_⟩⟩
    exact passIfDone_eq_self hget hlast

/-- Judging a probe that does not accept. -/
theorem judge_of_refused (hround : e.rounds[r]? = some round) {reason : String}
    (hrefused : answer.refusal? = some reason) :
    ∃ e₁, e.Elsewhere e₁ ∧ e₁.now = e.now ∧
      GivenUp (round.asked.erase k) e.calls e₁.calls ∧
      e₁.rounds = e.rounds.set r { round with
        asked := []
        phase := .failed (.verificationFailed answer.node.display reason) } ∧
      e.judge r round k answer = e₁.rejectAfter round
        (.verificationFailed answer.node.display reason) := by
  have hget : (e.rounds.set r { round with asked := round.asked.erase k })[r]? =
      some { round with asked := round.asked.erase k } := by
    rw [getElem?_set_of_some hround, if_pos rfl]
  unfold judge
  rw [hrefused]
  dsimp only [setRound, tell]
  rw [modify_eq_set_of_some hround]
  obtain ⟨e₁, helsewhere, hnow, hcalls, hrounds, heq⟩ := failRound_shape
    (e := { e with
      rounds := e.rounds.set r { round with asked := round.asked.erase k }
      journal := e.journal ++ [.refused answer.node round.outbound.id reason] })
    hget { round with asked := round.asked.erase k }
    (.verificationFailed answer.node.display reason)
  refine ⟨e₁, .trans ⟨_, _, _, _, _, rfl⟩ helsewhere, hnow, ?_, ?_, heq⟩
  · rw [hcalls]
    exact givenUp_abandon _
  · rw [hrounds, List.set_set]

end

end Engine

/-! ## The probes of a round -/

namespace Call

/-- To whom a call goes, what is sent with it, and for whom. -/
def errand (c : Call) : Node × Outbound × Purpose :=
    (c.node, c.outbound, c.purpose)

/-- A probe of a round that began at some moment, as it stands now. It is not
over before now, a result that is there has come now, and if it is judged it was
accepted. -/
structure Probing (b : Bearing) (r : Nat) (span : Span) (began now : Instant)
    (c : Call) : Prop where
  purpose : c.purpose = .probe r
  started : c.started = began
  due : c.started + span.nanos ≤ c.due
  time : c.isOpen = true → now ≤ (c.outcome (b c.node)).1
  arrived : ∀ result, c.phase = .arrived result →
    ∃ delay, b c.node = some (delay, result) ∧ c.started + delay.nanos = now
  judged : c.isOpen = false →
    b.Accepts span c.node ∧ began + b.known span c.node ≤ now

section

variable {b : Bearing} {r : Nat} {span : Span} {began now : Instant} {c : Call}

/-- The probe is over now, and in time for the round. -/
theorem Probing.known (h : c.Probing b r span began now)
    (htime : now ≤ began + span.nanos) {answer : Answer}
    (hover : c.outcome (b c.node) = (now, answer)) :
    now = began + b.known span c.node ∧
      (answer.refusal? = none ↔ b.Accepts span c.node) := by
  have hle : (c.outcome (b c.node)).1 ≤ c.started + span.nanos := by
    rw [hover, h.started]
    exact htime
  have hknown := outcome_known b h.due hle
  have haccepts := outcome_accepts b h.due hle
  rw [hover] at hknown haccepts
  exact ⟨h.started ▸ hknown, haccepts⟩

/-- A probe that is not over has nothing to tell before now. -/
theorem Probing.le_known (h : c.Probing b r span began now)
    (htime : now ≤ began + span.nanos) (hopen : c.isOpen = true) :
    now ≤ began + b.known span c.node := by
  have hle : now - began ≤ b.known span c.node := by
    refine Bearing.le_known (Nat.sub_le_iff_le_add'.2 htime)
      fun sent hsent => ?_
    have hover := h.time hopen
    rw [show b c.node = some (sent.1, sent.2) from hsent] at hover
    have hreply := Nat.le_trans hover (outcome_le_reply c sent.1 sent.2)
    rw [h.started] at hreply
    exact Nat.sub_le_iff_le_add'.2 hreply
  exact Nat.sub_le_iff_le_add'.1 hle

/-- Time passes, but not the moment at which the probe is over. -/
theorem Probing.later (h : c.Probing b r span began now) {now' : Instant}
    (hle : now ≤ now')
    (htime : c.isOpen = true → now' ≤ (c.outcome (b c.node)).1) :
    c.Probing b r span began now' :=
  { h with
    time := htime
    arrived := fun result hphase => by
      obtain ⟨delay, hsent, hnow⟩ := h.arrived result hphase
      have hover := htime (by rw [isOpen, hphase])
      rw [hsent] at hover
      have hreply := outcome_le_reply c delay result
      rw [hnow] at hreply
      exact ⟨delay, hsent, hnow.trans
        (Nat.le_antisymm hle (Nat.le_trans hover hreply))⟩
    judged :=
      fun hover => ⟨(h.judged hover).1, Nat.le_trans (h.judged hover).2 hle⟩ }

/-- The result comes. -/
theorem Probing.receive (h : c.Probing b r span began now) (hle : began ≤ now)
    (hunderWay : c.isUnderWay = true) {result : CallResult}
    (hsent : b c.node = some (Instant.since now c.started, result)) :
    ({ c with phase := .arrived result } : Call).Probing b r
      span began now := by
  have hopen : c.isOpen = true := isOpen_of_isUnderWay hunderWay
  refine { h with
    time := fun _ => h.time hopen, arrived := fun result' heq =>
      ?_, judged := nofun }
  cases heq
  refine ⟨_, hsent, ?_⟩
  show c.started + (now - c.started) = now
  rw [h.started]
  exact Nat.add_sub_cancel' hle

/-- The probe is judged, and it was accepted. -/
theorem Probing.close (h : c.Probing b r span began now)
    (htime : now ≤ began + span.nanos) {answer : Answer}
    (hover : c.outcome (b c.node) = (now, answer))
    (haccepts : answer.refusal? = none) :
    ({ c with phase := .answered answer } : Call).Probing b r
      span began now := by
  obtain ⟨hknown, hiff⟩ := h.known htime hover
  exact { h with
    time := nofun, arrived := nofun
    judged := fun _ => ⟨hiff.1 haccepts, Nat.le_of_eq hknown.symm⟩ }

end

end Call

theorem map_set_of_some {α β : Type} {l : List α} {i : Nat} {a b : α}
    {f : α → β} (h : l[i]? = some a) (hf : f b = f a) :
    (l.set i b).map f = l.map f := by
  rw [List.map_set, hf]
  refine set_eq_self_of_some ?_
  rw [List.getElem?_map, h, Option.map_some]

/-- The time that a round has, if it began at a moment. -/
def Round.allowance (round : Round) (began : Instant) : Span :=
  Instant.since round.deadline began

/-- What a round asks of a target. -/
def Round.errand (r : Nat) (round : Round) (n : Node) :
    Node × Outbound × Purpose :=
  (n, round.outbound.probe, .probe r)

theorem GivenUp.map_errand {given : List Nat} {calls calls' : List Call}
    (h : GivenUp given calls calls') :
    calls'.map Call.errand = calls.map Call.errand := by
  refine List.ext_getElem? fun i => ?_
  rw [List.getElem?_map, List.getElem?_map]
  cases hc : calls[i]? with
  | none =>
      rw [List.getElem?_eq_none (h.length ▸ List.getElem?_eq_none_iff.1 hc)]
  | some c =>
      obtain ⟨c', hc', hcc⟩ := h.becomes i c hc
      rw [hc', Option.map_some, Call.errand, hcc.node, hcc.outbound,
        hcc.purpose]
      rfl

theorem GivenUp.take_eq {given : List Nat} {calls calls' : List Call}
    (h : GivenUp given calls calls') {n : Nat} (hge : ∀ k ∈ given, n ≤ k) :
    calls'.take n = calls.take n := by
  refine List.ext_getElem? fun i => ?_
  rw [List.getElem?_take, List.getElem?_take]
  split
  · next hi => exact h.others i fun hmem => Nat.not_le_of_lt hi (hge i hmem)
  · rfl

namespace Engine

/-- Since a round began, each of its targets had one probe, in their order, and
there is nothing else but the targets that were not asked. -/
structure Asked (e₀ : Engine) (r : Nat) (round₀ : Round) (e : Engine)
    (unasked : List Node) : Prop where
  old : e.calls.take e₀.calls.length = e₀.calls
  errands : e.calls.map Call.errand ++ unasked.map (round₀.errand r) =
    e₀.calls.map Call.errand ++ round₀.targets.map (round₀.errand r)

/-- The calls of a running round: the round waits for those probes that are not
over. -/
structure Asking (b : Bearing) (e₀ : Engine) (r : Nat) (round₀ : Round)
    (e : Engine) (unasked : List Node) (asked : List Nat) : Prop
    extends Asked e₀ r round₀ e unasked where
  probes : ∀ (k : Nat) c, e.calls[k]? = some c → e₀.calls.length ≤ k →
    c.Probing b r (round₀.allowance e₀.now) e₀.now e.now
  waits : ∀ k, k ∈ asked ↔
    e₀.calls.length ≤ k ∧ ∃ c, e.calls[k]? = some c ∧ c.isOpen = true
  nodup : asked.Nodup
  began : e₀.now ≤ e.now
  inTime : e.now ≤ e₀.now + (round₀.allowance e₀.now).nanos
  start : unasked ≠ [] → e.now = e₀.now

section

variable {b : Bearing} {e₀ e e' : Engine} {r k : Nat} {round₀ : Round}
  {unasked rest : List Node} {asked : List Nat} {n : Node} {c : Call}

theorem Asking.probe (h : Asking b e₀ r round₀ e unasked asked) (hk : k ∈ asked)
    (hc : e.calls[k]? = some c) :
    c.isOpen = true ∧ c.Probing b r (round₀.allowance e₀.now) e₀.now e.now := by
  obtain ⟨hle, c', hc', hopen⟩ := (h.waits k).1 hk
  rw [hc] at hc'
  cases hc'
  exact ⟨hopen, h.probes k c hc hle⟩

theorem Asked.length_le (h : Asked e₀ r round₀ e unasked) :
    e₀.calls.length ≤ e.calls.length := by
  rw [← h.old, List.length_take]
  exact Nat.min_le_right _ _

theorem Asked.inFlight_le (h : Asked e₀ r round₀ e unasked) :
    e₀.inFlight ≤ e.inFlight := by
  have hle :=
    (List.take_sublist e₀.calls.length e.calls).countP_le (p := Call.isUnderWay)
  rw [h.old] at hle
  exact hle

theorem Asked.of_calls (h : Asked e₀ r round₀ e unasked)
    (hcalls : e'.calls = e.calls) : Asked e₀ r round₀ e' unasked :=
  ⟨hcalls ▸ h.old, hcalls ▸ h.errands⟩

theorem Asked.of_givenUp (h : Asked e₀ r round₀ e unasked) {given : List Nat}
    (hgiven : GivenUp given e.calls e'.calls)
    (hge : ∀ k ∈ given, e₀.calls.length ≤ k) :
    Asked e₀ r round₀ e' unasked where
  old := (hgiven.take_eq hge).trans h.old
  errands := by
    rw [hgiven.map_errand]
    exact h.errands

theorem Asked.map_errand (h : Asked e₀ r round₀ e unasked) :
    (e.calls.drop e₀.calls.length).map Call.errand ++
      unasked.map (round₀.errand r) = round₀.targets.map (round₀.errand r) := by
  have herrands := h.errands
  rw [← List.take_append_drop e₀.calls.length e.calls, List.map_append, h.old,
    List.append_assoc] at herrands
  exact List.append_cancel_left herrands

theorem Asked.map_node (h : Asked e₀ r round₀ e unasked) :
    (e.calls.drop e₀.calls.length).map Call.node ++ unasked =
      round₀.targets := by
  have herrands := congrArg (List.map Prod.fst) h.map_errand
  rw [List.map_append, List.map_map, List.map_map, List.map_map] at herrands
  have hid : ∀ l : List Node, l.map (Prod.fst ∘ round₀.errand r) = l :=
    List.map_id
  rw [hid, hid] at herrands
  exact herrands

/-- The probes are the calls that were added. -/
theorem Asked.exists_probes (h : Asked e₀ r round₀ e unasked) :
    ∃ probed probes, probed ++ unasked = round₀.targets ∧
      e.calls = e₀.calls ++ probes ∧
      probes.map Call.errand = probed.map (round₀.errand r) := by
  refine ⟨(e.calls.drop e₀.calls.length).map Call.node,
    e.calls.drop e₀.calls.length, h.map_node, ?_, ?_⟩
  · rw [← List.take_append_drop e₀.calls.length e.calls, h.old, List.drop_left]
  · have herrands := h.map_errand
    rw [← h.map_node, List.map_append] at herrands
    exact List.append_cancel_right herrands

theorem Asking.mem_targets (h : Asking b e₀ r round₀ e unasked asked)
    (hc : e.calls[k]? = some c) (hle : e₀.calls.length ≤ k) :
    c.node ∈ round₀.targets := by
  rw [← h.map_node]
  have hmem : c ∈ e.calls.drop e₀.calls.length := by
    refine List.mem_of_getElem? (i := k - e₀.calls.length) ?_
    rw [List.getElem?_drop, Nat.add_sub_cancel' hle]
    exact hc
  exact List.mem_append_left _ (List.mem_map_of_mem hmem)

theorem Asking.unasked_or_probed (h : Asking b e₀ r round₀ e unasked asked)
    (hn : n ∈ round₀.targets) : n ∈ unasked ∨
      ∃ (k : Nat) (c : Call), e.calls[k]? = some c ∧ e₀.calls.length ≤ k ∧
        c.node = n := by
  rw [← h.map_node] at hn
  rcases List.mem_append.1 hn with hn | hn
  · obtain ⟨c, hc, rfl⟩ := List.mem_map.1 hn
    obtain ⟨i, hi⟩ := List.mem_iff_getElem?.1 hc
    rw [List.getElem?_drop] at hi
    exact Or.inr ⟨_, c, hi, Nat.le_add_right _ _, rfl⟩
  · exact Or.inl hn

/-- Nothing is known of a node that fails before the round comes to know it. -/
theorem Asking.now_le_known (h : Asking b e₀ r round₀ e unasked asked)
    (hn : n ∈ round₀.targets)
    (hfails : ¬ b.Accepts (round₀.allowance e₀.now) n) :
    e.now ≤ e₀.now + b.known (round₀.allowance e₀.now) n := by
  rcases h.unasked_or_probed hn with hunasked | ⟨k, c, hc, hle, rfl⟩
  · rw [h.start (List.ne_nil_of_mem hunasked)]
    exact Nat.le_add_right _ _
  · have hp := h.probes k c hc hle
    cases hopen : c.isOpen with
    | true => exact hp.le_known h.inTime hopen
    | false => exact absurd (hp.judged hopen).1 hfails

/-- If none is left to be asked or waited for, all have accepted. -/
theorem Asking.accepts_of_done (h : Asking b e₀ r round₀ e [] [])
    (hn : n ∈ round₀.targets) : b.Accepts (round₀.allowance e₀.now) n ∧
      e₀.now + b.known (round₀.allowance e₀.now) n ≤ e.now := by
  rcases h.unasked_or_probed hn with hunasked | ⟨k, c, hc, hle, rfl⟩
  · cases hunasked
  · refine (h.probes k c hc hle).judged (Bool.eq_false_iff.2 fun hopen => ?_)
    exact absurd ((h.waits k).2 ⟨hle, c, hc, hopen⟩) List.not_mem_nil

/-! ### What each event does to them -/

theorem Asking.advance (h : Asking b e₀ r round₀ e [] asked) {now : Instant}
    (hle : e.now ≤ now)
    (hinTime : now ≤ e₀.now + (round₀.allowance e₀.now).nanos)
    (htime : ∀ k ∈ asked, ∀ c, e.calls[k]? = some c →
      now ≤ (c.outcome (b c.node)).1) :
    Asking b e₀ r round₀ { e with now } [] asked :=
  { h with
    probes := fun k c hc hk => (h.probes k c hc hk).later hle fun hopen =>
      htime k ((h.waits k).2 ⟨hk, c, hc, hopen⟩) c hc
    began := Nat.le_trans h.began hle
    inTime := hinTime
    start := fun hne => absurd rfl hne }

/-- The next target is asked. -/
theorem Asking.ask (h : Asking b e₀ r round₀ e (n :: rest) asked)
    (hclock : e₀.now + (round₀.allowance e₀.now).nanos ≤
      Instant.timer e₀.now round₀.timeout)
    (hnow : e'.now = e.now)
    (hcalls : e'.calls = e.calls ++ [{
      node := n, outbound := round₀.outbound.probe, purpose := .probe r,
        started := e.now
      timeout := round₀.timeout }]) :
    Asking b e₀ r round₀ e' rest (asked ++ [e.calls.length]) := by
  have hstart : e.now = e₀.now := h.start (List.cons_ne_nil _ _)
  have hlength := h.length_le
  have hlt : ∀ k ∈ asked, k < e.calls.length := by
    intro k hk
    obtain ⟨-, c, hc, -⟩ := (h.waits k).1 hk
    exact (List.getElem?_eq_some_iff.1 hc).1
  refine ⟨⟨?_, ?_⟩, fun k c hc hle => ?_, fun k => ?_, ?_, ?_, ?_,
    fun _ => hnow.trans hstart⟩
  · rw [hcalls, List.take_append_of_le_length hlength, h.old]
  · rw [← h.errands, hcalls, List.map_append, List.append_assoc]
    rfl
  · rw [hnow]
    rw [hcalls] at hc
    rcases getElem?_concat_cases hc with hc | ⟨-, rfl⟩
    · exact h.probes k c hc hle
    · have hdue : e.now + (round₀.allowance e₀.now).nanos ≤
          Instant.timer e.now round₀.timeout := by
        rw [hstart]
        exact hclock
      refine ⟨rfl, hstart, hdue, fun _ => ?_, nofun, nofun⟩
      exact Call.started_le_outcome
        ⟨n, round₀.outbound.probe, .probe r, e.now, round₀.timeout, .underWay⟩ _
  · rw [List.mem_append, List.mem_singleton, h.waits, hcalls]
    constructor
    · rintro (⟨hle, c, hc, hopen⟩ | rfl)
      · refine ⟨hle, c, ?_, hopen⟩
        rw [List.getElem?_append_left (List.getElem?_eq_some_iff.1 hc).1]
        exact hc
      · exact ⟨hlength, _, List.getElem?_concat_length, rfl⟩
    · rintro ⟨hle, c, hc, hopen⟩
      rcases getElem?_concat_cases hc with hc | ⟨rfl, -⟩
      · exact Or.inl ⟨hle, c, hc, hopen⟩
      · exact Or.inr rfl
  · refine List.nodup_append.2
      ⟨h.nodup, List.pairwise_singleton _ _, fun k hk m hm => ?_⟩
    rw [List.mem_singleton.1 hm]
    exact Nat.ne_of_lt (hlt k hk)
  · rw [hnow]
    exact h.began
  · rw [hnow]
    exact h.inTime

/-- One probe changes its phase. -/
theorem Asking.change (h : Asking b e₀ r round₀ e unasked asked)
    (hk : k ∈ asked) (hc : e.calls[k]? = some c) {phase : CallPhase}
    {asked' : List Nat}
    (hprobing : ({ c with phase } : Call).Probing b r
      (round₀.allowance e₀.now) e₀.now e.now)
    (hasked : ∀ i, i ∈ asked' ↔
      if k = i then ({ c with phase } : Call).isOpen = true else i ∈ asked)
    (hnodup : asked'.Nodup) (hnow : e'.now = e.now)
    (hcalls : e'.calls = e.calls.set k { c with phase }) :
    Asking b e₀ r round₀ e' unasked asked' := by
  have hge : e₀.calls.length ≤ k := ((h.waits k).1 hk).1
  refine ⟨⟨?_, ?_⟩, fun i ci hci hle => ?_, fun i => ?_, hnodup, ?_, ?_, ?_⟩
  · rw [hcalls, List.take_set_of_le hge, h.old]
  · have herrand : ({ c with phase } : Call).errand = c.errand := rfl
    rw [← h.errands, hcalls, map_set_of_some hc herrand]
  · rw [hnow]
    rw [hcalls] at hci
    rcases getElem?_set_cases hc hci with ⟨-, rfl⟩ | ⟨-, hci⟩
    · exact hprobing
    · exact h.probes i ci hci hle
  · rw [hasked, hcalls, getElem?_set_of_some hc]
    split
    · next hki =>
        subst hki
        exact ⟨fun hopen => ⟨hge, _, rfl, hopen⟩, fun ⟨_, _, heq, hopen⟩ => by
          cases heq
          exact hopen⟩
    · exact h.waits i
  · rw [hnow]
    exact h.began
  · rw [hnow]
    exact h.inTime
  · rw [hnow]
    exact h.start

theorem Asking.receive (h : Asking b e₀ r round₀ e unasked asked)
    (hk : k ∈ asked) (hc : e.calls[k]? = some c)
    (hunderWay : c.isUnderWay = true) {result : CallResult}
    (hsent : b c.node = some (Instant.since e.now c.started, result))
    (hnow : e'.now = e.now)
    (hcalls : e'.calls = e.calls.set k { c with phase := .arrived result }) :
    Asking b e₀ r round₀ e' unasked asked := by
  refine h.change hk hc ((h.probe hk hc).2.receive h.began hunderWay hsent)
    (fun i => ?_) h.nodup hnow hcalls
  split
  · next hki => exact iff_of_true (hki ▸ hk) rfl
  · exact Iff.rfl

theorem Asking.close (h : Asking b e₀ r round₀ e unasked asked) (hk : k ∈ asked)
    (hc : e.calls[k]? = some c) {answer : Answer}
    (hover : c.outcome (b c.node) = (e.now, answer))
    (haccepts : answer.refusal? = none) (hnow : e'.now = e.now)
    (hcalls : e'.calls = e.calls.set k { c with phase := .answered answer }) :
    Asking b e₀ r round₀ e' unasked (asked.erase k) := by
  refine h.change hk hc ((h.probe hk hc).2.close h.inTime hover haccepts)
    (fun i => ?_) (h.nodup.erase k) hnow hcalls
  rw [h.nodup.mem_erase_iff]
  split
  · next hki => exact iff_of_false (fun hne => hne.1 hki.symm) nofun
  · next hki => exact and_iff_right fun hik => hki hik.symm

end

end Engine

end Fanout
