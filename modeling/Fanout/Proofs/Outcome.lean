import Fanout.Proofs.Origin

/-!
# What becomes of each target

Two clocks run for a target. Its call has its own time, which begins when the
call does and not when the job is queued; and the collation has a deadline,
which runs from the start for all targets together. A result that comes at the
last moment of a call still counts for the call, but one that comes at the
deadline is too late for the collation.

Here a node is described from the outside: for each call it has a result that
comes after a while, or none. A run is prompt if it keeps to that: results come
when they are due, whoever waits for a call looks at it in the same moment, and
time does not move on before. Nothing is assumed about when jobs start, nor
about what else goes on. Then the answer that a complete report has for a
target is a function of when its call began and of what its node does.
-/

namespace Fanout

/-- What the nodes make of the calls: a result after a while, or nothing
ever. -/
abbrev Conduct := Nat → Option (Span × CallResult)

namespace Call

/-- The answer that a result is. -/
def answerOf (node : Node) (latency : Span) : CallResult → Answer
  | .ok reply => .ofReply node reply latency
  | .error fault => .unreachable node fault.message latency

/-- When a call is over, and with which answer. -/
def outcome (c : Call) : Option (Span × CallResult) → Instant × Answer
  | some (delay, result) =>
    if c.started + delay.nanos ≤ c.due then
      (c.started + delay.nanos, answerOf c.node delay result)
    else (c.due, .timeout c.node (Instant.since c.due c.started))
  | none => (c.due, .timeout c.node (Instant.since c.due c.started))

theorem started_le_due (c : Call) : c.started ≤ c.due := by
  unfold due Instant.timer Instant.after?
  split
  · exact Nat.le_add_right _ _
  · exact Nat.le_add_right _ _

/-- A result that comes before the time of its call is up is the outcome. -/
theorem outcome_of_le {c : Call} {delay : Span}
    (h : c.started + delay.nanos ≤ c.due) (result : CallResult) :
    c.outcome (some (delay, result)) =
      (c.started + delay.nanos, answerOf c.node delay result) :=
  if_pos h

/-- If no result comes before the time of a call is up, the outcome is a
timeout. -/
theorem outcome_of_lt {c : Call} {conduct : Option (Span × CallResult)}
    (h : ∀ delay result, conduct = some (delay, result) →
      c.due < c.started + delay.nanos) :
    c.outcome conduct =
      (c.due, .timeout c.node (Instant.since c.due c.started)) := by
  unfold outcome
  cases conduct with
  | none => rfl
  | some conduct =>
      obtain ⟨delay, result⟩ := conduct
      exact if_neg (Nat.not_le_of_lt (h delay result rfl))

theorem outcome_le_due (c : Call) (conduct : Option (Span × CallResult)) :
    (c.outcome conduct).1 ≤ c.due := by
  unfold outcome
  split
  · split
    · next h => exact h
    · exact Nat.le_refl _
  · exact Nat.le_refl _

theorem outcome_le_reply (c : Call) (delay : Span) (result : CallResult) :
    (c.outcome (some (delay, result))).1 ≤ c.started + delay.nanos := by
  unfold outcome
  dsimp only
  split
  · exact Nat.le_refl _
  · next h => exact Nat.le_of_lt (Nat.lt_of_not_le h)

theorem started_le_outcome (c : Call) (conduct : Option (Span × CallResult)) :
    c.started ≤ (c.outcome conduct).1 := by
  unfold outcome
  split
  · split
    · exact Nat.le_add_right _ _
    · exact started_le_due c
  · exact started_le_due c

theorem Becomes.outcome_eq {c c' : Call} (h : Becomes c c') :
    c'.outcome = c.outcome := by
  have hdue : c'.due = c.due := by rw [due, due, h.started, h.timeout]
  funext conduct
  unfold outcome
  rw [h.started, h.node, hdue]

/-- If neither a result nor the end of its time comes before a moment, a call is
not over before it. -/
theorem le_outcome {c : Call} {conduct : Option (Span × CallResult)}
    {t : Instant}
    (h : ∀ delay result, conduct = some (delay, result) →
      t ≤ c.started + delay.nanos)
    (hdue : t ≤ c.due) : t ≤ (c.outcome conduct).1 := by
  unfold outcome
  split
  · next delay result =>
      split
      · exact h delay result rfl
      · exact hdue
  · exact hdue

/-- A look at a call whose result comes now finds its outcome. -/
theorem outcome_of_arrived {c : Call} {now : Instant} {a : Answer}
    {delay : Span} {result : CallResult} (h : c.answer? now = some a)
    (hphase : c.phase = .arrived result) (hnow : c.started + delay.nanos = now)
    (hdue : now ≤ c.due) : c.outcome (some (delay, result)) = (now, a) := by
  have hlatency : Instant.since now c.started = delay := by
    rw [Instant.since, ← hnow, Nat.add_sub_cancel_left]
  subst hnow
  rw [outcome_of_le hdue]
  unfold answer? at h
  rw [hphase, hlatency] at h
  cases result with
  | ok reply =>
      cases h
      rfl
  | error fault =>
      cases h
      rfl

/-- A look at a call whose time is up just now finds its outcome, if no result
comes at this moment. -/
theorem outcome_of_underWay {c : Call} {now : Instant} {a : Answer}
    {conduct : Option (Span × CallResult)} (h : c.answer? now = some a)
    (hphase : c.phase = .underWay)
    (hlate : ∀ delay result, conduct = some (delay, result) →
      now < c.started + delay.nanos)
    (hnow : now ≤ (c.outcome conduct).1) : c.outcome conduct = (now, a) := by
  unfold answer? at h
  rw [hphase] at h
  dsimp only at h
  split at h
  · next hdue =>
      have heq : now = c.due :=
        Nat.le_antisymm (Nat.le_trans hnow (outcome_le_due c conduct)) hdue
      cases h
      subst heq
      exact outcome_of_lt hlate
  · cases h

end Call

theorem Answer.isSuccess_iff (a : Answer) :
    a.isSuccess = true ↔ a.failure = none ∧ 200 ≤ a.status ∧
      a.status < 300 := by
  rw [Answer.isSuccess, Bool.and_eq_true, Bool.and_eq_true,
    Option.isNone_iff_eq_none, decide_eq_true_eq, decide_eq_true_eq, and_assoc]

/-- A complete report is a success if all its answers are. -/
theorem Collation.report_isSuccess_iff {c : Collation} {now : Instant}
    (h : (c.report now).complete = true) :
    (c.report now).isSuccess = true ↔ ∀ a ∈ (c.report now).answers,
      a.failure = none ∧ 200 ≤ a.status ∧ a.status < 300 := by
  have houtcome : (c.report now).outcome = .ofAnswers (c.report now).answers :=
    if_pos h
  rw [Report.isSuccess, houtcome, Outcome.ofAnswers]
  cases hfind : (c.report now).answers.find? fun a => !a.isSuccess with
  | none =>
      refine iff_of_true rfl fun a ha => (Answer.isSuccess_iff a).1 ?_
      simpa using List.find?_eq_none.1 hfind a ha
  | some failed =>
      refine iff_of_false (fun hsuccess => (nomatch hsuccess)) fun hall => ?_
      have hfailed := List.find?_some hfind
      rw [(Answer.isSuccess_iff failed).2
        (hall failed (List.mem_of_find?_eq_some hfind))]
        at hfailed
      cases hfailed

namespace Engine

/-! ## Prompt runs -/

/-- Whether an event is prompt: time passes no moment at which an open call is
over, a result comes when its node sends it, and the time of a call is up only
if no result comes at that moment. -/
def Prompt (conduct : Conduct) (e : Engine) : Event → Prop
  | .advance now => ∀ (k : Nat) c, e.calls[k]? = some c → c.isOpen = true →
      now ≤ (c.outcome (conduct k)).1
  | .arrive k result => ∀ c, e.calls[k]? = some c → c.isUnderWay = true →
      conduct k = some (Instant.since e.now c.started, result)
  | .finish k => ∀ c, e.calls[k]? = some c → c.isUnderWay = true →
      ∀ sent, conduct k = some sent → e.now < c.started + sent.1.nanos
  | _ => True

instance (conduct : Conduct) (e : Engine) : (event : Event) →
    Decidable (e.Prompt conduct event)
  | .advance now => decidable_of_iff
      (∀ k : Fin e.calls.length, e.calls[k].isOpen = true →
      now ≤ (e.calls[k].outcome (conduct k)).1)
      (forall_getElem?_iff
        (P := fun k (c : Call) => c.isOpen = true →
          now ≤ (c.outcome (conduct k)).1))
  | .arrive k result => inferInstanceAs (Decidable (∀ c ∈ e.calls[k]?,
      c.isUnderWay = true → conduct k =
        some (Instant.since e.now c.started, result)))
  | .finish k => inferInstanceAs
      (Decidable (∀ c ∈ e.calls[k]?, c.isUnderWay = true →
      ∀ sent ∈ conduct k, e.now < c.started + sent.1.nanos))
  | .submit .. | .startProbe _ | .startJob | .expireRound _ | .lookUp _ |
      .look _ | .sweep
  | .shutDown | .addNode .. | .setState .. | .removeNode _ => isTrue trivial

/-- The calls of jobs go as their nodes conduct themselves. -/
structure Conducted (conduct : Conduct) (e : Engine) : Prop where
  open_ : ∀ (k : Nat) c, e.calls[k]? = some c → c.isDelivery = true →
    c.isOpen = true → e.now ≤ (c.outcome (conduct k)).1
  arrived : ∀ (k : Nat) c result, e.calls[k]? = some c → c.isDelivery = true →
    c.phase = .arrived result →
    ∃ delay, conduct k = some (delay, result) ∧ c.started + delay.nanos = e.now
  answered : ∀ (k : Nat) c a, e.calls[k]? = some c → c.isDelivery = true →
    c.phase = .answered a → c.outcome (conduct k) = (c.endedAt a, a)

theorem conducted_start (conduct : Conduct) (config : EngineConfig)
    (members : Membership) (wants : Bool) :
    (start config members wants).Conducted conduct where
  open_ _ _ h := nomatch h
  arrived _ _ _ h := nomatch h
  answered _ _ _ h := nomatch h

/-- A look at a call of a job that gives an answer finds the outcome. -/
theorem Conducted.outcome_of_answer? {conduct : Conduct} {e : Engine}
    (hc : e.Conducted conduct) {k : Nat} {c : Call} {a : Answer}
    (hcall : e.calls[k]? = some c) (hd : c.isDelivery = true)
    (hanswer : c.answer? e.now = some a)
    (hprompt : e.Prompt conduct (.finish k)) :
    c.outcome (conduct k) = (e.now, a) := by
  have hopen := Call.isOpen_of_answer? hanswer
  have htime := hc.open_ k c hcall hd hopen
  cases hphase : c.phase with
  | underWay =>
      exact Call.outcome_of_underWay hanswer hphase (fun delay result hk =>
        hprompt c hcall (by rw [Call.isUnderWay, hphase]) _ hk) htime
  | arrived result =>
      obtain ⟨delay, hconduct, hnow⟩ := hc.arrived k c result hcall hd hphase
      rw [hconduct]
      exact Call.outcome_of_arrived hanswer hphase hnow
        (Nat.le_trans htime (Call.outcome_le_due _ _))
  | answered _ | abandoned =>
      rw [Call.isOpen, hphase] at hopen
      cases hopen

theorem Conducted.of_transition {conduct : Conduct} {e e' : Engine}
    {event : Event} (hl : Linked e) (hordered : Ordered e)
    (hc : e.Conducted conduct) (hprompt : e.Prompt conduct event)
    (h : Transition e event e') : e'.Conducted conduct where
  open_ k c' hk hd ho := by
    rcases h.later.calls.old_or_new hk with ⟨c, hcall, hcc⟩ | hnew
    · obtain ⟨j, hp'⟩ := Call.isDelivery_iff.1 hd
      have hp : c.purpose = .delivery j := hcc.purpose ▸ hp'
      have hopen : c.isOpen = true := by
        cases hover : c.isOpen with
        | true => rfl
        | false =>
            rw [Call.isOpen, hcc.ended hover, ← Call.isOpen, hover] at ho
            cases ho
      rw [hcc.outcome_eq]
      rcases h.now_cases with hnow | rfl
      · rw [hnow]
        exact hc.open_ k c hcall (Call.isDelivery_iff.2 ⟨j, hp⟩) hopen
      · exact hprompt k c hcall hopen
    · have hle := Call.started_le_outcome c' (conduct k)
      rw [(h.new_call hnew hk).1] at hle
      exact hle
  arrived k c' result hk hd hp := by
    rcases h.later.calls.old_or_new hk with ⟨c, hcall, hcc⟩ | hnew
    · obtain ⟨j, hpurpose⟩ := Call.isDelivery_iff.1 hd
      rcases h.delivery_cases hl hcall (hcc.purpose ▸ hpurpose) hk with
        rfl | ⟨hnow, ⟨result', rfl, hunderWay, rfl⟩ | ⟨a, -, -, rfl⟩⟩
      · obtain ⟨delay, hconduct, htime⟩ := hc.arrived k c' result hcall hd hp
        refine ⟨delay, hconduct, ?_⟩
        rcases h.now_cases with hnow | rfl
        · rw [htime, hnow]
        · -- The clock stops for the call.
          have hle := hprompt k c' hcall (by rw [Call.isOpen, hp])
          rw [hconduct] at hle
          exact Nat.le_antisymm (htime ▸ h.later.now)
            (Nat.le_trans hle (Call.outcome_le_reply c' delay result))
      · cases hp
        refine ⟨_, hprompt c hcall (by rw [Call.isUnderWay, hunderWay]), ?_⟩
        rw [hnow]
        exact Nat.add_sub_cancel' (hordered.started k c hcall)
      · cases hp
    · rw [(h.new_call hnew hk).2.1] at hp
      cases hp
  answered k c' a hk hd ha := by
    rcases h.later.calls.old_or_new hk with ⟨c, hcall, hcc⟩ | hnew
    · obtain ⟨j, hpurpose⟩ := Call.isDelivery_iff.1 hd
      rcases h.delivery_cases hl hcall (hcc.purpose ▸ hpurpose) hk with
        rfl | ⟨-, ⟨result, -, -, rfl⟩ | ⟨answer, rfl, hanswer, rfl⟩⟩
      · exact hc.answered k c' a hcall hd ha
      · cases ha
      · cases ha
        have hended :=
          Call.endedAt_of_answer? hanswer (hordered.started k c hcall)
        have houtcome := hc.outcome_of_answer? hcall hd hanswer hprompt
        rw [hcc.outcome_eq, houtcome]
        exact congrArg (·, a) hended.symm
    · rw [(h.new_call hnew hk).2.1] at ha
      cases ha

/-! ## What the collation holds -/

/-- Once a collation is complete, it has the outcome of a call if that was in
time, and otherwise nothing of its node. -/
theorem held_of_serving {conduct : Conduct} {e : Engine} (hs : e.Staffed)
    (hf : e.Filled) (hcond : e.Conducted conduct) {handle : Handle}
    {c : Collation} {held : Collation.Tally}
    (hc : e.registry.collations[handle]? = some c)
    (hheld : ∀ n a, held n = some a ↔ e.Delivered handle c.deadline n a)
    (hover : c.deadline ≤ e.now ∨ held.covers c.expected = true) {n : Node}
    {k : Nat} {call : Call} (hcall : e.calls[k]? = some call)
    (h : e.Serving handle n call) : ((call.outcome (conduct k)).1 < c.deadline →
      held n = some (call.outcome (conduct k)).2) ∧
    (c.deadline ≤ (call.outcome (conduct k)).1 → held n = none) := by
  have hserving := h
  obtain ⟨j, job, batch, hp, hj, hb, rfl, rfl⟩ := h
  have hd := Call.isDelivery_iff.2 ⟨j, hp⟩
  -- What the collation holds was given by this call.
  have hgiven : ∀ a, held job.node = some a → call.phase = .answered a ∧
      call.endedAt a < c.deadline := by
    intro a ha
    obtain ⟨k', call', hg, htime⟩ := (hheld job.node a).1 ha
    have hk := hf.eq_of_serving hs hg.call hg.served hcall hserving
    subst hk
    have hcall' := hg.call
    rw [hcall] at hcall'
    cases hcall'
    exact ⟨hg.answered, htime⟩
  refine ⟨fun htime => ?_, fun htime => ?_⟩
  · rcases hs.open_or_answered hcall hp with ho | ⟨a, ha⟩
    · have hlt := Nat.lt_of_le_of_lt (hcond.open_ k call hcall hd ho) htime
      have hcovers := hover.resolve_left (Nat.not_le_of_lt hlt)
      rw [Collation.Tally.covers, List.all_eq_true] at hcovers
      obtain ⟨a, ha⟩ := Option.isSome_iff_exists.1
        (hcovers job.node (hs.mem_expected hj hb hc))
      rw [Call.isOpen, (hgiven a ha).1] at ho
      cases ho
    · rw [hcond.answered k call a hcall hd ha] at htime ⊢
      exact (hheld job.node a).2 ⟨k, call, ⟨hcall, ha, hserving⟩, htime⟩
  · cases hsome : held job.node with
    | none => rfl
    | some a =>
        obtain ⟨ha, hlt⟩ := hgiven a hsome
        rw [hcond.answered k call a hcall hd ha] at htime
        exact absurd htime (Nat.not_le_of_lt hlt)

/-- A node to which no call was made has no answer. -/
theorem held_of_queued {e : Engine} {handle : Handle} {c : Collation}
    {held : Collation.Tally}
    (hheld : ∀ n a, held n = some a ↔ e.Delivered handle c.deadline n a)
    {n : Node}
    (h : ∀ (k : Nat) call, e.calls[k]? = some call →
      ¬ e.Serving handle n call) :
    held n = none := by
  cases hsome : held n with
  | none => rfl
  | some a =>
      obtain ⟨k, call, hg, -⟩ := (hheld n a).1 hsome
      exact absurd hg.served (h k call hg.call)

/-- What is delivered for a node comes from that node. -/
theorem Delivered.node_eq {e : Engine} (hs : e.Staffed) (ht : e.Timely)
    {handle : Handle} {deadline : Instant} {n : Node} {a : Answer}
    (h : e.Delivered handle deadline n a) : a.node = n := by
  obtain ⟨k, c, hg, -⟩ := h
  obtain ⟨j, job, batch, hp, hj, -, -, hn⟩ := hg.served
  obtain ⟨job', -, hj', -, hnode, -⟩ := hs.serves k c j hg.call hp
  rw [hj] at hj'
  cases hj'
  exact (ht k c j a hg.call hp hg.answered).1.trans (hnode.trans hn)

/-- A call that delivers to a node is a call to it, and it has the time that is
configured. -/
theorem Serving.call_eq {e : Engine} (hs : e.Staffed) {handle : Handle}
    {n : Node} {k : Nat} {call : Call} (hcall : e.calls[k]? = some call)
    (h : e.Serving handle n call) :
    call.node = n ∧
      call.due = Instant.timer call.started e.config.nodeTimeout := by
  obtain ⟨j, job, batch, hp, hj, -, -, hn⟩ := h
  obtain ⟨job', -, hj', -, hnode, -, htimeout⟩ := hs.serves k call j hcall hp
  rw [hj] at hj'
  cases hj'
  exact ⟨hnode.trans hn, by rw [Call.due, htimeout]⟩

/-! ## The answer for each node -/

/-- What the answer for a node is, by what the node does:

* its reply, or the fault of the call, if that came in the time of the call and
before the deadline;
* a timeout, if the time of the call was up first, and before the deadline;
* a timeout as well, but of the whole time, if the call was not over before the
deadline or had not begun. -/
structure Verdict (conduct : Conduct) (config : EngineConfig) (e : Engine)
    (handle : Handle) (deadline : Instant) (a : Answer) : Prop where
  replied : ∀ (k : Nat) call delay reply, e.calls[k]? = some call →
    e.Serving handle a.node call → conduct k = some (delay, .ok reply) →
    call.started + delay.nanos ≤ Instant.timer call.started config.nodeTimeout →
    call.started + delay.nanos < deadline → a = .ofReply a.node reply delay
  unreachable : ∀ (k : Nat) call delay fault, e.calls[k]? = some call →
    e.Serving handle a.node call → conduct k = some (delay, .error fault) →
    call.started + delay.nanos ≤ Instant.timer call.started config.nodeTimeout →
    call.started + delay.nanos < deadline →
    a = .unreachable a.node fault.message delay
  timedOut : ∀ (k : Nat) call, e.calls[k]? = some call →
    e.Serving handle a.node call →
      (∀ delay result, conduct k = some (delay, result) →
      Instant.timer call.started config.nodeTimeout <
        call.started + delay.nanos) →
    Instant.timer call.started config.nodeTimeout < deadline →
    a = .timeout a.node
      (Instant.since (Instant.timer call.started config.nodeTimeout)
        call.started)
  late : ∀ (k : Nat) call, e.calls[k]? = some call →
    e.Serving handle a.node call →
      (∀ delay result, conduct k = some (delay, result) →
      deadline ≤ call.started + delay.nanos) →
    deadline ≤ Instant.timer call.started config.nodeTimeout →
    a = .timeout a.node config.responseTimeout
  queued : (∀ (k : Nat) call, e.calls[k]? = some call →
    ¬ e.Serving handle a.node call) → a = .timeout a.node config.responseTimeout

/-- The answer that stands for a node in a complete report is the one that its
conduct leads to. -/
theorem verdict_of_held {conduct : Conduct} {e : Engine} (hs : e.Staffed)
    (hf : e.Filled) (ht : e.Timely) (hcond : e.Conducted conduct)
    {handle : Handle} {c : Collation} {held : Collation.Tally}
    (hc : e.registry.collations[handle]? = some c)
    (hheld : ∀ n a, held n = some a ↔ e.Delivered handle c.deadline n a)
    (hover : c.deadline ≤ e.now ∨ held.covers c.expected = true)
    (htimeout : c.timeout = e.config.responseTimeout) {n : Node} {a : Answer}
    (ha : (held n).getD (.timeout n c.timeout) = a) :
    Verdict conduct e.config e handle c.deadline a := by
  have hn : a.node = n := by
    cases hsome : held n with
    | none =>
        rw [hsome] at ha
        rw [← ha]
        rfl
    | some a' =>
        rw [hsome] at ha
        rw [← ha]
        exact ((hheld n a').1 hsome).node_eq hs ht
  subst hn
  have hnone : held a.node = none →
      a = .timeout a.node e.config.responseTimeout :=
    fun hnone => by rw [← htimeout, ← ha, hnone]; rfl
  have hsome : ∀ {a' : Answer}, held a.node = some a' → a = a' :=
    fun hsome => by rw [← ha, hsome]; rfl
  have hin : ∀ {k : Nat} {call : Call} {t : Instant} {a' : Answer},
      e.calls[k]? = some call → e.Serving handle a.node call →
      call.outcome (conduct k) = (t, a') → t < c.deadline → a = a' :=
    fun hcall hserving houtcome htime => by
      have hheld' :=
        (held_of_serving hs hf hcond hc hheld hover hcall hserving).1
      rw [houtcome] at hheld'
      exact hsome (hheld' htime)
  refine ⟨fun k call delay reply hcall hserving hk hdue htime => ?_,
    fun k call delay fault hcall hserving hk hdue htime => ?_,
    fun k call hcall hserving hk htime =>
      ?_, fun k call hcall hserving hk hdue => ?_,
    fun hqueued => hnone (held_of_queued hheld hqueued)⟩
  · obtain ⟨hnode, htimer⟩ := hserving.call_eq hs hcall
    have houtcome := Call.outcome_of_le (htimer ▸ hdue) (.ok reply)
    rw [← hk] at houtcome
    rw [hin hcall hserving houtcome htime, Call.answerOf, hnode]
    rfl
  · obtain ⟨hnode, htimer⟩ := hserving.call_eq hs hcall
    have houtcome := Call.outcome_of_le (htimer ▸ hdue) (.error fault)
    rw [← hk] at houtcome
    rw [hin hcall hserving houtcome htime, Call.answerOf, hnode]
    rfl
  · obtain ⟨hnode, htimer⟩ := hserving.call_eq hs hcall
    rw [← htimer] at hk htime ⊢
    rw [hin hcall hserving (Call.outcome_of_lt hk) htime, hnode]
    rfl
  · obtain ⟨-, htimer⟩ := hserving.call_eq hs hcall
    rw [← htimer] at hdue
    exact hnone ((held_of_serving hs hf hcond hc hheld hover hcall hserving).2
      (Call.le_outcome hk hdue))

theorem conducted_of_run {conduct : Conduct} {config : EngineConfig}
    {entries : List (Node × Connectivity)} {wants : Bool} {events : List Event}
    {e : Engine}
    (h : (start config (.ofEntries entries) wants).run events = some e)
    (hprompt : Along (Prompt conduct) (start config (.ofEntries entries) wants)
      events) :
    e.Conducted conduct :=
  (run_invariant
    (P := fun events e =>
      Along (Prompt conduct) (start config (.ofEntries entries) wants) events →
        e.Conducted conduct)
    (reached_start config entries wants) (fun _ =>
      conducted_start conduct config _ wants)
    (fun _ _ _ _ hrun hr hP _ htransition hprompt =>
      (hP hprompt.of_snoc).of_transition hr.linked hr.ordered
        (hprompt.last hrun) htransition) h).1 hprompt

/-- The calls that deliver a submission carry it. -/
theorem Delivers.outbound_eq {b e : Engine} (hs : e.Staffed) {sub : Submission}
    {handle : Handle} {n : Nat} {batch : Batch} {c : Collation}
    (h : Delivers b e sub handle n batch c) {k : Nat} {call : Call}
    {node : Node} (hcall : e.calls[k]? = some call)
    (hserving : e.Serving handle node call) : call.outbound = sub.outbound := by
  obtain ⟨j, job, batch₁, hp, hj, hb₁, hh, -⟩ := hserving
  obtain ⟨job', batch₂, hj', hb₂, -, hout, -⟩ := hs.serves k call j hcall hp
  rw [hj] at hj'
  cases hj'
  rw [hb₁] at hb₂
  cases hb₂
  have hbatch := hs.eq_of_handle hb₁ h.found (hh.trans h.fills.symm)
  rw [hbatch, h.found] at hb₁
  cases hb₁
  exact hout.trans h.outbound

/-- The targets to which a submission is delivered are those that are waited
for. -/
theorem Delivers.nodes_eq {b e : Engine} (ho : Ordered b) (hs : e.Staffed)
    (hf : e.Filled) {sub : Submission} {handle : Handle} {n : Nat}
    {batch : Batch} {c : Collation} (h : Delivers b e sub handle n batch c) :
    e.nodesOf n = c.expected := by
  obtain ⟨c', hc', hperm, -⟩ := hs.nodes n batch h.found
  rw [h.fills, h.collation] at hc'
  cases hc'
  obtain ⟨held, hagrees, -⟩ := hf handle c h.collation
  exact (isAscending_resolve ho.members h.resolved).ext hagrees.sound.ascending
    fun _ => hperm.mem_iff

/-- Whatever the run, the report on an accepted request is complete from the
deadline on. It then has one answer of each target and none of anybody else, and
it is a success just if all answers are replies with a status that reports
success. If the run is prompt, the answers are those that the conduct of the
nodes leads to. -/
theorem outcome_by_node (config : EngineConfig)
    (entries : List (Node × Connectivity)) (wants : Bool) {events : List Event}
    {e : Engine}
    (h : (start config (.ofEntries entries) wants).run events = some e)
    {s : Nat} {sub : Submission} {handle : Handle}
    (hsub : e.submissions[s]? = some sub)
    (haccepted : sub.phase = .accepted handle) :
    ∃ b nodes c r, HandedIn (start config (.ofEntries entries) wants)
      events s sub b ∧ sub.target.resolve b.members sub.request = .ok nodes ∧
        nodes.Nodup ∧
      e.registry.collations[handle]? = some c ∧ e.report? handle = some r ∧
      (∃ t, b.now ≤ t ∧ t ≤ e.now ∧
        c.deadline = Instant.deadline t config.responseTimeout) ∧
      (∀ (k : Nat) call n, e.calls[k]? = some call → e.Serving handle n call →
        call.node = n ∧ call.outbound = sub.outbound) ∧
      (c.deadline ≤ e.now → r.complete = true) ∧
      (r.complete = true →
        r.answers.map (·.node) = nodes ∧
        (r.isSuccess = true ↔
          ∀ a ∈ r.answers, a.failure = none ∧ 200 ≤ a.status ∧ a.status < 300) ∧
        ∀ conduct,
          Along (Prompt conduct)
            (start config (.ofEntries entries) wants) events →
          ∀ a ∈ r.answers, Verdict conduct config e handle c.deadline a) := by
  have hr := reached_of_run h
  have hconfig : e.config = config := hr.later.config
  obtain ⟨b, hhanded, -, hstanding⟩ := hr.origins.submissions s sub hsub
  unfold Standing at hstanding
  rw [haccepted] at hstanding
  obtain ⟨⟨n, batch, c, hdelivers⟩, -⟩ := hstanding
  obtain ⟨pre, post, -, hpre⟩ := hhanded.split
  have hb := (reached_of_run hpre).ordered
  have hnodes := hdelivers.nodes_eq hb hr.staffed hr.filled
  obtain ⟨held, hagrees, hheld⟩ := hr.filled handle c hdelivers.collation
  have hreport := hagrees.report_eq
  have hcomplete : (c.report e.now).complete = true ↔
      c.deadline ≤ e.now ∨ held.covers c.expected = true := by
    rw [hreport]
    show (held.covers c.expected || decide (c.deadline ≤ e.now)) = true ↔ _
    rw [Bool.or_eq_true, decide_eq_true_eq, or_comm]
  refine ⟨b, e.nodesOf n, c, c.report e.now, hhanded, hdelivers.resolved,
    (isAscending_resolve hb.members hdelivers.resolved).nodup,
    hdelivers.collation, ?_,
    hconfig ▸ hdelivers.deadline, fun k call node hcall hserving => ?_,
    fun htime => hcomplete.2 (Or.inl htime), fun hdone => ?_⟩
  · rw [report?, Registry.collation?, hdelivers.collation]
    rfl
  · exact ⟨(hserving.call_eq hr.staffed hcall).1,
      hdelivers.outbound_eq hr.staffed hcall hserving⟩
  · have hover := hcomplete.1 hdone
    have hanswers : (c.report e.now).answers =
        c.expected.map fun n => (held n).getD (.timeout n c.timeout) := by
      rw [hreport]
      exact (Collation.Tally.report_of_over hover).2.1
    have hverdict : ∀ conduct,
        Along (Prompt conduct) (start config (.ofEntries entries) wants)
          events →
        ∀ a ∈ (c.report e.now).answers,
          Verdict conduct config e handle c.deadline a := by
      intro conduct hprompt a ha
      rw [hanswers] at ha
      obtain ⟨node, -, ha⟩ := List.mem_map.1 ha
      rw [← hconfig]
      exact verdict_of_held hr.staffed hr.filled hr.timely
        (conducted_of_run h hprompt) hdelivers.collation hheld hover
          hdelivers.timeout ha
    refine ⟨?_, Collation.report_isSuccess_iff hdone, hverdict⟩
    rw [hanswers, List.map_map, hnodes]
    refine (List.map_congr_left fun node _ => ?_).trans (List.map_id _)
    show ((held node).getD (.timeout node c.timeout)).node = node
    cases hsome : held node with
    | none => rfl
    | some a => exact ((hheld node a).1 hsome).node_eq hr.staffed hr.timely

/-- One permit and three targets. The first replies at the last moment of its
call, and that is in time. The second never replies, so its call ends before the
deadline. The third replies at the deadline, and that is too late. -/
theorem outcome_by_node_last_moments :
    let a : Node := ⟨"a", "localhost", 1⟩
    let b : Node := ⟨"b", "localhost", 2⟩
    let c : Node := ⟨"c", "localhost", 3⟩
    let config : EngineConfig :=
      { poolSize := 1, nodeTimeout := ⟨5⟩, responseTimeout := ⟨12⟩ }
    let e₀ :=
      start config
        (.ofEntries [(b, .connected), (c, .connected), (a, .connected)]) false
    let request : Request := { method := .put, uri := "/", verify := false }
    let events : List Event :=
      [.submit .allConnected request "r" "s", .startJob, .advance 5,
        .arrive 0 (.ok { status := 200 }), .finish 0, .startJob, .advance 10,
        .finish 1,
        .startJob, .advance 12, .arrive 2 (.ok { status := 200 }), .finish 2]
    let conduct : Conduct := fun k =>
      if k = 0 then some (⟨5⟩, .ok { status := 200 })
      else if k = 2 then some (⟨2⟩, .ok { status := 200 })
      else none
    ∃ e r, e₀.run events = some e ∧ Along (Prompt conduct) e₀ events ∧
      e.report? 0 = some r ∧ r.answers =
        [.ofReply a { status := 200 } ⟨5⟩, .timeout b ⟨5⟩, .timeout c ⟨12⟩] ∧
      ∀ a ∈ r.answers, Verdict conduct config e 0 12 a := by
  intro a b c config e₀ request events conduct
  have hrun : (e₀.run events).map (fun e =>
      (e.submissions.map fun sub => match sub.phase with
        | .accepted handle => some handle
        | _ => none,
      e.registry.collations[0]?.map (·.deadline),
      (e.report? 0).map fun r => (r.complete, r.answers))) =
      some ([some 0], some 12, some (true,
        [.ofReply a { status := 200 } ⟨5⟩, .timeout b ⟨5⟩,
          .timeout c ⟨12⟩])) := by
    decide +kernel
  have hprompt : Along (Prompt conduct) e₀ events := by
    decide +kernel
  obtain ⟨e, he, hseen⟩ := Option.map_eq_some_iff.1 hrun
  rw [Prod.mk.injEq, Prod.mk.injEq] at hseen
  obtain ⟨hsubmissions, hdeadline, hreport⟩ := hseen
  obtain ⟨sub, hsub, hphase⟩ := List.map_eq_singleton_iff.1 hsubmissions
  obtain ⟨collation, hcollation, hdeadline⟩ :=
    Option.map_eq_some_iff.1 hdeadline
  obtain ⟨r, hr, hanswers⟩ := Option.map_eq_some_iff.1 hreport
  rw [Prod.mk.injEq] at hanswers
  have haccepted : sub.phase = .accepted 0 := by
    cases hp : sub.phase with
    | accepted handle =>
        rw [hp] at hphase
        cases hphase
        rfl
    | verifying _ | rejected _ =>
        rw [hp] at hphase
        cases hphase
  obtain ⟨_, _, collation', r', -, -, -, hc, hr', -, -, -, hover⟩ :=
    outcome_by_node config _ false he (s := 0) (by rw [hsub]; rfl) haccepted
  rw [hcollation] at hc
  cases hc
  rw [hr] at hr'
  cases hr'
  have hverdict := (hover hanswers.1).2.2 conduct hprompt
  rw [hdeadline] at hverdict
  exact ⟨e, r, he, hprompt, hr, hanswers.2, hverdict⟩

end Engine

end Fanout
