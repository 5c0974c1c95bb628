import Fanout.Proofs.Pool

/-!
# With a shutdown and without

A run with a shutdown is compared with the same events without it and without
the requests that come later. `Alongside` relates the states that the two lead
to. The run that was not stopped may hold more. It admits the requests whose
rounds pass, so there are batches and jobs at the end of its lists that the
other does not have, and it still looks at the collations that it holds. But its
additional jobs are behind all others in the queue for permits, so as long as
the events are those of the stopped run none of them gets one. And looking at a
collation adds nothing to it, so both have the same tally of every collation,
though one may have filled timeouts in already.

The steps are the same functions on both sides, so the relation is carried
through them operation by operation. What only one of the two does is `left` or
`right`.
-/

namespace Fanout

/-! ## Collations that differ in who has looked -/

namespace Collation

theorem Same.symm {c c' : Collation} (h : Same c c') : Same c' c :=
  ⟨h.id.symm, h.method.symm, h.uri.symm, h.expected.symm, h.timeout.symm,
    h.deadline.symm⟩

/-- Two collations were made for the same and hold the same answers. -/
structure Akin (now : Instant) (c c' : Collation) : Prop where
  same : c.Same c'
  held : ∃ held, Agrees now held c ∧ Agrees now held c'

variable {now : Instant} {c c' d d' : Collation}

theorem Agrees.akin {held : Tally} (h : Agrees now held c) : Akin now c c :=
  ⟨Same.refl c, held, h, h⟩

theorem Akin.later {now' : Instant} (h : Akin now c c') (hle : now ≤ now') :
    Akin now' c c' :=
  ⟨h.same, h.held.imp fun _ ⟨hc, hc'⟩ => ⟨hc.later hle, hc'.later hle⟩⟩

theorem Akin.seen (h : Akin now c c') (hd : c.Seen now d)
    (hd' : c'.Seen now d') : Akin now d d' :=
  ⟨(hd.same.symm.trans h.same).trans hd'.same,
    h.held.imp fun _ ⟨hc, hc'⟩ => ⟨hc.of_seen hd, hc'.of_seen hd'⟩⟩

theorem Akin.merge (h : Akin now c c') (a : Answer) :
    Akin now (c.merge now a) (c'.merge now a) := by
  obtain ⟨held, hc, hc'⟩ := h.held
  have hmerged := hc'.merge a
  rw [h.same.expected, h.same.deadline] at hmerged
  exact ⟨((same_merge now a c).symm.trans h.same).trans (same_merge now a c'),
    _, hc.merge a, hmerged⟩

/-- Nobody can tell them apart. -/
theorem Akin.report_eq (h : Akin now c c') : c'.report now = c.report now := by
  obtain ⟨held, hc, hc'⟩ := h.held
  have hstanding : Tally.standing c' now held = Tally.standing c now held := by
    funext n
    rw [Tally.standing, Tally.standing, h.same.deadline, h.same.timeout]
  -- Both reports are those of the one tally, which is all that is left of the
  -- answers.
  rw [hc.report_eq, hc'.report_eq, Tally.report, Tally.report, hstanding,
    h.same.id, h.same.method, h.same.uri, h.same.expected, h.same.deadline]

end Collation

/-! ## What is told of merges -/

/-- The notices of a journal that tell of merges. -/
def merged (j : Journal) : Journal := j.filter fun n => n.merge?.isSome

theorem merged_append (j k : Journal) :
    merged (j ++ k) = merged j ++ merged k :=
  List.filter_append ..

theorem merged_eq_nil {j : Journal}
    (h : mergesTold j = []) : merged j = [] := by
  rw [mergesTold, List.filterMap_eq_nil_iff] at h
  rw [merged, List.filter_eq_nil_iff]
  intro n hn
  simp [h n hn]

theorem Quietly.merged_eq {j j' : Journal} (h : Quietly j j') :
    merged j' = merged j := by
  obtain ⟨more, rfl, hmore⟩ := h
  rw [merged_append, merged_eq_nil hmore, List.append_nil]

/-- Both say the same of an answer: that it was merged, that it came too late,
or that it was not asked for. -/
theorem Collation.Akin.merged_eq {now : Instant} {c c' : Collation}
    (h : Akin now c c') (a : Answer) :
    merged (c'.mergeNotices now a) = merged (c.mergeNotices now a) := by
  have hcomplete : (c'.settle now).isComplete = (c.settle now).isComplete :=
    congrArg Report.complete h.report_eq
  unfold mergeNotices
  rw [merged_append, merged_append,
    merged_eq_nil (mergesTold_settleNotices now c),
    merged_eq_nil (mergesTold_settleNotices now c'), hcomplete, h.same.expected,
    h.same.id]

namespace Engine

theorem waiting_eq (e : Engine) :
    e.waiting = (List.range e.jobs.length).filter fun j =>
      e.jobs[j]?.any Job.isWaiting := by
  refine List.filter_congr fun j _ => ?_
  rcases e.jobs[j]? with _ | ⟨_, _, _ | _ | _⟩ <;> rfl

/-! ## With the shutdown and without -/

/-- A stopped engine, and what it would be if it had not been stopped. -/
structure Alongside (a b : Engine) : Prop where
  stopped : a.isStopped = true
  empty : a.registry.entries = []
  config : b.config = a.config
  wantsCallback : b.wantsCallback = a.wantsCallback
  now : b.now = a.now
  rounds : b.rounds = a.rounds
  calls : b.calls = a.calls
  freePermits : b.freePermits = a.freePermits
  callbacks : b.callbacks = a.callbacks
  merged : merged b.journal = merged a.journal
  batches : ∃ late, b.batches = a.batches ++ late
  jobs : ∃ late, b.jobs = a.jobs ++ late ∧ ∀ job ∈ late, job.phase = .waiting
  collations : ∀ (h : Handle) c, a.registry.collations[h]? = some c →
    ∃ c', b.registry.collations[h]? = some c' ∧ c.Akin a.now c'

namespace Alongside

variable {a b : Engine}

/-- The stopped engine may do on its own what concerns no delivery. -/
theorem left (h : Alongside a b) (submissions : List Submission)
    (members : Membership) (isSweeping : Bool) (metrics : Metrics)
    {journal : Journal} (hjournal : Quietly a.journal journal) :
    Alongside { a with submissions, members, isSweeping, metrics, journal } b :=
  { h with merged := h.merged.trans hjournal.merged_eq.symm }

/-- And so may the other, which also looks at what it holds. -/
theorem right (h : Alongside a b) (submissions : List Submission)
    (members : Membership) (isSweeping : Bool) (metrics : Metrics)
    {registry : Registry} {journal : Journal}
    (hregistry : b.registry.Kept b.now registry)
    (hjournal : Quietly b.journal journal) :
    Alongside a { b with
      submissions, members, isSweeping, registry, metrics, journal } :=
  { h with
    merged := hjournal.merged_eq.trans h.merged
    collations := fun handle c hc => by
      obtain ⟨c', hc', hakin⟩ := h.collations handle c hc
      obtain ⟨c'', hc'', hseen⟩ := hregistry.collations handle c' hc'
      rw [h.now] at hseen
      exact ⟨c'', hc'', hakin.seen (Collation.Seen.refl _ c) hseen⟩ }

theorem tell (h : Alongside a b) (notices : Journal) :
    Alongside (a.tell notices) (b.tell notices) :=
  { h with
    merged := by
      show Fanout.merged (b.journal ++ notices) =
          Fanout.merged (a.journal ++ notices)
      rw [merged_append, merged_append, h.merged] }

theorem openCall (h : Alongside a b) (node : Node) (outbound : Outbound)
    (purpose : Purpose) (timeout : Span) :
    Alongside (a.openCall node outbound purpose timeout)
      (b.openCall node outbound purpose timeout) :=
  { h with calls := by simp only [Engine.openCall, h.calls, h.now] }

theorem arrive (h : Alongside a b) (k : Nat) (result : CallResult) :
    Alongside (a.arrive k result) (b.arrive k result) :=
  { h with calls := by simp only [Engine.arrive, h.calls] }

theorem closeCall (h : Alongside a b) (k : Nat) (c : Call) (answer : Answer) :
    Alongside (a.closeCall k c answer) (b.closeCall k c answer) :=
  { h.tell (c.notices a.now) with
    calls := by simp only [Engine.closeCall, Engine.tell, h.calls]
    merged := by
      simp only [Engine.closeCall, Engine.tell, merged_append, h.merged,
        h.now] }

theorem setRound (h : Alongside a b) (r : Nat) (change : Round → Round) :
    Alongside (a.setRound r change) (b.setRound r change) :=
  { h with rounds := by simp only [Engine.setRound, h.rounds] }

theorem abandonCalls (h : Alongside a b) (calls : List Nat) :
    Alongside (a.abandonCalls calls) (b.abandonCalls calls) :=
  { h with calls := by simp only [Engine.abandonCalls, h.calls] }

/-! ### Rounds -/

theorem reject_left (h : Alongside a b) (s : Nat) (sub : Submission)
    (fault : Fault) : Alongside (a.reject s sub fault) b :=
  h.left _ a.members a.isSweeping _ (Quietly.append a.journal rfl)

theorem reject_right (h : Alongside a b) (s : Nat) (sub : Submission)
    (fault : Fault) : Alongside a (b.reject s sub fault) :=
  h.right _ b.members b.isSweeping _ (Registry.Kept.refl _ _)
    (Quietly.append b.journal rfl)

theorem enroll_left (h : Alongside a b) (s : Nat) (sub : Submission)
    (nodes : List Node) : Alongside (a.enroll s sub nodes) b := by
  rw [enroll, if_pos h.stopped]
  exact h.reject_left s sub .stopped

/-- What is admitted on the one side only comes behind everything else. -/
theorem enroll_right (h : Alongside a b) (s : Nat) (sub : Submission)
    (nodes : List Node) : Alongside a (b.enroll s sub nodes) := by
  rcases b.enroll_cases s sub nodes with
    ⟨fault, registry, metrics, journal, hkept, hquiet, -, heq⟩ |
    ⟨registry, handle, metrics, journal, hadmits, hquiet, heq⟩
  · rw [heq]
    exact h.right _ b.members b.isSweeping metrics hkept hquiet
  · rw [heq]
    have hright :=
      h.right b.submissions b.members b.isSweeping metrics hadmits.kept hquiet
    obtain ⟨lateBatches, hbatches⟩ := h.batches
    obtain ⟨lateJobs, hjobs, hwaiting⟩ := h.jobs
    exact { hright with
      batches := ⟨lateBatches ++ [_], by
        show b.batches ++ [_] = _
        rw [hbatches, List.append_assoc]⟩
      jobs := ⟨lateJobs ++ b.jobsFor nodes, by
          show b.jobs ++ b.jobsFor nodes = _
          rw [hjobs, List.append_assoc], fun job hjob => by
        rcases List.mem_append.1 hjob with hold | hnew
        · exact hwaiting job hold
        · exact (mem_jobsFor hnew).2⟩ }

theorem failRound (h : Alongside a b) (r : Nat) (round : Round)
    (fault : Fault) :
    Alongside (a.failRound r round fault) (b.failRound r round fault) := by
  have hround := (h.abandonCalls round.asked).setRound r
    fun round => { round with asked := [], phase := .failed fault }
  unfold Engine.failRound
  dsimp only
  cases round.submission with
  | none => exact hround
  | some s =>
      dsimp only
      split <;> split
      · exact (hround.reject_left s _ fault).reject_right s _ fault
      · exact hround.reject_left s _ fault
      · exact hround.reject_right s _ fault
      · exact hround

theorem passRound (h : Alongside a b) (r : Nat) (round : Round) :
    Alongside (a.passRound r round) (b.passRound r round) := by
  have hround := (h.tell [.allAccepted round.outbound.id]).setRound r
    fun round => { round with phase := .passed }
  unfold Engine.passRound
  dsimp only
  cases round.submission with
  | none => exact hround
  | some s =>
      dsimp only
      split <;> split
      · exact (hround.enroll_left s _ _).enroll_right s _ _
      · exact hround.enroll_left s _ _
      · exact hround.enroll_right s _ _
      · exact hround

theorem passIfDone (h : Alongside a b) (r : Nat) :
    Alongside (a.passIfDone r) (b.passIfDone r) := by
  unfold Engine.passIfDone
  rw [h.rounds]
  cases a.rounds[r]? with
  | none => exact h
  | some round =>
      dsimp only
      split
      · exact h.passRound r round
      · exact h

theorem judge (h : Alongside a b) (r : Nat) (round : Round) (call : Nat)
    (answer : Answer) :
    Alongside (a.judge r round call answer) (b.judge r round call answer) := by
  have hround :=
    h.setRound r fun round => { round with asked := round.asked.erase call }
  unfold Engine.judge
  dsimp only
  split
  · exact hround.passIfDone r
  · exact (hround.tell _).failRound r _ _

theorem startProbe (h : Alongside a b) {a' : Engine} {r : Nat}
    (hstep : a.startProbe r = some a') :
    ∃ b', b.startProbe r = some b' ∧ Alongside a' b' := by
  unfold Engine.startProbe at hstep ⊢
  obtain ⟨round, hround, hstep⟩ := Option.bind_eq_some_iff.1 hstep
  split at hstep
  · next node rest hphase hunasked =>
      cases hstep
      simp only [h.rounds, h.calls, hround, hphase, hunasked,
        Option.bind_eq_bind, Option.bind_some]
      exact ⟨_, rfl, (h.openCall ..).setRound ..⟩
  · cases hstep

theorem expireRound (h : Alongside a b) {a' : Engine} {r : Nat}
    (hstep : a.expireRound r = some a') :
    ∃ b', b.expireRound r = some b' ∧ Alongside a' b' := by
  unfold Engine.expireRound at hstep ⊢
  obtain ⟨round, hround, hstep⟩ := Option.bind_eq_some_iff.1 hstep
  cases hphase : round.phase with
  | running =>
      rw [hphase] at hstep
      obtain ⟨_, hguard, hstep⟩ := Option.bind_eq_some_iff.1 hstep
      cases hstep
      rw [h.rounds, hround, Option.bind_eq_bind, Option.bind_some, hphase,
        h.now, h.calls, hguard]
      exact ⟨_, rfl, (h.tell _).failRound ..⟩
  | passed | failed =>
      rw [hphase] at hstep
      cases hstep

/-! ### Looking -/

theorem settle_left (h : Alongside a b) (handle : Handle) :
    Alongside (a.settle handle) b := by
  unfold Engine.settle
  split
  · next c hc =>
      have hheld : a.registry.collations[handle]? = some c := hc
      rw [Registry.update, modify_eq_set_of_some hheld]
      exact { h.left a.submissions a.members a.isSweeping a.metrics
          (Tells.append a.journal
            (Collation.mergesTold_settleNotices a.now c)) with
        collations := fun i d hd => by
          rcases getElem?_set_cases hheld hd with ⟨rfl, rfl⟩ | ⟨-, hd⟩
          · obtain ⟨c', hc', hakin⟩ := h.collations handle c hheld
            exact ⟨c', hc', hakin.seen (Collation.Seen.settle _ c)
              (Collation.Seen.refl _ c')⟩
          · exact h.collations i d hd }
  · exact h

theorem settle_right (h : Alongside a b) (handle : Handle) :
    Alongside a (b.settle handle) := by
  unfold Engine.settle
  split
  · next c hc =>
      exact h.right b.submissions b.members b.isSweeping b.metrics
        (Registry.kept_update_settle b.now handle b.registry)
        (Tells.append b.journal (Collation.mergesTold_settleNotices b.now c))
  · exact h

/-- An engine that holds nothing finds nothing. -/
theorem lookUp_left (h : Alongside a b) (id : String) :
    Alongside (a.lookUp id).1 b := by
  have hnone : a.registry.entry? id = none := by
    rw [Registry.entry?, h.empty]; rfl
  have hget : a.registry.get a.now id = (a.registry, none) :=
    Registry.get_of_none hnone a.now
  have hquiet := Registry.mergesTold_getNotices a.now id a.registry
  unfold Engine.lookUp
  rw [hget]
  exact h.left a.submissions a.members a.isSweeping _
    (Tells.append a.journal hquiet)

theorem sweep_left (h : Alongside a b) : Alongside a.sweep b := by
  have hpurge : a.registry.purge a.now = a.registry := by
    rw [Registry.purge, Registry.settleHeld, h.empty]
    dsimp only [List.foldl_nil]
    rw [h.empty, List.filter_nil, ← h.empty]
  unfold Engine.sweep
  rw [hpurge]
  exact h.left a.submissions a.members a.isSweeping a.metrics
    (Tells.append a.journal (Registry.mergesTold_purgeNotices a.now a.registry))

/-! ### Deliveries -/

theorem merge (h : Alongside a b) {handle : Handle} {c : Collation}
    (hc : a.registry.collations[handle]? = some c) (answer : Answer) :
    Alongside (a.merge handle answer) (b.merge handle answer) := by
  obtain ⟨c', hc', hakin⟩ := h.collations handle c hc
  rw [merge_eq hc, merge_eq hc', h.now]
  exact { h with
    now := rfl
    merged := by
      show Fanout.merged (b.journal ++ _) = Fanout.merged (a.journal ++ _)
      rw [merged_append, merged_append, h.merged, hakin.merged_eq]
    collations := fun i d hd => by
      rw [getElem?_set_of_some hc']
      rcases getElem?_set_cases hc hd with ⟨rfl, rfl⟩ | ⟨hne, hd⟩
      · exact ⟨_, if_pos rfl, hakin.merge answer⟩
      · rw [if_neg hne]
        exact h.collations i d hd }

theorem report?_eq (h : Alongside a b) {handle : Handle} {c : Collation}
    (hc : a.registry.collations[handle]? = some c) :
    b.report? handle = a.report? handle := by
  obtain ⟨c', hc', hakin⟩ := h.collations handle c hc
  rw [report?, report?, Registry.collation?, Registry.collation?, hc, hc',
    h.now, Option.map_some, Option.map_some, hakin.report_eq]

theorem callBack (h : Alongside a b) {handle : Handle} {c : Collation}
    (hc : a.registry.collations[handle]? = some c) :
    Alongside (a.callBack handle) (b.callBack handle) := by
  have hlooked := (h.settle_left handle).settle_right handle
  have hreport : a.report? handle = some (c.report a.now) := by
    rw [report?, Registry.collation?, hc]
    rfl
  unfold Engine.callBack
  rw [h.wantsCallback, h.report?_eq hc, hreport]
  split
  · exact { hlooked with
      callbacks := by
        show (b.settle handle).callbacks ++ _ = (a.settle handle).callbacks ++ _
        rw [hlooked.callbacks]
        show _ ++ [((b.settle handle).now, _)] =
            _ ++ [((a.settle handle).now, _)]
        rw [hlooked.now] }
  · exact h

theorem batch_of (h : Alongside a b) {i : Nat} {batch : Batch}
    (hbatch : a.batches[i]? = some batch) : b.batches[i]? = some batch := by
  obtain ⟨late, hbatches⟩ := h.batches
  rw [hbatches]
  exact getElem?_append_of_some hbatch late

theorem job_of (h : Alongside a b) {j : Nat} {job : Job}
    (hjob : a.jobs[j]? = some job) : b.jobs[j]? = some job := by
  obtain ⟨late, hjobs, -⟩ := h.jobs
  rw [hjobs]
  exact getElem?_append_of_some hjob late

theorem jobs_set (h : Alongside a b) {j : Nat} {job : Job}
    (hjob : a.jobs[j]? = some job) (job' : Job) :
    ∃ late, b.jobs.set j job' = a.jobs.set j job' ++ late ∧
      ∀ job ∈ late, job.phase = .waiting := by
  obtain ⟨late, hjobs, hwaiting⟩ := h.jobs
  refine ⟨late, ?_, hwaiting⟩
  rw [hjobs, List.set_append_left _ _ (List.getElem?_eq_some_iff.1 hjob).1]

theorem countOff (h : Alongside a b) {i : Nat} {batch : Batch} {c : Collation}
    (hbatch : a.batches[i]? = some batch)
    (hc : a.registry.collations[batch.handle]? = some c) :
    Alongside (a.countOff i) (b.countOff i) := by
  obtain ⟨late, hbatches⟩ := h.batches
  have hbatch' := h.batch_of hbatch
  have hcounted : Alongside
      { a with batches :=
          a.batches.set i { batch with remaining := batch.remaining - 1 } }
      { b with batches :=
          b.batches.set i { batch with remaining := batch.remaining - 1 } } :=
    { h with
      batches := ⟨late, by
        show b.batches.set i _ = a.batches.set i _ ++ late
        rw [hbatches, List.set_append_left _ _
          (List.getElem?_eq_some_iff.1 hbatch).1]⟩ }
  unfold Engine.countOff
  dsimp only
  rw [modify_eq_set_of_some hbatch, modify_eq_set_of_some hbatch',
    getElem?_set_of_some hbatch, getElem?_set_of_some hbatch', if_pos rfl,
    if_pos rfl]
  dsimp only
  split
  · exact hcounted.callBack hc
  · exact hcounted

theorem finishJob (h : Alongside a b) {j : Nat} {job : Job} {batch : Batch}
    {c : Collation} (hjob : a.jobs[j]? = some job)
    (hbatch : a.batches[job.batch]? = some batch)
    (hc : a.registry.collations[batch.handle]? = some c) (answer : Answer) :
    Alongside (a.finishJob j answer) (b.finishJob j answer) := by
  have hjob' := h.job_of hjob
  have hfreed : Alongside
      { a with
        freePermits := a.freePermits + 1
        jobs := a.jobs.set j { job with phase := .done answer } }
      { b with
        freePermits := b.freePermits + 1
        jobs := b.jobs.set j { job with phase := .done answer } } :=
    { h with
      freePermits := congrArg (· + 1) h.freePermits
      jobs := h.jobs_set hjob _ }
  have hmerged := hfreed.merge hc answer
  unfold Engine.finishJob
  rw [hjob, hjob']
  dsimp only
  rw [hbatch, h.batch_of hbatch, modify_eq_set_of_some hjob,
    modify_eq_set_of_some hjob']
  dsimp only
  rw [merge_eq (e := { a with freePermits := a.freePermits + 1, jobs := _ })
    hc] at hmerged ⊢
  exact hmerged.countOff hbatch (by rw [getElem?_set_of_some hc, if_pos rfl])

/-- The jobs that come behind the others are not the first to wait. -/
theorem head?_waiting (h : Alongside a b) {j : Nat}
    (hhead : a.waiting.head? = some j) : b.waiting.head? = some j := by
  obtain ⟨late, hjobs, -⟩ := h.jobs
  -- Up to the length of the shorter list both have the same jobs, and one of
  -- them waits.
  have hfirst : (List.range a.jobs.length).filter
      (fun j => b.jobs[j]?.any Job.isWaiting) =
      (List.range a.jobs.length).filter (fun j =>
        a.jobs[j]?.any Job.isWaiting) := by
    refine List.filter_congr fun i hi => ?_
    rw [hjobs, List.getElem?_append_left (List.mem_range.1 hi)]
  have hlength : b.jobs.length = a.jobs.length + late.length := by
    rw [hjobs, List.length_append]
  rw [waiting_eq] at hhead ⊢
  rw [hlength, List.range_add, List.filter_append, hfirst, List.head?_append,
    hhead]
  rfl

theorem startJob (h : Alongside a b) {a' : Engine}
    (hstep : a.startJob = some a') :
    ∃ b', b.startJob = some b' ∧ Alongside a' b' := by
  unfold Engine.startJob at hstep ⊢
  obtain ⟨_, hguard, hstep⟩ := Option.bind_eq_some_iff.1 hstep
  obtain ⟨j, hhead, hstep⟩ := Option.bind_eq_some_iff.1 hstep
  obtain ⟨job, hjob, hstep⟩ := Option.bind_eq_some_iff.1 hstep
  obtain ⟨batch, hbatch, hstep⟩ := Option.bind_eq_some_iff.1 hstep
  cases hstep
  have hopened :=
    h.openCall job.node batch.outbound (.delivery j) a.config.nodeTimeout
  rw [h.freePermits, hguard]
  simp only [h.head?_waiting hhead, h.job_of hjob, h.batch_of hbatch, h.config,
    h.calls, modify_eq_set_of_some hjob, modify_eq_set_of_some (h.job_of hjob),
    Option.bind_eq_bind,
    Option.bind_some]
  exact ⟨_, rfl, { hopened with
    freePermits := rfl
    jobs := h.jobs_set hjob _ }⟩

/-! ### Steps -/

theorem finish (hl : Linked a) (h : Alongside a b) {a' : Engine} {k : Nat}
    (hstep : a.finish k = some a') :
    ∃ b', b.finish k = some b' ∧ Alongside a' b' := by
  unfold Engine.finish at hstep ⊢
  obtain ⟨c, hcall, hstep⟩ := Option.bind_eq_some_iff.1 hstep
  obtain ⟨answer, hanswer, hstep⟩ := Option.bind_eq_some_iff.1 hstep
  have hclosed := h.closeCall k c answer
  simp only [h.calls, h.now, hcall, hanswer, Option.bind_eq_bind,
    Option.bind_some]
  split at hstep
  · next hpurpose => exact absurd hpurpose (hl.single k c hcall)
  · next j hpurpose =>
      obtain ⟨job, hjob⟩ := hl.deliveries k c j hcall hpurpose
      obtain ⟨batch, hbatch⟩ := hl.jobs j job hjob
      obtain ⟨held, hheld⟩ := hl.batches job.batch batch hbatch
      cases hstep
      exact ⟨_, rfl, hclosed.finishJob hjob hbatch hheld answer⟩
  · next r hpurpose =>
      obtain ⟨round, hround, hstep⟩ := Option.bind_eq_some_iff.1 hstep
      cases hstep
      simp only [h.rounds, hround, Option.bind_some]
      exact ⟨_, rfl, hclosed.judge r round k answer⟩

theorem submit_left (h : Alongside a b) (target : Target) (request : Request)
    (id seed : String) : Alongside (a.submit target request id seed) b := by
  unfold Engine.submit
  dsimp only
  rw [if_pos h.stopped]
  exact (h.left _ a.members a.isSweeping a.metrics
    (Quietly.refl _)).reject_left ..

theorem shutDown_left (h : Alongside a b) : Alongside a.shutDown b := by
  unfold Engine.shutDown
  rw [if_pos h.stopped]
  exact h.left a.submissions a.members a.isSweeping a.metrics
    (Quietly.append a.journal rfl)

theorem advance (h : Alongside a b) {now : Instant} (hlt : a.now < now) :
    Alongside { a with now } { b with now } :=
  { h with
    now := rfl
    collations := fun handle c hc => by
      obtain ⟨c', hc', hakin⟩ := h.collations handle c hc
      exact ⟨c', hc', hakin.later (Nat.le_of_lt hlt)⟩ }

theorem lookUp (h : Alongside a b) (id : String) :
    Alongside (a.lookUp id).1 (b.lookUp id).1 :=
  (h.lookUp_left id).right b.submissions b.members b.isSweeping _
    (Registry.kept_get b.now id b.registry)
    (Tells.append b.journal (Registry.mergesTold_getNotices
      b.now id b.registry))

theorem sweep (h : Alongside a b) : Alongside a.sweep b.sweep :=
  h.sweep_left.right b.submissions b.members b.isSweeping b.metrics
    (Registry.kept_purge b.now b.registry)
    (Tells.append b.journal (Registry.mergesTold_purgeNotices b.now b.registry))

theorem members (h : Alongside a b) (members members' : Membership)
    {journal journal' : Journal} (hjournal : Quietly a.journal journal)
    (hjournal' : Quietly b.journal journal') :
    Alongside { a with members, journal }
      { b with members := members', journal := journal' } :=
  (h.left a.submissions members a.isSweeping a.metrics hjournal).right
    b.submissions members' b.isSweeping b.metrics
      (Registry.Kept.refl _ _) hjournal'

end Alongside

end Engine

/-- Whether an event hands a request in or stops the engine. -/
def Event.isEntrance : Event → Bool
  | .submit _ _ _ _ | .shutDown => true
  | _ => false

namespace Engine

variable {a a' b : Engine}

/-- An event that hands a request in or stops the engine leaves a stopped engine
alongside the other; every other event can happen on both sides if it can happen
on the stopped one. -/
theorem Alongside.step (hl : Linked a) (h : Alongside a b) {event : Event}
    (hstep : a.step event = some a') :
    if event.isEntrance then Alongside a' b
    else ∃ b', b.step event = some b' ∧ Alongside a' b' := by
  cases event with
  | submit target request id seed =>
      cases hstep
      exact h.submit_left target request id seed
  | shutDown =>
      cases hstep
      exact h.shutDown_left
  | advance now =>
      rw [Engine.step] at hstep
      split at hstep
      · next hlt =>
          cases hstep
          refine ⟨{ b with now }, ?_, h.advance hlt⟩
          rw [Engine.step, h.now, if_pos hlt]
      · cases hstep
  | startProbe r => exact h.startProbe hstep
  | startJob => exact h.startJob hstep
  | finish k => exact h.finish hl hstep
  | expireRound r => exact h.expireRound hstep
  | arrive k result =>
      cases hstep
      exact ⟨_, rfl, h.arrive k result⟩
  | lookUp id =>
      cases hstep
      exact ⟨_, rfl, h.lookUp id⟩
  | look handle =>
      cases hstep
      exact ⟨_, rfl, (h.settle_left handle).settle_right handle⟩
  | sweep =>
      cases hstep
      exact ⟨_, rfl, h.sweep⟩
  | addNode node state =>
      cases hstep
      exact ⟨_, rfl, h.members _ _ (Quietly.append _ rfl)
        (Quietly.append _ rfl)⟩
  | setState node state =>
      cases hstep
      exact ⟨_, rfl, h.members _ _
        (Quietly.append _ (mergesTold_setStateNotices node state a.members))
        (Quietly.append _ (mergesTold_setStateNotices node state b.members))⟩
  | removeNode node =>
      cases hstep
      exact ⟨_, rfl, h.members _ _ (Quietly.refl _) (Quietly.refl _)⟩

/-- The events of a stopped engine, without those that hand requests in or stop
it, can all happen on the other side. -/
theorem Alongside.run {events : List Event} :
    ∀ {a b : Engine}, Linked a → Alongside a b → a.run events = some a' →
    ∃ b', b.run (events.filter fun event => !event.isEntrance) = some b' ∧
      Alongside a' b' := by
  induction events with
  | nil =>
      intro a b _ h hrun
      cases hrun
      exact ⟨b, rfl, h⟩
  | cons event rest ih =>
      intro a b hl h hrun
      obtain ⟨a₁, hstep, hrun⟩ := run_cons.1 hrun
      have hl₁ := (step_transition hl hstep).linked hl
      have hnext := h.step hl hstep
      cases hentrance : event.isEntrance with
      | true =>
          rw [hentrance, if_pos rfl] at hnext
          rw [List.filter_cons_of_neg (by simp [hentrance])]
          exact ih hl₁ hnext hrun
      | false =>
          rw [hentrance, if_neg Bool.false_ne_true] at hnext
          obtain ⟨b₁, hstep', hnext⟩ := hnext
          obtain ⟨b', hrun', hlast⟩ := ih hl₁ hnext hrun
          refine ⟨b', ?_, hlast⟩
          rw [List.filter_cons_of_pos (by simp [hentrance])]
          exact run_cons.2 ⟨b₁, hstep', hrun'⟩

end Engine

end Fanout
