import Fanout.Proofs.Origin

/-!
# All jobs can come to an end

No job waits in vain. As long as one is not done, a call holds a permit or a
permit is free. In the first case the node of the call may reply, and the call
is over; in the second the job that is first in the queue gets the permit.
Either way some job has a step less ahead of it. So every run can go on to a
state in which all jobs are done, and nothing has to be handed in for that.
-/

namespace Fanout

/-- A call that is not over ends with the reply of its node. -/
theorem Call.answer?_receive {c : Call} (h : c.isOpen = true) (reply : Reply)
    (now : Instant) :
    ∃ answer, (c.receive (.ok reply)).answer? now = some answer := by
  unfold isOpen at h
  cases hphase : c.phase with
  | underWay => exact ⟨_, by rw [receive, hphase, answer?]⟩
  | arrived result =>
      rw [receive, hphase]
      cases result with
      | ok reply => exact ⟨_, by rw [answer?, hphase]⟩
      | error fault => exact ⟨_, by rw [answer?, hphase]⟩
  | answered | abandoned =>
      rw [hphase] at h
      cases h

theorem Call.purpose_receive (c : Call) (result : CallResult) :
    (c.receive result).purpose = c.purpose := by
  unfold receive
  split <;> rfl

namespace Engine

/-- The steps that all jobs have ahead of them: one that waits has two. -/
def ahead (e : Engine) : Nat :=
  e.jobs.countP Job.isWaiting + e.jobs.countP fun job => !job.isDone

section

variable {e e' : Engine}

/-- A job that goes on has a step less ahead of it. -/
theorem ahead_lt {j : Nat} {job job' : Job} (hjob : e.jobs[j]? = some job)
    (hjobs : e'.jobs = e.jobs.set j job')
    (h : (job.phase = .waiting ∧ ∃ k, job'.phase = .calling k) ∨
      ∃ k, job.phase = .calling k ∧ ∃ answer, job'.phase = .done answer) :
    e'.ahead < e.ahead := by
  have hwaiting := countP_set_of_some (p := Job.isWaiting) (b := job') hjob
  have hundone :=
    countP_set_of_some (p := fun job => !job.isDone) (b := job') hjob
  rw [ahead, ahead, hjobs]
  rcases h with ⟨hphase, k, hphase'⟩ | ⟨k, hphase, answer, hphase'⟩
  · have hleft : job.isWaiting = true ∧ job'.isWaiting = false := by
      simp [Job.isWaiting, hphase, hphase']
    have hstill : job.isDone = false ∧ job'.isDone = false := by
      simp [Job.isDone, hphase, hphase']
    simp only [hleft, hstill, Bool.not_false, Bool.false_eq_true, if_true,
      if_false]
      at hwaiting hundone
    omega
  · have hsame : job.isWaiting = false ∧ job'.isWaiting = false := by
      simp [Job.isWaiting, hphase, hphase']
    have hended : job.isDone = false ∧ job'.isDone = true := by
      simp [Job.isDone, hphase, hphase']
    simp only [hsame, hended, Bool.not_false, Bool.not_true, Bool.false_eq_true,
      if_true, if_false] at hwaiting hundone
    omega

theorem startJob_ahead (h : e.startJob = some e') :
    e'.ahead < e.ahead ∧ e'.submissions = e.submissions := by
  unfold startJob at h
  obtain ⟨_, -, h⟩ := Option.bind_eq_some_iff.1 h
  obtain ⟨j, hhead, h⟩ := Option.bind_eq_some_iff.1 h
  obtain ⟨job, hjob, h⟩ := Option.bind_eq_some_iff.1 h
  obtain ⟨batch, -, h⟩ := Option.bind_eq_some_iff.1 h
  cases h
  refine ⟨ahead_lt hjob (modify_eq_set_of_some hjob _) ?_, rfl⟩
  exact Or.inl ⟨waiting_of_head? hhead hjob, _, rfl⟩

/-- Somebody looks at a call that a job waits for, and it is over. -/
theorem finish_ahead (hl : Linked e) (hs : e.Staffed) {k j : Nat} {c : Call}
    {answer : Answer} (hcall : e.calls[k]? = some c)
    (hanswer : c.answer? e.now = some answer)
    (hpurpose : c.purpose = .delivery j) :
    ∃ e', e.finish k = some e' ∧ e'.ahead < e.ahead ∧
      e'.submissions = e.submissions := by
  obtain ⟨job, hjob⟩ := hl.deliveries k c j hcall hpurpose
  obtain ⟨batch, hbatch⟩ := hl.jobs j job hjob
  obtain ⟨held, hheld⟩ := hl.batches job.batch batch hbatch
  have hcalling :=
    hs.calling_of_isOpen hcall hpurpose (Call.isOpen_of_answer? hanswer) hjob
  obtain ⟨callbacks, journal, -, -, heq⟩ :=
    finishJob_eq (e := e.closeCall k c answer) hjob hbatch hheld answer
  refine ⟨(e.closeCall k c answer).finishJob j answer, ?_, ?_⟩
  · rw [finish, hcall, Option.bind_eq_bind, Option.bind_some, hanswer,
      Option.bind_eq_bind, Option.bind_some, hpurpose]
    rfl
  · rw [heq]
    exact ⟨ahead_lt hjob rfl (Or.inr ⟨k, hcalling, answer, rfl⟩), rfl⟩

end

section

variable {config : EngineConfig} {entries : List (Node × Connectivity)}
  {wants : Bool} {events : List Event} {e : Engine}

/-- As long as a job is not done, the run can bring one closer to its end. -/
theorem steps_ahead
    (h : (start config (.ofEntries entries) wants).run events = some e)
    {job : Job} (hjob : job ∈ e.jobs) (hdone : job.isDone = false) :
    ∃ more e', e.run more = some e' ∧ e'.ahead < e.ahead ∧
      e'.submissions = e.submissions := by
  have hr := reached_of_run h
  rcases hr.staffed.progress hr.linked hjob hdone with ⟨c, hc, hpermit⟩ | hstart
  · obtain ⟨k, hcall⟩ := List.getElem?_of_mem hc
    rw [Call.holdsPermit, Bool.and_eq_true] at hpermit
    obtain ⟨j, hpurpose⟩ := Call.isDelivery_iff.1 hpermit.2
    -- If there is a result already, the reply is ignored, and the call ends
    -- with the result.
    obtain ⟨answer, hanswer⟩ :=
      Call.answer?_receive hpermit.1 { status := 200 } e.now
    have hstep : e.step (.arrive k (.ok { status := 200 })) =
        some (e.arrive k (.ok { status := 200 })) := rfl
    have hr' := hr.step h hstep
    have hcall' : (e.arrive k (.ok { status := 200 })).calls[k]? =
        some (c.receive (.ok { status := 200 })) := by
      show (e.calls.modify k _)[k]? = _
      rw [modify_eq_set_of_some hcall, getElem?_set_of_some hcall, if_pos rfl]
    obtain ⟨e', hfinish, hahead, hsame⟩ :=
      finish_ahead hr'.linked hr'.staffed hcall' hanswer
      ((c.purpose_receive _).trans hpurpose)
    exact ⟨[.arrive k (.ok { status := 200 }), .finish k], e',
      run_cons.2 ⟨_, hstep, run_cons.2 ⟨e', hfinish, rfl⟩⟩, hahead, hsame⟩
  · obtain ⟨e', hstart⟩ := Option.isSome_iff_exists.1 hstart
    exact ⟨[.startJob], e', run_cons.2 ⟨e', hstart, rfl⟩, startJob_ahead hstart⟩

/-- Every run can go on until all jobs are done, and nothing is handed in on the
way. -/
theorem all_jobs_can_end
    (h : (start config (.ofEntries entries) wants).run events = some e) :
    ∃ more e', e.run more = some e' ∧ e'.submissions = e.submissions ∧
      ∀ job ∈ e'.jobs, job.isDone = true := by
  induction hn : e.ahead using Nat.strongRecOn generalizing events e with
  | ind n ih =>
      by_cases hall : ∀ job ∈ e.jobs, job.isDone = true
      · exact ⟨[], e, rfl, rfl, hall⟩
      · obtain ⟨job, hjob, hdone⟩ : ∃ job ∈ e.jobs, job.isDone = false := by
          simpa using hall
        obtain ⟨first, e₁, hrun₁, hahead, hsame₁⟩ := steps_ahead h hjob hdone
        obtain ⟨more, e', hrun, hsame, hend⟩ :=
          ih e₁.ahead (hn ▸ hahead) (run_trans h hrun₁) rfl
        exact ⟨first ++ more, e', run_trans hrun₁ hrun,
          hsame.trans hsame₁, hend⟩

end

end Engine

end Fanout
