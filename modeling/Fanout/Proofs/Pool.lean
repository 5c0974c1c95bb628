import Fanout.Proofs.Dispatch

/-!
# The pool

A permit is either free or held by a call of a job that is not over. `Staffed`
says so by counting, and the rest of it is what makes the counting work: a job
that waits has no call, one that calls has one open call, and one that is done
has one call that was answered, never two. For each batch it keeps the number of
jobs that are not done.

It follows that no permit is lost or made, that a job which is not done is
either calling or will be started as soon as the pool turns to it, and that each
node of a request is called once.
-/

namespace Fanout

namespace Job

def isWaiting (j : Job) : Bool :=
  match j.phase with
  | .waiting => true
  | _ => false

def isCalling (j : Job) : Bool :=
  match j.phase with
  | .calling _ => true
  | _ => false

def isDone (j : Job) : Bool :=
  match j.phase with
  | .done _ => true
  | _ => false

end Job

/-- Elements of which a map makes different values are at different places. -/
theorem eq_of_filterMap_nodup {α β : Type} {l : List α} {f : α → Option β}
    {i i' : Nat} {a a' : α} {b : β} (h : (l.filterMap f).Nodup)
    (hi : l[i]? = some a) (hi' : l[i']? = some a') (ha : f a = some b)
    (ha' : f a' = some b) : i = i' := by
  have hpair : l.Pairwise fun a a' => ∀ b, f a = some b → ∀ b', f a' = some b' →
      b ≠ b' :=
    List.pairwise_filterMap.1 h
  obtain ⟨hlt, rfl⟩ := List.getElem?_eq_some_iff.1 hi
  obtain ⟨hlt', rfl⟩ := List.getElem?_eq_some_iff.1 hi'
  rcases Nat.lt_trichotomy i i' with hii | hii | hii
  · exact absurd rfl (List.pairwise_iff_getElem.1 hpair i i' hlt
      hlt' hii b ha b ha')
  · exact hii
  · exact absurd rfl (List.pairwise_iff_getElem.1 hpair i' i hlt'
      hlt hii b ha' b ha)

namespace Engine

/-- The node of a job, if it belongs to a batch. -/
def nodeIn (b : Nat) (job : Job) : Option Node :=
  if job.batch = b then some job.node else none

/-- The nodes to which a batch is delivered. -/
def nodesOf (e : Engine) (b : Nat) : List Node :=
  e.jobs.filterMap (nodeIn b)

/-- The number of jobs of a batch that are not done. -/
def undone (e : Engine) (b : Nat) : Nat :=
  e.jobs.countP fun job => decide (job.batch = b) && !job.isDone

/-- The permits are accounted for, and calls and jobs belong together. -/
structure Staffed (e : Engine) : Prop where
  permits : e.freePermits + e.calls.countP Call.holdsPermit = e.config.permits
  holders : e.calls.countP Call.holdsPermit = e.jobs.countP Job.isCalling
  handles : (e.batches.map (·.handle)).Nodup
  nodes : ∀ (b : Nat) batch, e.batches[b]? = some batch →
    ∃ c, e.registry.collations[batch.handle]? = some c ∧
      (e.nodesOf b).Perm c.expected ∧ e.nodesOf b ≠ []
  remaining : ∀ (b : Nat) batch, e.batches[b]? = some batch →
    batch.remaining = e.undone b
  calling : ∀ (j : Nat) job k, e.jobs[j]? = some job → job.phase = .calling k →
    ∃ c, e.calls[k]? = some c ∧ c.purpose = .delivery j ∧ c.isOpen = true
  done : ∀ (j : Nat) job a, e.jobs[j]? = some job → job.phase = .done a →
    ∃ (k : Nat) (c : Call), e.calls[k]? = some c ∧ c.purpose = .delivery j ∧
      c.phase = .answered a
  waiting : ∀ (j : Nat) job, e.jobs[j]? = some job → job.phase = .waiting →
    ∀ (k : Nat) c, e.calls[k]? = some c → c.purpose ≠ .delivery j
  once : ∀ (k k' : Nat) c c' j, e.calls[k]? = some c → e.calls[k']? = some c' →
    c.purpose = .delivery j → c'.purpose = .delivery j → k = k'
  serves : ∀ (k : Nat) c j, e.calls[k]? = some c → c.purpose = .delivery j →
    ∃ job batch, e.jobs[j]? = some job ∧ e.batches[job.batch]? = some batch ∧
      c.node = job.node ∧ c.outbound = batch.outbound ∧
      c.timeout = e.config.nodeTimeout

theorem staffed_start (config : EngineConfig) (members : Membership)
    (wants : Bool) : (start config members wants).Staffed where
  permits := rfl
  holders := rfl
  handles := List.nodup_nil
  nodes _ _ h := nomatch h
  remaining _ _ h := nomatch h
  calling _ _ _ h := nomatch h
  done _ _ _ h := nomatch h
  waiting _ _ h := nomatch h
  once _ _ _ _ _ h := nomatch h
  serves _ _ _ h := nomatch h

/-- An open call of a job is the call that the job waits for. -/
theorem Staffed.calling_of_isOpen {e : Engine} (hs : e.Staffed) {k j : Nat}
    {c : Call} {job : Job} (hcall : e.calls[k]? = some c)
    (hpurpose : c.purpose = .delivery j) (hopen : c.isOpen = true)
    (hjob : e.jobs[j]? = some job) : job.phase = .calling k := by
  cases hphase : job.phase with
  | waiting => exact absurd hpurpose (hs.waiting j job hjob hphase k c hcall)
  | calling k' =>
      obtain ⟨c', hc', hp', -⟩ := hs.calling j job k' hjob hphase
      rw [hs.once k k' c c' j hcall hc' hpurpose hp']
  | done a =>
      obtain ⟨k', c', hc', hp', ha⟩ := hs.done j job a hjob hphase
      have hk := hs.once k k' c c' j hcall hc' hpurpose hp'
      subst hk
      rw [hcall] at hc'
      cases hc'
      rw [Call.isOpen, ha] at hopen
      cases hopen

/-- The call of a job is open until it is answered: it is never given up. -/
theorem Staffed.open_or_answered {e : Engine} (hs : e.Staffed) {k j : Nat}
    {c : Call} (hcall : e.calls[k]? = some c)
    (hpurpose : c.purpose = .delivery j) :
    c.isOpen = true ∨ ∃ a, c.phase = .answered a := by
  obtain ⟨job, -, hjob, -⟩ := hs.serves k c j hcall hpurpose
  cases hphase : job.phase with
  | waiting => exact absurd hpurpose (hs.waiting j job hjob hphase k c hcall)
  | calling k' =>
      obtain ⟨c', hc', hp', ho⟩ := hs.calling j job k' hjob hphase
      have hk := hs.once k k' c c' j hcall hc' hpurpose hp'
      subst hk
      rw [hcall] at hc'
      cases hc'
      exact Or.inl ho
  | done a =>
      obtain ⟨k', c', hc', hp', ha⟩ := hs.done j job a hjob hphase
      have hk := hs.once k k' c c' j hcall hc' hpurpose hp'
      subst hk
      rw [hcall] at hc'
      cases hc'
      exact Or.inr ⟨a, ha⟩

theorem Staffed.node_of_answer {e : Engine} (hs : e.Staffed) {k j : Nat}
    {c : Call} {answer : Answer} {job : Job} (hcall : e.calls[k]? = some c)
    (hanswer : c.answer? e.now = some answer)
    (hpurpose : c.purpose = .delivery j) (hjob : e.jobs[j]? = some job) :
    answer.node = job.node := by
  obtain ⟨job', -, hj', -, hnode, -⟩ := hs.serves k c j hcall hpurpose
  rw [hjob] at hj'
  cases hj'
  exact (Call.node_of_answer? hanswer).trans hnode

/-- Two batches fill different collations. -/
theorem Staffed.eq_of_handle {e : Engine} (hs : e.Staffed) {b b' : Nat}
    {batch batch' : Batch} (hb : e.batches[b]? = some batch)
    (hb' : e.batches[b']? = some batch')
    (h : batch.handle = batch'.handle) : b = b' := by
  refine eq_of_filterMap_nodup (f := fun b : Batch => some b.handle) ?_ hb
    hb' rfl (congrArg some h.symm)
  rw [List.filterMap_eq_map']
  exact hs.handles

/-- The collation of a batch waits for the nodes of its jobs. -/
theorem Staffed.mem_expected {e : Engine} (hs : e.Staffed) {j : Nat} {job : Job}
    {batch : Batch} {c : Collation} (hjob : e.jobs[j]? = some job)
    (hbatch : e.batches[job.batch]? = some batch)
    (hc : e.registry.collations[batch.handle]? = some c) :
    job.node ∈ c.expected := by
  obtain ⟨c', hc', hperm, -⟩ := hs.nodes job.batch batch hbatch
  rw [hc] at hc'
  cases hc'
  exact hperm.mem_iff.1 (List.mem_filterMap.2
    ⟨job, List.mem_of_getElem? hjob, if_pos rfl⟩)

/-- A batch with a job that is not done counts it. -/
theorem Staffed.remaining_ne_zero {e : Engine} (hs : e.Staffed) {job : Job}
    {batch : Batch} (hjob : job ∈ e.jobs) (hdone : job.isDone = false)
    (hbatch : e.batches[job.batch]? = some batch) : batch.remaining ≠ 0 := by
  rw [hs.remaining job.batch batch hbatch]
  intro hzero
  refine List.countP_eq_zero.1 hzero job hjob ?_
  rw [decide_eq_true rfl, hdone]
  rfl

/-- Two jobs of one batch have different nodes. -/
theorem Staffed.eq_of_node {e : Engine} (hs : e.Staffed)
    (hsound : ∀ (h : Handle) c, e.registry.collations[h]? = some c → c.Sound)
    {j j' b : Nat} {job job' : Job} {batch : Batch}
    (hbatch : e.batches[b]? = some batch) (hj : e.jobs[j]? = some job)
    (hj' : e.jobs[j']? = some job') (hb : job.batch = b)
    (hb' : job'.batch = b) (hnode : job.node = job'.node) : j = j' := by
  obtain ⟨c, hc, hperm, -⟩ := hs.nodes b batch hbatch
  have hnodup : (e.nodesOf b).Nodup :=
    hperm.nodup_iff.2 (hsound batch.handle c hc).ascending.nodup
  exact eq_of_filterMap_nodup hnodup hj hj' (by rw [nodeIn, if_pos hb])
    (by rw [nodeIn, if_pos hb', hnode])

/-! ## What a shift keeps -/

theorem Staffed.of_idle {e e' : Engine} (hs : e.Staffed)
    (h : Idle e e') : e'.Staffed where
  permits := by
    rw [h.freePermits, h.calls.holding, h.later.config]
    exact hs.permits
  holders := by
    rw [h.calls.holding, h.jobs]
    exact hs.holders
  handles := by
    rw [h.batches]
    exact hs.handles
  nodes b batch hb := by
    rw [h.batches] at hb
    obtain ⟨c, hc, hperm, hne⟩ := hs.nodes b batch hb
    obtain ⟨c', hc', hsame⟩ := h.later.collations _ c hc
    rw [nodesOf, h.jobs, hc', ← nodesOf]
    exact ⟨c', rfl, hsame.expected ▸ hperm, hne⟩
  remaining b batch hb := by
    rw [h.batches] at hb
    rw [undone, h.jobs]
    exact hs.remaining b batch hb
  calling j job k hj hphase := by
    rw [h.jobs] at hj
    obtain ⟨c, hc, hp, ho⟩ := hs.calling j job k hj hphase
    obtain ⟨c', hc', hcc⟩ := h.later.calls k c hc
    have hp' : c'.purpose = .delivery j := hcc.purpose.trans hp
    obtain ⟨c₀, hc₀, -, ho'⟩ := h.calls.deliveries k c' j hc' hp'
    rw [hc] at hc₀
    cases hc₀
    exact ⟨c', hc', hp', ho'.trans ho⟩
  done j job a hj hphase := by
    rw [h.jobs] at hj
    obtain ⟨k, c, hc, hp, ha⟩ := hs.done j job a hj hphase
    obtain ⟨c', hc', hcc⟩ := h.later.calls k c hc
    exact ⟨k, c', hc', hcc.purpose.trans hp,
      (hcc.ended (by rw [Call.isOpen, ha])).trans ha⟩
  waiting j job hj hphase k c' hc' hp' := by
    rw [h.jobs] at hj
    obtain ⟨c, hc, hcc, -⟩ := h.calls.deliveries k c' j hc' hp'
    exact hs.waiting j job hj hphase k c hc (hcc.purpose ▸ hp')
  once k k' c₁ c₁' j hc₁ hc₁' hp hp' := by
    obtain ⟨c, hc, hcc, -⟩ := h.calls.deliveries k c₁ j hc₁ hp
    obtain ⟨c', hc', hcc', -⟩ := h.calls.deliveries k' c₁' j hc₁' hp'
    exact hs.once k k' c c' j hc hc' (hcc.purpose ▸ hp) (hcc'.purpose ▸ hp')
  serves k c' j hc' hp' := by
    obtain ⟨c, hc, hcc, -⟩ := h.calls.deliveries k c' j hc' hp'
    rw [h.jobs, h.batches, hcc.node, hcc.outbound, hcc.timeout, h.later.config]
    exact hs.serves k c j hc (hcc.purpose ▸ hp')

/-- The jobs of a batch that is set up next. -/
def jobsFor (e : Engine) (nodes : List Node) : List Job :=
  nodes.map fun node => { batch := e.batches.length, node }

theorem mem_jobsFor {e : Engine} {nodes : List Node} {job : Job}
    (h : job ∈ e.jobsFor nodes) :
    job.batch = e.batches.length ∧ job.phase = .waiting := by
  obtain ⟨node, -, rfl⟩ := List.mem_map.1 h
  exact ⟨rfl, rfl⟩

theorem old_or_jobsFor {e : Engine} {nodes : List Node} {j : Nat} {job : Job}
    (h : (e.jobs ++ e.jobsFor nodes)[j]? = some job) :
    e.jobs[j]? = some job ∨ e.jobs.length ≤ j ∧ job ∈ e.jobsFor nodes := by
  by_cases hlt : j < e.jobs.length
  · rw [List.getElem?_append_left hlt] at h
    exact Or.inl h
  · rw [List.getElem?_append_right (Nat.le_of_not_lt hlt)] at h
    exact Or.inr ⟨Nat.le_of_not_lt hlt, List.mem_of_getElem? h⟩

/-- A new batch takes no job from the others. -/
theorem filterMap_jobsFor {e : Engine} (nodes : List Node) (b : Nat) :
    (e.jobsFor nodes).filterMap (nodeIn b) = if b =
      e.batches.length then nodes else [] := by
  rw [jobsFor, List.filterMap_map]
  split
  · next hb =>
      have hall : nodes.filterMap (nodeIn b ∘ fun node =>
          ({ batch := e.batches.length, node } : Job)) = nodes.filterMap some :=
        List.filterMap_congr fun n _ => if_pos hb.symm
      rw [hall, List.filterMap_some]
  · next hb =>
      exact List.filterMap_eq_nil_iff.2 fun n _ => if_neg fun h => hb h.symm

theorem countP_jobsFor {e : Engine} (nodes : List Node) (b : Nat) :
    (e.jobsFor nodes).countP (fun job => decide (job.batch = b) &&
      !job.isDone) = if b = e.batches.length then nodes.length else 0 := by
  rw [jobsFor, List.countP_map]
  split
  · next hb =>
      rw [List.countP_eq_length]
      intro n _
      show (decide (e.batches.length = b) && true) = true
      rw [decide_eq_true hb.symm]
      rfl
  · next hb =>
      rw [List.countP_eq_zero]
      intro n _
      show ¬ (decide (e.batches.length = b) && true) = true
      rw [decide_eq_false fun h => hb h.symm]
      exact Bool.false_ne_true

theorem Linked.batch_lt {e : Engine} (hl : Linked e) {job : Job}
    (hjob : job ∈ e.jobs) : job.batch < e.batches.length := by
  obtain ⟨j, hj⟩ := List.getElem?_of_mem hjob
  obtain ⟨batch, hb⟩ := hl.jobs j job hj
  exact (List.getElem?_eq_some_iff.1 hb).1

/-- The batch that is set up has just the nodes it is set up for, and the others
keep theirs. -/
theorem nodesOf_dispatched {e : Engine}
    (hjobs : ∀ job ∈ e.jobs, job.batch < e.batches.length)
    (nodes : List Node) (b : Nat) :
    (e.jobs ++ e.jobsFor nodes).filterMap (nodeIn b) =
      if b = e.batches.length then nodes else e.nodesOf b := by
  rw [List.filterMap_append, filterMap_jobsFor]
  split
  · next hb =>
      have hold : e.jobs.filterMap (nodeIn b) = [] :=
        List.filterMap_eq_nil_iff.2 fun job hj =>
          if_neg fun h => Nat.ne_of_lt (hjobs job hj) (h.trans hb)
      rw [hold, List.nil_append]
  · rw [List.append_nil, nodesOf]

theorem undone_dispatched {e : Engine}
    (hjobs : ∀ job ∈ e.jobs, job.batch < e.batches.length)
    (nodes : List Node) (b : Nat) :
    (e.jobs ++ e.jobsFor nodes).countP
        (fun job => decide (job.batch = b) && !job.isDone) =
      if b = e.batches.length then nodes.length else e.undone b := by
  rw [List.countP_append, countP_jobsFor]
  split
  · next hb =>
      have hold : e.jobs.countP (fun job => decide (job.batch = b) &&
          !job.isDone) = 0 := by
        rw [List.countP_eq_zero]
        intro job hj h
        rw [Bool.and_eq_true, decide_eq_true_eq] at h
        exact Nat.ne_of_lt (hjobs job hj) (h.1.trans hb)
      rw [hold, Nat.zero_add]
  · rw [Nat.add_zero, undone]

theorem Staffed.of_dispatched {e : Engine} (hs : e.Staffed)
    (hjobs : ∀ job ∈ e.jobs, job.batch < e.batches.length)
    {handle : Handle} {outbound : Outbound} {nodes : List Node} {c : Collation}
    (hfresh : ∀ batch ∈ e.batches, batch.handle ≠ handle)
    (hcollation : e.registry.collations[handle]? = some c)
    (hnodes : nodes.Perm c.expected) (hsome : nodes ≠ []) :
    Staffed { e with
      batches := e.batches ++ [{ handle, outbound, remaining := nodes.length }]
      jobs := e.jobs ++ e.jobsFor nodes } := by
  have hold : ∀ {b : Nat} {batch : Batch}, e.batches[b]? = some batch →
      b ≠ e.batches.length :=
        fun hb => Nat.ne_of_lt (List.getElem?_eq_some_iff.1 hb).1
  exact {
    permits := hs.permits
    holders := by
      have hnew : (e.jobsFor nodes).countP Job.isCalling = 0 := by
        rw [List.countP_eq_zero]
        intro job hj
        rw [Job.isCalling, (mem_jobsFor hj).2]
        exact Bool.false_ne_true
      show _ = (e.jobs ++ e.jobsFor nodes).countP Job.isCalling
      rw [List.countP_append, hnew, Nat.add_zero]
      exact hs.holders
    handles := by
      show (List.map (·.handle) (e.batches ++ [_])).Nodup
      rw [List.map_append, List.nodup_append]
      refine ⟨hs.handles, List.pairwise_singleton _ _, fun h hh h' hh' => ?_⟩
      obtain ⟨batch, hb, rfl⟩ := List.mem_map.1 hh
      rw [List.mem_singleton.1 hh']
      exact hfresh batch hb
    nodes := fun b batch hb => by
      rw [nodesOf, nodesOf_dispatched hjobs]
      rcases getElem?_concat_cases hb with hb | ⟨rfl, rfl⟩
      · rw [if_neg (hold hb)]
        exact hs.nodes b batch hb
      · rw [if_pos rfl]
        exact ⟨c, hcollation, hnodes, hsome⟩
    remaining := fun b batch hb => by
      rw [undone, undone_dispatched hjobs]
      rcases getElem?_concat_cases hb with hb | ⟨rfl, rfl⟩
      · rw [if_neg (hold hb)]
        exact hs.remaining b batch hb
      · rw [if_pos rfl]
    calling := fun j job k hj hphase => by
      rcases old_or_jobsFor hj with hj | ⟨-, hnew⟩
      · exact hs.calling j job k hj hphase
      · rw [(mem_jobsFor hnew).2] at hphase
        cases hphase
    done := fun j job a hj hphase => by
      rcases old_or_jobsFor hj with hj | ⟨-, hnew⟩
      · exact hs.done j job a hj hphase
      · rw [(mem_jobsFor hnew).2] at hphase
        cases hphase
    waiting := fun j job hj hphase k c hc hp => by
      rcases old_or_jobsFor hj with hj | ⟨hle, -⟩
      · exact hs.waiting j job hj hphase k c hc hp
      · obtain ⟨job', -, hj', -⟩ := hs.serves k c j hc hp
        exact absurd hj' (getElem?_ne_some hle job')
    once := hs.once
    serves := fun k c j hc hp => by
      obtain ⟨job, batch, hj, hb, hserves⟩ := hs.serves k c j hc hp
      exact ⟨job, batch, getElem?_append_of_some hj _,
        getElem?_append_of_some hb _, hserves⟩ }

/-- A job that is set keeps its place in its batch. -/
theorem nodesOf_set {e : Engine} {j : Nat} {job : Job}
    (hjob : e.jobs[j]? = some job) (phase : JobPhase) (b : Nat) :
    (e.jobs.set j { job with phase }).filterMap (nodeIn b) = e.nodesOf b :=
  filterMap_set_of_some hjob rfl

theorem Staffed.of_started {e : Engine} (hs : e.Staffed) {j : Nat} {job : Job}
    {batch : Batch} (hfree : 0 < e.freePermits) (hjob : e.jobs[j]? = some job)
    (hwaiting : job.phase = .waiting)
    (hbatch : e.batches[job.batch]? = some batch) : Staffed { e with
      calls := e.calls ++ [{
        node := job.node, outbound := batch.outbound, purpose := .delivery j
        started := e.now, timeout := e.config.nodeTimeout }]
      freePermits := e.freePermits - 1
      jobs := e.jobs.set j { job with phase := .calling e.calls.length } } := by
  have hgrows : Grows Job.Becomes e.jobs
      (e.jobs.set j { job with phase := .calling e.calls.length }) :=
    Grows.set Job.Becomes.refl hjob ⟨rfl, rfl⟩
  exact {
    permits := by
      have hp := hs.permits
      show e.freePermits - 1 + List.countP _ (e.calls ++ [_]) = e.config.permits
      rw [List.countP_append, List.countP_singleton]
      show e.freePermits - 1 + (e.calls.countP Call.holdsPermit + 1) =
          e.config.permits
      omega
    holders := by
      have hcount := countP_set_of_some (p := Job.isCalling)
        (b := { job with phase := .calling e.calls.length }) hjob
      have hfalse : job.isCalling = false := by rw [Job.isCalling, hwaiting]
      rw [hfalse] at hcount
      have hh := hs.holders
      show List.countP _ (e.calls ++ [_]) = _
      rw [List.countP_append, List.countP_singleton]
      exact (congrArg (· + 1) hh).trans hcount.symm
    handles := hs.handles
    nodes := fun b batch hb => by
      rw [nodesOf, nodesOf_set hjob]
      exact hs.nodes b batch hb
    remaining := fun b batch hb => by
      have hcount := countP_set_of_some
        (p := fun job : Job => decide (job.batch = b) && !job.isDone)
        (b := { job with phase := .calling e.calls.length }) hjob
      have hnot : job.isDone = false := by rw [Job.isDone, hwaiting]
      simp only [hnot] at hcount
      rw [hs.remaining b batch hb, undone, undone]
      exact (Nat.add_right_cancel hcount).symm
    calling := fun j' job' k hj' hphase => by
      rcases getElem?_set_cases hjob hj' with ⟨rfl, rfl⟩ | ⟨-, hj'⟩
      · cases hphase
        exact ⟨_, List.getElem?_concat_length, rfl, rfl⟩
      · obtain ⟨c, hc, hserves⟩ := hs.calling j' job' k hj' hphase
        exact ⟨c, getElem?_append_of_some hc _, hserves⟩
    done := fun j' job' a hj' hphase => by
      rcases getElem?_set_cases hjob hj' with ⟨rfl, rfl⟩ | ⟨-, hj'⟩
      · cases hphase
      · obtain ⟨k, c, hc, hserves⟩ := hs.done j' job' a hj' hphase
        exact ⟨k, c, getElem?_append_of_some hc _, hserves⟩
    waiting := fun j' job' hj' hphase k c hc hp => by
      rcases getElem?_set_cases hjob hj' with ⟨rfl, rfl⟩ | ⟨hne, hj'⟩
      · cases hphase
      · rcases getElem?_concat_cases hc with hc | ⟨-, rfl⟩
        · exact hs.waiting j' job' hj' hphase k c hc hp
        · cases hp
          exact hne rfl
    once := fun k k' c c' j' hc hc' hp hp' => by
      rcases getElem?_concat_cases hc with hc | ⟨rfl, rfl⟩
      · rcases getElem?_concat_cases hc' with hc' | ⟨rfl, rfl⟩
        · exact hs.once k k' c c' j' hc hc' hp hp'
        · cases hp'
          exact absurd hp (hs.waiting j job hjob hwaiting k c hc)
      · rcases getElem?_concat_cases hc' with hc' | ⟨rfl, rfl⟩
        · cases hp
          exact absurd hp' (hs.waiting j job hjob hwaiting k' c' hc')
        · rfl
    serves := fun k c j' hc hp => by
      rcases getElem?_concat_cases hc with hc | ⟨rfl, rfl⟩
      · obtain ⟨job', batch', hj', hb', hnode, hserves⟩ :=
          hs.serves k c j' hc hp
        obtain ⟨job'', hj'', hjj⟩ := hgrows j' job' hj'
        exact ⟨job'', batch', hj'', hjj.batch ▸ hb', hnode.trans hjj.node.symm,
          hserves⟩
      · cases hp
        obtain ⟨job', hj', hjj⟩ := hgrows j job hjob
        exact ⟨job', batch, hj', hjj.batch ▸ hbatch, hjj.node.symm, rfl, rfl⟩ }

theorem countP_holdsPermit_answered {calls : List Call} {k : Nat} {c : Call}
    (hcall : calls[k]? = some c) (hopen : c.isOpen = true)
    (hdelivery : c.isDelivery = true) (answer : Answer) :
    (calls.set k { c with phase := .answered answer }).countP Call.holdsPermit +
      1 = calls.countP Call.holdsPermit := by
  have hcount := countP_set_of_some (p := Call.holdsPermit)
    (b := { c with phase := .answered answer }) hcall
  have hholds : c.holdsPermit = true := by
    rw [Call.holdsPermit, hopen, hdelivery]
    rfl
  have hfreed : ({ c with phase := .answered answer } : Call).holdsPermit =
      false := rfl
  rw [hholds, hfreed] at hcount
  simpa using hcount

theorem countP_isCalling_done {jobs : List Job} {j k : Nat} {job : Job}
    (hjob : jobs[j]? = some job) (hphase : job.phase = .calling k)
    (answer : Answer) :
      (jobs.set j { job with phase := .done answer }).countP Job.isCalling + 1 =
      jobs.countP Job.isCalling := by
  have hcount := countP_set_of_some (p := Job.isCalling)
    (b := { job with phase := .done answer }) hjob
  have hcalling : job.isCalling = true := by rw [Job.isCalling, hphase]
  have hdone : ({ job with phase := .done answer } : Job).isCalling = false :=
    rfl
  rw [hcalling, hdone] at hcount
  simpa using hcount

/-- A job that is done is one less for its batch to wait for. -/
theorem undone_done {e : Engine} {j k : Nat} {job : Job}
    (hjob : e.jobs[j]? = some job) (hphase : job.phase = .calling k)
    (answer : Answer) (b : Nat) :
        (e.jobs.set j { job with phase := .done answer }).countP
        (fun job => decide (job.batch = b) && !job.isDone) +
      (if job.batch = b then 1 else 0) = e.undone b := by
  have hcount := countP_set_of_some
    (p := fun job : Job => decide (job.batch = b) && !job.isDone)
    (b := { job with phase := .done answer }) hjob
  have hnot : job.isDone = false := by rw [Job.isDone, hphase]
  have hdone : ({ job with phase := .done answer } : Job).isDone = true := rfl
  simp only [hnot, hdone, Bool.not_false, Bool.not_true, Bool.and_true,
    Bool.and_false, decide_eq_true_eq, Bool.false_eq_true, if_false,
    Nat.add_zero] at hcount
  exact hcount

theorem Staffed.of_finished {e : Engine} (hs : e.Staffed) {k : Nat} {c : Call}
    {answer : Answer} {j : Nat} {job : Job} {batch : Batch}
    {held held' : Collation} {callbacks : List (Instant × Report)}
    {metrics : Metrics} {journal : Journal} (hcall : e.calls[k]? = some c)
    (hopen : c.isOpen = true) (hpurpose : c.purpose = .delivery j)
    (hjob : e.jobs[j]? = some job) (hbatch : e.batches[job.batch]? = some batch)
    (hheld : e.registry.collations[batch.handle]? = some held)
    (hsame : held.Same held') : Staffed { e with
      calls := e.calls.set k { c with phase := .answered answer }
      freePermits := e.freePermits + 1
      jobs := e.jobs.set j { job with phase := .done answer }
      batches :=
        e.batches.set job.batch { batch with remaining := batch.remaining - 1 }
      registry := { e.registry with
        collations := e.registry.collations.set batch.handle held' }
      callbacks, metrics, journal } := by
  have hphase := hs.calling_of_isOpen hcall hpurpose hopen hjob
  have hcalls := Grows.set Call.Becomes.refl hcall (Call.Becomes.of_isOpen hopen
    (.answered answer))
  have hjobs : Grows Job.Becomes e.jobs
      (e.jobs.set j { job with phase := .done answer }) :=
    Grows.set Job.Becomes.refl hjob ⟨rfl, rfl⟩
  have hbatches : Grows Batch.Becomes e.batches
      (e.batches.set job.batch
        { batch with remaining := batch.remaining - 1 }) :=
    Grows.set Batch.Becomes.refl hbatch ⟨rfl, rfl⟩
  have hcollations := Grows.set Collation.Same.refl hheld hsame
  have hfreed :=
    countP_holdsPermit_answered hcall hopen
      (Call.isDelivery_iff.2 ⟨j, hpurpose⟩)
    answer
  exact {
    permits := by
      have hp := hs.permits
      show e.freePermits + 1 + List.countP _ (e.calls.set k _) =
          e.config.permits
      omega
    holders := by
      have hh := hs.holders
      have hdone := countP_isCalling_done hjob hphase answer
      show List.countP _ (e.calls.set k _) = List.countP _ (e.jobs.set j _)
      omega
    handles := by
      show (List.map (·.handle) (e.batches.set job.batch _)).Nodup
      rw [List.map_set, set_eq_self_of_some]
      · exact hs.handles
      · rw [List.getElem?_map, hbatch]
        rfl
    nodes := fun b batch' hb => by
      obtain ⟨batch₀, hb₀, hbb⟩ := hbatches.old_of_set hb
      obtain ⟨c₀, hc₀, hperm, hne⟩ := hs.nodes b batch₀ hb₀
      obtain ⟨c', hc', hcc⟩ := hcollations _ c₀ hc₀
      rw [nodesOf, nodesOf_set hjob, hbb.handle]
      exact ⟨c', hc', hcc.expected ▸ hperm, hne⟩
    remaining := fun b batch' hb => by
      have hcount := undone_done hjob hphase answer b
      rcases getElem?_set_cases hbatch hb with ⟨rfl, rfl⟩ | ⟨hbb, hb⟩
      · rw [if_pos rfl] at hcount
        have hr := hs.remaining job.batch batch hbatch
        show batch.remaining - 1 = _
        rw [hr]
        exact Nat.sub_eq_of_eq_add hcount.symm
      · rw [if_neg hbb] at hcount
        exact (hs.remaining b batch' hb).trans hcount.symm
    calling := fun j' job' k' hj' hphase' => by
      rcases getElem?_set_cases hjob hj' with ⟨rfl, rfl⟩ | ⟨hne, hj'⟩
      · cases hphase'
      · obtain ⟨c', hc', hp', ho'⟩ := hs.calling j' job' k' hj' hphase'
        refine ⟨c', ?_, hp', ho'⟩
        rw [getElem?_set_of_some hcall, if_neg]
        · exact hc'
        · intro hkk
          subst hkk
          rw [hcall] at hc'
          cases hc'
          rw [hpurpose] at hp'
          cases hp'
          exact hne rfl
    done := fun j' job' a hj' hphase' => by
      rcases getElem?_set_cases hjob hj' with ⟨rfl, rfl⟩ | ⟨hne, hj'⟩
      · cases hphase'
        exact ⟨k, { c with phase := .answered answer },
          by rw [getElem?_set_of_some hcall, if_pos rfl], hpurpose, rfl⟩
      · obtain ⟨k', c', hc', hp', ha⟩ := hs.done j' job' a hj' hphase'
        obtain ⟨c'', hc'', hcc⟩ := hcalls k' c' hc'
        exact ⟨k', c'', hc'', hcc.purpose.trans hp',
          (hcc.ended (by rw [Call.isOpen, ha])).trans ha⟩
    waiting := fun j' job' hj' hphase' k' c' hc' hp' => by
      rcases getElem?_set_cases hjob hj' with ⟨rfl, rfl⟩ | ⟨-, hj'⟩
      · cases hphase'
      · obtain ⟨c₀, hc₀, hcc⟩ := hcalls.old_of_set hc'
        exact hs.waiting j' job' hj' hphase' k' c₀ hc₀ (hcc.purpose ▸ hp')
    once := fun k₁ k₂ c₁ c₂ j' hc₁ hc₂ hp₁ hp₂ => by
      obtain ⟨c₁', hc₁', hcc₁⟩ := hcalls.old_of_set hc₁
      obtain ⟨c₂', hc₂', hcc₂⟩ := hcalls.old_of_set hc₂
      exact hs.once k₁ k₂ c₁' c₂' j' hc₁' hc₂' (hcc₁.purpose ▸ hp₁)
        (hcc₂.purpose ▸ hp₂)
    serves := fun k' c' j' hc' hp' => by
      obtain ⟨c₀, hc₀, hcc⟩ := hcalls.old_of_set hc'
      obtain ⟨job', batch', hj', hb', hnode, hout, htime⟩ :=
        hs.serves k' c₀ j' hc₀ (hcc.purpose ▸ hp')
      obtain ⟨job'', hj'', hjj⟩ := hjobs j' job' hj'
      obtain ⟨batch'', hb'', hbb⟩ := hbatches job'.batch batch' hb'
      exact ⟨job'', batch'', hj'', hjj.batch ▸ hb'',
        (hcc.node.trans hnode).trans hjj.node.symm,
        (hcc.outbound.trans hout).trans hbb.outbound.symm,
        hcc.timeout.trans htime⟩ }

theorem Shift.staffed {e e' : Engine} (hl : Linked e) (hs : Staffed e)
    (h : Shift e e') : Staffed e' := by
  cases h with
  | idle hidle => exact hs.of_idle hidle
  | dispatched e₁ handle outbound nodes c hidle hfresh hcollation
      hnodes hsome heq =>
      subst heq
      refine (hs.of_idle hidle).of_dispatched (fun job hj => ?_) hfresh
        hcollation hnodes hsome
      rw [hidle.jobs] at hj
      rw [hidle.batches]
      exact hl.batch_lt hj
  | started j job batch hfree hjob hwaiting hbatch heq =>
      subst heq
      exact hs.of_started hfree hjob hwaiting hbatch
  | finished k c answer j job batch held callbacks metrics journal hcall
      hanswer hpurpose hjob hbatch hheld hcallbacks hjournal heq =>
      subst heq
      exact hs.of_finished hcall (Call.isOpen_of_answer? hanswer) hpurpose
        hjob hbatch hheld (Collation.same_merge ..)

/-- The nodes of a batch are fixed when it is set up. -/
theorem Shift.nodesOf_eq {e e' : Engine} (h : Shift e e') {b : Nat}
    (hb : b < e.batches.length) : e'.nodesOf b = e.nodesOf b := by
  cases h with
  | idle hidle => rw [nodesOf, nodesOf, hidle.jobs]
  | dispatched e₁ handle outbound nodes c hidle hfresh hcollation
      hnodes hsome heq =>
      subst heq
      show (e₁.jobs ++ e₁.jobsFor nodes).filterMap (nodeIn b) = e.nodesOf b
      rw [List.filterMap_append, filterMap_jobsFor, hidle.batches,
        if_neg (Nat.ne_of_lt hb), List.append_nil, hidle.jobs, nodesOf]
  | started j job batch hfree hjob hwaiting hbatch heq =>
      subst heq
      exact nodesOf_set hjob _ b
  | finished k c answer j job batch held callbacks metrics journal hcall
      hanswer hpurpose hjob hbatch hheld hcallbacks hjournal heq =>
      subst heq
      exact nodesOf_set hjob _ b

/-! ## What follows for the pool -/

/-- The jobs under way never outnumber the permits. -/
theorem Staffed.countP_underWay_le {e : Engine} (hs : e.Staffed) :
    e.calls.countP (fun c => c.isUnderWay && c.isDelivery) ≤
      e.config.permits := by
  have hle : e.calls.countP (fun c => c.isUnderWay && c.isDelivery) ≤
      e.calls.countP Call.holdsPermit := by
    refine List.countP_mono_left fun c _ hc => ?_
    rw [Bool.and_eq_true] at hc
    have hopen : c.isOpen = true := by
      have hunder := hc.1
      unfold Call.isUnderWay at hunder
      unfold Call.isOpen
      split at hunder
      · next hp => rw [hp]
      · cases hunder
    rw [Call.holdsPermit, hopen, hc.2]
    rfl
  have hp := hs.permits
  omega

/-- As long as a job is not done, a permit is held or can be given. -/
theorem Staffed.progress {e : Engine} (hl : Linked e) (hs : e.Staffed)
    {job : Job} (hjob : job ∈ e.jobs) (hdone : job.isDone = false) :
    (∃ c ∈ e.calls, c.holdsPermit = true) ∨
      (e.step .startJob).isSome = true := by
  by_cases hzero : e.calls.countP Call.holdsPermit = 0
  · -- Nobody holds a permit, so all are free, and the job waits.
    refine Or.inr ?_
    have hfree : 0 < e.freePermits := by
      have hp := hs.permits
      have hone : 1 ≤ e.config.permits := Nat.le_max_right _ _
      omega
    have hnone := List.countP_eq_zero.1 (hs.holders.symm.trans hzero) job hjob
    obtain ⟨j, hj⟩ := List.getElem?_of_mem hjob
    have hwaiting : j ∈ e.waiting := by
      refine List.mem_filter.2 ⟨List.mem_range.2
        (List.getElem?_eq_some_iff.1 hj).1, ?_⟩
      rw [hj]
      obtain ⟨b, n, phase⟩ := job
      cases phase with
      | waiting => rfl
      | calling _ => exact absurd rfl hnone
      | done _ => cases hdone
    obtain ⟨i, hi⟩ := Option.isSome_iff_exists.1
      (List.isSome_head?.2 (List.ne_nil_of_mem hwaiting))
    have hlt :=
      List.mem_range.1 (List.mem_filter.1 (List.mem_of_mem_head? hi)).1
    obtain ⟨batch, hbatch⟩ := hl.jobs i _ (List.getElem?_eq_getElem hlt)
    have hj' := List.getElem?_eq_getElem hlt
    simp only [step, startJob, guard, hfree, if_true, hi, hj', hbatch,
      Option.bind_eq_bind, Option.pure_def, Option.bind_some,
      Option.isSome_some]
  · refine Or.inl ?_
    obtain ⟨c, hc, hp⟩ := List.countP_pos_iff.1 (Nat.pos_of_ne_zero hzero)
    exact ⟨c, hc, hp⟩

end Engine

end Fanout
