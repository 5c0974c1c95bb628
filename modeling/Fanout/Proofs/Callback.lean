import Fanout.Proofs.Delivery

/-!
# Merges and callbacks

Each job that is done has put one answer in, and each batch whose jobs are all
done has called back once. The journal and the list of callbacks are compared
with the jobs and batches themselves: the merges that were told of are those of
the jobs that are done, and the reports that were called back are those of the
finished batches, in the order in which they finished.

What was called back stays true. A finished batch has a complete collation, and
no step changes that any more, so the report of the callback is the one that
anybody will see who looks later.
-/

namespace Fanout

/-- Setting an element adds the value that a map did not make before. -/
theorem filterMap_set_perm {α β : Type} {l : List α} {i : Nat} {a a' : α}
    {b : β} {f : α → Option β} (h : l[i]? = some a) (ha : f a = none)
    (ha' : f a' = some b) :
    ((l.set i a').filterMap f).Perm (b :: l.filterMap f) := by
  induction l generalizing i with
  | nil => cases h
  | cons x rest ih =>
      cases i with
      | zero =>
          cases h
          rw [List.set_cons_zero, List.filterMap_cons_some ha',
            List.filterMap_cons_none ha]
      | succ i =>
          rw [List.set_cons_succ, List.filterMap_cons, List.filterMap_cons]
          cases f x with
          | none => exact ih h
          | some y => exact ((ih h).cons y).trans (List.Perm.swap b y _)

namespace Engine

/-- The merge that a job has made: one if it is done. -/
def mergeOf? (e : Engine) (job : Job) : Option (Node × String) :=
  if job.isDone then (e.collationFor job.batch).map fun c =>
    (job.node, c.id) else none

/-- Whether all jobs of a batch are done. -/
def Finished (e : Engine) (b : Nat) : Prop :=
  ∃ batch, e.batches[b]? = some batch ∧ batch.remaining = 0

/-- The callbacks that were made are those of the finished batches, in some
order. -/
def CalledBack (e : Engine) : Prop :=
  ∃ order : List Nat, order.Nodup ∧ (∀ b, b ∈ order ↔ e.Finished b) ∧
    e.callbacks.map (fun called => some called.2) =
      if e.wantsCallback then
        order.map fun b => (e.collationFor b).map (Collation.report e.now)
      else []

/-- Every delivery so far has been served as it should be. -/
structure Served (e : Engine) : Prop where
  staffed : Staffed e
  filled : Filled e
  timely : Timely e
  complete : ∀ b, e.Finished b → ∃ c, e.collationFor b = some c ∧
    c.isComplete = true
  told : (mergesTold e.journal).Perm (e.jobs.filterMap e.mergeOf?)
  calledBack : CalledBack e

theorem served_start (config : EngineConfig) (members : Membership)
    (wants : Bool) : (start config members wants).Served where
  staffed := staffed_start config members wants
  filled _ _ h := nomatch h
  timely _ _ _ _ h := nomatch h
  complete _ h := nomatch h.choose_spec.1
  told := List.Perm.refl _
  calledBack := by
    refine ⟨[], List.nodup_nil, fun b => ⟨fun h => (nomatch h), fun h => ?_⟩,
      ?_⟩
    · obtain ⟨batch, hb, -⟩ := h
      cases hb
    · split
      · rfl
      · rfl

section

variable {e e' : Engine}

theorem collationFor_later (hl : Linked e) (h : Later e e') {b : Nat}
    {batch : Batch} (hb : e.batches[b]? = some batch) :
    ∃ c c', e.collationFor b = some c ∧ e'.collationFor b = some c' ∧
      c.Same c' := by
  obtain ⟨c, hc⟩ := hl.batches b batch hb
  obtain ⟨batch', hb', hbb⟩ := h.batches b batch hb
  obtain ⟨c', hc', hsame⟩ := h.collations _ c hc
  exact ⟨c, c', (collationFor_eq hb).trans hc,
    (collationFor_eq hb').trans (hbb.handle ▸ hc'), hsame⟩

theorem mergeOf?_later (hl : Linked e) (h : Later e e') {job : Job}
    (hjob : job ∈ e.jobs) : e'.mergeOf? job = e.mergeOf? job := by
  obtain ⟨j, hj⟩ := List.getElem?_of_mem hjob
  obtain ⟨batch, hb⟩ := hl.jobs j job hj
  obtain ⟨c, c', hc, hc', hsame⟩ := collationFor_later hl h hb
  unfold mergeOf?
  rw [hc, hc', Option.map_some, Option.map_some, hsame.id]

/-! ## A finished batch stays as it is -/

/-- What a complete collation of a finished batch is, it remains. -/
theorem Shift.frozen (hs : e.Staffed) (h : Shift e e') {b : Nat} {batch : Batch}
    {c : Collation} (hb : e.batches[b]? = some batch)
    (hzero : batch.remaining = 0)
    (hc : e.registry.collations[batch.handle]? = some c)
    (hcomplete : c.isComplete = true) :
    e'.batches[b]? = some batch ∧
      e'.registry.collations[batch.handle]? = some c := by
  have hidle : ∀ {e₁}, Idle e e₁ → e₁.batches[b]? = some batch ∧
      e₁.registry.collations[batch.handle]? = some c := by
    intro e₁ hidle
    exact ⟨by rw [hidle.batches, hb],
      hidle.registry.collation_of_isComplete hc hcomplete⟩
  cases h with
  | idle h => exact hidle h
  | dispatched e₁ handle outbound nodes c h hfresh hcollation
      hnodes hsome heq =>
      subst heq
      obtain ⟨hb₁, hc₁⟩ := hidle h
      exact ⟨getElem?_append_of_some hb₁ _, hc₁⟩
  | started j job batch' hfree hjob hwaiting hbatch heq =>
      subst heq
      exact ⟨hb, hc⟩
  | finished k call answer j job batch' held callbacks metrics
      journal hcall hanswer hpurpose hjob hbatch hheld
        hcallbacks hjournal heq =>
      subst heq
      have hphase :=
        hs.calling_of_isOpen hcall hpurpose
          (Call.isOpen_of_answer? hanswer) hjob
      have hne : job.batch ≠ b := by
        intro hbb
        refine hs.remaining_ne_zero (List.mem_of_getElem? hjob) ?_ hbatch ?_
        · rw [Job.isDone, hphase]
        · rw [hbb, hb] at hbatch
          cases hbatch
          exact hzero
      refine ⟨?_, ?_⟩
      · show (e.batches.set job.batch _)[b]? = some batch
        rw [getElem?_set_of_some hbatch, if_neg hne]
        exact hb
      · show (e.registry.collations.set batch'.handle _)[batch.handle]? = some c
        rw [getElem?_set_of_some hheld, if_neg fun hh =>
          hne (hs.eq_of_handle hbatch hb hh)]
        exact hc

theorem Shift.finished_later (hs : e.Served) (h : Shift e e') {b : Nat}
    (hb : e.Finished b) :
    e'.Finished b ∧ e'.collationFor b = e.collationFor b := by
  obtain ⟨batch, hbatch, hzero⟩ := hb
  obtain ⟨c, hc, hcomplete⟩ := hs.complete b ⟨batch, hbatch, hzero⟩
  rw [collationFor_eq hbatch] at hc
  obtain ⟨hbatch', hc'⟩ := h.frozen hs.staffed hbatch hzero hc hcomplete
  exact ⟨⟨batch, hbatch',
    hzero⟩, by rw [collationFor_eq hbatch', collationFor_eq hbatch, hc, hc']⟩

/-- The report on a finished batch is always the same. -/
theorem Shift.report_eq (hs : e.Served) (h : Shift e e') {b : Nat}
    (hb : e.Finished b) : (e'.collationFor b).map (Collation.report e'.now) =
      (e.collationFor b).map (Collation.report e.now) := by
  obtain ⟨c, hc, hcomplete⟩ := hs.complete b hb
  rw [(h.finished_later hs hb).2, hc, Option.map_some, Option.map_some,
    Collation.report_of_isComplete hcomplete,
    Collation.report_of_isComplete hcomplete]

/-! ## What a shift keeps -/

/-- A shift by which no batch is finished and nothing is called back. -/
theorem Served.of_same (hs : e.Served) (h : Shift e e') (staffed : Staffed e')
    (filled : Filled e') (timely : Timely e')
    (told : (mergesTold e'.journal).Perm (e'.jobs.filterMap e'.mergeOf?))
    (hfinished : ∀ b, e'.Finished b → e.Finished b)
    (hcallbacks : e'.callbacks = e.callbacks) : e'.Served where
  staffed := staffed
  filled := filled
  timely := timely
  told := told
  complete b hb := by
    obtain ⟨c, hc, hcomplete⟩ := hs.complete b (hfinished b hb)
    exact ⟨c, (h.finished_later hs (hfinished b hb)).2.trans hc, hcomplete⟩
  calledBack := by
    obtain ⟨order, hnodup, hmem, hreports⟩ := hs.calledBack
    refine ⟨order, hnodup, fun b => ⟨fun hb => ?_, fun hb => ?_⟩, ?_⟩
    · exact (h.finished_later hs ((hmem b).1 hb)).1
    · exact (hmem b).2 (hfinished b hb)
    · rw [hcallbacks, hreports, h.later.wantsCallback]
      split
      · exact List.map_congr_left fun b hb =>
          (h.report_eq hs ((hmem b).1 hb)).symm
      · rfl

/-- A shift by which one batch is finished, and its report is called back. -/
theorem Served.of_ended (hs : e.Served) (h : Shift e e') (staffed : Staffed e')
    (filled : Filled e') (timely : Timely e')
    (told : (mergesTold e'.journal).Perm (e'.jobs.filterMap e'.mergeOf?))
    {b : Nat} {c : Collation} (hnot : ¬ e.Finished b) (hfin : e'.Finished b)
    (hfinished : ∀ b', e'.Finished b' → e.Finished b' ∨ b' = b)
    (hfor : e'.collationFor b = some c) (hcomplete : c.isComplete = true)
    (hcallbacks : e'.callbacks =
      if e.wantsCallback = true then e.callbacks ++ [(e'.now, c.report e'.now)]
      else e.callbacks) : e'.Served where
  staffed := staffed
  filled := filled
  timely := timely
  told := told
  complete b' hb' := by
    rcases hfinished b' hb' with hb' | rfl
    · obtain ⟨c', hc', hcomplete'⟩ := hs.complete b' hb'
      exact ⟨c', (h.finished_later hs hb').2.trans hc', hcomplete'⟩
    · exact ⟨c, hfor, hcomplete⟩
  calledBack := by
    obtain ⟨order, hnodup, hmem, hreports⟩ := hs.calledBack
    refine ⟨order ++ [b], ?_, fun b' => ?_, ?_⟩
    · rw [List.nodup_append]
      refine ⟨hnodup, List.pairwise_singleton _ _, fun b₁ hb₁ b₂ hb₂ => ?_⟩
      rw [List.mem_singleton.1 hb₂]
      exact fun he => hnot (he ▸ (hmem b₁).1 hb₁)
    · rw [List.mem_append, List.mem_singleton]
      refine ⟨fun hb' => ?_, fun hb' => (hfinished b' hb').imp_left (hmem b').2⟩
      rcases hb' with hb' | rfl
      · exact (h.finished_later hs ((hmem b').1 hb')).1
      · exact hfin
    · rw [hcallbacks, h.later.wantsCallback]
      split
      · next hwants =>
          rw [List.map_append, List.map_append, hreports, if_pos hwants]
          refine congr (congrArg _ ?_) ?_
          · exact List.map_congr_left fun b hb =>
              (h.report_eq hs ((hmem b).1 hb)).symm
          · rw [List.map_singleton, List.map_singleton, hfor]
            rfl
      · next hwants => rw [hreports, if_neg hwants]

/-- The answer of a job that is done is told as the merge of that job. -/
theorem told_of_finished (hl : Linked e) (hs : e.Served) (h : Later e e')
    {j : Nat} {job : Job} {answer : Answer} {c : Collation} {id : String}
    (hjob : e.jobs[j]? = some job) (hnotDone : job.isDone = false)
    (hnode : answer.node = job.node)
    (hjobs : e'.jobs = e.jobs.set j { job with phase := .done answer })
    (hfor : e'.collationFor job.batch = some c) (hid : c.id = id)
    (hjournal : Tells [(answer.node, id)] e.journal e'.journal) :
    (mergesTold e'.journal).Perm (e'.jobs.filterMap e'.mergeOf?) := by
  have hold : e.jobs.filterMap e'.mergeOf? = e.jobs.filterMap e.mergeOf? :=
    List.filterMap_congr fun job hjob => mergeOf?_later hl h hjob
  have hnew : (e'.jobs.filterMap e'.mergeOf?).Perm
      ((answer.node, id) :: e.jobs.filterMap e'.mergeOf?) := by
    rw [hjobs]
    refine filterMap_set_perm hjob ?_ ?_
    · rw [mergeOf?, hnotDone, if_neg Bool.false_ne_true]
    · show (if true = true then (e'.collationFor job.batch).map _ else none) = _
      rw [if_pos rfl, hfor, Option.map_some, hid, hnode]
  rw [hjournal.mergesTold_eq]
  refine List.perm_append_comm.trans ?_
  rw [hold] at hnew
  exact (hs.told.cons _).trans hnew.symm

theorem told_of_idle (hl : Linked e) (hs : e.Served) (h : Idle e e') :
    (mergesTold e'.journal).Perm (e'.jobs.filterMap e'.mergeOf?) := by
  rw [h.told.mergesTold_eq, List.append_nil, h.jobs]
  refine hs.told.trans (List.Perm.of_eq ?_)
  exact List.filterMap_congr fun job hjob =>
    (mergeOf?_later hl h.later hjob).symm

theorem Served.of_finished (hl : Linked e) (hs : e.Served) {k : Nat} {c : Call}
    {answer : Answer} {j : Nat} {job : Job} {batch : Batch} {held : Collation}
    (h : Shift e e') (staffed : Staffed e') (filled : Filled e')
    (timely : Timely e') (hcall : e.calls[k]? = some c)
    (hanswer : c.answer? e.now = some answer)
    (hpurpose : c.purpose = .delivery j) (hjob : e.jobs[j]? = some job)
    (hbatch : e.batches[job.batch]? = some batch)
    (hheld : e.registry.collations[batch.handle]? = some held)
    (hnow : e'.now = e.now)
    (hjobs : e'.jobs = e.jobs.set j { job with phase := .done answer })
    (hbatches : e'.batches =
      e.batches.set job.batch { batch with remaining := batch.remaining - 1 })
    (hcollations : e'.registry.collations =
      e.registry.collations.set batch.handle (held.merge e.now answer))
    (hcallbacks : e'.callbacks =
      if e.wantsCallback = true ∧ batch.remaining - 1 = 0 then
        e.callbacks ++ [(e.now, (held.merge e.now answer).report e.now)]
      else e.callbacks)
    (hjournal : Tells [(answer.node, held.id)] e.journal e'.journal) :
    e'.Served := by
  have hphase :=
    hs.staffed.calling_of_isOpen hcall hpurpose (Call.isOpen_of_answer? hanswer)
    hjob
  have hbatch' : e'.batches[job.batch]? =
      some { batch with remaining := batch.remaining - 1 } := by
    rw [hbatches, getElem?_set_of_some hbatch, if_pos rfl]
  have hfor : e'.collationFor job.batch = some (held.merge e.now answer) := by
    rw [collationFor_eq hbatch', hcollations, getElem?_set_of_some hheld,
      if_pos rfl]
  have hfor₀ : e.collationFor job.batch = some held :=
    (collationFor_eq hbatch).trans hheld
  have hnotDone : job.isDone = false := by rw [Job.isDone, hphase]
  have hnotFinished : ¬ e.Finished job.batch := by
    rintro ⟨batch₀, hb₀, hzero⟩
    rw [hbatch] at hb₀
    cases hb₀
    exact hs.staffed.remaining_ne_zero (List.mem_of_getElem? hjob)
      hnotDone hbatch hzero
  have hfinished : ∀ b, e'.Finished b → e.Finished b ∨
      b = job.batch ∧ batch.remaining - 1 = 0 := by
    rintro b ⟨batch₁, hb₁, hzero⟩
    rw [hbatches] at hb₁
    rcases getElem?_set_cases hbatch hb₁ with ⟨hbb, rfl⟩ | ⟨-, hb₁⟩
    · exact Or.inr ⟨hbb.symm, hzero⟩
    · exact Or.inl ⟨batch₁, hb₁, hzero⟩
  have htold := told_of_finished hl hs h.later hjob hnotDone
    (hs.staffed.node_of_answer hcall hanswer hpurpose hjob) hjobs hfor
    (Collation.same_merge ..).id hjournal
  by_cases hlast : batch.remaining - 1 = 0
  · -- The batch is finished now, and that is what is called back.
    have hfin : e'.Finished job.batch := ⟨_, hbatch', hlast⟩
    have hcomplete : (held.merge e.now answer).isComplete = true := by
      obtain ⟨held₀, hagrees, -⟩ :=
        filled batch.handle (held.merge e.now answer)
        (by rw [hcollations, getElem?_set_of_some hheld, if_pos rfl])
      have hover := filled.isOver staffed timely hbatch' hlast
        (by rw [hcollations, getElem?_set_of_some hheld, if_pos rfl])
      rw [hnow] at hover
      have hsettled := (hagrees.sound.isComplete_settle e.now).2 hover
      rw [Collation.settle_merge] at hsettled
      exact hsettled
    refine hs.of_ended h staffed filled timely htold hnotFinished hfin
      (fun b hb => (hfinished b hb).imp_right And.left) hfor hcomplete ?_
    rw [hcallbacks, hnow]
    exact if_congr (and_iff_left hlast) rfl rfl
  · refine hs.of_same h staffed filled timely htold (fun b hb => ?_) ?_
    · exact (hfinished b hb).resolve_right fun hnew => hlast hnew.2
    · rw [hcallbacks, if_neg fun h => hlast h.2]

theorem Shift.served (hl : Linked e) (ho : Ordered e) (hs : e.Served)
    (h : Shift e e') : e'.Served := by
  have hstaffed := h.staffed hl hs.staffed
  have hfilled := h.filled hl ho hs.staffed hs.filled
  have htimely := h.timely ho hs.timely
  have hshift := h
  cases h with
  | idle hidle =>
      refine hs.of_same hshift hstaffed hfilled htimely
        (told_of_idle hl hs hidle) ?_ hidle.callbacks
      rintro b ⟨batch, hb, hzero⟩
      exact ⟨batch, hidle.batches ▸ hb, hzero⟩
  | dispatched e₁ handle outbound nodes c hidle hfresh hcollation
      hnodes hsome heq =>
      subst heq
      refine hs.of_same hshift hstaffed hfilled htimely ?_ ?_ hidle.callbacks
      · have htold : (mergesTold e₁.journal).Perm
            (e₁.jobs.filterMap e.mergeOf?) := by
          rw [hidle.told.mergesTold_eq, List.append_nil, hidle.jobs]
          exact hs.told
        refine htold.trans (List.Perm.of_eq ?_)
        show _ = (e₁.jobs ++ e₁.jobsFor nodes).filterMap _
        rw [List.filterMap_append]
        have hnew : (e₁.jobsFor nodes).filterMap (mergeOf? { e₁ with
            batches :=
              e₁.batches ++ [{ handle, outbound, remaining := nodes.length }]
            jobs := e₁.jobs ++ e₁.jobsFor nodes }) = [] := by
          refine List.filterMap_eq_nil_iff.2 fun job hjob => ?_
          rw [mergeOf?, Job.isDone, (mem_jobsFor hjob).2]
          rfl
        refine Eq.trans ?_ (congrArg (_ ++ ·) hnew.symm)
        rw [List.append_nil, hidle.jobs]
        exact List.filterMap_congr fun job hjob =>
          (mergeOf?_later hl hshift.later hjob).symm
      · rintro b ⟨batch, hb, hzero⟩
        rcases getElem?_concat_cases hb with hb | ⟨-, rfl⟩
        · exact ⟨batch, hidle.batches ▸ hb, hzero⟩
        · exact absurd (List.length_eq_zero_iff.1 hzero) hsome
  | started j job batch hfree hjob hwaiting hbatch heq =>
      subst heq
      refine hs.of_same hshift hstaffed hfilled htimely ?_ (fun b hb => hb) rfl
      refine hs.told.trans
        (List.Perm.of_eq (filterMap_set_of_some hjob ?_).symm)
      rw [mergeOf?, mergeOf?, Job.isDone, Job.isDone, hwaiting]
  | finished k c answer j job batch held callbacks metrics journal hcall
      hanswer hpurpose hjob hbatch hheld hcallbacks hjournal heq =>
      subst heq
      exact hs.of_finished hl hshift hstaffed hfilled htimely hcall
        hanswer hpurpose hjob hbatch hheld rfl rfl rfl rfl hcallbacks hjournal

end

/-! ## What every state shows -/

/-- The calls that were made for a job. -/
def callsOf (e : Engine) (j : Nat) : List Call :=
  e.calls.filter fun c => c.purpose = .delivery j

/-- The report on a batch now. -/
def reportOn (e : Engine) (b : Nat) : Option Report :=
  (e.collationFor b).map (Collation.report e.now)

theorem filter_eq_singleton {α : Type} {l : List α} {p : α → Bool} {k : Nat}
    {a : α} (h : l[k]? = some a) (ha : p a = true)
    (hunique : ∀ (k' : Nat) a', l[k']? = some a' → p a' = true → k' = k) :
    l.filter p = [a] := by
  induction l generalizing k with
  | nil => cases h
  | cons x rest ih =>
      cases k with
      | zero =>
          cases h
          have hrest : rest.filter p = [] := by
            refine List.filter_eq_nil_iff.2 fun y hy hpy => ?_
            obtain ⟨i, hi⟩ := List.getElem?_of_mem hy
            cases hunique (i + 1) y hi hpy
          rw [List.filter_cons, if_pos ha, hrest]
      | succ k =>
          have hx : ¬ p x = true := fun hx => nomatch hunique 0 x rfl hx
          rw [List.filter_cons, if_neg hx]
          refine ih h fun k' a' hk' ha' => ?_
          exact Nat.succ.inj (hunique (k' + 1) a' hk' ha')

/-- A job has no call while it waits, and then one. -/
theorem Staffed.callsOf_eq {e : Engine} (hs : e.Staffed) {j k : Nat} {c : Call}
    (hc : e.calls[k]? = some c)
    (hp : c.purpose = .delivery j) : e.callsOf j = [c] :=
  filter_eq_singleton hc (decide_eq_true hp) fun k' c' hc' hp' =>
    hs.once k' k c' c j hc' hc (of_decide_eq_true hp') hp

theorem Staffed.finished_iff {e : Engine} (hs : e.Staffed) {b : Nat} :
    e.Finished b ↔ b < e.batches.length ∧
      ∀ job ∈ e.jobs, job.batch = b → job.isDone = true := by
  refine ⟨?_, fun h => ?_⟩
  · rintro ⟨batch, hb, hzero⟩
    refine ⟨(List.getElem?_eq_some_iff.1 hb).1, fun job hjob hjb => ?_⟩
    obtain ⟨a, ha⟩ :=
      phase_of_undone ((hs.remaining b batch hb).symm.trans hzero) hjob hjb
    rw [Job.isDone, ha]
  · have hb := List.getElem?_eq_getElem h.1
    refine ⟨_, hb, ?_⟩
    rw [hs.remaining b _ hb, undone, List.countP_eq_zero]
    intro job hjob hnot
    rw [Bool.and_eq_true, decide_eq_true_eq] at hnot
    rw [h.2 job hjob hnot.1] at hnot
    cases hnot.2

/-- The report on a finished batch is complete, and nobody will see another
one. -/
theorem report_final {e : Engine} (hl : Linked e) (ho : Ordered e)
    (hs : e.Served) {b : Nat} (hb : e.Finished b) :
    (∃ r, e.reportOn b = some r ∧ r.complete = true ∧ r.pending = []) ∧
      ∀ {acts : List Act} {e' : Engine}, e.perform acts = some e' →
        e'.reportOn b = e.reportOn b := by
  refine ⟨?_, fun hacts => ?_⟩
  · obtain ⟨c, hc, hcomplete⟩ := hs.complete b hb
    obtain ⟨batch, hbatch, -⟩ := hb
    obtain ⟨held, hagrees, -⟩ := hs.filled batch.handle c
      ((collationFor_eq hbatch).symm.trans hc)
    refine ⟨c.view, ?_, hcomplete, hagrees.sound.full hcomplete⟩
    rw [reportOn, hc, Option.map_some, Collation.report_of_isComplete hcomplete]
  · have hkept := perform_induction hl ho
      (P := fun e' => e'.Served ∧ e'.Finished b ∧ e'.reportOn b = e.reportOn b)
      ⟨hs, hb, rfl⟩ (fun e₁ e₂ hl₁ ho₁ hP h => ?_) hacts
    · exact hkept.1.2.2
    · obtain ⟨hs₁, hb₁, hr₁⟩ := hP
      exact ⟨h.served hl₁ ho₁ hs₁, (h.finished_later hs₁ hb₁).1,
        (h.report_eq hs₁ hb₁).trans hr₁⟩

/-- Whatever is dispatched on one pool, and in whatever order replies, errors
and timeouts come:

* the free permits and those that calls hold make up the pool, and no more calls
than that are under way;
* as long as a job is not done, some call holds a permit or a job can start;
* the nodes of a batch are those that its collation waits for, each once, and
each is called once with the request;
* the merges are those of the jobs that are done, one for each;
* the callbacks are those of the batches whose jobs are all done, one for each,
if anybody wants them; the report is complete, and it is the report on that
batch from then on. -/
theorem permits_merges_callbacks (config : EngineConfig)
    (entries : List (Node × Connectivity)) (wants : Bool) {acts : List Act}
    {e : Engine}
    (h : (start config (.ofEntries entries) wants).perform acts = some e) :
    (e.freePermits + e.calls.countP Call.holdsPermit = max config.poolSize 1 ∧
      e.calls.countP (fun c => c.isUnderWay && c.isDelivery) ≤
        max config.poolSize 1) ∧
    (∀ job ∈ e.jobs, job.isDone = false →
      (∃ c ∈ e.calls, c.holdsPermit = true) ∨
      (e.step .startJob).isSome = true) ∧
    (∀ (b : Nat) batch, e.batches[b]? = some batch →
      ∃ c, e.registry.collations[batch.handle]? = some c ∧
        (e.nodesOf b).Perm c.expected ∧ (e.nodesOf b).Nodup ∧
        e.nodesOf b ≠ []) ∧
    (∀ (j : Nat) job, e.jobs[j]? = some job →
      ∃ batch, e.batches[job.batch]? = some batch ∧
        match job.phase with
        | .waiting => e.callsOf j = []
        | .calling _ => ∃ c, e.callsOf j = [c] ∧ c.node = job.node ∧
            c.outbound = batch.outbound ∧ c.holdsPermit = true
        | .done answer => ∃ c, e.callsOf j = [c] ∧ c.node = job.node ∧
            c.outbound = batch.outbound ∧ c.phase = .answered answer) ∧
    (mergesTold e.journal).Perm (e.jobs.filterMap e.mergeOf?) ∧
    ∃ order : List Nat, order.Nodup ∧
      (∀ b, b ∈ order ↔ b < e.batches.length ∧
        ∀ job ∈ e.jobs, job.batch = b → job.isDone = true) ∧
      e.callbacks.map (fun called => some called.2) =
        (if wants then order.map e.reportOn else []) ∧
      ∀ b ∈ order,
        (∃ r, e.reportOn b = some r ∧ r.complete = true ∧ r.pending = []) ∧
        ∀ {acts' : List Act} {e' : Engine}, e.perform acts' = some e' →
          e'.reportOn b = e.reportOn b := by
  obtain ⟨⟨hs, hconfig, hwants⟩, hl, ho⟩ := perform_induction
    (P := fun e => e.Served ∧ e.config = config ∧ e.wantsCallback = wants)
    (linked_start config (.ofEntries entries) wants)
      (ordered_start config entries wants)
    ⟨served_start config (.ofEntries entries) wants, rfl, rfl⟩
    (fun e₁ e₂ hl ho hP hshift => ⟨hshift.served hl ho hP.1,
      hshift.later.config.trans hP.2.1,
      hshift.later.wantsCallback.trans hP.2.2⟩) h
  have hpermits := hs.staffed.permits
  have hunderWay := hs.staffed.countP_underWay_le
  rw [hconfig] at hpermits hunderWay
  refine ⟨⟨hpermits, hunderWay⟩, fun job hjob hdone =>
    hs.staffed.progress hl hjob hdone, fun b batch hb => ?_, fun j job hj =>
      ?_, hs.told, ?_⟩
  · obtain ⟨c, hc, hperm, hne⟩ := hs.staffed.nodes b batch hb
    obtain ⟨held, hagrees, -⟩ := hs.filled batch.handle c hc
    exact ⟨c, hc, hperm, hperm.nodup_iff.2 hagrees.sound.ascending.nodup, hne⟩
  · obtain ⟨batch, hb⟩ := hl.jobs j job hj
    have hserves : ∀ {k : Nat} {c : Call}, e.calls[k]? = some c →
        c.purpose = .delivery j → c.node = job.node ∧
        c.outbound = batch.outbound := by
      intro k c hc hp
      obtain ⟨job', batch', hj', hb', hn, ho, -⟩ :=
        hs.staffed.serves k c j hc hp
      rw [hj] at hj'
      cases hj'
      rw [hb] at hb'
      cases hb'
      exact ⟨hn, ho⟩
    refine ⟨batch, hb, ?_⟩
    cases hphase : job.phase with
    | waiting =>
        refine List.filter_eq_nil_iff.2 fun c hc hp => ?_
        obtain ⟨k, hk⟩ := List.getElem?_of_mem hc
        exact hs.staffed.waiting j job hj hphase k c hk (of_decide_eq_true hp)
    | calling k =>
        obtain ⟨c, hc, hp, hopen⟩ := hs.staffed.calling j job k hj hphase
        refine ⟨c, hs.staffed.callsOf_eq hc hp, (hserves hc hp).1,
          (hserves hc hp).2, ?_⟩
        rw [Call.holdsPermit, hopen, Call.isDelivery_iff.2 ⟨j, hp⟩]
        rfl
    | done answer =>
        obtain ⟨k, c, hc, hp, ha⟩ := hs.staffed.done j job answer hj hphase
        exact ⟨c, hs.staffed.callsOf_eq hc hp, (hserves hc hp).1,
          (hserves hc hp).2, ha⟩
  · obtain ⟨order, hnodup, hmem, hreports⟩ := hs.calledBack
    rw [hwants] at hreports
    exact ⟨order, hnodup, fun b => (hmem b).trans hs.staffed.finished_iff,
      hreports, fun b hb => report_final hl ho hs ((hmem b).1 hb)⟩

/-- A pool of size zero has one permit, and the second answer comes after the
deadline: the callback comes with it, and its report has a timeout in that
answer's place. -/
theorem permits_merges_callbacks_late :
    let a : Node := ⟨"a", "localhost", 1⟩
    let b : Node := ⟨"b", "localhost", 2⟩
    let outbound : Outbound :=
      { id := "r", method := .put, uri := "/", entity := none, headers := [] }
    let acts : List Act :=
      [.make "r" .put "/" [a, b] ⟨10⟩, .dispatch 0 outbound [b, a],
        .event .startJob, .event (.arrive 0 (.ok { status := 200 })),
        .event (.finish 0), .event .startJob,
        .event (.advance 20), .event (.arrive 1 (.ok { status := 200 })),
        .event (.finish 1)]
    ∃ e, (start { poolSize := 0 } (.ofEntries []) true).perform acts = some e ∧
      e.freePermits + e.calls.countP Call.holdsPermit = max 0 1 ∧
      e.callbacks.map (fun called => (called.1, called.2.answers)) =
        [(20, [.timeout a ⟨10⟩, .ofReply b { status := 200 } ⟨0⟩])] := by
  intro a b outbound acts
  have hrun : ((start { poolSize := 0 } (.ofEntries []) true).perform acts).map
      (fun e => e.callbacks.map fun called => (called.1, called.2.answers)) =
      some [(20, [.timeout a ⟨10⟩, .ofReply b { status := 200 } ⟨0⟩])] := by
    decide +kernel
  obtain ⟨e, he, hcallbacks⟩ := Option.map_eq_some_iff.1 hrun
  exact ⟨e, he, (permits_merges_callbacks { poolSize := 0 } [] true he).1.1,
    hcallbacks⟩

end Engine

end Fanout
