import Fanout.Proofs.Pool

/-!
# What is delivered

A collation is filled by the jobs of its batch and by nobody else, so what it
holds can be read off the calls: a node has an answer exactly if its call was
answered before the deadline. `Filled` says this by way of a tally. Nothing
else about the order in which answers came is left in it.

It gives the two facts that callers wait for. When the last job of a batch is
done, every node either has its answer or has missed the deadline, so the
collation is complete; and a complete collation never changes again.
-/

namespace Fanout

open Collation (Agrees Tally)

namespace Engine

/-! ## Answers in time -/

/-- A call delivers to a node the request that a collation belongs to. -/
abbrev Serving (e : Engine) (handle : Handle) (n : Node) (c : Call) : Prop :=
  ∃ j job batch, c.purpose = .delivery j ∧ e.jobs[j]? = some job ∧
    e.batches[job.batch]? = some batch ∧ batch.handle = handle ∧ job.node = n

/-- A call by which a node answered a request. -/
structure Gave (e : Engine) (handle : Handle) (n : Node) (a : Answer) (k : Nat)
    (c : Call) : Prop where
  call : e.calls[k]? = some c
  answered : c.phase = .answered a
  served : e.Serving handle n c

/-- An answer that a node gave before a deadline. -/
def Delivered (e : Engine) (handle : Handle) (deadline : Instant) (n : Node)
    (a : Answer) : Prop :=
  ∃ k c, e.Gave handle n a k c ∧ c.endedAt a < deadline

/-- The collations hold just the answers that were given in time. -/
def Filled (e : Engine) : Prop :=
  ∀ (h : Handle) c, e.registry.collations[h]? = some c →
    ∃ held, Agrees e.now held c ∧ ∀ n a, held n = some a ↔
      e.Delivered h c.deadline n a

section

variable {e e' : Engine} {handle : Handle} {deadline : Instant} {n : Node}
  {a : Answer}

theorem Gave.later {k : Nat} {c : Call} (h : Later e e')
    (hg : e.Gave handle n a k c) :
    ∃ c', e'.Gave handle n a k c' ∧ c.Becomes c' := by
  obtain ⟨j, job, batch, hp, hj, hb, hh, hn⟩ := hg.served
  obtain ⟨c', hc', hcc⟩ := h.calls k c hg.call
  obtain ⟨job', hj', hjj⟩ := h.jobs j job hj
  obtain ⟨batch', hb', hbb⟩ := h.batches job.batch batch hb
  refine ⟨c', ⟨hc', (hcc.ended ?_).trans hg.answered, j, job', batch',
    hcc.purpose.trans hp, hj', hjj.batch ▸ hb', hbb.handle.trans hh,
    hjj.node.trans hn⟩, hcc⟩
  rw [Call.isOpen, hg.answered]

/-- An answer to a call that was answered before was given before. -/
theorem Gave.earlier {k : Nat} {c c' : Call} (hs : e.Staffed) (h : Later e e')
    (hg : e'.Gave handle n a k c') (hc : e.calls[k]? = some c)
    (hcc : c.Becomes c') (ha : c.phase = .answered a) :
    e.Gave handle n a k c := by
  obtain ⟨j, job', batch', hp', hj', hb', hh, hn⟩ := hg.served
  have hp : c.purpose = .delivery j := hcc.purpose ▸ hp'
  obtain ⟨job, batch, hj, hb, -⟩ := hs.serves k c j hc hp
  obtain ⟨job'', hj'', hjj⟩ := h.jobs j job hj
  obtain ⟨batch'', hb'', hbb⟩ := h.batches job.batch batch hb
  rw [hj'] at hj''
  cases hj''
  rw [hjj.batch, hb''] at hb'
  cases hb'
  exact ⟨hc, ha, j, job, batch, hp, hj, hb, hbb.handle ▸ hh, hjj.node ▸ hn⟩

theorem Delivered.later (h : Later e e')
    (hd : e.Delivered handle deadline n a) :
    e'.Delivered handle deadline n a := by
  obtain ⟨k, c, hg, htime⟩ := hd
  obtain ⟨c', hg', hcc⟩ := hg.later h
  refine ⟨k, c', hg', ?_⟩
  rw [Call.endedAt, hcc.started]
  exact htime

/-- If no call of a job is answered in between, what is delivered was delivered
before. -/
theorem Delivered.earlier (hs : e.Staffed) (h : Later e e')
    (hcalls : ∀ (k : Nat) c' j a, e'.calls[k]? = some c' →
      c'.purpose = .delivery j → c'.phase = .answered a →
      ∃ c, e.calls[k]? = some c ∧ c.Becomes c' ∧ c.phase = .answered a)
    (hd : e'.Delivered handle deadline n a) :
    e.Delivered handle deadline n a := by
  obtain ⟨k, c', hg, htime⟩ := hd
  obtain ⟨j, job, batch, hp, -⟩ := hg.served
  obtain ⟨c, hc, hcc, ha⟩ := hcalls k c' j a hg.call hp hg.answered
  refine ⟨k, c, hg.earlier hs h hc hcc ha, ?_⟩
  rw [Call.endedAt, ← hcc.started]
  exact htime

/-- If one call is answered in between, what is delivered is its answer, or it
was delivered before. -/
theorem Delivered.earlier_or_given (hs : e.Staffed) (h : Later e e') {k : Nat}
    {c : Call} {answer : Answer} {given : Handle} {node : Node}
    (hcall : e.calls[k]? = some c)
    (hcalls : e'.calls = e.calls.set k { c with phase := .answered answer })
    (hgave : e'.Gave given node answer k { c with phase := .answered answer })
    (hd : e'.Delivered handle deadline n a) :
    e.Delivered handle deadline n a ∨
      handle = given ∧ n = node ∧ a = answer ∧ c.endedAt answer < deadline := by
  obtain ⟨k', c', hg, htime⟩ := hd
  have hc' := hg.call
  rw [hcalls] at hc'
  rcases getElem?_set_cases hcall hc' with ⟨rfl, rfl⟩ | ⟨-, hc'⟩
  · have ha : answer = a := CallPhase.answered.inj hg.answered
    subst ha
    obtain ⟨j₁, job₁, batch₁, hp₁, hj₁, hb₁, hh₁, hn₁⟩ := hg.served
    obtain ⟨j₂, job₂, batch₂, hp₂, hj₂, hb₂, hh₂, hn₂⟩ := hgave.served
    cases hp₁.symm.trans hp₂
    cases hj₁.symm.trans hj₂
    cases hb₁.symm.trans hb₂
    exact Or.inr ⟨hh₁.symm.trans hh₂, hn₁.symm.trans hn₂, rfl, htime⟩
  · refine Or.inl ⟨k', c', ?_, htime⟩
    exact hg.earlier hs h hc' (Call.Becomes.refl c') hg.answered

end

/-! ## What a shift keeps -/

/-- A collation that was at most looked at stays filled if nothing is delivered
to it in between. -/
theorem filled_of_seen {e e' : Engine} (h : Later e e') {handle : Handle}
    {c c' : Collation} (hseen : c.Seen e.now c')
    (hfilled : ∃ held, Agrees e.now held c ∧
      ∀ n a, held n = some a ↔ e.Delivered handle c.deadline n a)
    (hback : ∀ n a, e'.Delivered handle c.deadline n a →
      e.Delivered handle c.deadline n a) :
    ∃ held, Agrees e'.now held c' ∧
      ∀ n a, held n = some a ↔ e'.Delivered handle c'.deadline n a := by
  obtain ⟨held, hagrees, hheld⟩ := hfilled
  refine ⟨held, (hagrees.of_seen hseen).later h.now, fun n a => ?_⟩
  rw [hseen.same.deadline, hheld]
  exact ⟨Delivered.later h, hback n a⟩

theorem Filled.of_idle {e e' : Engine} (hl : Linked e) (hs : e.Staffed)
    (hf : e.Filled) (h : Idle e e') : e'.Filled := by
  intro handle c' hc'
  rcases h.registry.collations.old_or_new hc' with ⟨c, hc, hseen⟩ | hnew
  · refine filled_of_seen h.later hseen (hf handle c hc) fun n a hd => ?_
    refine hd.earlier hs h.later fun k c₁ j a hc₁ hp ha => ?_
    obtain ⟨c₀, hc₀, hcc, ho⟩ := h.calls.deliveries k c₁ j hc₁ hp
    refine ⟨c₀, hc₀, hcc, (hcc.ended ?_).symm.trans ha⟩
    rw [← ho, Call.isOpen, ha]
  · refine ⟨fun _ => none, (h.registry.fresh handle c' hc' hnew).later
      h.later.now, fun n a =>
        ⟨fun hnone => absurd hnone (Option.some_ne_none a).symm, fun hd => ?_⟩⟩
    -- A batch that fills the new collation would have had no collation before.
    obtain ⟨k, c, hg, -⟩ := hd
    obtain ⟨j, job, batch, -, -, hb, hh, -⟩ := hg.served
    rw [h.batches] at hb
    obtain ⟨c₀, hc₀⟩ := hl.batches job.batch batch hb
    rw [hh, List.getElem?_eq_none hnew] at hc₀
    cases hc₀

/-- A step that touches no collation and answers no call keeps them filled. -/
theorem Filled.of_later {e e' : Engine} (hs : e.Staffed) (hf : e.Filled)
    (h : Later e e')
    (hcollations : e'.registry.collations = e.registry.collations)
    (hcalls : ∀ (k : Nat) c' j a, e'.calls[k]? = some c' →
      c'.purpose = .delivery j → c'.phase = .answered a →
      ∃ c, e.calls[k]? = some c ∧ c.Becomes c' ∧ c.phase = .answered a) :
    e'.Filled := by
  intro handle c hc
  rw [hcollations] at hc
  exact filled_of_seen h (Collation.Seen.refl _ c)
    (hf handle c hc) fun n a hd =>
    hd.earlier hs h hcalls

/-- At most one call delivers a request to a node. -/
theorem Filled.eq_of_serving {e : Engine} (hs : e.Staffed) (hf : e.Filled)
    {handle : Handle} {n : Node} {k k' : Nat} {c c' : Call}
    (hc : e.calls[k]? = some c) (hserving : e.Serving handle n c)
    (hc' : e.calls[k']? = some c')
    (hserving' : e.Serving handle n c') : k = k' := by
  obtain ⟨j, job, batch, hp, hj, hb, hh, hn⟩ := hserving
  obtain ⟨j', job', batch', hp', hj', hb', hh', hn'⟩ := hserving'
  have hbb : job.batch = job'.batch :=
    hs.eq_of_handle hb hb' (hh.trans hh'.symm)
  have hjj : j = j' := by
    refine hs.eq_of_node (fun h c hc => ?_) hb' hj hj' hbb rfl
      (hn.trans hn'.symm)
    obtain ⟨held, hagrees, -⟩ := hf h c hc
    exact hagrees.sound
  subst hjj
  exact hs.once k k' c c' j hc hc' hp hp'

/-- As long as a job is not done, its node has given no answer. -/
theorem Filled.not_gave {e : Engine} (hs : e.Staffed) (hf : e.Filled)
    {j k : Nat} {job : Job} {batch : Batch} (hjob : e.jobs[j]? = some job)
    (hphase : job.phase = .calling k)
    (hbatch : e.batches[job.batch]? = some batch)
    {a : Answer} {k' : Nat} {c : Call} :
    ¬ e.Gave batch.handle job.node a k' c := by
  intro hg
  obtain ⟨c', hc', hp', ho⟩ := hs.calling j job k hjob hphase
  have hk := hf.eq_of_serving hs hg.call hg.served hc'
    ⟨j, job, batch, hp', hjob, hbatch, rfl, rfl⟩
  subst hk
  have hcall := hg.call
  rw [hc'] at hcall
  cases hcall
  rw [Call.isOpen, hg.answered] at ho
  cases ho

/-- The answer of a job that is done is delivered if there is still time for
it. -/
theorem Filled.of_finished {e e' : Engine} (hs : e.Staffed) (hf : e.Filled)
    (h : Later e e') (hnow : e'.now = e.now) {k : Nat} {c : Call}
    {answer : Answer} {j : Nat} {job : Job} {batch : Batch} {held : Collation}
    (hcall : e.calls[k]? = some c) (hstarted : c.started ≤ e.now)
    (hanswer : c.answer? e.now = some answer)
    (hpurpose : c.purpose = .delivery j) (hjob : e.jobs[j]? = some job)
    (hbatch : e.batches[job.batch]? = some batch)
    (hheld : e.registry.collations[batch.handle]? = some held)
    (hcalls : e'.calls = e.calls.set k { c with phase := .answered answer })
    (hcollations : e'.registry.collations =
      e.registry.collations.set batch.handle (held.merge e.now answer)) :
        e'.Filled := by
  have hopen := Call.isOpen_of_answer? hanswer
  have hphase := hs.calling_of_isOpen hcall hpurpose hopen hjob
  have hnode := hs.node_of_answer hcall hanswer hpurpose hjob
  have hended : c.endedAt answer = e.now :=
    Call.endedAt_of_answer? hanswer hstarted
  have hgave : e'.Gave batch.handle job.node answer k
      { c with phase := .answered answer } := by
    obtain ⟨job', hj', hjj⟩ := h.jobs j job hjob
    obtain ⟨batch', hb', hbb⟩ := h.batches job.batch batch hbatch
    exact ⟨by rw [hcalls, getElem?_set_of_some hcall, if_pos rfl], rfl, j, job',
      batch', hpurpose, hj', hjj.batch ▸ hb', hbb.handle, hjj.node⟩
  have hback : ∀ {handle : Handle} {d : Instant} {n : Node} {a : Answer},
      e'.Delivered handle d n a → e.Delivered handle d n a ∨
        handle = batch.handle ∧ n = job.node ∧ a = answer ∧ e.now < d :=
          fun hd =>
    hended ▸ hd.earlier_or_given hs h hcall hcalls hgave
  intro handle c' hc'
  rw [hcollations] at hc'
  rcases getElem?_set_cases hheld hc' with ⟨rfl, rfl⟩ | ⟨hh, hc'⟩
  · obtain ⟨held₀, hagrees, hheld₀⟩ := hf batch.handle held hheld
    have hmerged := hagrees.merge answer
    rw [(Collation.same_merge e.now answer held).deadline, hnow]
    refine ⟨_, hmerged, fun n a => ?_⟩
    have hnone : held₀ job.node = none := by
      cases hsome : held₀ job.node with
      | none => rfl
      | some a =>
          obtain ⟨k', c', hg, -⟩ := (hheld₀ _ _).1 hsome
          exact absurd hg (hf.not_gave hs hjob hphase hbatch)
    have hmem := hs.mem_expected hjob hbatch hheld
    by_cases htime : e.now < held.deadline
    · have htakes : held₀.takes held.expected held.deadline e.now answer =
          true := by
        have hcovers : held₀.covers held.expected = false := by
          rw [Tally.covers, List.all_eq_false]
          exact ⟨job.node, hmem, by rw [hnone]; exact Bool.false_ne_true⟩
        rw [Tally.takes, hnode, List.contains_iff_mem.2 hmem,
          decide_eq_true htime, hcovers]
        rfl
      rw [Tally.offer, if_pos htakes, Tally.put, hnode]
      by_cases hn : job.node = n
      · subst hn
        rw [if_pos rfl]
        refine ⟨fun ha => ?_, fun hd => ?_⟩
        · cases ha
          exact ⟨k, _, hgave, hended ▸ htime⟩
        · rcases hback hd with ⟨k', c', hg, -⟩ | ⟨-, -, rfl, -⟩
          · exact absurd hg (hf.not_gave hs hjob hphase hbatch)
          · rfl
      · rw [if_neg hn, hheld₀]
        refine ⟨Delivered.later h, fun hd => ?_⟩
        exact (hback hd).resolve_right fun hnew => hn hnew.2.1.symm
    · have htakes : held₀.takes held.expected held.deadline e.now answer =
          false := by
        rw [Tally.takes, decide_eq_false htime, Bool.and_false, Bool.false_and]
      rw [Tally.offer, if_neg (by rw [htakes]; exact Bool.false_ne_true),
        hheld₀]
      refine ⟨Delivered.later h, fun hd => ?_⟩
      exact (hback hd).resolve_right fun hnew => htime hnew.2.2.2
  · refine filled_of_seen h (Collation.Seen.refl _ c')
      (hf handle c' hc') fun n a hd => ?_
    exact (hback hd).resolve_right fun hnew => hh hnew.1.symm

theorem Shift.filled {e e' : Engine} (hl : Linked e) (ho : Ordered e)
    (hs : e.Staffed) (hf : e.Filled) (h : Shift e e') : e'.Filled := by
  have hlater := h.later
  cases h with
  | idle hidle => exact hf.of_idle hl hs hidle
  | dispatched e₁ handle outbound nodes c hidle hfresh hcollation
      hnodes hsome heq =>
      subst heq
      refine (hf.of_idle hl hs hidle).of_later (hs.of_idle hidle)
        { Later.refl e₁ with
          batches := Grows.append Batch.Becomes.refl _ _
          jobs := Grows.append Job.Becomes.refl _ _ }
            rfl fun k c' j a hc' _ ha => ?_
      exact ⟨c', hc', Call.Becomes.refl c', ha⟩
  | started j job batch hfree hjob hwaiting hbatch heq =>
      subst heq
      refine hf.of_later hs hlater rfl fun k c' j a hc' _ ha => ?_
      rcases getElem?_concat_cases hc' with hc' | ⟨-, rfl⟩
      · exact ⟨c', hc', Call.Becomes.refl c', ha⟩
      · cases ha
  | finished k c answer j job batch held callbacks metrics journal hcall
      hanswer hpurpose hjob hbatch hheld hcallbacks hjournal heq =>
      subst heq
      exact hf.of_finished hs hlater rfl hcall (ho.started k c hcall)
        hanswer hpurpose hjob hbatch hheld rfl rfl

/-! ## Completion -/

/-- An answer comes from the node that was called, and not from the future. -/
def Timely (e : Engine) : Prop :=
  ∀ (k : Nat) c j a, e.calls[k]? = some c → c.purpose = .delivery j →
    c.phase = .answered a → a.node = c.node ∧ c.endedAt a ≤ e.now

theorem Timely.of_idle {e e' : Engine} (ht : e.Timely)
    (h : Idle e e') : e'.Timely := by
  intro k c' j a hc' hp ha
  obtain ⟨c, hc, hcc, ho⟩ := h.calls.deliveries k c' j hc' hp
  have ha₀ : c.phase = .answered a := by
    refine (hcc.ended ?_).symm.trans ha
    rw [← ho, Call.isOpen, ha]
  obtain ⟨hnode, htime⟩ := ht k c j a hc (hcc.purpose ▸ hp) ha₀
  rw [hcc.node, Call.endedAt, hcc.started]
  exact ⟨hnode, Nat.le_trans htime h.later.now⟩

theorem Shift.timely {e e' : Engine} (ho : Ordered e) (ht : e.Timely)
    (h : Shift e e') : e'.Timely := by
  cases h with
  | idle hidle => exact ht.of_idle hidle
  | dispatched e₁ handle outbound nodes c hidle hfresh hcollation
      hnodes hsome heq =>
      subst heq
      have hidle' : e₁.Timely := ht.of_idle hidle
      exact hidle'
  | started j job batch hfree hjob hwaiting hbatch heq =>
      subst heq
      intro k c' j' a hc' hp ha
      rcases getElem?_concat_cases hc' with hc' | ⟨-, rfl⟩
      · exact ht k c' j' a hc' hp ha
      · cases ha
  | finished k c answer j job batch held callbacks metrics journal hcall
      hanswer hpurpose hjob hbatch hheld hcallbacks hjournal heq =>
      subst heq
      intro k' c' j' a hc' hp ha
      rcases getElem?_set_cases hcall hc' with ⟨-, rfl⟩ | ⟨-, hc'⟩
      · cases ha
        have hnode := Call.node_of_answer? hanswer
        have hended := Call.endedAt_of_answer? hanswer (ho.started k c hcall)
        exact ⟨hnode, Nat.le_of_eq hended⟩
      · exact ht k' c' j' a hc' hp ha

/-- The collation of a batch. -/
def collationFor (e : Engine) (b : Nat) : Option Collation :=
  e.batches[b]?.bind fun batch => e.registry.collation? batch.handle

theorem collationFor_eq {e : Engine} {b : Nat} {batch : Batch}
    (hb : e.batches[b]? = some batch) :
    e.collationFor b = e.registry.collations[batch.handle]? := by
  rw [collationFor, hb]
  rfl

/-- A job of a batch none of whose jobs is left is done. -/
theorem phase_of_undone {e : Engine} {b : Nat} (h : e.undone b = 0) {job : Job}
    (hjob : job ∈ e.jobs) (hb : job.batch = b) : ∃ a, job.phase = .done a := by
  have hnot := List.countP_eq_zero.1 h job hjob
  rw [decide_eq_true hb, Bool.true_and, Bool.not_eq_true,
    Bool.not_eq_false'] at hnot
  unfold Job.isDone at hnot
  split at hnot
  · next a ha => exact ⟨a, ha⟩
  · cases hnot

/-- When the last job of a batch is done, no answer is missing any more, or the
deadline has passed. -/
theorem Filled.isOver {e : Engine} (hs : e.Staffed) (hf : e.Filled)
    (ht : e.Timely) {b : Nat} {batch : Batch} {c : Collation}
    (hb : e.batches[b]? = some batch) (hzero : batch.remaining = 0)
    (hc : e.registry.collations[batch.handle]? = some c) : c.IsOver e.now := by
  obtain ⟨held, hagrees, hheld⟩ := hf batch.handle c hc
  by_cases hlt : e.now < c.deadline
  · refine Or.inl ((hagrees.missing_eq_nil hlt).2 ?_)
    rw [Tally.covers, List.all_eq_true]
    intro n hn
    obtain ⟨c₀, hc₀, hperm, -⟩ := hs.nodes b batch hb
    rw [hc] at hc₀
    cases hc₀
    obtain ⟨job, hmem, hin⟩ := List.mem_filterMap.1 (hperm.mem_iff.2 hn)
    unfold nodeIn at hin
    split at hin
    · next hjb =>
        cases hin
        obtain ⟨a, ha⟩ :=
          phase_of_undone ((hs.remaining b batch hb).symm.trans hzero) hmem hjb
        obtain ⟨j, hj⟩ := List.getElem?_of_mem hmem
        obtain ⟨k, call, hcall, hp, hanswered⟩ := hs.done j job a hj ha
        obtain ⟨-, htime⟩ := ht k call j a hcall hp hanswered
        have hdelivered : e.Delivered batch.handle c.deadline job.node a :=
          ⟨k, call, ⟨hcall, hanswered, j, job, batch, hp, hj, hjb ▸ hb,
            rfl, rfl⟩, Nat.lt_of_le_of_lt htime hlt⟩
        rw [(hheld job.node a).2 hdelivered]
        rfl
    · cases hin
  · exact Or.inr (Nat.le_of_not_lt hlt)

end Engine

end Fanout
