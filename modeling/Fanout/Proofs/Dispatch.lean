import Fanout.Proofs.Runs
import Fanout.Proofs.Tally

/-!
# Delivery seen by itself

Deliveries do not care where they come from. A request is handed to the jobs
together with a collation that expects just its nodes, and from then on only the
pool, the clients and the clock decide. So the laws of delivery are stated for
an engine on which requests may also be dispatched directly, for any collation
that was made before, at any time.

Of the many things that can happen there, three matter to deliveries: a batch is
dispatched, a job starts, and a job is done. Everything else is `Idle`: it
touches no job, no batch and no permit, it neither makes nor closes a call of a
job, and at most looks at the collations. `Shift` is that division, and each
invariant of the deliveries is carried over its four cases.
-/

namespace Fanout

open Collation (Agrees)

namespace Call

/-- Whether a call was made for a job. -/
def isDelivery (c : Call) : Bool :=
  match c.purpose with
  | .delivery _ => true
  | _ => false

/-- Whether a call holds a permit: it was made for a job and is not over. -/
def holdsPermit (c : Call) : Bool :=
  c.isOpen && c.isDelivery

theorem isDelivery_iff {c : Call} :
    c.isDelivery = true ↔ ∃ j, c.purpose = .delivery j := by
  unfold isDelivery
  cases c.purpose with
  | delivery j => exact ⟨fun _ => ⟨j, rfl⟩, fun _ => rfl⟩
  | probe _ => exact ⟨fun h => (nomatch h), fun ⟨_, h⟩ => (nomatch h)⟩
  | single => exact ⟨fun h => (nomatch h), fun ⟨_, h⟩ => (nomatch h)⟩

end Call

namespace Engine

/-! ## Steps that leave the deliveries alone -/

/-- No call of a job is made, and none is over that was not before. -/
structure Undisturbed (calls calls' : List Call) : Prop where
  deliveries : ∀ (k : Nat) c' j, calls'[k]? = some c' →
    c'.purpose = .delivery j → ∃ c, calls[k]? = some c ∧ c.Becomes c' ∧
    c'.isOpen = c.isOpen
  holding : calls'.countP Call.holdsPermit = calls.countP Call.holdsPermit

namespace Undisturbed

variable {calls calls' : List Call}

theorem refl (calls : List Call) : Undisturbed calls calls :=
  ⟨fun _ c' _ h _ => ⟨c', h, Call.Becomes.refl c', rfl⟩, rfl⟩

theorem append {c : Call} (hc : c.isDelivery = false) :
    Undisturbed calls (calls ++ [c]) := by
  refine ⟨fun i c₁ j hi hj => ?_, ?_⟩
  · rcases getElem?_concat_cases hi with hi | ⟨-, rfl⟩
    · exact ⟨c₁, hi, Call.Becomes.refl c₁, rfl⟩
    · rw [Call.isDelivery_iff.2 ⟨j, hj⟩] at hc
      cases hc
  · rw [List.countP_append, List.countP_singleton, Call.holdsPermit, hc,
      Bool.and_false]
    rfl

/-- A call is set that is a probe, or that stays open. -/
theorem set {k : Nat} {c c' : Call} (hcall : calls[k]? = some c)
    (hbecomes : c.Becomes c')
    (h : c.isDelivery = false ∨ c'.isOpen = c.isOpen) :
    Undisturbed calls (calls.set k c') := by
  have hdelivery : c'.isDelivery = c.isDelivery := by
    rw [Call.isDelivery, Call.isDelivery, hbecomes.purpose]
  have hholds : c'.holdsPermit = c.holdsPermit := by
    rw [Call.holdsPermit, Call.holdsPermit, hdelivery]
    rcases h with hd | ho
    · rw [hd, Bool.and_false, Bool.and_false]
    · rw [ho]
  refine ⟨fun i c₁ j hi hj => ?_, ?_⟩
  · rcases getElem?_set_cases hcall hi with ⟨hki, rfl⟩ | ⟨-, hi⟩
    · rcases h with hd | ho
      · rw [← hdelivery, Call.isDelivery_iff.2 ⟨j, hj⟩] at hd
        cases hd
      · exact ⟨c, hki ▸ hcall, hbecomes, ho⟩
    · exact ⟨c₁, hi, Call.Becomes.refl c₁, rfl⟩
  · have hcount := countP_set_of_some (p := Call.holdsPermit) (b := c') hcall
    rw [hholds] at hcount
    omega

/-- Probes are given up. -/
theorem givenUp {given : List Nat} (h : GivenUp given calls calls')
    (hprobes : ∀ i ∈ given, ∃ c, calls[i]? = some c ∧ c.isDelivery = false) :
    Undisturbed calls calls' := by
  have hgiven : ∀ i ∈ given, ∃ c c', calls[i]? = some c ∧ calls'[i]? = some c' ∧
      c.isDelivery = false ∧ c'.isDelivery = false := by
    intro i hi
    obtain ⟨c, hc, hd⟩ := hprobes i hi
    obtain ⟨c', hc', hcc⟩ := h.becomes i c hc
    refine ⟨c, c', hc, hc', hd, ?_⟩
    rw [Call.isDelivery, hcc.purpose]
    exact hd
  refine ⟨fun i c₁ j hi hj => ?_, ?_⟩
  · by_cases hin : i ∈ given
    · obtain ⟨-, c', -, hc', -, hd⟩ := hgiven i hin
      rw [hi] at hc'
      cases hc'
      rw [Call.isDelivery_iff.2 ⟨j, hj⟩] at hd
      cases hd
    · rw [h.others i hin] at hi
      exact ⟨c₁, hi, Call.Becomes.refl c₁, rfl⟩
  · have hmap : calls'.map Call.holdsPermit = calls.map Call.holdsPermit := by
      refine List.ext_getElem? fun i => ?_
      rw [List.getElem?_map, List.getElem?_map]
      by_cases hin : i ∈ given
      · obtain ⟨c, c', hc, hc', hd, hd'⟩ := hgiven i hin
        rw [hc, hc', Option.map_some, Option.map_some, Call.holdsPermit,
          Call.holdsPermit, hd, hd', Bool.and_false, Bool.and_false]
      · rw [h.others i hin]
    have hcount := congrArg (List.countP id) hmap
    rw [List.countP_map, List.countP_map] at hcount
    exact hcount

end Undisturbed

/-- A step that concerns no delivery. -/
structure Idle (e e' : Engine) : Prop where
  later : Later e e'
  jobs : e'.jobs = e.jobs
  batches : e'.batches = e.batches
  freePermits : e'.freePermits = e.freePermits
  callbacks : e'.callbacks = e.callbacks
  told : Quietly e.journal e'.journal
  calls : Undisturbed e.calls e'.calls
  registry : e.registry.Kept e.now e'.registry

/-- What can happen to the deliveries in one step. -/
inductive Shift (e e' : Engine) : Prop where
  | idle (hidle : Idle e e')
  /-- A batch is set up for a collation that no other batch fills. -/
  | dispatched (e₁ : Engine) (handle : Handle) (outbound : Outbound)
      (nodes : List Node) (c : Collation) (hidle : Idle e e₁)
        (hfresh : ∀ batch ∈ e₁.batches, batch.handle ≠ handle)
      (hcollation : e₁.registry.collations[handle]? = some c)
      (hnodes : nodes.Perm c.expected) (hsome : nodes ≠ [])
      (heq : e' = { e₁ with
        batches :=
          e₁.batches ++ [{ handle, outbound, remaining := nodes.length }]
        jobs := e₁.jobs ++ nodes.map fun node =>
          { batch := e₁.batches.length, node } })
  | started (j : Nat) (job : Job) (batch : Batch) (hfree : 0 < e.freePermits)
      (hjob : e.jobs[j]? = some job) (hwaiting : job.phase = .waiting)
      (hbatch : e.batches[job.batch]? = some batch)
      (heq : e' = { e with
        calls := e.calls ++ [{
          node := job.node, outbound := batch.outbound, purpose := .delivery j
          started := e.now, timeout := e.config.nodeTimeout }]
        freePermits := e.freePermits - 1
        jobs := e.jobs.set j { job with phase := .calling e.calls.length } })
  | finished (k : Nat) (c : Call) (answer : Answer) (j : Nat)
      (job : Job) (batch : Batch) (held : Collation)
        (callbacks : List (Instant × Report)) (metrics : Metrics)
      (journal : Journal)
      (hcall : e.calls[k]? = some c) (hanswer : c.answer? e.now = some answer)
      (hpurpose : c.purpose = .delivery j) (hjob : e.jobs[j]? = some job)
      (hbatch : e.batches[job.batch]? = some batch)
      (hheld : e.registry.collations[batch.handle]? = some held)
      (hcallbacks : callbacks =
        if e.wantsCallback = true ∧ batch.remaining - 1 = 0 then
          e.callbacks ++ [(e.now, (held.merge e.now answer).report e.now)]
        else e.callbacks)
      (hjournal : Tells [(answer.node, held.id)] e.journal journal)
      (heq : e' = { e with
        calls := e.calls.set k { c with phase := .answered answer }
        freePermits := e.freePermits + 1
        jobs := e.jobs.set j { job with phase := .done answer }
        batches :=
          e.batches.set job.batch
            { batch with remaining := batch.remaining - 1 }
        registry := { e.registry with
          collations := e.registry.collations.set batch.handle
            (held.merge e.now answer) }
        callbacks, metrics, journal })

/-! ## Every transition is one of them -/

theorem isDelivery_of_probe {c : Call} {r : Nat} (h : c.purpose = .probe r) :
    c.isDelivery = false := by
  rw [Call.isDelivery, h]

theorem waiting_of_head? {e : Engine} {j : Nat} {job : Job}
    (h : e.waiting.head? = some j) (hjob : e.jobs[j]? = some job) :
    job.phase = .waiting := by
  have hmem := (List.mem_filter.1 (List.mem_of_mem_head? h)).2
  rw [hjob] at hmem
  obtain ⟨b, n, phase⟩ := job
  cases phase with
  | waiting => rfl
  | calling _ | done _ => cases hmem

/-- What an admission means to the deliveries: the collation that was registered
is a new one, and it expects the nodes it was made for. -/
theorem Admits.shift {e : Engine} {sub : Submission} {nodes : List Node}
    {registry : Registry} {handle : Handle} (hl : Linked e)
    (hadmits : e.Admits sub nodes registry handle) (hasc : IsAscending nodes)
    (hne : nodes ≠ []) (e₁ : Engine) (hidle : Idle e e₁)
    (hregistry : e₁.registry = registry) : Shift e { e₁ with
      batches := e₁.batches ++
        [{ handle, outbound := sub.outbound, remaining := nodes.length }]
      jobs :=
        e₁.jobs ++ nodes.map fun node =>
          { batch := e₁.batches.length, node } } := by
  obtain ⟨c, hc, hseen⟩ := hadmits.collation
  have hexpected : c.expected = nodes := by
    rw [hseen.same.expected]
    exact ascending_eq_self hasc
  refine .dispatched e₁ handle sub.outbound nodes c hidle
    (fun batch hb he => ?_) (by rw [hregistry]; exact hc)
      (by rw [hexpected]) hne rfl
  rw [hidle.batches] at hb
  obtain ⟨b, hb⟩ := List.getElem?_of_mem hb
  obtain ⟨c', hc'⟩ := hl.batches b batch hb
  rw [he, Registry.handle_of_register hadmits.registered,
    List.getElem?_eq_none (Nat.le_refl _)] at hc'
  cases hc'

theorem Transition.shift {e e' : Engine} {event : Event} (hl : Linked e)
    (ho : Ordered e) (h : Transition e event e') : Shift e e' := by
  have hlater := h.later
  have hkept := Registry.Kept.refl e.now e.registry
  have hprobe : ∀ {k : Nat} {c : Call} {answer : Answer} {r : Nat},
      e.calls[k]? = some c → c.answer? e.now = some answer →
        c.purpose = .probe r →
      Undisturbed e.calls
        (e.calls.set k { c with phase := .answered answer }) :=
    fun hcall hanswer hpurpose => .set hcall
      (Call.Becomes.of_isOpen (Call.isOpen_of_answer? hanswer) _)
      (Or.inl (isDelivery_of_probe hpurpose))
  cases h with
  | aside event now members isStopped isSweeping registry metrics journal hnow
      hadvance hmembers hregistry hjournal =>
      exact .idle ⟨hlater, rfl, rfl, rfl, rfl, hjournal, .refl _, hregistry⟩
  | refused target request id seed fault isSweeping registry metrics
      journal hregistry hjournal =>
      exact .idle ⟨hlater, rfl, rfl, rfl, rfl, hjournal, .refl _, hregistry⟩
  | verified target request id seed nodes metrics journal
      hstopped hresolve hround hconnected hjournal =>
      exact .idle ⟨hlater, rfl, rfl, rfl, rfl, hjournal, .refl _, hkept⟩
  | admitted target request id seed nodes registry handle metrics
      journal hresolve hround hadmits hjournal =>
      refine hadmits.shift hl (isAscending_resolve ho.members hresolve)
        (resolve_ne_nil hresolve) { e with
          submissions := _, isSweeping := true, registry, metrics, journal }
        ?_ rfl
      exact ⟨{ hlater with
        batches := Grows.refl Batch.Becomes.refl _
        jobs := Grows.refl Job.Becomes.refl _ }, rfl, rfl, rfl, rfl, hjournal,
        .refl _, hadmits.kept⟩
  | probed r round node rest hround hphase hunasked =>
      exact .idle ⟨hlater, rfl, rfl, rfl, rfl, Quietly.refl _, .append rfl,
        hkept⟩
  | started j job batch hfree hhead hjob hbatch =>
      exact .started j job batch hfree hjob (waiting_of_head? hhead hjob)
        hbatch rfl
  | arrived k c result hcall hphase =>
      have hopen : c.isOpen = true := by rw [Call.isOpen, hphase]
      exact .idle ⟨hlater, rfl, rfl, rfl, rfl, Quietly.refl _,
        .set hcall (Call.Becomes.of_isOpen hopen _) (Or.inr hopen.symm), hkept⟩
  | finished k c answer j job batch held callbacks metrics journal hcall
      hanswer hpurpose hjob hbatch hheld hcallbacks hjournal =>
      exact .finished k c answer j job batch held callbacks metrics
        journal hcall hanswer hpurpose hjob hbatch hheld hcallbacks hjournal rfl
  | accepted k c answer r round metrics journal hcall hanswer
      hpurpose hround hphase hasked haccepts hmore hjournal =>
      exact .idle ⟨hlater, rfl, rfl, rfl, rfl, hjournal,
        hprobe hcall hanswer hpurpose, hkept⟩
  | passed k c answer r round s sub registry handle metrics journal hcall
      hanswer hpurpose hround hphase hasked haccepts hunasked hlast hs hsub
        hadmits hjournal =>
      obtain ⟨hasc, hne⟩ := ho.targets r round hround
      refine hadmits.shift hl hasc hne { e with
        calls := _, rounds := _, submissions := _, registry, metrics, journal }
        ?_ rfl
      exact ⟨{ hlater with
        batches := Grows.refl Batch.Becomes.refl _
        jobs := Grows.refl Job.Becomes.refl _ }, rfl, rfl, rfl, rfl, hjournal,
        hprobe hcall hanswer hpurpose, hadmits.kept⟩
  | turnedDown k c answer r round s sub fault registry metrics
      journal hcall hanswer hpurpose hround hphase hasked haccepts hunasked
        hlast hs hsub hregistry hjournal =>
      exact .idle ⟨hlater, rfl, rfl, rfl, rfl, hjournal,
        hprobe hcall hanswer hpurpose, hregistry⟩
  | failed event r round s sub fault calls metrics journal hround
      hphase hs hsub hgiven hjournal =>
      refine .idle ⟨hlater, rfl, rfl, rfl, rfl, hjournal,
        .givenUp hgiven fun i hi => ?_, hkept⟩
      obtain ⟨c, hc, hp⟩ := hl.asked r round hround i hi
      exact ⟨c, hc, isDelivery_of_probe hp⟩

theorem Shift.later {e e' : Engine} (h : Shift e e') : Later e e' := by
  cases h with
  | idle hidle => exact hidle.later
  | dispatched e₁ handle outbound nodes c hidle hfresh hcollation
      hnodes hsome heq =>
      subst heq
      exact hidle.later.trans { Later.refl e₁ with
        batches := Grows.append Batch.Becomes.refl _ _
        jobs := Grows.append Job.Becomes.refl _ _ }
  | started j job batch hfree hjob hwaiting hbatch heq =>
      subst heq
      exact { Later.refl e with
        calls := Grows.append Call.Becomes.refl _ _
        jobs := Grows.set Job.Becomes.refl hjob ⟨rfl, rfl⟩ }
  | finished k c answer j job batch held callbacks metrics journal hcall
      hanswer hpurpose hjob hbatch hheld hcallbacks hjournal heq =>
      subst heq
      exact { Later.refl e with
        calls := Grows.set Call.Becomes.refl hcall
          (Call.Becomes.of_isOpen (Call.isOpen_of_answer? hanswer) _)
        jobs := Grows.set Job.Becomes.refl hjob ⟨rfl, rfl⟩
        batches := Grows.set Batch.Becomes.refl hbatch ⟨rfl, rfl⟩
        collations :=
          Grows.set Collation.Same.refl hheld (Collation.same_merge ..) }

/-! ## Runs with direct dispatches -/

end Engine

/-- Something that happens to an engine on which requests are also dispatched
directly. -/
inductive Act where
  | event (event : Event)
  /-- A collation is made that nobody holds. -/
  | make (id : String) (method : Method) (uri : String) (nodes : List Node)
      (timeout : Span)
  /-- A request is dispatched to the nodes that a collation waits for. -/
  | dispatch (handle : Handle) (outbound : Outbound) (nodes : List Node)

namespace Engine

/-- Whether a request may be dispatched to nodes: there are some, they are just
those that the collation waits for, and no other request fills the collation. -/
def mayDispatch (e : Engine) (handle : Handle) (nodes : List Node) : Bool :=
  match e.registry.collation? handle with
  | some c =>
    !nodes.isEmpty && nodes.isPerm c.expected &&
      e.batches.all fun batch => batch.handle != handle
  | none => false

/-- What the engine makes of an act, if it can happen. -/
def act (e : Engine) : Act → Option Engine
  | .event event => e.step event
  | .make id method uri nodes timeout =>
    some { e with
      registry := e.registry.make (.new e.now id method uri nodes timeout) }
  | .dispatch handle outbound nodes =>
    if e.mayDispatch handle nodes then
      some (e.dispatch handle outbound nodes) else none

/-- What the engine makes of acts one after the other, if they can all
happen. -/
def perform (e : Engine) (acts : List Act) : Option Engine :=
  acts.foldlM act e

theorem shift_dispatch {e : Engine} {handle : Handle} (outbound : Outbound)
    {nodes : List Node} (h : e.mayDispatch handle nodes = true) :
    Shift e (e.dispatch handle outbound nodes) := by
  unfold mayDispatch at h
  split at h
  · next c hc =>
      rw [Bool.and_eq_true, Bool.and_eq_true, List.isPerm_iff,
        List.all_eq_true] at h
      obtain ⟨⟨hne, hperm⟩, hfresh⟩ := h
      refine .dispatched (e.tell
          [.dispatching outbound.method outbound.uri nodes.length outbound.id])
        handle outbound nodes c ?_
        (fun batch hb => bne_iff_ne.1 (hfresh batch hb)) hc hperm
        (fun he => ?_) rfl
      · exact ⟨{ Later.refl e with }, rfl, rfl, rfl, rfl, Tells.append _ rfl,
          .refl _, Registry.Kept.refl _ _⟩
      · rw [he] at hne
        cases hne
  · cases h

theorem act_shift {e e' : Engine} (hl : Linked e) (ho : Ordered e) {act : Act}
    (h : e.act act = some e') : Shift e e' ∧ Linked e' ∧ Ordered e' := by
  have htransition : ∀ {event e'}, Transition e event e' →
      Shift e e' ∧ Linked e' ∧ Ordered e' :=
    fun ht => ⟨ht.shift hl ho, ht.linked hl, ht.ordered ho⟩
  cases act with
  | event event => exact htransition (step_transition hl h)
  | make id method uri nodes timeout =>
      cases h
      have hkept := Registry.kept_make
        (Collation.agrees_new e.now id method uri nodes timeout) e.registry
      have hlater : Later e { e with registry := e.registry.make _ } :=
        { Later.refl e with collations := hkept.same }
      refine ⟨.idle ⟨hlater, rfl, rfl, rfl, rfl, Quietly.refl _, .refl _,
        hkept⟩, ?_, ho.members, ho.targets, ho.started⟩
      exact hl.of_later hlater (fun k c hk hc =>
        absurd hc (getElem?_ne_some hk c)) (fun r round hr h =>
          absurd h (getElem?_ne_some hr round))
        (fun j job hj h => absurd h (getElem?_ne_some hj job))
        (fun b batch hb h => absurd h (getElem?_ne_some hb batch)) hl.probes
        fun r round hr k hk => Or.inl ⟨round, hr, hk⟩
  | dispatch handle outbound nodes =>
      rw [Engine.act] at h
      split at h
      · next hmay =>
          cases h
          refine ⟨shift_dispatch outbound hmay, ?_, ho.members, ho.targets,
            ho.started⟩
          unfold mayDispatch at hmay
          split at hmay
          · next c hc =>
              refine hl.of_later { Later.refl e with
                batches := Grows.append Batch.Becomes.refl _ _
                jobs := Grows.append Job.Becomes.refl _ _ }
                (fun k c hk hc => absurd hc (getElem?_ne_some hk c))
                (fun r round hr h => absurd h (getElem?_ne_some hr round))
                (fun j job hj h => ⟨_, batch_of_dispatched _ hj h⟩)
                (fun b batch hb h => ?_) hl.probes
                fun r round hr k hk => Or.inl ⟨round, hr, hk⟩
              obtain ⟨-, rfl⟩ := eq_of_getElem?_concat hb h
              exact ⟨c, hc⟩
          · cases hmay
      · cases h

/-- What holds at the start and is kept by every shift holds after all acts. -/
theorem perform_induction {P : Engine → Prop} {e₀ : Engine} (hl : Linked e₀)
    (ho : Ordered e₀) (hstart : P e₀)
    (hshift : ∀ e e', Linked e → Ordered e → P e → Shift e e' → P e') :
    ∀ {acts : List Act} {e : Engine}, e₀.perform acts = some e →
      P e ∧ Linked e ∧ Ordered e := by
  intro acts
  induction acts generalizing e₀ with
  | nil =>
      intro e h
      cases h
      exact ⟨hstart, hl, ho⟩
  | cons act rest ih =>
      intro e h
      rw [perform, List.foldlM_cons] at h
      obtain ⟨e₁, hact, hrest⟩ := Option.bind_eq_some_iff.1 h
      obtain ⟨hs, hl₁, ho₁⟩ := act_shift hl ho hact
      exact ih hl₁ ho₁ (hshift e₀ e₁ hl ho hstart hs) hrest

end Engine

end Fanout
