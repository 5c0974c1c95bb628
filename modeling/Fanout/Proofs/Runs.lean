import Fanout.Proofs.Moves
import Mathlib.Data.List.Induction

/-!
# Runs

A step only adds records and moves the phases of records forward, and `Later`
says so for all lists of the engine at once. It is a preorder, so what holds of
a step holds of a run. With it the references of a state stay good, because the
record that is named is still at its place, and only the records that a step
adds have to be looked at.

An invariant is proved once for a step and holds then of every run. The form in
which it is used here also shows the run that has led to a state, since some
facts are about the past: a record may say in which earlier state it was born.
-/

namespace Fanout

/-! ## What records may become -/

/-- A submission stays what was handed in. -/
structure Submission.Becomes (s s' : Submission) : Prop where
  target : s'.target = s.target
  request : s'.request = s.request
  id : s'.id = s.id
  seed : s'.seed = s.seed
  submitted : s'.submitted = s.submitted

/-- A round keeps its question and its targets, and it ends only once. -/
structure Round.Becomes (r r' : Round) : Prop where
  outbound : r'.outbound = r.outbound
  targets : r'.targets = r.targets
  deadline : r'.deadline = r.deadline
  submission : r'.submission = r.submission
  ended : r.phase = .running ∨ r' = r

/-- A job keeps its node. -/
structure Job.Becomes (j j' : Job) : Prop where
  batch : j'.batch = j.batch
  node : j'.node = j.node

/-- A batch keeps what is delivered. -/
structure Batch.Becomes (b b' : Batch) : Prop where
  handle : b'.handle = b.handle
  outbound : b'.outbound = b.outbound

theorem Submission.Becomes.refl (s : Submission) :
    Becomes s s := ⟨rfl, rfl, rfl, rfl, rfl⟩

theorem Submission.Becomes.trans {s₁ s₂ s₃ : Submission} (h : Becomes s₁ s₂)
    (h' : Becomes s₂ s₃) : Becomes s₁ s₃ :=
  ⟨h'.target.trans h.target, h'.request.trans h.request, h'.id.trans h.id,
    h'.seed.trans h.seed, h'.submitted.trans h.submitted⟩

theorem Submission.Becomes.outbound_eq {s s' : Submission} (h : s.Becomes s') :
    s'.outbound = s.outbound := by
  rw [Submission.outbound, Submission.outbound, h.id, h.seed, h.target,
    h.request]

theorem Round.Becomes.refl (r : Round) : Becomes r r :=
  ⟨rfl, rfl, rfl, rfl, Or.inr rfl⟩

theorem Round.Becomes.trans {r₁ r₂ r₃ : Round} (h : Becomes r₁ r₂)
    (h' : Becomes r₂ r₃) : Becomes r₁ r₃ where
  outbound := h'.outbound.trans h.outbound
  targets := h'.targets.trans h.targets
  deadline := h'.deadline.trans h.deadline
  submission := h'.submission.trans h.submission
  ended := by
    rcases h.ended with hr | rfl
    · exact Or.inl hr
    · exact h'.ended

theorem Job.Becomes.refl (j : Job) : Becomes j j := ⟨rfl, rfl⟩

theorem Job.Becomes.trans {j₁ j₂ j₃ : Job} (h : Becomes j₁ j₂)
    (h' : Becomes j₂ j₃) : Becomes j₁ j₃ :=
  ⟨h'.batch.trans h.batch, h'.node.trans h.node⟩

theorem Batch.Becomes.refl (b : Batch) : Becomes b b := ⟨rfl, rfl⟩

theorem Batch.Becomes.trans {b₁ b₂ b₃ : Batch} (h : Becomes b₁ b₂)
    (h' : Becomes b₂ b₃) : Becomes b₁ b₃ :=
  ⟨h'.handle.trans h.handle, h'.outbound.trans h.outbound⟩

namespace Engine

/-- A state that another may lead to. -/
structure Later (e e' : Engine) : Prop where
  config : e'.config = e.config
  wantsCallback : e'.wantsCallback = e.wantsCallback
  now : e.now ≤ e'.now
  submissions : Grows Submission.Becomes e.submissions e'.submissions
  rounds : Grows Round.Becomes e.rounds e'.rounds
  calls : Grows Call.Becomes e.calls e'.calls
  batches : Grows Batch.Becomes e.batches e'.batches
  jobs : Grows Job.Becomes e.jobs e'.jobs
  collations : Grows Collation.Same e.registry.collations e'.registry.collations

theorem Later.refl (e : Engine) : Later e e where
  config := rfl
  wantsCallback := rfl
  now := Nat.le_refl _
  submissions := Grows.refl Submission.Becomes.refl _
  rounds := Grows.refl Round.Becomes.refl _
  calls := Grows.refl Call.Becomes.refl _
  batches := Grows.refl Batch.Becomes.refl _
  jobs := Grows.refl Job.Becomes.refl _
  collations := Grows.refl Collation.Same.refl _

theorem Later.trans {e₁ e₂ e₃ : Engine} (h : Later e₁ e₂) (h' : Later e₂ e₃) :
    Later e₁ e₃ where
  config := h'.config.trans h.config
  wantsCallback := h'.wantsCallback.trans h.wantsCallback
  now := Nat.le_trans h.now h'.now
  submissions :=
    Grows.trans Submission.Becomes.trans h.submissions h'.submissions
  rounds := Grows.trans Round.Becomes.trans h.rounds h'.rounds
  calls := Grows.trans Call.Becomes.trans h.calls h'.calls
  batches := Grows.trans Batch.Becomes.trans h.batches h'.batches
  jobs := Grows.trans Job.Becomes.trans h.jobs h'.jobs
  collations := Grows.trans Collation.Same.trans h.collations h'.collations

/-- A round that is over stays as it is. -/
theorem Later.round_of_ended {e e' : Engine} (h : Later e e') {r : Nat}
    {round : Round} (hr : e.rounds[r]? = some round)
    (hended : round.phase ≠ .running) : e'.rounds[r]? = some round := by
  obtain ⟨round', hr', hrr⟩ := h.rounds r round hr
  rcases hrr.ended with hrunning | rfl
  · exact absurd hrunning hended
  · exact hr'

theorem Admits.kept {e : Engine} {sub : Submission} {nodes : List Node}
    {registry : Registry} {handle : Handle}
    (h : e.Admits sub nodes registry handle) :
    e.registry.Kept e.now registry := by
  have hkept :=
    Registry.kept_register (e.agrees_collationOf sub nodes) e.registry
  rw [h.registered] at hkept
  exact hkept

theorem Transition.later {e e' : Engine} {event : Event}
    (h : Transition e event e') : Later e e' := by
  have hrefl := Later.refl e
  have hanswered : ∀ {k : Nat} {c : Call} {answer : Answer}, e.calls[k]? =
      some c → c.answer? e.now = some answer → Grows Call.Becomes e.calls
        (e.calls.set k { c with phase := .answered answer }) :=
    fun hcall hanswer => Grows.set Call.Becomes.refl hcall
      (Call.Becomes.of_isOpen (Call.isOpen_of_answer? hanswer) _)
  cases h with
  | aside event now members isStopped isSweeping registry metrics journal hnow
      hadvance hmembers hregistry hjournal =>
      exact { hrefl with now := hnow, collations := hregistry.same }
  | refused target request id seed fault isSweeping registry metrics
      journal hregistry hjournal =>
      exact { hrefl with
        submissions := Grows.append Submission.Becomes.refl _ _
        collations := hregistry.same }
  | verified target request id seed nodes metrics journal =>
      exact { hrefl with
        submissions := Grows.append Submission.Becomes.refl _ _
        rounds := Grows.append Round.Becomes.refl _ _ }
  | admitted target request id seed nodes registry handle metrics
      journal hresolve hround hadmits hjournal =>
      exact { hrefl with
        submissions := Grows.append Submission.Becomes.refl _ _
        batches := Grows.append Batch.Becomes.refl _ _
        jobs := Grows.append Job.Becomes.refl _ _
        collations := hadmits.kept.same }
  | probed r round node rest hround hphase hunasked =>
      exact { hrefl with
        calls := Grows.append Call.Becomes.refl _ _
        rounds :=
          Grows.set Round.Becomes.refl hround
            ⟨rfl, rfl, rfl, rfl, Or.inl hphase⟩ }
  | started j job batch hfree hhead hjob hbatch =>
      exact { hrefl with
        calls := Grows.append Call.Becomes.refl _ _
        jobs := Grows.set Job.Becomes.refl hjob ⟨rfl, rfl⟩ }
  | arrived k c result hcall hphase =>
      exact { hrefl with
        calls := Grows.set Call.Becomes.refl hcall
          (Call.Becomes.of_isOpen (by rw [Call.isOpen, hphase]) _) }
  | finished k c answer j job batch held callbacks metrics journal hcall
      hanswer hpurpose hjob hbatch hheld hcallbacks hjournal =>
      exact { hrefl with
        calls := hanswered hcall hanswer
        jobs := Grows.set Job.Becomes.refl hjob ⟨rfl, rfl⟩
        batches := Grows.set Batch.Becomes.refl hbatch ⟨rfl, rfl⟩
        collations :=
          Grows.set Collation.Same.refl hheld (Collation.same_merge ..) }
  | accepted k c answer r round metrics journal hcall hanswer hpurpose
      hround hphase =>
      exact { hrefl with
        calls := hanswered hcall hanswer
        rounds :=
          Grows.set Round.Becomes.refl hround
            ⟨rfl, rfl, rfl, rfl, Or.inl hphase⟩ }
  | passed k c answer r round s sub registry handle metrics journal hcall
      hanswer hpurpose hround hphase hasked haccepts hunasked hlast
        hs hsub hadmits =>
      exact { hrefl with
        calls := hanswered hcall hanswer
        rounds :=
          Grows.set Round.Becomes.refl hround
            ⟨rfl, rfl, rfl, rfl, Or.inl hphase⟩
        submissions :=
          Grows.set Submission.Becomes.refl hsub ⟨rfl, rfl, rfl, rfl, rfl⟩
        batches := Grows.append Batch.Becomes.refl _ _
        jobs := Grows.append Job.Becomes.refl _ _
        collations := hadmits.kept.same }
  | turnedDown k c answer r round s sub fault registry metrics
      journal hcall hanswer hpurpose hround hphase hasked haccepts hunasked
        hlast hs hsub hregistry =>
      exact { hrefl with
        calls := hanswered hcall hanswer
        rounds :=
          Grows.set Round.Becomes.refl hround
            ⟨rfl, rfl, rfl, rfl, Or.inl hphase⟩
        submissions :=
          Grows.set Submission.Becomes.refl hsub ⟨rfl, rfl, rfl, rfl, rfl⟩
        collations := hregistry.same }
  | failed event r round s sub fault calls metrics journal hround hphase
      hs hsub hgiven =>
      exact { hrefl with
        calls := hgiven.becomes
        rounds :=
          Grows.set Round.Becomes.refl hround
            ⟨rfl, rfl, rfl, rfl, Or.inl hphase⟩
        submissions :=
          Grows.set Submission.Becomes.refl hsub ⟨rfl, rfl, rfl, rfl, rfl⟩ }

/-! ## References stay good -/

/-- The references of a later state are good if those of its new records are,
and if the rounds and their open probes still belong together. -/
theorem Linked.of_later {e e' : Engine} (hl : Linked e) (h : Later e e')
    (hcalls : ∀ k c, e.calls.length ≤ k → e'.calls[k]? = some c →
      c.purpose ≠ .single ∧ ∀ j, c.purpose = .delivery j →
      ∃ job, e'.jobs[j]? = some job)
    (hrounds : ∀ r round, e.rounds.length ≤ r → e'.rounds[r]? = some round →
      ∃ s sub, round.submission = some s ∧ e'.submissions[s]? = some sub)
    (hjobs : ∀ j job, e.jobs.length ≤ j → e'.jobs[j]? = some job →
      ∃ batch, e'.batches[job.batch]? = some batch)
    (hbatches : ∀ b batch, e.batches.length ≤ b → e'.batches[b]? = some batch →
      ∃ c, e'.registry.collations[batch.handle]? = some c)
    (hprobes : ∀ (k : Nat) c r, e'.calls[k]? = some c → c.purpose = .probe r →
      c.isOpen = true →
      ∃ round, e'.rounds[r]? = some round ∧ round.phase = .running ∧
        k ∈ round.asked)
    (hasked : ∀ (r : Nat) round, e'.rounds[r]? = some round → ∀ k ∈ round.asked,
      (∃ round₀, e.rounds[r]? = some round₀ ∧ k ∈ round₀.asked) ∨
        ∃ c, e'.calls[k]? = some c ∧ c.purpose = .probe r) : Linked e' where
  probes := hprobes
  asked r round hr k hk := by
    rcases hasked r round hr k hk with ⟨round₀, hr₀, hk₀⟩ | hnew
    · obtain ⟨c, hc, hp⟩ := hl.asked r round₀ hr₀ k hk₀
      obtain ⟨c', hc', hcc⟩ := h.calls k c hc
      exact ⟨c', hc', hcc.purpose.trans hp⟩
    · exact hnew
  deliveries k c j hc hj := by
    rcases h.calls.old_or_new hc with ⟨c₀, hc₀, hcc⟩ | hnew
    · obtain ⟨job, hjob⟩ := hl.deliveries k c₀ j hc₀ (hcc.purpose ▸ hj)
      obtain ⟨job', hjob', -⟩ := h.jobs j job hjob
      exact ⟨job', hjob'⟩
    · exact (hcalls k c hnew hc).2 j hj
  single k c hc := by
    rcases h.calls.old_or_new hc with ⟨c₀, hc₀, hcc⟩ | hnew
    · rw [hcc.purpose]
      exact hl.single k c₀ hc₀
    · exact (hcalls k c hnew hc).1
  rounds r round hr := by
    rcases h.rounds.old_or_new hr with ⟨round₀, hr₀, hrr⟩ | hnew
    · obtain ⟨s, sub, hs, hsub⟩ := hl.rounds r round₀ hr₀
      obtain ⟨sub', hsub', -⟩ := h.submissions s sub hsub
      exact ⟨s, sub', hrr.submission.trans hs, hsub'⟩
    · exact hrounds r round hnew hr
  jobs j job hj := by
    rcases h.jobs.old_or_new hj with ⟨job₀, hj₀, hjj⟩ | hnew
    · obtain ⟨batch, hbatch⟩ := hl.jobs j job₀ hj₀
      obtain ⟨batch', hbatch', -⟩ := h.batches _ batch hbatch
      exact ⟨batch', by rw [hjj.batch, hbatch']⟩
    · exact hjobs j job hnew hj
  batches b batch hb := by
    rcases h.batches.old_or_new hb with ⟨batch₀, hb₀, hbb⟩ | hnew
    · obtain ⟨c, hc⟩ := hl.batches b batch₀ hb₀
      obtain ⟨c', hc', -⟩ := h.collations _ c hc
      exact ⟨c', by rw [hbb.handle, hc']⟩
    · exact hbatches b batch hnew hb

theorem Transition.linked {e e' : Engine} {event : Event} (hl : Linked e)
    (h : Transition e event e') : Linked e' := by
  refine hl.of_later h.later (fun k c hk hc => ?_) (fun r round hr hround => ?_)
    (fun j job hj hjob => h.new_job hj hjob) (fun b batch hb hbatch =>
      h.new_batch hb hbatch)
    (fun k c r hc hp ho => h.open_probe hl hc hp ho)
    fun r round hr k hk => h.asked_cases hr hk
  · obtain ⟨-, -, ⟨r, -, -, -, hp, -⟩ | ⟨-, -, j, job, -, hj, -, hp, -⟩⟩ :=
      h.new_call hk hc
    · rw [hp]
      exact ⟨fun h => (nomatch h), fun j h => (nomatch h)⟩
    · rw [hp]
      refine ⟨fun h => (nomatch h), fun j' hjj => ?_⟩
      cases hjj
      obtain ⟨job', hj', -⟩ := h.later.jobs j job hj
      exact ⟨job', hj'⟩
  · obtain ⟨-, -, -, -, hs, sub, hsub, -⟩ := h.new_round hr hround
    exact ⟨_, sub, hs, hsub⟩

/-! ## Targets and moments are in order -/

/-- The members are in ascending order, and so are the targets of every round,
of which there is at least one. No call was started later than now. -/
structure Ordered (e : Engine) : Prop where
  members : IsAscending (e.members.entries.map (·.1))
  targets : ∀ (r : Nat) round, e.rounds[r]? = some round →
    IsAscending round.targets ∧ round.targets ≠ []
  started : ∀ (k : Nat) c, e.calls[k]? = some c → c.started ≤ e.now

theorem isAscending_ofEntries (entries : List (Node × Connectivity)) :
    IsAscending ((Membership.ofEntries entries).entries.map (·.1)) := by
  have hadd : ∀ (m : Membership), IsAscending (m.entries.map (·.1)) →
      IsAscending
        ((entries.foldl (fun m e => m.add e.1 e.2) m).entries.map (·.1)) := by
    induction entries with
    | nil => exact fun m h => h
    | cons entry rest ih =>
        exact fun m h => ih _ (isAscending_add h entry.1 entry.2)
  exact hadd {} isAscending_nil

theorem ordered_start (config : EngineConfig)
    (entries : List (Node × Connectivity)) (wants : Bool) :
    (start config (.ofEntries entries) wants).Ordered where
  members := isAscending_ofEntries entries
  targets _ _ h := nomatch h
  started _ _ h := nomatch h

theorem isAscending_resolve {m : Membership}
    (hm : IsAscending (m.entries.map (·.1)))
    {request : Request} {target : Target} {nodes : List Node}
    (h : target.resolve m request = .ok nodes) : IsAscending nodes := by
  unfold Target.resolve at h
  split at h
  · split at h
    · cases h
    · split at h
      · cases h
      · cases h
        exact List.Pairwise.sublist (List.filter_sublist.map _) hm
  · split at h
    · cases h
    · split at h
      · cases h
      · cases h
        exact isAscending_ascending _
  · cases h
    exact List.pairwise_singleton _ _

theorem Transition.ordered {e e' : Engine} {event : Event} (ho : Ordered e)
    (h : Transition e event e') :
    Ordered e' := by
  have hset :
      ∀ {r : Nat} {round : Round} {asked : List Nat} {unasked : List Node}
      {phase : RoundPhase}, e.rounds[r]? = some round →
      ∀ (r' : Nat) round', (e.rounds.set r
        { round with asked, unasked, phase })[r']? = some round' →
      IsAscending round'.targets ∧ round'.targets ≠ [] := by
    intro r round asked unasked phase hround r' round' hr'
    rcases getElem?_set_cases hround hr' with ⟨-, rfl⟩ | ⟨-, hr'⟩
    · exact ho.targets r round hround
    · exact ho.targets r' round' hr'
  have hstarted : ∀ (k : Nat) c, e'.calls[k]? = some c →
      c.started ≤ e'.now := by
    intro k c hc
    rcases h.later.calls.old_or_new hc with ⟨c₀, hc₀, hcc⟩ | hnew
    · rw [hcc.started]
      exact Nat.le_trans (ho.started k c₀ hc₀) h.later.now
    · exact Nat.le_of_eq (h.new_call hnew hc).1
  cases h with
  | aside event now members isStopped isSweeping registry metrics journal hnow
      hadvance hmembers =>
      exact ⟨hmembers ho.members, ho.targets, hstarted⟩
  | refused => exact ⟨ho.members, ho.targets, hstarted⟩
  | verified target request id seed nodes metrics journal hstopped hresolve =>
      refine ⟨ho.members, fun r round hr => ?_, hstarted⟩
      rcases getElem?_concat_cases hr with hr | ⟨-, rfl⟩
      · exact ho.targets r round hr
      · exact ⟨isAscending_resolve ho.members hresolve, resolve_ne_nil hresolve⟩
  | admitted => exact ⟨ho.members, ho.targets, hstarted⟩
  | probed r round node rest hround => exact ⟨ho.members, hset hround, hstarted⟩
  | started => exact ⟨ho.members, ho.targets, hstarted⟩
  | arrived => exact ⟨ho.members, ho.targets, hstarted⟩
  | finished => exact ⟨ho.members, ho.targets, hstarted⟩
  | accepted k c answer r round metrics journal hcall hanswer hpurpose hround =>
      exact ⟨ho.members, hset hround, hstarted⟩
  | passed k c answer r round s sub registry handle metrics journal hcall
      hanswer hpurpose hround => exact ⟨ho.members, hset hround, hstarted⟩
  | turnedDown k c answer r round s sub fault registry metrics
      journal hcall hanswer hpurpose hround =>
        exact ⟨ho.members, hset hround, hstarted⟩
  | failed event r round s sub fault calls metrics journal hround =>
      exact ⟨ho.members, hset hround, hstarted⟩

/-! ## From steps to runs -/

theorem run_cons {e e' : Engine} {event : Event} {events : List Event} :
    e.run (event :: events) = some e' ↔
      ∃ e₁, e.step event = some e₁ ∧ e₁.run events = some e' :=
  foldlM_cons_eq_some

theorem run_snoc {e e' : Engine} {events : List Event} {event : Event} :
    e.run (events ++ [event]) = some e' ↔
      ∃ e₁, e.run events = some e₁ ∧ e₁.step event = some e' :=
  foldlM_snoc_eq_some

theorem run_append {e e₁ e' : Engine} {pre post : List Event}
    (hpre : e.run pre = some e₁) (h : e.run (pre ++ post) = some e') :
    e₁.run post = some e' := by
  obtain ⟨e₂, hpre', hpost⟩ := foldlM_append_eq_some.1 h
  cases hpre.symm.trans hpre'
  exact hpost

theorem run_trans {e e₁ e' : Engine} {pre post : List Event}
    (hpre : e.run pre = some e₁) (hpost : e₁.run post = some e') :
    e.run (pre ++ post) = some e' :=
  foldlM_append_eq_some.2 ⟨e₁, hpre, hpost⟩

theorem later_of_run {events : List Event} : ∀ {e e' : Engine}, Linked e →
    e.run events = some e' → Later e e' := by
  induction events with
  | nil =>
      intro e e' _ h
      cases h
      exact Later.refl e
  | cons event events ih =>
      intro e e' hl h
      obtain ⟨e₁, hstep, hrun⟩ := run_cons.1 h
      have htransition := step_transition hl hstep
      exact htransition.later.trans (ih (htransition.linked hl) hrun)

/-- What holds of each event of a run, in the state in which it happens. -/
def Along (Q : Engine → Event → Prop) (e₀ : Engine)
    (events : List Event) : Prop :=
  ∀ pre event post e, events = pre ++ event :: post → e₀.run pre = some e →
    Q e event

theorem Along.of_snoc {Q : Engine → Event → Prop} {e₀ : Engine}
    {events : List Event} {event : Event}
    (h : Along Q e₀ (events ++ [event])) : Along Q e₀ events :=
  fun pre ev post e hevents hrun => h pre ev (post ++ [event]) e
    (by rw [hevents, List.append_assoc, List.cons_append]) hrun

theorem Along.last {Q : Engine → Event → Prop} {e₀ e : Engine}
    {events : List Event} {event : Event} (h : Along Q e₀ (events ++ [event]))
    (hrun : e₀.run events = some e) : Q e event :=
  h events event [] e rfl hrun

theorem along_cons {Q : Engine → Event → Prop} {e₀ : Engine} {event : Event}
    {events : List Event} :
    Along Q e₀ (event :: events) ↔
      Q e₀ event ∧ ∀ e₁, e₀.step event = some e₁ → Along Q e₁ events := by
  refine ⟨fun h => ⟨h [] event events e₀ rfl rfl,
    fun e₁ hstep pre ev post e hevents hrun => ?_⟩,
    fun ⟨hQ, hrest⟩ pre ev post e hevents hrun => ?_⟩
  · exact h (event :: pre) ev post e (by rw [hevents, List.cons_append])
      (run_cons.2 ⟨e₁, hstep, hrun⟩)
  · cases pre with
    | nil =>
        cases hevents
        cases hrun
        exact hQ
    | cons ev₁ pre =>
        cases hevents
        obtain ⟨e₁, hstep, hrun⟩ := run_cons.1 hrun
        exact hrest e₁ hstep pre ev post e rfl hrun

theorem along_nil {Q : Engine → Event → Prop}
    (e₀ : Engine) : Along Q e₀ [] := by
  intro pre event post e hnil
  cases pre <;> cases hnil

/-- Where none of the events that hold can happen, there is only the empty
run. -/
theorem run_eq_nil {Q : Engine → Event → Prop} {e e' : Engine}
    {events : List Event} (hstuck : ∀ event, Q e event → e.step event = none)
    (halong : Along Q e events)
    (hrun : e.run events = some e') : events = [] := by
  cases events with
  | nil => rfl
  | cons event events =>
      obtain ⟨e₁, hstep, -⟩ := run_cons.1 hrun
      rw [hstuck event (along_cons.1 halong).1] at hstep
      cases hstep

instance decidableAlong (Q : Engine → Event → Prop)
    [∀ e event, Decidable (Q e event)] :
    (events : List Event) → (e₀ : Engine) → Decidable (Along Q e₀ events)
  | [], _ => isTrue fun pre _ _ _ h => by cases pre <;> cases h
  | event :: events, e₀ =>
    have : ∀ e₁, Decidable (Along Q e₁ events) := decidableAlong Q events
    have : Decidable (∀ e₁ ∈ e₀.step event, Along Q e₁ events) :=
      Option.decidableForallMem _
    decidable_of_iff (Q e₀ event ∧ ∀ e₁ ∈ e₀.step event, Along Q e₁ events)
      along_cons.symm

end Engine

end Fanout
