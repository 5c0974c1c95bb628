import Fanout.Proofs.Holding

/-!
# What one step can do

`Engine.step` is a tower of small operations, and a proof about runs that opened
it for every invariant would open the same tower every time. It is opened here
once. `Transition` lists what one step can do to the records of the engine:
twelve cases, each with everything that was checked before, and each written as
an update of the state in which the new records can be read off. Metrics are
left open, and of the journal only its merges are kept.

That list is complete only for a state whose references are good, because the
operations fall back on doing nothing where a record is missing. `Linked` says
that none is: every call has its round or its job, every job its batch, every
batch its collation and every round its submission. It also holds the one fact
about probes without which a late one could overturn a round: a probe that is
still open belongs to a round that is still running and waits for it.
-/

namespace Fanout

/-! ## Records of the past -/

namespace Call

/-- Whether a call is neither answered nor given up. -/
def isOpen (c : Call) : Bool :=
  match c.phase with
  | .underWay | .arrived _ => true
  | .answered _ | .abandoned => false

/-- What a call may become: it stays the same call, and it is over only once. -/
structure Becomes (c c' : Call) : Prop where
  node : c'.node = c.node
  outbound : c'.outbound = c.outbound
  purpose : c'.purpose = c.purpose
  started : c'.started = c.started
  timeout : c'.timeout = c.timeout
  ended : c.isOpen = false → c'.phase = c.phase

theorem Becomes.refl (c : Call) :
    Becomes c c := ⟨rfl, rfl, rfl, rfl, rfl, fun _ => rfl⟩

theorem Becomes.trans {c₁ c₂ c₃ : Call} (h : Becomes c₁ c₂)
    (h' : Becomes c₂ c₃) : Becomes c₁ c₃ where
  node := h'.node.trans h.node
  outbound := h'.outbound.trans h.outbound
  purpose := h'.purpose.trans h.purpose
  started := h'.started.trans h.started
  timeout := h'.timeout.trans h.timeout
  ended ho := by
    have hphase := h.ended ho
    have ho' : c₂.isOpen = false := by
      rw [isOpen] at ho ⊢
      rw [hphase]
      exact ho
    exact (h'.ended ho').trans hphase

theorem Becomes.of_isOpen {c : Call} (h : c.isOpen = true) (phase : CallPhase) :
    Becomes c { c with phase } :=
  ⟨rfl, rfl, rfl, rfl, rfl, fun ho => by rw [h] at ho; cases ho⟩

theorem isOpen_of_answer? {c : Call} {now : Instant} {a : Answer}
    (h : c.answer? now = some a) : c.isOpen = true := by
  unfold answer? at h
  unfold isOpen
  cases hp : c.phase with
  | underWay => rfl
  | arrived _ => rfl
  | answered _ => rw [hp] at h; cases h
  | abandoned => rw [hp] at h; cases h

theorem node_of_answer? {c : Call} {now : Instant} {a : Answer}
    (h : c.answer? now = some a) : a.node = c.node := by
  unfold answer? at h
  dsimp only at h
  split at h
  · cases h
    rfl
  · cases h
    rfl
  · split at h
    · cases h
      rfl
    · cases h
  · cases h
  · cases h

theorem latency_of_answer? {c : Call} {now : Instant} {a : Answer}
    (h : c.answer? now = some a) : a.latency = Instant.since now c.started := by
  unfold answer? at h
  dsimp only at h
  split at h
  · cases h
    rfl
  · cases h
    rfl
  · split at h
    · cases h
      rfl
    · cases h
  · cases h
  · cases h

/-- The moment at which a call was over, if this answer ended it. -/
def endedAt (c : Call) (a : Answer) : Instant := c.started + a.latency.nanos

theorem endedAt_of_answer? {c : Call} {now : Instant} {a : Answer}
    (h : c.answer? now = some a)
    (hstarted : c.started ≤ now) : c.endedAt a = now := by
  rw [endedAt, latency_of_answer? h]
  exact Nat.add_sub_cancel' hstarted

theorem becomes_abandon (c : Call) : Becomes c c.abandon := by
  unfold abandon
  cases hp : c.phase with
  | underWay => exact Becomes.of_isOpen (by rw [isOpen, hp]) _
  | arrived _ => exact Becomes.of_isOpen (by rw [isOpen, hp]) _
  | answered _ => exact Becomes.refl c
  | abandoned => exact ⟨rfl, rfl, rfl, rfl, rfl, fun _ => hp.symm⟩

theorem isOpen_abandon (c : Call) : c.abandon.isOpen = false := by
  unfold abandon
  cases hp : c.phase with
  | answered _ => rw [isOpen, hp]
  | underWay | arrived _ | abandoned => rfl

end Call

/-- The given calls are over, and the others are as they were. -/
structure GivenUp (given : List Nat) (calls calls' : List Call) : Prop where
  becomes : Grows Call.Becomes calls calls'
  length : calls'.length = calls.length
  others : ∀ i, i ∉ given → calls'[i]? = calls[i]?
  ended : ∀ i ∈ given, ∀ c, calls'[i]? = some c → c.isOpen = false

theorem givenUp_abandon {given : List Nat} : ∀ (calls : List Call),
    GivenUp given calls
      (given.foldl (fun held k => held.modify k Call.abandon) calls) := by
  induction given with
  | nil =>
      exact fun calls => ⟨Grows.refl Call.Becomes.refl calls, rfl, fun _ _ =>
        rfl, fun _ h => absurd h List.not_mem_nil⟩
  | cons k rest ih =>
      intro calls
      have hrest := ih (calls.modify k Call.abandon)
      have hfirst : Grows Call.Becomes calls (calls.modify k Call.abandon) := by
        intro i c hc
        rw [List.getElem?_modify, hc]
        split
        · exact ⟨_, rfl, Call.becomes_abandon c⟩
        · exact ⟨_, rfl, Call.Becomes.refl c⟩
      rw [List.foldl_cons]
      refine ⟨Grows.trans Call.Becomes.trans hfirst hrest.becomes,
        hrest.length.trans (List.length_modify ..), fun i hi =>
          ?_, fun i hi c hc => ?_⟩
      · have hk : k ≠ i := fun he => hi (he ▸ List.mem_cons_self)
        rw [hrest.others i fun hr => hi (List.mem_cons_of_mem _ hr),
          List.getElem?_modify_ne _ _ hk]
      · by_cases hr : i ∈ rest
        · exact hrest.ended i hr c hc
        · have hk : i = k := (List.mem_cons.1 hi).resolve_right hr
          subst hk
          rw [hrest.others i hr, List.getElem?_modify_eq] at hc
          obtain ⟨c', -, rfl⟩ := Option.map_eq_some_iff.1 hc
          exact Call.isOpen_abandon c'

/-- The answered call was the first of those that are over. -/
theorem GivenUp.of_answered {given : List Nat} {calls calls' : List Call}
    {k : Nat} {c : Call} {answer : Answer} (hcall : calls[k]? = some c)
    (hopen : c.isOpen = true) (hk : k ∈ given)
    (h : GivenUp (given.erase k)
      (calls.set k { c with phase := .answered answer }) calls') :
    GivenUp given calls calls' where
  becomes := Grows.trans Call.Becomes.trans
    (Grows.set Call.Becomes.refl hcall (Call.Becomes.of_isOpen hopen _))
      h.becomes
  length := h.length.trans List.length_set
  others i hi := by
    have hki : ¬ k = i := fun he => hi (he ▸ hk)
    rw [h.others i fun he => hi (List.mem_of_mem_erase he),
      getElem?_set_of_some hcall, if_neg hki]
  ended i hi c' hc' := by
    by_cases he : i ∈ given.erase k
    · exact h.ended i he c' hc'
    · have hik : k = i := by
        refine Decidable.byContradiction fun hne => he ?_
        exact (List.mem_erase_of_ne fun h => hne h.symm).2 hi
      rw [h.others i he, getElem?_set_of_some hcall, if_pos hik] at hc'
      cases hc'
      rfl

/-- The operation of the registry that an event asks for. -/
def Event.operation? : Event → Option Registry.Operation
  | .lookUp id => some (.get id)
  | .look handle => some (.look handle)
  | .sweep => some .purge
  | .shutDown => some .stop
  | _ => none

/-- Whether an event hands a request in. -/
def Event.isSubmission : Event → Bool
  | .submit _ _ _ _ => true
  | _ => false

/-- Whether an event changes who is a member. -/
def Event.isMembership : Event → Bool
  | .addNode _ _ | .setState _ _ | .removeNode _ => true
  | _ => false

namespace Engine

/-! ## Good references -/

/-- Every record that another record names is there. -/
structure Linked (e : Engine) : Prop where
  probes : ∀ (k : Nat) c r, e.calls[k]? = some c → c.purpose = .probe r →
    c.isOpen = true →
    ∃ round, e.rounds[r]? = some round ∧ round.phase = .running ∧
      k ∈ round.asked
  deliveries : ∀ (k : Nat) c j, e.calls[k]? = some c → c.purpose = .delivery j →
    ∃ job, e.jobs[j]? = some job
  single : ∀ (k : Nat) c, e.calls[k]? = some c → c.purpose ≠ .single
  asked : ∀ (r : Nat) round, e.rounds[r]? = some round → ∀ k ∈ round.asked,
    ∃ c, e.calls[k]? = some c ∧ c.purpose = .probe r
  rounds : ∀ (r : Nat) round, e.rounds[r]? = some round →
    ∃ s sub, round.submission = some s ∧ e.submissions[s]? = some sub
  jobs : ∀ (j : Nat) job, e.jobs[j]? = some job →
    ∃ batch, e.batches[job.batch]? = some batch
  batches : ∀ (b : Nat) batch, e.batches[b]? = some batch →
    ∃ c, e.registry.collations[batch.handle]? = some c

theorem linked_start (config : EngineConfig) (members : Membership)
    (wants : Bool) : (start config members wants).Linked where
  probes _ _ _ h := nomatch h
  deliveries _ _ _ h := nomatch h
  single _ _ h := nomatch h
  asked _ _ h := nomatch h
  rounds _ _ h := nomatch h
  jobs _ _ h := nomatch h
  batches _ _ h := nomatch h

/-! ## The steps -/

/-- The collation that is made for a submission. -/
def collationOf (e : Engine) (sub : Submission)
    (nodes : List Node) : Collation :=
  .new e.now sub.id sub.request.method sub.request.uri nodes
    e.config.responseTimeout

theorem agrees_collationOf (e : Engine) (sub : Submission) (nodes : List Node) :
    Collation.Agrees e.now (fun _ => none) (e.collationOf sub nodes) :=
  Collation.agrees_new ..

/-- What is checked when a submission is admitted, and what the registry makes
of it. -/
structure Admits (e : Engine) (sub : Submission) (nodes : List Node)
    (registry : Registry) (handle : Handle) : Prop where
  running : e.isStopped = false
  registered : e.registry.register e.now (e.collationOf sub nodes) =
    (registry, .ok handle)

/-- A submission as it is handed in. -/
def handedIn (e : Engine) (target : Target) (request : Request)
    (id seed : String) (phase : SubmissionPhase) : Submission :=
  { target, request, id, seed, submitted := e.now, phase }

/-- A round as it is opened for the submission that is handed in next. -/
def roundFor (e : Engine) (sub : Submission) (nodes : List Node) : Round :=
  { outbound := sub.outbound, targets := nodes,
    timeout := e.config.verificationTimeout
    deadline := Instant.deadline e.now e.config.verificationTimeout
    submission := some e.submissions.length, unasked := nodes }

/-- Why a submission is not admitted for these targets, and what the registry
makes of it. -/
inductive Denies (e : Engine) (sub : Submission) (nodes : List Node) :
    Registry → Fault → Prop where
  | stopped (hstopped : e.isStopped = true) :
      Denies e sub nodes e.registry .stopped
  | unheld (registry : Registry) (fault : Fault)
      (hrunning : e.isStopped = false)
        (hregister : e.registry.register e.now (e.collationOf sub nodes) =
        (registry, .error fault)) : Denies e sub nodes registry fault

/-- Why a submission is rejected as soon as it is handed in, and what the
registry makes of it. -/
inductive Refuses (e : Engine) (sub : Submission) :
    Registry → Fault → Prop where
  | stopped (hstopped : e.isStopped = true) : Refuses e sub e.registry .stopped
  | unresolved (fault : Fault) (hrunning : e.isStopped = false)
      (hresolve : sub.target.resolve e.members sub.request = .error fault) :
      Refuses e sub e.registry fault
  | unconnected (nodes : List Node) (fault : Fault)
      (hrunning : e.isStopped = false)
        (hresolve : sub.target.resolve e.members sub.request = .ok nodes)
      (hround : sub.target.needsRound sub.request = true)
      (hconnected : e.members.unconnected? nodes = some fault) :
      Refuses e sub e.registry fault
  | denied (nodes : List Node) (registry : Registry) (fault : Fault)
      (hrunning : e.isStopped = false)
      (hresolve : sub.target.resolve e.members sub.request = .ok nodes)
      (hround : sub.target.needsRound sub.request = false)
      (hdenies : e.Denies sub nodes registry fault) :
        Refuses e sub registry fault

/-- What a step by an event can do. -/
inductive Transition (e : Engine) : Event → Engine → Prop where
  /-- No record of a request changes. -/
  | aside (event : Event) (now : Instant) (members : Membership)
      (isStopped isSweeping : Bool) (registry : Registry) (metrics : Metrics)
        (journal : Journal)
      (hnow : e.now ≤ now) (hadvance : now = e.now ∨ event = .advance now)
      (hmembers : IsAscending (e.members.entries.map (·.1)) →
        IsAscending (members.entries.map (·.1)))
      (hregistry : e.registry.Kept e.now registry)
        (hjournal : Quietly e.journal journal)
      (hoperation : registry = e.registry ∨
        ∃ op, event.operation? = some op ∧
          registry = e.registry.perform e.now op)
      (hmembership : members = e.members ∨ event.isMembership = true)
      (hother : event.isSubmission = false) :
      Transition e event { e with
        now, members, isStopped, isSweeping, registry, metrics, journal }
  /-- A submission is rejected at once. -/
  | refused (target : Target) (request : Request)
      (id seed : String) (fault : Fault) (isSweeping : Bool)
        (registry : Registry) (metrics : Metrics) (journal : Journal)
      (hregistry : e.registry.Kept e.now registry)
        (hjournal : Quietly e.journal journal)
      (hrefuses : e.Refuses (e.handedIn target request id seed
        (.rejected .stopped)) registry fault) :
      Transition e (.submit target request id seed)
        { e with
          submissions :=
            e.submissions ++
              [e.handedIn target request id seed (.rejected fault)]
          isSweeping, registry, metrics, journal }
  /-- A round is opened for a submission. -/
  | verified (target : Target) (request : Request) (id seed : String)
      (nodes : List Node) (metrics : Metrics) (journal : Journal)
      (hstopped : e.isStopped = false)
      (hresolve : target.resolve e.members request = .ok nodes)
      (hround : target.needsRound request = true)
      (hconnected : e.members.unconnected? nodes = none)
      (hjournal : Quietly e.journal journal) :
      Transition e (.submit target request id seed)
        { e with
          submissions := e.submissions ++
            [e.handedIn target request id seed (.verifying e.rounds.length)]
          rounds := e.rounds ++ [e.roundFor
            (e.handedIn target request id seed (.rejected .stopped)) nodes]
          isSweeping := true, metrics, journal }
  /-- A submission is admitted at once. -/
  | admitted (target : Target) (request : Request) (id seed : String)
      (nodes : List Node) (registry : Registry) (handle : Handle)
        (metrics : Metrics)
      (journal : Journal)
      (hresolve : target.resolve e.members request = .ok nodes)
      (hround : target.needsRound request = false)
      (hadmits : e.Admits (e.handedIn target request id seed
        (.rejected .stopped)) nodes registry handle)
      (hjournal : Quietly e.journal journal) :
      Transition e (.submit target request id seed)
        { e with
          submissions := e.submissions ++
            [e.handedIn target request id seed (.accepted handle)]
          batches := e.batches ++ [{
            handle
            outbound :=
              (e.handedIn target request id seed (.rejected .stopped)).outbound
            remaining := nodes.length }]
          jobs := e.jobs ++ nodes.map fun node =>
            { batch := e.batches.length, node }
          isSweeping := true, registry, metrics, journal }
  /-- A target is probed. -/
  | probed (r : Nat) (round : Round) (node : Node) (rest : List Node)
      (hround : e.rounds[r]? = some round) (hphase : round.phase = .running)
      (hunasked : round.unasked = node :: rest) :
      Transition e (.startProbe r)
        { e with
          calls := e.calls ++ [{
            node, outbound := round.outbound.probe, purpose := .probe r
            started := e.now, timeout := round.timeout }]
          rounds := e.rounds.set r
            { round with unasked := rest, asked := round.asked ++
              [e.calls.length] } }
  /-- A job gets a permit and calls its node. -/
  | started (j : Nat) (job : Job) (batch : Batch) (hfree : 0 < e.freePermits)
      (hhead : e.waiting.head? = some j) (hjob : e.jobs[j]? = some job)
      (hbatch : e.batches[job.batch]? = some batch) :
      Transition e .startJob
        { e with
          calls := e.calls ++ [{
            node := job.node, outbound := batch.outbound, purpose := .delivery j
            started := e.now, timeout := e.config.nodeTimeout }]
          freePermits := e.freePermits - 1
          jobs := e.jobs.set j { job with phase := .calling e.calls.length } }
  /-- A result has come. -/
  | arrived (k : Nat) (c : Call) (result : CallResult)
      (hcall : e.calls[k]? = some c) (hphase : c.phase = .underWay) :
      Transition e (.arrive k result)
        { e with calls := e.calls.set k { c with phase := .arrived result } }
  /-- A job is done. -/
  | finished (k : Nat) (c : Call) (answer : Answer) (j : Nat)
      (job : Job) (batch : Batch) (held : Collation)
        (callbacks : List (Instant × Report)) (metrics : Metrics)
      (journal : Journal)
      (hcall : e.calls[k]? = some c) (hanswer : c.answer? e.now = some answer)
      (hpurpose : c.purpose = .delivery j) (hjob : e.jobs[j]? = some job)
      (hbatch : e.batches[job.batch]? = some batch)
      (hheld : e.registry.collations[batch.handle]? = some held)
      (hcallbacks : callbacks =
        if e.wantsCallback = true ∧ batch.remaining - 1 = 0 then
          e.callbacks ++ [(e.now, (held.merge e.now answer).report e.now)]
        else e.callbacks)
      (hjournal : Tells [(answer.node, held.id)] e.journal journal) :
      Transition e (.finish k)
        { e with
          calls := e.calls.set k { c with phase := .answered answer }
          freePermits := e.freePermits + 1
          jobs := e.jobs.set j { job with phase := .done answer }
          batches :=
            e.batches.set job.batch
              { batch with remaining := batch.remaining - 1 }
          registry := { e.registry with
            collations := e.registry.collations.set batch.handle
              (held.merge e.now answer) }
          callbacks, metrics, journal }
  /-- A probe is accepted, and the round goes on. -/
  | accepted (k : Nat) (c : Call) (answer : Answer) (r : Nat) (round : Round)
      (metrics : Metrics) (journal : Journal)
      (hcall : e.calls[k]? = some c) (hanswer : c.answer? e.now = some answer)
      (hpurpose : c.purpose = .probe r) (hround : e.rounds[r]? = some round)
      (hphase : round.phase = .running) (hasked : k ∈ round.asked)
      (haccepts : answer.refusal? = none)
      (hmore : ¬ (round.unasked = [] ∧ round.asked.erase k = []))
      (hjournal : Quietly e.journal journal) :
      Transition e (.finish k)
        { e with
          calls := e.calls.set k { c with phase := .answered answer }
          rounds := e.rounds.set r { round with asked := round.asked.erase k }
          metrics, journal }
  /-- The last probe is accepted, and the submission is admitted. -/
  | passed (k : Nat) (c : Call) (answer : Answer) (r : Nat)
      (round : Round) (s : Nat) (sub : Submission) (registry : Registry)
        (handle : Handle) (metrics : Metrics)
      (journal : Journal)
      (hcall : e.calls[k]? = some c) (hanswer : c.answer? e.now = some answer)
      (hpurpose : c.purpose = .probe r) (hround : e.rounds[r]? = some round)
      (hphase : round.phase = .running) (hasked : k ∈ round.asked)
      (haccepts : answer.refusal? = none)
      (hunasked : round.unasked = []) (hlast : round.asked.erase k = [])
      (hsubmission : round.submission = some s)
        (hsub : e.submissions[s]? = some sub)
      (hadmits : e.Admits sub round.targets registry handle)
      (hjournal : Quietly e.journal journal) :
      Transition e (.finish k)
        { e with
          calls := e.calls.set k { c with phase := .answered answer }
          rounds := e.rounds.set r { round with asked := [], phase := .passed }
          submissions :=
            e.submissions.set s { sub with phase := .accepted handle }
          batches := e.batches ++
            [{ handle, outbound := sub.outbound, remaining :=
              round.targets.length }]
          jobs := e.jobs ++
            round.targets.map fun node => { batch := e.batches.length, node }
          registry, metrics, journal }
  /-- The last probe is accepted, but the submission cannot be admitted. -/
  | turnedDown (k : Nat) (c : Call) (answer : Answer) (r : Nat)
      (round : Round) (s : Nat) (sub : Submission) (fault : Fault)
        (registry : Registry) (metrics : Metrics)
      (journal : Journal)
      (hcall : e.calls[k]? = some c) (hanswer : c.answer? e.now = some answer)
      (hpurpose : c.purpose = .probe r) (hround : e.rounds[r]? = some round)
      (hphase : round.phase = .running) (hasked : k ∈ round.asked)
      (haccepts : answer.refusal? = none)
      (hunasked : round.unasked = []) (hlast : round.asked.erase k = [])
      (hsubmission : round.submission = some s)
        (hsub : e.submissions[s]? = some sub)
      (hregistry : e.registry.Kept e.now registry)
        (hjournal : Quietly e.journal journal)
      (hdenies : e.Denies sub round.targets registry fault) :
      Transition e (.finish k)
        { e with
          calls := e.calls.set k { c with phase := .answered answer }
          rounds := e.rounds.set r { round with asked := [], phase := .passed }
          submissions :=
            e.submissions.set s { sub with phase := .rejected fault }
          registry, metrics, journal }
  /-- A round fails, and the probes that it waits for are over. -/
  | failed (event : Event) (r : Nat) (round : Round) (s : Nat)
      (sub : Submission) (fault : Fault) (calls : List Call) (metrics : Metrics)
        (journal : Journal)
      (hround : e.rounds[r]? = some round) (hphase : round.phase = .running)
      (hsubmission : round.submission = some s)
        (hsub : e.submissions[s]? = some sub)
      (hgiven : GivenUp round.asked e.calls calls)
      (hjournal : Quietly e.journal journal)
      (hfault : ∃ node reason, fault = .verificationFailed node reason) :
      Transition e event
        { e with
          calls
          rounds :=
            e.rounds.set r { round with asked := [], phase := .failed fault }
          submissions :=
            e.submissions.set s { sub with phase := .rejected fault }
          metrics, journal }

/-! ## Every step is one of them -/

/-- Only the clock, the registry and the settings decide whether a submission is
admitted. -/
theorem Denies.of_same {e e₁ : Engine} {sub : Submission} {nodes : List Node}
    {registry : Registry} {fault : Fault}
    (h : e₁.Denies sub nodes registry fault)
    (hstopped : e₁.isStopped = e.isStopped) (hnow : e₁.now = e.now)
    (hconfig : e₁.config = e.config) (hregistry : e₁.registry = e.registry) :
    e.Denies sub nodes registry fault := by
  cases h with
  | stopped h =>
      rw [hregistry]
      exact .stopped (hstopped ▸ h)
  | unheld registry fault hrunning hregister =>
      refine .unheld registry fault (hstopped ▸ hrunning) ?_
      rw [← hregister, hregistry, hnow, collationOf, collationOf, hnow, hconfig]

theorem enroll_cases (e : Engine) (s : Nat) (sub : Submission)
    (nodes : List Node) :
      (∃ fault registry metrics journal, e.registry.Kept e.now registry ∧
      Quietly e.journal journal ∧ e.Denies sub nodes registry fault ∧
      e.enroll s sub nodes = { e with
        submissions := e.submissions.modify s fun sub =>
          { sub with phase := .rejected fault }
        registry, metrics, journal }) ∨
    ∃ registry handle metrics journal, e.Admits sub nodes registry handle ∧
      Quietly e.journal journal ∧
      e.enroll s sub nodes = { e with
        submissions := e.submissions.modify s fun sub =>
          { sub with phase := .accepted handle }
        batches := e.batches ++
          [{ handle, outbound := sub.outbound, remaining := nodes.length }]
        jobs := e.jobs ++
          nodes.map fun node => { batch := e.batches.length, node }
        registry, metrics, journal } := by
  unfold enroll takeOn hold
  split
  · next hstopped =>
      exact Or.inl ⟨_, _, _, _, Registry.Kept.refl e.now _, Tells.append _ rfl,
        .stopped hstopped, rfl⟩
  · next hstopped =>
      have htold :=
        Registry.mergesTold_registerNotices e.now (e.collationOf sub nodes)
        e.registry
      have hkept :=
        Registry.kept_register (e.agrees_collationOf sub nodes) e.registry
      dsimp only
      split
      · next fault hresult =>
          unfold reject setSubmission tell
          dsimp only
          refine Or.inl ⟨fault, _, _, _, hkept, ?_,
            .unheld _ fault (Bool.eq_false_iff.2 hstopped)
              (Prod.ext rfl hresult), rfl⟩
          exact Tells.trans (Tells.append e.journal htold) (Tells.append _ rfl)
      · next handle hresult =>
          unfold accept gauge setSubmission dispatch tell
          dsimp only
          refine Or.inr ⟨_, handle, _, _, ⟨Bool.eq_false_iff.2 hstopped, ?_⟩,
            ?_, rfl⟩
          · exact Prod.ext rfl hresult
          · exact Tells.trans (Tells.trans (Tells.append e.journal htold)
              (Quietly.append _ rfl)) (Quietly.append _ rfl)

theorem resolve_ne_nil {m : Membership} {request : Request} {target : Target}
    {nodes : List Node} (h : target.resolve m request = .ok nodes) :
    nodes ≠ [] := by
  unfold Target.resolve at h
  split at h
  · split at h
    · cases h
    · split at h
      · cases h
      · next hne =>
          cases h
          exact fun he => hne (by rw [he]; rfl)
  · next set =>
      split at h
      · cases h
      · next hne =>
          split at h
          · cases h
          · cases h
            intro he
            obtain ⟨n, hn⟩ := List.exists_mem_of_ne_nil set
              fun hnil => hne (by rw [hnil]; rfl)
            have hmem := mem_ascending.2 hn
            rw [he] at hmem
            cases hmem
  · cases h
    exact List.cons_ne_nil _ _

theorem submit_transition (e : Engine) (target : Target) (request : Request)
    (id seed : String) :
    Transition e (.submit target request id seed)
      (e.submit target request id seed) := by
  unfold submit
  dsimp only
  split
  · next hstopped =>
      unfold reject setSubmission tell
      dsimp only
      rw [modify_append_length]
      exact .refused target request id seed .stopped _ _ _ _
        (Registry.Kept.refl _ _) (Tells.append _ rfl) (.stopped hstopped)
  · next hstopped =>
      have hrunning := Bool.eq_false_iff.2 hstopped
      split
      · next fault hresolve =>
          unfold reject setSubmission tell
          dsimp only
          rw [modify_append_length]
          exact .refused target request id seed _ _ _ _ _
            (Registry.Kept.refl _ _) (Tells.append _ rfl)
              (.unresolved fault hrunning hresolve)
      · next nodes hresolve =>
          split
          · next hround =>
              split
              · next fault hconnected =>
                  unfold reject setSubmission tell
                  dsimp only
                  rw [modify_append_length]
                  exact .refused target request id seed _ _ _ _ _
                    (Registry.Kept.refl _ _) (Tells.append _ rfl)
                    (.unconnected nodes fault hrunning hresolve
                      hround hconnected)
              · next hconnected =>
                  -- A round with targets has something to ask, so it does not
                  -- pass yet.
                  have hgoes : ∀ (e' : Engine) (r : Nat) (round : Round),
                      e'.rounds[r]? = some round → round.unasked = nodes →
                      e'.passIfDone r = e' := by
                    intro e' r round hr hu
                    unfold passIfDone
                    rw [hr]
                    dsimp only
                    split
                    · next hnil _ =>
                        rw [hu] at hnil
                        exact absurd hnil (resolve_ne_nil hresolve)
                    · rfl
                  rw [hgoes _ _ _ List.getElem?_concat_length rfl]
                  unfold setSubmission openRound tell
                  dsimp only
                  rw [modify_append_length]
                  exact .verified target request id seed nodes _ _
                    hrunning hresolve hround hconnected (Tells.append _ rfl)
          · next hround =>
              rcases enroll_cases { e with
                submissions := e.submissions ++
                  [e.handedIn target request id seed (.rejected .stopped)]
                isSweeping := true } e.submissions.length
                (e.handedIn target request id seed (.rejected .stopped))
                nodes with
                ⟨fault, registry, metrics, journal, hkept, hquiet, hdenies,
                  heq⟩ |
                ⟨registry, handle, metrics, journal, hadmits, hquiet, heq⟩
              · refine Eq.mpr (congrArg (Transition e _) heq) ?_
                dsimp only
                rw [modify_append_length]
                exact .refused target request id seed fault _ _ _ _ hkept hquiet
                  (.denied nodes registry fault hrunning hresolve
                    (Bool.eq_false_iff.2 hround)
                      (hdenies.of_same rfl rfl rfl rfl))
              · refine Eq.mpr (congrArg (Transition e _) heq) ?_
                dsimp only
                rw [modify_append_length]
                exact .admitted target request id seed nodes registry
                  handle _ _ hresolve (Bool.eq_false_iff.2 hround)
                    ⟨hadmits.running, hadmits.registered⟩ hquiet

theorem startProbe_transition {e e' : Engine} {r : Nat}
    (h : e.startProbe r = some e') : Transition e (.startProbe r) e' := by
  unfold startProbe at h
  obtain ⟨round, hround, h⟩ := Option.bind_eq_some_iff.1 h
  split at h
  · next node rest hphase hunasked =>
      cases h
      unfold setRound openCall
      dsimp only
      rw [modify_eq_set_of_some hround]
      exact .probed r round node rest hround hphase hunasked
  · cases h

theorem startJob_transition {e e' : Engine} (h : e.startJob = some e') :
    Transition e .startJob e' := by
  unfold startJob at h
  obtain ⟨_, hguard, h⟩ := Option.bind_eq_some_iff.1 h
  have hfree : 0 < e.freePermits := by
    rw [guard] at hguard
    split at hguard
    · next hfree => exact hfree
    · cases hguard
  obtain ⟨j, hhead, h⟩ := Option.bind_eq_some_iff.1 h
  obtain ⟨job, hjob, h⟩ := Option.bind_eq_some_iff.1 h
  obtain ⟨batch, hbatch, h⟩ := Option.bind_eq_some_iff.1 h
  cases h
  unfold openCall
  dsimp only
  rw [modify_eq_set_of_some hjob]
  exact .started j job batch hfree hhead hjob hbatch

theorem arrive_transition (e : Engine) (k : Nat) (result : CallResult) :
    Transition e (.arrive k result) (e.arrive k result) := by
  have hsame : Transition e (.arrive k result) e :=
    .aside _ e.now e.members e.isStopped e.isSweeping e.registry
      e.metrics e.journal (Nat.le_refl _) (Or.inl rfl) id
        (Registry.Kept.refl _ _) (Quietly.refl _) (Or.inl rfl)
      (Or.inl rfl) rfl
  unfold arrive
  cases hcall : e.calls[k]? with
  | none =>
      have hk := List.getElem?_eq_none_iff.1 hcall
      rw [List.modify_eq_self hk]
      exact hsame
  | some c =>
      rw [modify_eq_set_of_some hcall]
      unfold Call.receive
      cases hphase : c.phase with
      | underWay => exact .arrived k c result hcall hphase
      | arrived _ | answered _ | abandoned =>
          obtain ⟨hk, hget⟩ := List.getElem?_eq_some_iff.1 hcall
          dsimp only
          rw [← hget, List.set_getElem_self]
          exact hsame

theorem merge_eq {e : Engine} {handle : Handle} {held : Collation}
    (hheld : e.registry.collations[handle]? = some held) (answer : Answer) :
    e.merge handle answer = { e with
      journal := e.journal ++ held.mergeNotices e.now answer
      registry := { e.registry with
        collations :=
          e.registry.collations.set handle (held.merge e.now answer) } } := by
  unfold merge Registry.collation? Registry.update
  rw [hheld]
  dsimp only [tell]
  rw [modify_eq_set_of_some hheld]

/-- The callback looks at a collation that was just merged, so it finds nothing
left to settle. -/
theorem callBack_eq {e : Engine} (handle : Handle) {c : Collation}
    (hc : e.registry.collations[handle]? = some c)
    (hsettled : c.settle e.now = c) :
    ∃ journal, Quietly e.journal journal ∧ e.callBack handle = { e with
        callbacks :=
          if e.wantsCallback = true then e.callbacks ++
            [(e.now, c.report e.now)]
          else e.callbacks
        journal } := by
  unfold callBack report? settle Registry.collation? Registry.update
  split
  · rw [hc]
    dsimp only [Option.map_some, tell]
    rw [modify_eq_set_of_some hc, hsettled, set_eq_self_of_some hc]
    exact ⟨_, Tells.append _ (Collation.mergesTold_settleNotices e.now c), rfl⟩
  · exact ⟨_, Quietly.refl _, rfl⟩

theorem finishJob_eq {e : Engine} {j : Nat} {job : Job} {batch : Batch}
    {held : Collation} (hjob : e.jobs[j]? = some job)
    (hbatch : e.batches[job.batch]? = some batch)
    (hheld : e.registry.collations[batch.handle]? = some held)
    (answer : Answer) : ∃ callbacks journal,
      callbacks = (if e.wantsCallback = true ∧ batch.remaining - 1 = 0 then
          e.callbacks ++ [(e.now, (held.merge e.now answer).report e.now)]
        else e.callbacks) ∧
      Tells [(answer.node, held.id)] e.journal journal ∧
      e.finishJob j answer = { e with
        freePermits := e.freePermits + 1
        jobs := e.jobs.set j { job with phase := .done answer }
        batches :=
          e.batches.set job.batch
            { batch with remaining := batch.remaining - 1 }
        registry := { e.registry with
          collations := e.registry.collations.set batch.handle
            (held.merge e.now answer) }
        callbacks, journal } := by
  have htold := Collation.mergesTold_mergeNotices e.now answer held
  unfold finishJob
  rw [hjob]
  dsimp only
  rw [hbatch]
  dsimp only
  rw [merge_eq (e := { e with freePermits := e.freePermits + 1, jobs := _ })
    hheld]
  unfold countOff
  dsimp only
  rw [modify_eq_set_of_some hjob, modify_eq_set_of_some hbatch,
    getElem?_set_of_some hbatch, if_pos rfl]
  dsimp only
  by_cases hlast : batch.remaining - 1 = 0
  · rw [if_pos hlast]
    obtain ⟨journal, hquiet, heq⟩ := callBack_eq batch.handle
      (e := { e with
        freePermits := e.freePermits + 1
        jobs := e.jobs.set j { job with phase := .done answer }
        batches :=
          e.batches.set job.batch
            { batch with remaining := batch.remaining - 1 }
        registry := { e.registry with
          collations := e.registry.collations.set batch.handle
            (held.merge e.now answer) }
        journal := e.journal ++ held.mergeNotices e.now answer })
      (c := held.merge e.now answer)
      (by rw [getElem?_set_of_some hheld, if_pos rfl])
        (Collation.settle_merge ..)
    refine ⟨_, journal, ?_, (Tells.append _ htold).trans hquiet, heq⟩
    by_cases hwants : e.wantsCallback = true
    · rw [if_pos hwants, if_pos ⟨hwants, hlast⟩]
    · rw [if_neg hwants, if_neg fun h => hwants h.1]
  · rw [if_neg hlast]
    exact ⟨_, _, (if_neg fun h => hlast h.2).symm, Tells.append _ htold, rfl⟩

theorem failRound_eq {e : Engine} {r : Nat} (round : Round) {old : Round}
    {s : Nat} {sub : Submission} (hround : e.rounds[r]? = some old)
    (hs : round.submission = some s) (hsub : e.submissions[s]? = some sub)
    (fault : Fault) :
    ∃ metrics journal, Quietly e.journal journal ∧
      e.failRound r round fault = { e with
        calls :=
          round.asked.foldl (fun held k => held.modify k Call.abandon) e.calls
        rounds :=
          e.rounds.set r { old with asked := [], phase := .failed fault }
        submissions := e.submissions.set s { sub with phase := .rejected fault }
        metrics, journal } := by
  unfold failRound
  dsimp only [abandonCalls, setRound]
  rw [hs]
  dsimp only
  rw [hsub]
  unfold reject setSubmission tell
  dsimp only
  rw [modify_eq_set_of_some hround, modify_eq_set_of_some hsub]
  exact ⟨_, _, Tells.append _ rfl, rfl⟩

theorem passIfDone_eq_self {e : Engine} {r : Nat} {round : Round}
    (hround : e.rounds[r]? = some round)
    (hmore : ¬ (round.unasked = [] ∧ round.asked = [])) :
    e.passIfDone r = e := by
  unfold passIfDone
  rw [hround]
  dsimp only
  split
  · next hunasked hasked => exact absurd ⟨hunasked, hasked⟩ hmore
  · rfl

theorem passIfDone_eq {e : Engine} {r : Nat} {round : Round} {s : Nat}
    {sub : Submission} (hround : e.rounds[r]? = some round)
    (hphase : round.phase = .running) (hunasked : round.unasked = [])
    (hasked : round.asked = []) (hs : round.submission = some s)
    (hsub : e.submissions[s]? = some sub) : e.passIfDone r = ({ e with
      journal := e.journal ++ [.allAccepted round.outbound.id]
      rounds := e.rounds.set r { round with phase := .passed } } :
        Engine).enroll s sub round.targets := by
  unfold passIfDone passRound
  rw [hround]
  dsimp only [setRound, tell]
  rw [modify_eq_set_of_some hround]
  split
  · split
    · next hnone => rw [hs] at hnone; cases hnone
    · next s' hsome =>
        rw [hs] at hsome
        cases hsome
        rw [hsub]
  · next hne => exact absurd hasked (hne hphase hunasked)

/-- A probe that is judged belongs to a running round that waits for it. -/
theorem judge_transition {e : Engine} {k r : Nat} {c : Call} {answer : Answer}
    {round : Round} {metrics : Metrics} {journal : Journal} (hl : Linked e)
    (hcall : e.calls[k]? = some c) (hanswer : c.answer? e.now = some answer)
    (hpurpose : c.purpose = .probe r) (hround : e.rounds[r]? = some round)
    (hquiet : Quietly e.journal journal) :
    Transition e (.finish k) (({ e with
      calls := e.calls.set k { c with phase := .answered answer }
      metrics, journal } : Engine).judge r round k answer) := by
  have hopen := Call.isOpen_of_answer? hanswer
  obtain ⟨round', hround', hphase, hasked⟩ :=
    hl.probes k c r hcall hpurpose hopen
  rw [hround] at hround'
  cases hround'
  obtain ⟨s, sub, hs, hsub⟩ := hl.rounds r round hround
  have hget : (e.rounds.set r { round with asked := round.asked.erase k })[r]? =
      some { round with asked := round.asked.erase k } := by
    rw [getElem?_set_of_some hround, if_pos rfl]
  unfold judge
  dsimp only [setRound]
  rw [modify_eq_set_of_some hround]
  split
  · next haccepts =>
      by_cases hmore : round.unasked = [] ∧ round.asked.erase k = []
      · obtain ⟨hunasked, hlast⟩ := hmore
        rw [passIfDone_eq
          (e := { e with calls := _, rounds := _, metrics := _, journal := _ })
          hget hphase hunasked hlast hs hsub]
        dsimp only
        rw [List.set_set]
        rcases enroll_cases { e with
            calls := e.calls.set k { c with phase := .answered answer }
            metrics, journal := journal ++ [.allAccepted round.outbound.id]
            rounds := e.rounds.set r
              { round with asked := round.asked.erase k, phase := .passed } }
            s sub round.targets with
          ⟨fault, registry, metrics', journal', hkept, hquiet', hdenies, heq⟩ |
          ⟨registry, handle, metrics', journal', hadmits, hquiet', heq⟩
        · rw [heq]
          dsimp only
          rw [modify_eq_set_of_some hsub, hlast]
          exact .turnedDown k c answer r round s sub fault registry
            _ _ hcall hanswer hpurpose hround hphase hasked haccepts hunasked
              hlast hs hsub hkept
            ((hquiet.trans (Quietly.append _ rfl)).trans hquiet')
              (hdenies.of_same rfl rfl rfl rfl)
        · rw [heq]
          dsimp only
          rw [modify_eq_set_of_some hsub, hlast]
          exact .passed k c answer r round s sub registry handle
            _ _ hcall hanswer hpurpose hround hphase hasked haccepts
              hunasked hlast hs hsub
            ⟨hadmits.running, hadmits.registered⟩
            ((hquiet.trans (Quietly.append _ rfl)).trans hquiet')
      · rw [passIfDone_eq_self
          (e := { e with calls := _, rounds := _, metrics := _, journal := _ })
            hget hmore]
        exact .accepted k c answer r round _ _ hcall hanswer
          hpurpose hround hphase hasked haccepts hmore hquiet
  · next reason _ =>
      obtain ⟨metrics', journal', hquiet', heq⟩ := failRound_eq
        { round with asked := round.asked.erase k }
        (e := ({ e with
          calls := e.calls.set k { c with phase := .answered answer }
          rounds := e.rounds.set r { round with asked := round.asked.erase k }
          metrics, journal } : Engine).tell
            [.refused answer.node round.outbound.id reason])
        hget hs hsub (.verificationFailed answer.node.display reason)
      rw [heq]
      dsimp only [tell]
      rw [List.set_set]
      exact .failed _ r round s sub _ _ _ _ hround hphase hs hsub
        (.of_answered hcall hopen hasked (givenUp_abandon _))
        ((hquiet.trans (Quietly.append _ rfl)).trans hquiet') ⟨_, _, rfl⟩

theorem finish_transition {e e' : Engine} {k : Nat} (hl : Linked e)
    (h : e.finish k = some e') : Transition e (.finish k) e' := by
  unfold finish at h
  obtain ⟨c, hcall, h⟩ := Option.bind_eq_some_iff.1 h
  obtain ⟨answer, hanswer, h⟩ := Option.bind_eq_some_iff.1 h
  have hquiet : Quietly e.journal (e.journal ++ c.notices e.now) := by
    refine Tells.append _ (mergesTold_eq_nil fun n hn => ?_)
    unfold Call.notices at hn
    dsimp only at hn
    split at hn
    · rw [List.mem_singleton.1 hn]
      rfl
    · split at hn
      · rw [List.mem_singleton.1 hn]
        rfl
      · cases hn
    · cases hn
  dsimp only [closeCall, tell] at h
  rw [modify_eq_set_of_some hcall] at h
  unfold Call.close at h
  split at h
  · next hpurpose => exact absurd hpurpose (hl.single k c hcall)
  · next j hpurpose =>
      obtain ⟨job, hjob⟩ := hl.deliveries k c j hcall hpurpose
      obtain ⟨batch, hbatch⟩ := hl.jobs j job hjob
      obtain ⟨held, hheld⟩ := hl.batches job.batch batch hbatch
      obtain ⟨callbacks, journal, hcallbacks, htells, heq⟩ := finishJob_eq
        (e := { e with
          calls := e.calls.set k { c with phase := .answered answer }
          metrics := e.metrics.countAnswer answer
          journal := e.journal ++ c.notices e.now })
        hjob hbatch hheld answer
      cases h
      rw [heq]
      exact .finished k c answer j job batch held callbacks _ _ hcall
        hanswer hpurpose hjob hbatch hheld hcallbacks (hquiet.trans htells)
  · next r hpurpose =>
      obtain ⟨round, hround, h⟩ := Option.bind_eq_some_iff.1 h
      cases h
      exact judge_transition hl hcall hanswer hpurpose hround hquiet

theorem expireRound_transition {e e' : Engine} {r : Nat} (hl : Linked e)
    (h : e.expireRound r = some e') : Transition e (.expireRound r) e' := by
  unfold expireRound at h
  obtain ⟨round, hround, h⟩ := Option.bind_eq_some_iff.1 h
  split at h
  · next hphase =>
      obtain ⟨_, -, h⟩ := Option.bind_eq_some_iff.1 h
      obtain ⟨s, sub, hs, hsub⟩ := hl.rounds r round hround
      cases h
      obtain ⟨metrics, journal, hquiet, heq⟩ := failRound_eq round
        (e := e.tell [.roundTimedOut round.outbound.id round.timeout])
        hround hs hsub
        (.verificationFailed
          (((ascending
            ((round.asked.filterMap fun c => e.calls[c]?).map (·.node) ++
              round.unasked)).head?.map Node.display).getD "")
          ("no answer within " ++ round.timeout.text))
      rw [heq]
      exact .failed _ r round s sub _ _ _ _ hround hphase hs hsub
        (givenUp_abandon _) ((Quietly.append _ rfl).trans hquiet) ⟨_, _, rfl⟩
  · cases h

/-- A change of the membership keeps its nodes in order. -/
theorem isAscending_add {m : Membership} (h : IsAscending (m.entries.map (·.1)))
    (node : Node) (state : Connectivity) :
    IsAscending ((m.add node state).entries.map (·.1)) := by
  rw [Membership.add, map_fst_putAscending]
  exact isAscending_insertAscending h

theorem isAscending_setState {m : Membership}
    (h : IsAscending (m.entries.map (·.1))) (node : Node)
    (state : Connectivity) :
    IsAscending ((m.setState node state).entries.map (·.1)) := by
  unfold Membership.setState
  split
  · exact isAscending_add h node state
  · exact h

theorem isAscending_remove {m : Membership}
    (h : IsAscending (m.entries.map (·.1))) (node : Node) :
    IsAscending ((m.remove node).entries.map (·.1)) := by
  refine List.Pairwise.sublist ?_ h
  exact List.filter_sublist.map _

theorem mergesTold_setStateNotices (node : Node) (state : Connectivity)
    (m : Membership) : mergesTold (m.setStateNotices node state) = [] := by
  unfold Membership.setStateNotices
  split
  · split <;> rfl
  · rfl

/-- A step of the engine is one of the transitions. -/
theorem step_transition {e e' : Engine} (hl : Linked e) {event : Event}
    (h : e.step event = some e') : Transition e event e' := by
  have hkept := Registry.Kept.refl e.now e.registry
  cases event with
  | advance now =>
      rw [step] at h
      split at h
      · next hlt =>
          cases h
          exact .aside _ now _ _ _ _ _ _ (Nat.le_of_lt hlt)
            (Or.inr rfl) id hkept (Quietly.refl _) (Or.inl rfl) (Or.inl rfl) rfl
      · cases h
  | submit target request id seed =>
      cases h
      exact submit_transition e target request id seed
  | startProbe r => exact startProbe_transition h
  | startJob => exact startJob_transition h
  | arrive k result =>
      cases h
      exact arrive_transition e k result
  | finish k => exact finish_transition hl h
  | expireRound r => exact expireRound_transition hl h
  | lookUp id =>
      cases h
      exact .aside _ _ _ _ _ _ _ _ (Nat.le_refl _) (Or.inl rfl) (fun h => h)
        (Registry.kept_get e.now id e.registry)
        (Tells.append _ (Registry.mergesTold_getNotices e.now id e.registry))
        (Or.inr ⟨_, rfl, rfl⟩) (Or.inl rfl) rfl
  | look handle =>
      cases h
      unfold settle
      split
      · next c hc =>
          exact .aside _ _ _ _ _ _ _ _ (Nat.le_refl _) (Or.inl rfl) (fun h => h)
            (Registry.kept_update_settle e.now handle e.registry)
            (Tells.append _ (Collation.mergesTold_settleNotices e.now c))
            (Or.inr ⟨_, rfl, rfl⟩) (Or.inl rfl) rfl
      · exact .aside _ _ _ _ _ _ _ _ (Nat.le_refl _) (Or.inl rfl)
          (fun h => h) hkept (Quietly.refl _) (Or.inl rfl) (Or.inl rfl) rfl
  | sweep =>
      cases h
      exact .aside _ _ _ _ _ _ _ _ (Nat.le_refl _) (Or.inl rfl) (fun h => h)
        (Registry.kept_purge e.now e.registry)
        (Tells.append _ (Registry.mergesTold_purgeNotices e.now e.registry))
        (Or.inr ⟨_, rfl, rfl⟩) (Or.inl rfl) rfl
  | shutDown =>
      cases h
      unfold shutDown
      split
      · exact .aside _ _ _ _ _ _ _ _ (Nat.le_refl _) (Or.inl rfl)
          (fun h => h) hkept (Tells.append _ rfl) (Or.inl rfl) (Or.inl rfl) rfl
      · exact .aside _ _ _ _ _ _ _ _ (Nat.le_refl _) (Or.inl rfl) (fun h => h)
          (Registry.kept_entries e.now e.registry []) (Tells.append _ rfl)
          (Or.inr ⟨_, rfl, rfl⟩) (Or.inl rfl) rfl
  | addNode node state =>
      cases h
      exact .aside _ _ _ _ _ _ _ _ (Nat.le_refl _) (Or.inl rfl)
        (fun h => isAscending_add h node state) hkept
          (Tells.append _ rfl) (Or.inl rfl)
        (Or.inr rfl) rfl
  | setState node state =>
      cases h
      refine .aside _ _ _ _ _ _ _ _ (Nat.le_refl _) (Or.inl rfl)
        (fun h => isAscending_setState h node state) hkept
          (Tells.append _ ?_) (Or.inl rfl)
        (Or.inr rfl) rfl
      exact mergesTold_setStateNotices node state e.members
  | removeNode node =>
      cases h
      exact .aside _ _ _ _ _ _ _ _ (Nat.le_refl _) (Or.inl rfl)
        (fun h => isAscending_remove h node) hkept (Quietly.refl _) (Or.inl rfl)
        (Or.inr rfl) rfl

end Engine

end Fanout
