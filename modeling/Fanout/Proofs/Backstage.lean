import Fanout.Proofs.Alone
import Fanout.Rehearsal.Conductor

/-!
# What goes on in the background of a rehearsal

While the conductor waits, two kinds of task run: the sweeper, and a task for
each job. At one moment they let the engine take steps that nobody outside asked
for, they set timers for later moments only, and they never call the conductor.
`Worked` says so, and every task keeps it, whatever number of turns is granted
to it.
-/

namespace Fanout

theorem Instant.lt_timer (now : Instant) {span : Span}
    (hspan : 0 < span.nanos) : now < Instant.timer now span := by
  unfold Instant.timer Instant.after?
  split
  · exact Nat.lt_add_of_pos_right hspan
  · exact Nat.lt_add_of_pos_right (by decide)

theorem RegistryConfig.sweepPeriod_pos (c : RegistryConfig) :
    0 < c.sweepPeriod.nanos :=
  Nat.lt_of_lt_of_le (by decide) (Nat.le_max_right _ _)

namespace Engine

/-- What the background does at one moment: it sweeps, and if there are jobs it
sees to their calls. -/
def Backstage (e : Engine) : Event → Prop
  | .sweep => True
  | .startJob | .arrive _ _ | .finish _ => e.jobs ≠ []
  | _ => False

/-- What the background, or one who only waits for it, makes of an engine. -/
inductive Enacts (allowed : Engine → Event → Prop) (e : Engine) : Engine →
    Prop where
  | refl : Enacts allowed e e
  | step (e₁ e₂ : Engine) (event : Event) (hbefore : Enacts allowed e e₁)
      (hallowed : allowed e₁ event) (hstep : e₁.step event = some e₂) :
        Enacts allowed e e₂
  | tell (e₁ : Engine) (notices : Journal) (hbefore : Enacts allowed e e₁) :
      Enacts allowed e (e₁.tell notices)

theorem Enacts.trans {allowed : Engine → Event → Prop} {e₁ e₂ e₃ : Engine}
    (h : Enacts allowed e₁ e₂) (h' : Enacts allowed e₂ e₃) :
    Enacts allowed e₁ e₃ := by
  induction h' with
  | refl => exact h
  | step e₃ e₄ event _ hallowed hstep ih =>
      exact .step e₃ e₄ event ih hallowed hstep
  | tell e₃ notices _ ih => exact .tell e₃ notices ih

theorem Enacts.mono {allowed more : Engine → Event → Prop} {e e' : Engine}
    (hmore : ∀ e event, allowed e event → more e event)
    (h : Enacts allowed e e') : Enacts more e e' := by
  induction h with
  | refl => exact .refl
  | step e₁ e₂ event _ hallowed hstep ih =>
      exact .step e₁ e₂ event ih (hmore e₁ event hallowed) hstep
  | tell e₁ notices _ ih => exact .tell e₁ notices ih

section

variable {config : EngineConfig} {entries : List (Node × Connectivity)}
  {e e' : Engine} {event : Event}

theorem Backstage.isOutside (h : e.Backstage event) :
    event.isOutside = false := by
  cases event with
  | sweep | startJob | arrive | finish => rfl
  | _ => cases h

theorem Backstage.ne_advance (h : e.Backstage event) (now : Instant) :
    event ≠ .advance now := by
  rintro rfl
  exact h

theorem Enacts.rehearsed {allowed : Engine → Event → Prop}
    (houtside : ∀ e event, allowed e event → event.isOutside = false)
    (hr : Rehearsed config entries e) (h : Enacts allowed e e') :
    Rehearsed config entries e' := by
  induction h with
  | refl => exact hr
  | step e₁ e₂ event _ hallowed hstep ih =>
      exact ih.step hstep (isMembership_of_isOutside
        (houtside e₁ event hallowed))
  | tell e₁ notices _ ih => exact ih.tell notices

theorem Enacts.held {allowed : Engine → Event → Prop} {sub : Submission}
    {handle : Handle} {deadline touched : Instant}
    (houtside : ∀ e event, allowed e event → event.isOutside = false)
    (hheld : Held config entries sub handle deadline touched e)
    (h : Enacts allowed e e') :
    Held config entries sub handle deadline touched e' := by
  induction h with
  | refl => exact hheld
  | step e₁ e₂ event _ hallowed hstep ih =>
      exact ih.step (houtside e₁ event hallowed) hstep
  | tell e₁ notices _ ih => exact ih.tell notices

theorem Enacts.now_eq (hr : Rehearsed config entries e)
    (h : Enacts Backstage e e') : e'.now = e.now := by
  induction h with
  | refl => rfl
  | step e₁ e₂ event hbefore hallowed hstep ih =>
      have hr₁ := hbefore.rehearsed (fun _ _ => Backstage.isOutside) hr
      rcases (hr₁.transition hstep).now_cases with hnow | hadvance
      · exact hnow.trans ih
      · exact absurd hadvance (hallowed.ne_advance _)
  | tell e₁ notices _ ih => exact ih

/-- Without jobs the background only sweeps. -/
theorem Enacts.idle (hidle : e.jobs = []) (h : Enacts Backstage e e') :
    e'.jobs = [] ∧ e'.submissions = e.submissions ∧ e'.rounds = e.rounds := by
  induction h with
  | refl => exact ⟨hidle, rfl, rfl⟩
  | step e₁ e₂ event _ hallowed hstep ih =>
      cases event with
      | sweep =>
          cases hstep
          exact ih
      | startJob | arrive | finish => exact absurd ih.1 hallowed
      | _ => cases hallowed
  | tell e₁ notices _ ih => exact ih

theorem Enacts.jobs_ne_nil (hr : Rehearsed config entries e)
    (h : Enacts Backstage e e') (hjobs : e.jobs ≠ []) : e'.jobs ≠ [] := by
  induction h with
  | refl => exact hjobs
  | step e₁ e₂ event hbefore hallowed hstep ih =>
      exact (hbefore.rehearsed (fun _ _ => Backstage.isOutside) hr).jobs_ne_nil
        hstep ih
  | tell e₁ notices _ ih => exact ih

end

end Engine

/-- Whether a task belongs to the background. -/
def Work.IsBackstage (e : Engine) : Work → Prop
  | .sweeper _ => True
  | .job _ => e.jobs ≠ []
  | _ => False

namespace Rehearsal

open Engine (Rehearsed Enacts Backstage)

/-! ## Calm rehearsals -/

/-- Nobody waits for a collation, all tasks belong to the background, and
nothing is guessed. -/
structure Calm (config : EngineConfig) (entries : List (Node × Connectivity))
    (s : Rehearsal) : Prop where
  rehearsed : Rehearsed config entries s.engine
  watched : s.watched = none
  tasks : ∀ work ∈ s.tasks, work.IsBackstage s.engine
  known : ∀ place c, (s.script place c).isGuess = false
  plans : ∀ plan ∈ s.plans, plan.isGuess = false

/-- What the background does at one moment. -/
structure Worked (config : EngineConfig) (entries : List (Node × Connectivity))
    (s s' : Rehearsal) : Prop where
  enacts : Enacts Backstage s.engine s'.engine
  calm : Calm config entries s'
  timers : ∃ more, s'.timers = s.timers ++ more ∧ ∀ t ∈ more, s.now < t.due
  woken : s'.conductorWoken = s.conductorWoken

/-- Only the tasks and their order change, and the new ones belong to the
background. -/
structure Arranged (s s' : Rehearsal) : Prop where
  engine : s'.engine = s.engine
  script : s'.script = s.script
  plans : s'.plans = s.plans
  timers : s'.timers = s.timers
  woken : s'.conductorWoken = s.conductorWoken
  watched : s'.watched = s.watched
  tasks : ∀ work ∈ s'.tasks, work ∈ s.tasks ∨ work.IsBackstage s.engine

theorem Arranged.refl (s : Rehearsal) : Arranged s s :=
  ⟨rfl, rfl, rfl, rfl, rfl, rfl, fun _ h => Or.inl h⟩

theorem Arranged.trans {s₁ s₂ s₃ : Rehearsal} (h : Arranged s₁ s₂)
    (h' : Arranged s₂ s₃) : Arranged s₁ s₃ where
  engine := h'.engine.trans h.engine
  script := h'.script.trans h.script
  plans := h'.plans.trans h.plans
  timers := h'.timers.trans h.timers
  woken := h'.woken.trans h.woken
  watched := h'.watched.trans h.watched
  tasks work hwork := by
    rcases h'.tasks work hwork with hold | hnew
    · exact h.tasks work hold
    · rw [h.engine] at hnew
      exact Or.inr hnew

theorem arranged_spawn (s : Rehearsal) {work : Work}
    (hwork : work.IsBackstage s.engine) (sweeper : Option Nat)
    (jobTasks : List Nat) :
    Arranged s { s.spawn work with sweeper, jobTasks } where
  engine := rfl
  script := rfl
  plans := rfl
  timers := rfl
  woken := rfl
  watched := rfl
  tasks other hother := by
    refine (List.mem_append.1 hother).imp_right fun hnew => ?_
    rw [List.mem_singleton.1 hnew]
    exact hwork

theorem arranged_setWork (s : Rehearsal) (t : Nat) {work : Work}
    (hwork : work.IsBackstage s.engine) : Arranged s (s.setWork t work) where
  engine := rfl
  script := rfl
  plans := rfl
  timers := rfl
  woken := rfl
  watched := rfl
  tasks other hother := by
    refine (List.mem_or_eq_of_mem_set hother).imp_right fun hnew => ?_
    rw [hnew]
    exact hwork

theorem arranged_wake (s : Rehearsal) (t : Nat) :
    Arranged s (s.wake (.task t)) := by
  unfold wake
  dsimp only
  split
  · exact Arranged.refl s
  · exact ⟨rfl, rfl, rfl, rfl, rfl, rfl, fun _ h => Or.inl h⟩

theorem arranged_follow (s : Rehearsal) : Arranged s s.follow := by
  -- A job gets a task only if it is there.
  have hjobs : ∀ (new : List Nat) (s : Rehearsal),
      (new ≠ [] → s.engine.jobs ≠ []) →
      Arranged s (new.foldl (fun s j => { s.spawn (.job j) with
        jobTasks := s.jobTasks ++ [s.tasks.length] }) s) := by
    intro new
    induction new with
    | nil => exact fun s _ => Arranged.refl s
    | cons j rest ih =>
        intro s hsome
        have hwork : (Work.job j).IsBackstage s.engine :=
          hsome (List.cons_ne_nil j rest)
        exact (arranged_spawn s hwork _ _).trans (ih _ fun _ => hwork)
  have hnew : ∀ n : Nat, (List.range s.engine.jobs.length).drop n ≠ [] →
      s.engine.jobs ≠ [] := by
    intro n hne hnil
    rw [hnil] at hne
    exact hne (List.drop_nil)
  unfold follow
  dsimp only
  split
  · have hwork : (Work.sweeper none).IsBackstage s.engine := trivial
    exact (arranged_spawn s hwork _ _).trans (hjobs _ _ (hnew _))
  · exact hjobs _ s (hnew _)

theorem callWaiter_of_none {s : Rehearsal}
    (h : s.watched = none) : s.callWaiter = s := by
  unfold callWaiter
  rw [h]

section

variable {config : EngineConfig} {entries : List (Node × Connectivity)}
  {s s₁ s₂ s' : Rehearsal} {event : Event}

theorem Worked.refl (h : Calm config entries s) :
    Worked config entries s s where
  enacts := .refl
  calm := h
  timers := ⟨[], (List.append_nil _).symm, fun _ h => nomatch h⟩
  woken := rfl

theorem Worked.now_eq (hs : Calm config entries s)
    (h : Worked config entries s s') : s'.now = s.now :=
  h.enacts.now_eq hs.rehearsed

theorem Worked.trans (hs : Calm config entries s)
    (h : Worked config entries s s₁) (h' : Worked config entries s₁ s₂) :
    Worked config entries s s₂ where
  enacts := h.enacts.trans h'.enacts
  calm := h'.calm
  timers := by
    obtain ⟨more, hmore, hlater⟩ := h.timers
    obtain ⟨more', hmore', hlater'⟩ := h'.timers
    refine ⟨more ++
      more', by rw [hmore', hmore, List.append_assoc], fun t ht => ?_⟩
    rcases List.mem_append.1 ht with ht | ht
    · exact hlater t ht
    · rw [← h.now_eq hs]
      exact hlater' t ht
  woken := h'.woken.trans h.woken

/-- Who is woken when, and what has been drawn or shown, does not disturb the
calm. -/
theorem Calm.adjust (hs : Calm config entries s) {ready : List Nat}
    {timers : List Timer} {conductorWoken : Bool} {sweeper : Option Nat}
    {drawn : Nat} {shownIds : List String} : Calm config entries
      { s with ready, timers, conductorWoken, sweeper, drawn, shownIds } :=
  ⟨hs.rehearsed, hs.watched, hs.tasks, hs.known, hs.plans⟩

theorem Calm.tell (hs : Calm config entries s) (notices : Journal) :
    Calm config entries { s with engine := s.engine.tell notices } :=
  ⟨hs.rehearsed.tell notices, hs.watched, hs.tasks, hs.known, hs.plans⟩

theorem Arranged.worked (hs : Calm config entries s) (h : Arranged s s') :
    Worked config entries s s' where
  enacts := by
    rw [h.engine]
    exact .refl
  calm := by
    refine ⟨h.engine ▸ hs.rehearsed, h.watched.trans hs.watched,
      fun work hwork => ?_, h.script ▸ hs.known, h.plans ▸ hs.plans⟩
    rw [h.engine]
    exact (h.tasks work hwork).elim (hs.tasks work) id
  timers := ⟨[], by rw [h.timers, List.append_nil], fun _ h => nomatch h⟩
  woken := h.woken

/-! ## Changing the engine -/

/-- Replacing the engine lets new tasks of the background begin. -/
theorem Calm.enter (hs : Calm config entries s) {e : Engine}
    (hr : Rehearsed config entries e)
    (hjobs : s.engine.jobs ≠ [] → e.jobs ≠ []) :
    Calm config entries (s.enter e) ∧ Arranged { s with engine := e }
      (s.enter e) := by
  have hchanged : Calm config entries { s with engine := e } := by
    refine ⟨hr, hs.watched, fun work hwork => ?_, hs.known, hs.plans⟩
    have hwork := hs.tasks work hwork
    cases work with
    | sweeper next => trivial
    | job j => exact hjobs hwork
    | _ => cases hwork
  have hfollowed := arranged_follow { s with engine := e }
  unfold Rehearsal.enter
  rw [callWaiter_of_none (hfollowed.watched.trans hs.watched)]
  exact ⟨(hfollowed.worked hchanged).calm, hfollowed⟩

/-- No event that leaves the members alone disturbs the calm. -/
theorem Calm.happen (hs : Calm config entries s) (event : Event)
    (hmembers : event.isMembership = false) :
    Calm config entries (s.apply event) ∧
      Arranged { s with engine := (s.engine.step event).getD s.engine }
        (s.apply event) := by
  unfold Rehearsal.apply
  cases hstep : s.engine.step event with
  | none => exact hs.enter hs.rehearsed id
  | some e =>
      exact hs.enter (hs.rehearsed.step hstep hmembers)
        (hs.rehearsed.jobs_ne_nil hstep)

/-- The background goes on with an engine that it has made. -/
theorem Calm.worked (hs : Calm config entries s) {e : Engine}
    (h : Enacts Backstage s.engine e) :
    Worked config entries s (s.enter e) := by
  obtain ⟨hcalm, harranged⟩ :=
    hs.enter (h.rehearsed (fun _ _ => Engine.Backstage.isOutside) hs.rehearsed)
      (h.jobs_ne_nil hs.rehearsed)
  refine ⟨?_, hcalm, ⟨[], ?_, fun _ h => nomatch h⟩, harranged.woken⟩
  · rw [harranged.engine]
    exact h
  · rw [harranged.timers, List.append_nil]

theorem Calm.apply (hs : Calm config entries s)
    (hallowed : s.engine.Backstage event) :
    Worked config entries s (s.apply event) := by
  unfold Rehearsal.apply
  cases hstep : s.engine.step event with
  | none => exact hs.worked .refl
  | some e => exact hs.worked (.step s.engine e event .refl hallowed hstep)

/-! ## Calls -/

theorem Calm.setTimer (hs : Calm config entries s) {due : Instant}
    (hdue : s.now < due) (w : Waker) :
    Worked config entries s (s.setTimer due w) where
  enacts := .refl
  calm := hs.adjust
  timers := by
    refine ⟨[⟨due, w⟩], rfl, fun t ht => ?_⟩
    rw [List.mem_singleton.1 ht]
    exact hdue
  woken := rfl

theorem showId_eq (id : String) (s : Rehearsal) :
    ∃ shownIds, s.showId id = { s with shownIds } := by
  unfold showId
  split
  · exact ⟨_, rfl⟩
  · exact ⟨_, rfl⟩

theorem Calm.noteCalls (hs : Calm config entries s) (w : Waker) :
    Worked config entries s (s.noteCalls w) := by
  unfold Rehearsal.noteCalls
  dsimp only
  induction s.engine.calls.drop s.plans.length generalizing s with
  | nil => exact Worked.refl hs
  | cons c rest ih =>
      rw [List.foldl_cons]
      obtain ⟨shownIds, hshown⟩ := showId_eq c.outbound.id s
      rw [hshown]
      dsimp only
      have hnoted : Worked config entries s { s with
          engine := s.engine.tell (s.script s.plans.length c).notices
          plans := s.plans ++ [s.script s.plans.length c]
          mostInFlight := max s.mostInFlight s.engine.inFlight
          shownIds } := by
        refine ⟨.tell _ _ .refl, ⟨hs.rehearsed.tell _, hs.watched, hs.tasks,
          hs.known, fun plan hplan => ?_⟩,
            ⟨[], (List.append_nil _).symm, fun _ h => nomatch h⟩, rfl⟩
        rcases List.mem_append.1 hplan with hold | hnew
        · exact hs.plans plan hold
        · rw [List.mem_singleton.1 hnew]
          exact hs.known _ c
      split
      · exact hnoted.trans hs (ih hnoted.calm)
      · next hlater =>
          have htimed :=
            hnoted.trans hs (hnoted.calm.setTimer (Nat.not_le.1 hlater) w)
          exact htimed.trans hs (ih htimed.calm)

theorem Calm.lookAt (hs : Calm config entries s) (hjobs : s.engine.jobs ≠ [])
    (call : Nat) : Worked config entries s (s.lookAt call) := by
  unfold Rehearsal.lookAt
  split
  · next c plan hcall hplan =>
      dsimp only
      split
      · have hallowed : s.engine.Backstage (.arrive call plan.result) := hjobs
        have harrived := hs.apply hallowed
        exact harrived.trans hs (harrived.calm.apply
          (harrived.enacts.jobs_ne_nil hs.rehearsed hjobs))
      · exact hs.apply hjobs
  · exact Worked.refl hs

theorem Calm.finishJob (hs : Calm config entries s) (hjobs : s.engine.jobs ≠ [])
    (call : Nat) : Worked config entries s (s.finishJob call) := by
  unfold Rehearsal.finishJob
  split
  · have hlooked := hs.lookAt hjobs call
    unfold passPermit
    split
    · next t _ =>
        exact hlooked.trans hs ((arranged_wake _ t).worked hlooked.calm)
    · exact hlooked
  · exact Worked.refl hs

/-! ## Tasks -/

theorem Calm.runJob (hs : Calm config entries s) (t j : Nat) :
    Worked config entries s (s.runJob t j) := by
  unfold Rehearsal.runJob
  split
  · exact Worked.refl hs
  · next job hjob =>
      have hjobs : s.engine.jobs ≠ [] := by
        intro hnil
        rw [hnil] at hjob
        cases hjob
      split
      · split
        · have hallowed : s.engine.Backstage .startJob := hjobs
          have hstarted := hs.apply hallowed
          have hnoted := hstarted.trans hs (hstarted.calm.noteCalls (.task t))
          exact hnoted.trans hs (hnoted.calm.finishJob
            (hnoted.enacts.jobs_ne_nil hs.rehearsed hjobs) _)
        · exact Worked.refl hs
      · exact hs.finishJob hjobs _
      · exact Worked.refl hs

theorem Calm.runSweeper (hs : Calm config entries s) (t : Nat)
    (next : Option Instant) :
    Worked config entries s (s.runSweeper t next) := by
  unfold Rehearsal.runSweeper
  split
  · exact Worked.refl hs
  · dsimp only
    split
    · exact Worked.refl hs
    · have hallowed : s.engine.Backstage .sweep := trivial
      have hswept := hs.apply hallowed
      have hset : ∀ following, Worked config entries s
          ((s.apply .sweep).setWork t (.sweeper (some following))) := by
        intro following
        have hwork : (Work.sweeper (some following)).IsBackstage
            (s.apply .sweep).engine :=
          trivial
        exact hswept.trans hs ((arranged_setWork _ t hwork).worked hswept.calm)
      refine (hset _).trans hs ((hset _).calm.setTimer ?_ _)
      rw [(hset _).now_eq hs]
      have hperiod := s.engine.config.registry.sweepPeriod_pos
      exact Instant.lt_timer s.now (Nat.sub_pos_of_lt (Nat.mod_lt _ hperiod))

theorem Calm.runTask (hs : Calm config entries s) (t : Nat) :
    Worked config entries s (s.runTask t) := by
  unfold Rehearsal.runTask
  cases htask : s.tasks[t]? with
  | none => exact Worked.refl hs
  | some work =>
      have hwork := hs.tasks work (List.mem_of_getElem? htask)
      cases work with
      | sweeper next => exact hs.runSweeper t next
      | job j => exact hs.runJob t j
      | _ => cases hwork

theorem Calm.drain : ∀ (turns : Nat) {s : Rehearsal}, Calm config entries s →
    Worked config entries s (s.drain turns)
  | 0, s, hs => Worked.refl hs
  | turns + 1, s, hs => by
    rw [Rehearsal.drain]
    split
    · exact Worked.refl hs
    · next t rest hready =>
        have hturn : Arranged s { s with ready := rest } :=
          ⟨rfl, rfl, rfl, rfl, rfl, rfl, fun _ h => Or.inl h⟩
        have hbegun := hturn.worked hs
        have hran := hbegun.trans hs (hbegun.calm.runTask t)
        exact hran.trans hs (Calm.drain turns hran.calm)

theorem Calm.rest (hs : Calm config entries s) :
    Worked config entries s s.rest :=
  Calm.drain patience hs

end

end Rehearsal

end Fanout
