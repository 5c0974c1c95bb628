import Fanout.Proofs.Backstage

/-!
# A sleep ends on time

The conductor sleeps by setting a timer for itself and letting the others run.
Each turn of its wait ends by moving the clock to the next timer. The clock
cannot pass the timer that was set, and it moves in every turn but perhaps the
first, where timers may be left over that are already due. So the number of
moments up to the end of the sleep bounds the number of turns, and at the end
exactly the time of the sleep has passed.
-/

namespace Fanout

namespace Engine

/-- What happens while the conductor sleeps: the background goes on, and time
passes. -/
def Asleep (e : Engine) (event : Event) : Prop :=
  e.Backstage event ∨ ∃ now, event = .advance now

theorem Asleep.isOutside {e : Engine} {event : Event} (h : e.Asleep event) :
    event.isOutside = false := by
  rcases h with h | ⟨now, rfl⟩
  · exact h.isOutside
  · rfl

end Engine

namespace Rehearsal

open Engine (Rehearsed Enacts Backstage Asleep)

/-! ## Moving the clock -/

theorem wake_eq (w : Waker) (s : Rehearsal) : ∃ ready, s.wake w =
    { s with ready, conductorWoken := s.conductorWoken || w ==
      .conductor } := by
  cases w with
  | conductor =>
      refine ⟨s.ready, ?_⟩
      show { s with conductorWoken := true } =
        { s with conductorWoken := s.conductorWoken || true }
      rw [Bool.or_true]
  | task t =>
      have hother : (Waker.task t == .conductor) = false :=
        beq_false_of_ne nofun
      unfold wake
      dsimp only
      rw [hother, Bool.or_false]
      split
      · exact ⟨s.ready, rfl⟩
      · exact ⟨_, rfl⟩

theorem foldl_wake (fired : List Timer) (s : Rehearsal) : ∃ ready,
    fired.foldl (fun s t => s.wake t.waker) s =
      { s with ready, conductorWoken :=
          s.conductorWoken || fired.any fun t => t.waker == .conductor } := by
  induction fired generalizing s with
  | nil =>
      refine ⟨s.ready, ?_⟩
      rw [List.any_nil, Bool.or_false]
      rfl
  | cons t rest ih =>
      obtain ⟨ready, hwake⟩ := wake_eq t.waker s
      obtain ⟨ready', hrest⟩ := ih (s.wake t.waker)
      refine ⟨ready', ?_⟩
      rw [List.foldl_cons, hrest, hwake, List.any_cons]
      dsimp only
      rw [Bool.or_assoc]

/-- What moving the clock does: it goes to the first timer, or stays if that is
due already, and everything set for that time is woken. -/
structure Advanced (config : EngineConfig)
    (entries : List (Node × Connectivity)) (s s' : Rehearsal) : Prop where
  enacts : Enacts Asleep s.engine s'.engine
  calm : Calm config entries s'
  engine : s'.engine = { s.engine with now := s'.now }
  timers : ∀ t ∈ s'.timers, s'.now < t.due
  fired : ∀ t ∈ s.timers, s'.now < t.due ∧ t ∈ s'.timers ∨
    t.due ≤ s'.now ∧ (t.waker = .conductor → s'.conductorWoken = true)
  now_le : s.now ≤ s'.now
  le_due : ∀ t ∈ s.timers, s'.now ≤ max s.now t.due
  lt_now : (∀ t ∈ s.timers, s.now < t.due) → s.now < s'.now

section

variable {config : EngineConfig} {entries : List (Node × Connectivity)}
  {s : Rehearsal}

theorem enacts_advance {e : Engine} {now : Instant} (hle : e.now ≤ now) :
    Enacts Asleep e ((e.step (.advance now)).getD e) ∧
      (e.step (.advance now)).getD e = { e with now } := by
  rcases Nat.eq_or_lt_of_le hle with heq | hlt
  · have hstep : e.step (.advance now) = none := by
      rw [Engine.step, if_neg (heq ▸ Nat.lt_irrefl _)]
    rw [hstep, Option.getD_none]
    refine ⟨.refl, ?_⟩
    rw [← heq]
  · have hstep : e.step (.advance now) = some { e with now } := if_pos hlt
    rw [hstep, Option.getD_some]
    exact ⟨.step e _ (.advance now) .refl (Or.inr ⟨now, rfl⟩) hstep, rfl⟩

theorem Calm.advance (hs : Calm config entries s) (hsome : s.timers ≠ []) :
    ∃ s', s.advance = some s' ∧ Advanced config entries s s' := by
  unfold Rehearsal.advance
  cases hdues : s.timers.map (·.due) with
  | nil => exact absurd (List.map_eq_nil_iff.1 hdues) hsome
  | cons first rest =>
      have hmin : (s.timers.map (·.due)).min? =
          some (rest.foldl min first) := by
        rw [hdues]
        rfl
      obtain ⟨hmem, hleast⟩ := List.min?_eq_some_iff.1 hmin
      dsimp only
      obtain ⟨due, hdue⟩ : ∃ due, due = max s.now (rest.foldl min first) :=
        ⟨_, rfl⟩
      rw [← hdue]
      have hle : s.engine.now ≤ due := hdue ▸ Nat.le_max_left _ _
      obtain ⟨henacts, hengine⟩ := enacts_advance hle
      obtain ⟨ready, hwoken⟩ := foldl_wake (s.timers.filter (·.due ≤ due))
        { s with
          engine := (s.engine.step (.advance due)).getD s.engine
          timers := s.timers.filter fun t => due < t.due }
      have hnow : ((s.engine.step (.advance due)).getD s.engine).now = due := by
        rw [hengine]
      rw [hwoken]
      refine ⟨_, rfl, {
        enacts := henacts
        calm :=
          ⟨henacts.rehearsed (fun _ _ => Asleep.isOutside) hs.rehearsed,
            hs.watched, fun work hwork => ?tasks, hs.known, hs.plans⟩
        engine := by rw [now, hnow]; exact hengine
        timers := fun t ht => ?timers
        fired := fun t ht => ?fired
        now_le := by rw [now, now, hnow]; exact hle
        le_due := fun t ht => ?le_due
        lt_now := fun hlater => ?lt_now }⟩
      case tasks =>
        rw [hengine]
        exact hs.tasks work hwork
      case timers =>
        rw [now, hnow]
        exact of_decide_eq_true (List.mem_filter.1 ht).2
      case fired =>
        rw [now, hnow]
        rcases Nat.lt_or_ge due t.due with hlater | hover
        · exact Or.inl ⟨hlater, List.mem_filter.2 ⟨ht, decide_eq_true hlater⟩⟩
        · refine Or.inr ⟨hover, fun hwaker => ?_⟩
          have hany : ((s.timers.filter (·.due ≤ due)).any fun t =>
              t.waker == .conductor) = true :=
            List.any_eq_true.2 ⟨t, List.mem_filter.2
              ⟨ht, decide_eq_true hover⟩, by
              rw [hwaker, beq_self_eq_true]⟩
          dsimp only
          rw [hany, Bool.or_true]
      case le_due =>
        have hfirst := hleast t.due (List.mem_map_of_mem ht)
        rw [now, hnow, hdue]
        exact Nat.max_le.2 ⟨Nat.le_max_left _ _,
          Nat.le_trans hfirst (Nat.le_max_right _ _)⟩
      case lt_now =>
        obtain ⟨t, ht, hfirst⟩ := List.mem_map.1 hmem
        rw [now, now, hnow, hdue]
        exact Nat.lt_of_lt_of_le (hfirst ▸ hlater t ht) (Nat.le_max_right _ _)

/-! ## Turns of a sleep -/

/-- How far a sleep has come: its timer is still set, or it has just called the
conductor. -/
def Pending (due : Instant) (s : Rehearsal) : Prop :=
  s.now < due ∧ ⟨due, .conductor⟩ ∈ s.timers ∨
    s.now = due ∧ s.conductorWoken = true

/-- What a turn of a sleep does that is not its last. -/
structure Turned (config : EngineConfig) (entries : List (Node × Connectivity))
    (due : Instant) (s s' : Rehearsal) : Prop where
  enacts : Enacts Asleep s.engine s'.engine
  calm : Calm config entries s'
  timers : ∀ t ∈ s'.timers, s'.now < t.due
  pending : Pending due s'
  now_le : s.now ≤ s'.now
  lt_now : (∀ t ∈ s.timers, s.now < t.due) → s.now < s'.now

/-- The tasks run to rest, which does not call the conductor. -/
theorem Calm.rested (hs : Calm config entries s) :
    ∃ s₁, ({ s with conductorWoken := false } : Rehearsal).rest = s₁ ∧
      Enacts Backstage s.engine s₁.engine ∧ Calm config entries s₁ ∧
      s₁.now = s.now ∧
      s₁.conductorWoken = false ∧
      ∃ more, s₁.timers = s.timers ++ more ∧ ∀ t ∈ more, s.now < t.due := by
  have hquiet : Calm config entries { s with conductorWoken := false } :=
    hs.adjust
  have hrest := hquiet.rest
  have hnow := hrest.now_eq hquiet
  exact ⟨_, rfl, hrest.enacts, hrest.calm, hnow, hrest.woken, hrest.timers⟩

theorem Calm.turn (hs : Calm config entries s) {due : Instant}
    (hlt : s.now < due) (hset : ⟨due, .conductor⟩ ∈ s.timers) :
    ∃ s', Turned config entries due s s' ∧
      ∀ turns, await (.until due)
        (turns + 1) s = await (.until due) turns s' := by
  obtain ⟨s₁, hrest, hworked, hcalm, hnow, hwoken, more, hmore, hlater⟩ :=
    hs.rested
  have hset' : ⟨due, .conductor⟩ ∈ s₁.timers := by
    rw [hmore]
    exact List.mem_append_left more hset
  obtain ⟨s', hadvance, hadvanced⟩ := hcalm.advance (List.ne_nil_of_mem hset')
  have henacts : Enacts Asleep s.engine s'.engine :=
    (hworked.mono fun _ _ h => Or.inl h).trans hadvanced.enacts
  refine ⟨s', ⟨henacts, hadvanced.calm, hadvanced.timers, ?_, ?_, ?_⟩,
    fun turns => ?_⟩
  · rcases hadvanced.fired _ hset' with hwaiting | ⟨hover, hwoken⟩
    · exact Or.inl hwaiting
    · have hle : s'.now ≤ max s₁.now due := hadvanced.le_due _ hset'
      rw [hnow, Nat.max_eq_right (Nat.le_of_lt hlt)] at hle
      exact Or.inr ⟨Nat.le_antisymm hle hover, hwoken rfl⟩
  · rw [← hnow]
    exact hadvanced.now_le
  · intro hfresh
    rw [← hnow]
    refine hadvanced.lt_now fun t ht => ?_
    rw [hmore] at ht
    rw [hnow]
    rcases List.mem_append.1 ht with hold | hnew
    · exact hfresh t hold
    · exact hlater t hnew
  · have hlook : (if s.conductorWoken then
        ({ s with conductorWoken := false } : Rehearsal).look (.until due) else
          (s, false)) = ({ s with conductorWoken := false }, false) := by
      split
      · exact Prod.ext rfl (decide_eq_false (Nat.not_le.2 hlt))
      · next hasleep =>
          rw [← Bool.eq_false_iff.2 hasleep]
    rw [await, hlook]
    dsimp only
    rw [if_neg Bool.false_ne_true, hrest, hwoken, if_neg Bool.false_ne_true,
      hadvance]

theorem await_of_woken {due : Instant} (hnow : s.now = due)
    (hwoken : s.conductorWoken = true) (turns : Nat) :
    await (.until due) (turns + 1) s = { s with conductorWoken := false } := by
  have hlook : (if s.conductorWoken then
      ({ s with conductorWoken := false } : Rehearsal).look (.until due) else
        (s, false)) = ({ s with conductorWoken := false }, true) := by
    rw [if_pos hwoken]
    exact Prod.ext rfl (decide_eq_true (Nat.le_of_eq hnow.symm))
  rw [await, hlook]
  rfl

/-- A sleep from one rehearsal to another: exactly the given time is over. -/
structure Slept (config : EngineConfig) (entries : List (Node × Connectivity))
    (due : Instant) (s s' : Rehearsal) : Prop where
  enacts : Enacts Asleep s.engine s'.engine
  calm : Calm config entries s'
  now : s'.now = due

theorem Calm.await_until (hs : Calm config entries s) {due : Instant}
    {turns : Nat} (hfresh : ∀ t ∈ s.timers, s.now < t.due)
    (hpending : Pending due s) (hturns : due - s.now < turns) :
    Slept config entries due s (await (.until due) turns s) := by
  -- On the turns: each but the last moves the clock, and none moves it past the
  -- timer.
  induction turns generalizing s with
  | zero => exact absurd hturns (Nat.not_lt_zero _)
  | succ turns ih =>
      rcases hpending with ⟨hlt, hset⟩ | ⟨hnow, hwoken⟩
      · obtain ⟨s', hturned, hawait⟩ := hs.turn hlt hset
        have hmoved := hturned.lt_now hfresh
        have hslept := ih hturned.calm hturned.timers hturned.pending
          (Nat.lt_of_lt_of_le (Nat.sub_lt_sub_left hlt hmoved)
            (Nat.lt_succ_iff.1 hturns))
        rw [hawait]
        exact ⟨hturned.enacts.trans hslept.enacts, hslept.calm, hslept.now⟩
      · rw [await_of_woken hnow hwoken]
        exact ⟨.refl, hs.adjust, hnow⟩

/-- A sleep ends when it is meant to. Before its first turn there may be timers
that are due already. -/
theorem Calm.sleep (hs : Calm config entries s) {span : Span}
    (hspan : 0 < span.nanos) :
    Slept config entries (Instant.timer s.now span) s (s.sleep span) := by
  have hlt := Instant.lt_timer s.now hspan
  have hsplit : ∀ (most moments : Nat), 2 ≤ most →
      ∃ turns, most + moments = turns + 1 ∧ moments < turns := by
    intro most moments hmost
    exact ⟨most + moments - 1, by omega, by omega⟩
  obtain ⟨turns, hturns⟩ :=
    hsplit patience (Instant.timer s.now span - s.now) (by decide)
  have hbegun : Calm config entries
      { s.setTimer (Instant.timer s.now span)
        .conductor with conductorWoken := true } :=
    hs.adjust
  obtain ⟨s', hturned, hawait⟩ := hbegun.turn hlt
    (List.mem_append_right _ List.mem_cons_self)
  have hle : Instant.timer s.now span - s'.now < turns :=
    Nat.lt_of_le_of_lt (Nat.sub_le_sub_left hturned.now_le _) hturns.2
  have hslept := hturned.calm.await_until hturned.timers hturned.pending hle
  have heq : s.sleep span = await (.until (Instant.timer s.now span))
      (patience + (Instant.timer s.now span - s.now))
      { s.setTimer (Instant.timer s.now span)
        .conductor with conductorWoken := true } := rfl
  rw [heq, hturns.1, hawait]
  exact ⟨hturned.enacts.trans hslept.enacts, hslept.calm, hslept.now⟩

end

end Rehearsal

end Fanout
