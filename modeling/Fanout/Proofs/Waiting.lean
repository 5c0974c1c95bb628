import Fanout.Proofs.Waiter
import Mathlib.Algebra.Order.BigOperators.Group.Finset

/-!
# Nobody waits in vain

A vigil is one collation with all who wait for it. In any order things are done
to the collation, somebody comes to wait, somebody has a turn, or time passes,
and time passes only as long as nobody has something to do. So a waiter that has
been called leaves at the moment of the call, and one that has not is up at the
moment it set itself.

That it takes few turns to leave is counted by `Waiter.effort`: there is one
second look for the waiter that was called, and then the collation is complete.
The sum over all who wait carries the induction by which everybody can leave:
somebody always has a turn, if not now then when the first of those who sleep is
up.
-/

namespace Fanout

open Collation (History Operation Agrees)
open Collation.Tally (ofHistory coveredAt? isSome_coveredAt?)

/-! ## How many turns are left -/

namespace Waiter

section

variable {now : Instant} {covered : Option Instant} {c c' : Collation}
  {w w' : Waiter}

/-- The turns that a waiter has ahead of it at most. -/
def effort (c : Collation) (w : Waiter) : Nat :=
  match w.phase with
  | .awake => if c.isComplete then 2 else mostTurns
  | .listening _ => if c.isComplete then 1 else 4
  | .asleep _ => 3
  | .leaving => 1
  | .left .. => 0

theorem effort_le (c : Collation) (w : Waiter) : w.effort c ≤ mostTurns := by
  unfold effort mostTurns
  split
  · split <;> omega
  · split <;> omega
  all_goals omega

theorem effort_hear (hstays : c.isComplete = true → c'.isComplete = true)
    (w : Waiter) : (w.hear c c').effort c' ≤ w.effort c := by
  obtain ⟨entered, span, phase⟩ := w
  cases hc : c.isComplete with
  | true =>
      rw [hear, hc, Bool.not_true, Bool.false_and, if_neg Bool.false_ne_true,
        effort, effort, hc, hstays hc]
  | false =>
      rw [hear, hc, Bool.not_false, Bool.true_and]
      split
      · next hc' => cases phase <;> simp [call, effort, hc, hc', mostTurns]
      · next hc' => cases phase <;> simp [effort, hc, hc']

theorem Turned.effort_lt (h : Turned now c w c' w')
    (hfits : w.Fits now covered c) : w'.effort c < w.effort c := by
  obtain ⟨entered, span, phase⟩ := w
  cases h with
  | listens hphase =>
      cases hphase
      cases hc : c.isComplete <;> simp [effort, hc, mostTurns]
  | finds called hphase =>
      cases hphase
      cases hc : c.isComplete <;> simp [effort, hc]
  | sleeps called hphase hnot =>
      cases hphase
      cases hc : c.isComplete with
      | true =>
          rw [Collation.isComplete_settle_of_isComplete hc] at hnot
          cases hnot
      | false => simp [effort, hc]
  | wakes hphase =>
      cases hphase
      have hc : c.isComplete = true := hfits.2
      simp [effort, hc]
  | rises hphase =>
      cases hphase
      simp [effort]
  | leaves hphase =>
      cases hphase
      simp [effort]

end

end Waiter

/-! ## A vigil -/

/-- A collation and all who wait for it. -/
structure Vigil where
  now : Instant
  collation : Collation
  waiters : List Waiter := []
  /-- What others did to the collation so far. -/
  history : History := []

namespace Vigil

/-- What can happen next. -/
inductive Event where
  /-- Time passes, up to a moment. -/
  | advance (moment : Instant)
  /-- Somebody does something to the collation. -/
  | perform (op : Operation)
  /-- Somebody comes to wait. -/
  | enter (span : Span)
  /-- A waiter has a turn. -/
  | turn (i : Nat)

/-- Replaces the collation, and calls those who listen if that completed it. -/
def become (c : Collation) (v : Vigil) : Vigil :=
  { v with
    collation := c
    waiters := v.waiters.map (Waiter.hear v.collation c) }

/-- What happens, if it can. Time passes only as long as nobody has something to
do. -/
def step (v : Vigil) : Event → Option Vigil
  | .advance moment =>
    if v.now < moment ∧ ∀ w ∈ v.waiters, w.rests v.collation moment = true then
      some { v with now := moment }
    else none
  | .perform op =>
    some { v.become (v.collation.perform v.now op).1 with
      history := v.history ++ [(v.now, op)] }
  | .enter span =>
      some { v with waiters := v.waiters ++ [{ entered := v.now, span }] }
  | .turn i =>
    v.waiters[i]?.bind fun w => (w.turn v.now v.collation).map fun (c, w) =>
      { v with waiters := v.waiters.set i w }.become c

def run (v : Vigil) (events : List Event) : Option Vigil := events.foldlM step v

/-- The vigil over a new collation, for which nobody waits yet. -/
def start (now : Instant) (id : String) (method : Method) (uri : String)
    (nodes : List Node) (timeout : Span) : Vigil where
  now := now
  collation := .new now id method uri nodes timeout

section

variable {asked : List Node} {deadline start : Instant} {v v' : Vigil}
  {w : Waiter} {i : Nat}

theorem step_advance {moment : Instant}
    (h : v.step (.advance moment) = some v') :
    v.now < moment ∧ (∀ w ∈ v.waiters, w.rests v.collation moment = true) ∧
      v' = { v with now := moment } := by
  unfold step at h
  dsimp only at h
  split at h
  · next hcan =>
      cases h
      exact ⟨hcan.1, hcan.2, rfl⟩
  · cases h

theorem step_turn (h : v.step (.turn i) = some v') :
    ∃ w c w', v.waiters[i]? = some w ∧ w.Turned v.now v.collation c w' ∧
      v' = { v with waiters := v.waiters.set i w' }.become c := by
  obtain ⟨w, hw, hmap⟩ := Option.bind_eq_some_iff.1 h
  obtain ⟨⟨c, w'⟩, hturn, rfl⟩ := Option.map_eq_some_iff.1 hmap
  exact ⟨w, c, w', hw, Waiter.turned_of_turn hturn, rfl⟩

theorem isSome_step_turn (hw : v.waiters[i]? = some w) :
    (v.step (.turn i)).isSome = (w.turn v.now v.collation).isSome := by
  rw [step, hw, Option.bind_some, Option.isSome_map]

/-! ### Nobody is forgotten -/

/-- What is true of every vigil: the collation agrees with its history, and
everybody fits to it. -/
structure Kept (asked : List Node) (deadline start : Instant)
    (v : Vigil) : Prop where
  expected_eq : v.collation.expected = asked
  deadline_eq : v.collation.deadline = deadline
  agrees : Agrees v.now (ofHistory asked deadline v.history) v.collation
  covered : ∀ t, coveredAt? asked deadline start v.history = some t → t ≤ v.now
  fits : ∀ w ∈ v.waiters, w.Fits v.now
    (coveredAt? asked deadline start v.history) v.collation

theorem Kept.isComplete_settle (hk : Kept asked deadline start v) :
    (v.collation.settle v.now).isComplete = true ↔
      (coveredAt? asked deadline start v.history).isSome = true ∨
        v.collation.deadline ≤ v.now := by
  rw [hk.agrees.isComplete_settle, isSome_coveredAt?, hk.expected_eq,
    Bool.or_eq_true, decide_eq_true_eq]

theorem Kept.become (hk : Kept asked deadline start v) {c : Collation}
    {h : History}
      (hcourse : Course v.now (coveredAt? asked deadline start v.history)
      (coveredAt? asked deadline start h) v.collation c)
    (hagree : Agrees v.now (ofHistory asked deadline h) c) :
    Kept asked deadline start { v.become c with history := h } where
  expected_eq := hcourse.same.expected.trans hk.expected_eq
  deadline_eq := hcourse.same.deadline.trans hk.deadline_eq
  agrees := hagree
  covered t ht := by
    rcases hcourse.covered with hsame | ⟨-, hnew, -⟩
    · exact hk.covered t (hsame ▸ ht)
    · cases hnew.symm.trans ht
      exact Nat.le_refl v.now
  fits w hw := by
    obtain ⟨w, hold, rfl⟩ := List.mem_map.1 hw
    exact (hk.fits w hold).hear hcourse

theorem Kept.step (hk : Kept asked deadline start v) {event : Event}
    (h : v.step event = some v') : Kept asked deadline start v' := by
  cases event with
  | advance moment =>
      obtain ⟨hlt, hrests, rfl⟩ := step_advance h
      have hle := Nat.le_of_lt hlt
      exact {
        hk with
        agrees := hk.agrees.later hle
        covered := fun t ht => Nat.le_trans (hk.covered t ht) hle
        fits := fun w hw => (hk.fits w hw).advance hle (hrests w hw) }
  | perform op =>
      cases h
      obtain ⟨rfl, rfl⟩ := And.intro hk.expected_eq hk.deadline_eq
      exact hk.become (course_perform start hk.agrees op) (hk.agrees.perform op)
  | enter span =>
      cases h
      refine { hk with fits := fun w hw => ?_ }
      rcases List.mem_append.1 hw with hw | hw
      · exact hk.fits w hw
      · rw [List.mem_singleton.1 hw]
        exact Waiter.fits_new v.now span v.collation hk.covered
  | turn i =>
      obtain ⟨w, c, w', hw, hturned, rfl⟩ := step_turn h
      have hturn : Kept asked deadline start
          { v with waiters := v.waiters.set i w' } := by
        refine { hk with fits := fun x hx => ?_ }
        rcases List.mem_or_eq_of_mem_set hx with hx | rfl
        · exact hk.fits x hx
        · exact (hk.fits w (List.mem_of_getElem? hw)).turned hturned
            hk.isComplete_settle
      exact hturn.become (course_of_seen hturned.seen _)
        (hk.agrees.of_seen hturned.seen)

theorem kept_start (t₀ : Instant) (id : String) (method : Method) (uri : String)
    (nodes : List Node) (timeout : Span) :
    Kept (ascending nodes) (Instant.deadline t₀ timeout) t₀
      (.start t₀ id method uri nodes timeout) where
  expected_eq := rfl
  deadline_eq := rfl
  agrees := Collation.agrees_new t₀ id method uri nodes timeout
  covered t ht := by
    obtain ⟨past, hpast, rfl⟩ := Option.map_eq_some_iff.1 ht
    cases List.mem_singleton.1 (List.mem_of_find?_eq_some hpast)
    exact Nat.le_refl t₀
  fits _ hw := nomatch hw

/-- Who waits stays, and who has left stays away. -/
theorem grows_step {event : Event} (h : v.step event = some v') :
    Grows Waiter.Becomes v.waiters v'.waiters := by
  have hhear : ∀ (ws : List Waiter) (c c' : Collation),
      Grows Waiter.Becomes ws (ws.map (Waiter.hear c c')) := by
    intro ws c c' i w hw
    exact ⟨w.hear c
      c', by rw [List.getElem?_map, hw]; rfl, Waiter.becomes_hear c c' w⟩
  cases event with
  | advance moment =>
      obtain ⟨-, -, rfl⟩ := step_advance h
      exact Grows.refl Waiter.Becomes.refl v.waiters
  | perform op =>
      cases h
      exact hhear v.waiters _ _
  | enter span =>
      cases h
      exact Grows.append Waiter.Becomes.refl v.waiters _
  | turn i =>
      obtain ⟨w, c, w', hw, hturned, rfl⟩ := step_turn h
      exact (Grows.set Waiter.Becomes.refl hw hturned.becomes).trans
        Waiter.Becomes.trans (hhear _ _ _)

theorem grows_run {events : List Event} (h : v.run events = some v') :
    Grows Waiter.Becomes v.waiters v'.waiters :=
  foldlM_invariant (P := fun _ v' => Grows Waiter.Becomes v.waiters v'.waiters)
    (Grows.refl Waiter.Becomes.refl v.waiters)
    (fun _ _ _ _ _ hgrows hstep =>
      hgrows.trans Waiter.Becomes.trans (grows_step hstep)) h

/-! ### Everybody leaves -/

/-- The turns that somebody has ahead of them at most, who may not have come
yet. -/
def effort (v : Vigil) (i : Nat) : Nat :=
  (v.waiters[i]?.map (Waiter.effort v.collation)).getD Waiter.mostTurns

def Event.isTurnOf (i : Nat) : Event → Bool
  | .turn j => i == j
  | _ => false

theorem effort_le (v : Vigil) (i : Nat) : v.effort i ≤ Waiter.mostTurns := by
  unfold effort
  cases v.waiters[i]? with
  | none => exact Nat.le_refl _
  | some w => exact w.effort_le v.collation

theorem effort_become {c : Collation} (hstays : v.collation.isComplete = true →
    c.isComplete = true) (i : Nat) : (v.become c).effort i ≤ v.effort i := by
  show ((v.waiters.map (Waiter.hear v.collation c))[i]?.map
      (Waiter.effort c)).getD _ ≤ _
  rw [effort, List.getElem?_map]
  cases v.waiters[i]? with
  | none => exact Nat.le_refl _
  | some w => exact Waiter.effort_hear hstays w

/-- A turn brings a waiter closer to its end, and nothing takes it away from
there. -/
theorem Kept.effort_step (hk : Kept asked deadline start v) {event : Event}
    (h : v.step event = some v') (i : Nat) :
    v'.effort i + (if event.isTurnOf i then 1 else 0) ≤ v.effort i := by
  cases event with
  | advance moment =>
      obtain ⟨-, -, rfl⟩ := step_advance h
      exact Nat.le_refl _
  | perform op =>
      cases h
      obtain ⟨rfl, rfl⟩ := And.intro hk.expected_eq hk.deadline_eq
      exact effort_become (course_perform start hk.agrees op).stays i
  | enter span =>
      cases h
      by_cases hi : i < v.waiters.length
      · simp [effort, Event.isTurnOf, List.getElem?_append_left hi]
      · rw [effort.eq_def v i, List.getElem?_eq_none (Nat.not_lt.1 hi)]
        exact effort_le _ i
  | turn j =>
      obtain ⟨w, c, w', hw, hturned, rfl⟩ := step_turn h
      have hbecome :=
        effort_become (v := { v with waiters := v.waiters.set j w' })
        (course_of_seen hturned.seen none).stays i
      have hlt := hturned.effort_lt (hk.fits w (List.mem_of_getElem? hw))
      have hset : ({ v with waiters := v.waiters.set j w' } : Vigil).effort i =
          if i = j then w'.effort v.collation else v.effort i := by
        unfold effort
        rw [getElem?_set_of_some hw]
        by_cases hij : i = j
        · rw [if_pos hij, if_pos hij.symm]
          rfl
        · rw [if_neg hij, if_neg (Ne.symm hij)]
      by_cases hij : i = j
      · subst hij
        have hself : v.effort i = w.effort v.collation := by
          rw [effort, hw]; rfl
        simp only [Event.isTurnOf, beq_self_eq_true, if_true] at hset ⊢
        omega
      · simp only [Event.isTurnOf, beq_false_of_ne hij, if_neg hij,
          Bool.false_eq_true, if_false] at hset ⊢
        omega

/-- All the turns that those who are there have ahead of them. -/
def efforts (v : Vigil) : Nat := ∑ i ∈ Finset.range v.waiters.length, v.effort i

theorem Kept.efforts_lt (hk : Kept asked deadline start v)
    (h : v.step (.turn i) = some v') : v'.efforts < v.efforts := by
  have hstep := hk.effort_step h
  obtain ⟨w, c, w', hw, -, rfl⟩ := step_turn h
  have hlength :
      ({ v with waiters := v.waiters.set i w' }.become c).waiters.length =
      v.waiters.length := by
    rw [Vigil.become, List.length_map, List.length_set]
  rw [efforts, efforts, hlength]
  refine Finset.sum_lt_sum (fun j _ => Nat.le_of_add_right_le (hstep j))
    ⟨i, ?_, ?_⟩
  · exact Finset.mem_range.2 (List.getElem?_eq_some_iff.1 hw).1
  · have hi := hstep i
    simp only [Event.isTurnOf, beq_self_eq_true, if_true] at hi
    exact hi

/-- Whether an event is time that passes or the turn of somebody who waits. -/
def Event.isIdle : Event → Bool
  | .advance _ | .turn _ => true
  | .perform _ | .enter _ => false

/-- Where nobody has a turn, time can pass until the first of those who sleep is
up. -/
theorem exists_advance (hidle : ∀ w ∈ v.waiters, w.hasLeft = true ∨
      w.phase = .asleep false ∧ v.now < w.wakeAt v.collation)
    (hw : w ∈ v.waiters) (hstill : w.hasLeft = false) :
    ∃ moment j, v.step (.advance moment) = some { v with now := moment } ∧
      (({ v with now := moment } : Vigil).step (.turn j)).isSome = true := by
  have hsleeps : ∃ t, ∃ x ∈ v.waiters, x.hasLeft = false ∧
      x.wakeAt v.collation = t :=
    ⟨_, w, hw, hstill, rfl⟩
  obtain ⟨x, hx, hx', hwake⟩ := Nat.find_spec hsleeps
  have hfirst : ∀ y ∈ v.waiters, y.hasLeft = false →
      x.wakeAt v.collation ≤ y.wakeAt v.collation := by
    intro y hy hy'
    rw [hwake]
    exact Nat.find_min' hsleeps ⟨y, hy, hy', rfl⟩
  obtain ⟨hphase, hlt⟩ :=
    (hidle x hx).resolve_left (by rw [hx']; exact Bool.false_ne_true)
  obtain ⟨j, hj⟩ := List.mem_iff_getElem?.1 hx
  have hrests : ∀ y ∈ v.waiters, y.rests v.collation (x.wakeAt v.collation) =
      true := by
    intro y hy
    rcases hidle y hy with hleft | ⟨hasleep, -⟩
    · exact Waiter.rests_of_hasLeft hleft _ _
    · have hthere : y.hasLeft = false := by
        rw [Waiter.hasLeft, Waiter.result?, hasleep]
        rfl
      rw [Waiter.rests, hasleep]
      exact decide_eq_true (hfirst y hy hthere)
  have hturn : (x.turn (x.wakeAt v.collation) v.collation).isSome = true := by
    rw [Waiter.turn, hphase]
    exact congrArg Option.isSome (if_pos (Nat.le_refl _))
  refine ⟨x.wakeAt v.collation, j, if_pos ⟨hlt, hrests⟩, ?_⟩
  rw [isSome_step_turn (v := { v with now := x.wakeAt v.collation }) hj]
  exact hturn

/-- As long as somebody is there, somebody has a turn, if not now then at a
later moment. -/
theorem exists_turn (hw : v.waiters[i]? = some w) (hstill : w.hasLeft = false) :
    ∃ pause j v₁ v', (∀ event ∈ pause, event.isIdle = true) ∧
      v.run pause = some v₁ ∧ v₁.efforts = v.efforts ∧
      v₁.step (.turn j) = some v' := by
  by_cases hbusy : ∃ j, (v.step (.turn j)).isSome = true
  · obtain ⟨j, hj⟩ := hbusy
    obtain ⟨v', hstep⟩ := Option.isSome_iff_exists.1 hj
    exact ⟨[], j, v, v', nofun, rfl, rfl, hstep⟩
  · have hidle : ∀ x ∈ v.waiters, x.hasLeft = true ∨
        x.phase = .asleep false ∧ v.now < x.wakeAt v.collation := by
      intro x hx
      obtain ⟨j, hj⟩ := List.mem_iff_getElem?.1 hx
      refine Waiter.turn_eq_none (Option.not_isSome_iff_eq_none.1 fun hturn =>
        hbusy ⟨j, ?_⟩)
      rw [isSome_step_turn hj]
      exact hturn
    obtain ⟨moment, j, hpasses, hturn⟩ :=
      exists_advance hidle (List.mem_of_getElem? hw) hstill
    obtain ⟨v', hstep⟩ := Option.isSome_iff_exists.1 hturn
    exact ⟨[.advance moment], j, _, v', by simp [Event.isIdle],
      foldlM_cons_eq_some.2 ⟨_, hpasses, rfl⟩, rfl, hstep⟩

theorem Kept.run (hk : Kept asked deadline start v) {events : List Event}
    (h : v.run events = some v') : Kept asked deadline start v' :=
  foldlM_invariant (P := fun _ v' => Kept asked deadline start v') hk
    (fun _ _ _ _ _ hk hstep => hk.step hstep) h

/-- Nobody has to do anything for somebody who waits to leave, apart from those
who wait. -/
theorem Kept.can_leave (hk : Kept asked deadline start v)
    (hw : v.waiters[i]? = some w) :
      ∃ more v' w', (∀ event ∈ more, event.isIdle = true) ∧
        v.run more = some v' ∧
      v'.waiters[i]? = some w' ∧ w'.hasLeft = true := by
  -- On the turns that all who are there still have, not only this one: it may
  -- be another that is up first.
  generalize hn : v.efforts = n
  induction n using Nat.strongRecOn generalizing v w with
  | ind n ih =>
      cases hleft : w.hasLeft with
      | true => exact ⟨[], v, w, nofun, rfl, hw, hleft⟩
      | false =>
          obtain ⟨pause, j, v₁, v₂, hpause, hrun, hsame, hstep⟩ :=
            exists_turn hw hleft
          have hrun₂ : v.run (pause ++ [.turn j]) = some v₂ :=
            foldlM_snoc_eq_some.2 ⟨v₁, hrun, hstep⟩
          obtain ⟨w₂, hw₂, -⟩ := grows_run hrun₂ i w hw
          have hlt := (hk.run hrun).efforts_lt hstep
          obtain ⟨more, v', w', hmore, hrun', hw', hleft'⟩ :=
            ih v₂.efforts (by omega) (hk.run hrun₂) hw₂ rfl
          have hall : v.run (pause ++ [.turn j] ++ more) = some v' :=
            foldlM_append_eq_some.2 ⟨v₂, hrun₂, hrun'⟩
          refine ⟨pause ++ [.turn j] ++ more, v', w', fun event hevent =>
            ?_, hall, hw', hleft'⟩
          simp only [List.mem_append, List.mem_singleton] at hevent
          rcases hevent with (hevent | rfl) | hevent
          · exact hpause event hevent
          · rfl
          · exact hmore event hevent

theorem kept_of_run {t₀ : Instant} {id : String} {method : Method}
    {uri : String} {nodes : List Node} {timeout : Span} {events : List Event}
    (h : (Vigil.start t₀ id method uri nodes timeout).run events = some v) :
    Kept (ascending nodes) (Instant.deadline t₀ timeout) t₀ v ∧
      ∀ i, events.countP (Event.isTurnOf i) + v.effort i ≤
        Waiter.mostTurns := by
  refine foldlM_invariant (P := fun events v =>
      Kept (ascending nodes) (Instant.deadline t₀ timeout) t₀ v ∧
        ∀ i, events.countP (Event.isTurnOf i) + v.effort i ≤ Waiter.mostTurns)
    ⟨kept_start t₀ id method uri nodes timeout, fun i => ?_⟩ ?_ h
  · rw [List.countP_nil, Nat.zero_add]
    exact effort_le _ i
  · intro events event v v' _ hP hstep
    obtain ⟨hk, hturns⟩ := hP
    refine ⟨hk.step hstep, fun i => ?_⟩
    have hbefore := hturns i
    have hevent := hk.effort_step hstep i
    rw [List.countP_append, List.countP_singleton]
    omega

/-- One that is still there has a turn, or its time has not come. -/
theorem lt_or_isSome_step (hw : v.waiters[i]? = some w)
    (hstill : w.hasLeft = false) :
    v.now < w.wakeAt v.collation ∨ (v.step (.turn i)).isSome = true := by
  rw [isSome_step_turn hw]
  cases hturn : w.turn v.now v.collation with
  | some _ => exact Or.inr rfl
  | none =>
      rcases Waiter.turn_eq_none hturn with hleft | ⟨-, hlt⟩
      · rw [hstill] at hleft
        cases hleft
      · exact Or.inl hlt

end

/-- Somebody waits for a collation from `w.entered` on, for a span that the
clock can represent. Whatever else happens, in any order: it has left by its own
limit or by the deadline, whichever comes first, or at once where both have
passed; it never has to wait for anybody to leave, takes a few turns, and stays
away. If the nodes are covered before both, it leaves at that very moment, with
the answer that the collation is complete. It also has that answer whenever the
deadline does not lie beyond its limit. And in any case the answer is the truth
at the moment at which it leaves. -/
theorem wait_ends {t₀ : Instant} {id : String} {method : Method} {uri : String}
    {nodes : List Node} {timeout : Span} {events : List Event} {v : Vigil}
    (hrun : (start t₀ id method uri nodes timeout).run events = some v)
    {i : Nat} {w : Waiter} (hw : v.waiters[i]? = some w)
    (hclock : w.entered + w.span.nanos < Instant.limit) :
    let deadline := Instant.deadline t₀ timeout
    let latest := min (w.entered + w.span.nanos) deadline
    let covered := coveredAt? (ascending nodes) deadline t₀ v.history
    (w.hasLeft = false → v.now ≤ max w.entered latest ∧
      (v.now < latest ∨ (v.step (.turn i)).isSome = true)) ∧
    events.countP (Event.isTurnOf i) ≤ Waiter.mostTurns ∧
    (∃ more v' w', (∀ event ∈ more, event.isIdle = true) ∧
      v.run more = some v' ∧ v'.waiters[i]? = some w' ∧ w'.hasLeft = true) ∧
    (∀ complete moment, w.phase = .left complete moment →
      w.entered ≤ moment ∧ moment ≤ max w.entered latest ∧
      (deadline ≤ w.entered + w.span.nanos → complete = true) ∧
      ∀ more v', v.run more = some v' → v'.waiters[i]? = some w) ∧
    (∀ t, covered = some t → w.entered ≤ t → t < latest →
      w.phase = .left true t ∨ w.hasLeft = false ∧ v.now = t) ∧
    (∀ v' w' complete moment, v.step (.turn i) = some v' →
      v'.waiters[i]? = some w' → w'.phase = .left complete moment →
        moment = v.now ∧ complete = v'.collation.isComplete ∧
        (complete = true ↔ covered.isSome = true ∨ deadline ≤ v.now)) := by
  intro deadline latest covered
  obtain ⟨hk, hturns⟩ := kept_of_run hrun
  have hfits := hk.fits w (List.mem_of_getElem? hw)
  have hlimit : w.limit = w.entered + w.span.nanos := by
    rw [Waiter.limit, Instant.deadline, Instant.after?, if_pos hclock]
    rfl
  have hwake : w.wakeAt v.collation = latest := by
    rw [Waiter.wakeAt, hlimit, hk.deadline_eq]
  refine ⟨?punctual, ?few, ?leaves, ?gone, ?noticed, ?truth⟩
  case punctual =>
    intro hstill
    rw [← hwake]
    exact ⟨(hfits.present hstill).punctual, lt_or_isSome_step hw hstill⟩
  case few => exact Nat.le_trans (Nat.le_add_right ..) (hturns i)
  case leaves => exact hk.can_leave hw
  case gone =>
    intro complete moment hphase
    rw [Waiter.Fits, hphase, hlimit, hk.deadline_eq] at hfits
    refine ⟨hfits.came, hfits.punctual, fun hwithin =>
      ?_, fun more v' hmore => ?_⟩
    · cases complete with
      | true => rfl
      | false =>
          obtain ⟨hpast, hopen⟩ := hfits.unfinished rfl
          exact absurd (Nat.le_trans hwithin hpast) (Nat.not_le.2 hopen)
    · obtain ⟨w', hw', hbecomes⟩ := grows_run hmore i w hw
      rw [hw',
        hbecomes.left (by rw [Waiter.hasLeft, Waiter.result?, hphase]; rfl)]
  case noticed =>
    intro t ht hcame hlt
    cases hleft : w.hasLeft with
    | false =>
        exact Or.inr ⟨rfl, ((hfits.present hleft).noticed t ht hcame).symm⟩
    | true =>
        obtain ⟨complete, moment, hphase⟩ := Waiter.exists_of_hasLeft hleft
        rw [Waiter.Fits, hphase, hlimit, hk.deadline_eq] at hfits
        obtain ⟨rfl, rfl⟩ := hfits.noticed t ht hcame hlt
        exact Or.inl hphase
  case truth =>
    intro v' w' complete moment hstep hw' hphase
    obtain ⟨x, c, x', hx, hturned, rfl⟩ := step_turn hstep
    have hw₁ : x'.hear v.collation c = w' := by
      rw [become, List.getElem?_map, getElem?_set_of_some hx, if_pos rfl] at hw'
      exact Option.some.inj hw'
    rw [← hw₁] at hphase
    obtain ⟨rfl, rfl, rfl⟩ := hturned.left (Waiter.phase_of_hear hphase)
    refine ⟨rfl, rfl, ?_⟩
    rw [hk.isComplete_settle, hk.deadline_eq]

/-- The only answer comes when one has looked and not yet gone to sleep, and
another listens and has not looked. -/
theorem wait_ends_of_two :
    let node : Node := ⟨"a", "localhost", 1⟩
    let events : List Event :=
      [.advance 4, .enter ⟨9⟩, .enter ⟨30⟩, .turn 0, .turn 0, .turn 1,
        .perform (.merge (.ofReply node { status := 200 } ⟨4⟩)), .turn 1,
        .turn 0, .turn 0, .turn 0]
    ∃ v w, (start 0 "r" .put "/" [node] ⟨20⟩).run events = some v ∧
      v.waiters[0]? = some w ∧ w.entered + w.span.nanos < Instant.limit ∧
      w.entered ≤ 4 ∧
      4 < min (w.entered + w.span.nanos) (Instant.deadline 0 ⟨20⟩) ∧
      w.phase = .left true 4 := by
  intro node events
  have hend : ((start 0 "r" .put "/" [node] ⟨20⟩).run events).map
      (fun v =>
        (v.waiters, coveredAt? [node] (Instant.deadline 0 ⟨20⟩) 0 v.history)) =
        some ([⟨4, ⟨9⟩, .left true 4⟩, ⟨4, ⟨30⟩, .left true 4⟩], some 4) := by
    decide +kernel
  obtain ⟨v, hrun, hseen⟩ := Option.map_eq_some_iff.1 hend
  rw [Prod.mk.injEq] at hseen
  obtain ⟨hwaiters, hcovered⟩ := hseen
  have hw : v.waiters[0]? = some ⟨4, ⟨9⟩, .left true 4⟩ := by rw [hwaiters]; rfl
  have hends := wait_ends hrun hw (by decide)
  refine ⟨v, _, hrun, hw, by decide, by decide, by decide, ?_⟩
  exact (hends.2.2.2.2.1 4 hcovered (by decide) (by decide)).resolve_right
    (nomatch ·.1)

end Vigil

end Fanout
