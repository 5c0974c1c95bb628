import Fanout.Proofs.Growth
import Fanout.Waiter
import Mathlib.Data.List.Infix
import Mathlib.Order.MinMax

/-!
# What is true of a waiter

Whatever is done to a collation, a waiter hears of its completion. The danger is
the moment between its look and its sleep: a completion that falls in between
calls nobody a second time.

What rules that out is an invariant of each waiter, `Waiter.Fits`. It ties the
phase of a waiter to the tally of the collation, and not to the collation
itself, which may not have noticed yet: one that sleeps without having been
called sleeps over nodes that are not covered. Only a merge can cover them, a
merge completes the collation there and then, and so it calls everybody who
sleeps or is about to. A deadline calls nobody. But then nobody sleeps beyond
it.

The invariant is kept by the three things that can happen: the collation
changes, the waiter has a turn, or time passes while it has nothing to do.
-/

namespace Fanout

open Collation (History Operation Agrees Same)

/-! ## When the nodes were covered -/

namespace Collation.Tally

variable {nodes : List Node} {deadline start t : Instant} {h : History}

/-- When the answers taken in first covered the nodes: at the last step that it
took for that, or at the start if it took none. -/
def coveredAt? (nodes : List Node) (deadline start : Instant) (h : History) :
    Option Instant :=
  (h.inits.find? fun past => (ofHistory nodes deadline past).covers nodes).map
    fun past =>
    (past.getLast?.map (·.1)).getD start

theorem coveredAt?_snoc (step : Instant × Operation) :
    coveredAt? nodes deadline start (h ++ [step]) =
      (coveredAt? nodes deadline start h).or
        (if (ofHistory nodes deadline (h ++ [step])).covers nodes then
          some step.1 else none) := by
  have hinits : (h ++ [step]).inits = h.inits ++ [h ++ [step]] := by
    simp [List.inits_append]
  rw [coveredAt?, coveredAt?, hinits, List.find?_append, Option.map_or,
    List.find?_singleton]
  split
  · simp
  · rfl

/-- An operation leaves the tally as it is, or it is a merge that is taken
in. -/
theorem ofHistory_snoc_cases (nodes : List Node) (deadline t : Instant)
    (h : History) (op : Operation) :
    ofHistory nodes deadline (h ++ [(t, op)]) = ofHistory nodes deadline h ∨
      ∃ a, op = .merge a ∧
        (ofHistory nodes deadline h).takes nodes deadline t a = true := by
  rw [ofHistory_snoc]
  cases op with
  | merge a =>
      simp only [offer]
      split
      · next htakes => exact Or.inr ⟨a, rfl, htakes⟩
      · exact Or.inl rfl
  | isComplete | completedAt | count | report => exact Or.inl rfl

theorem lt_of_takes {held : Tally} {a : Answer}
    (h : held.takes nodes deadline t a = true) :
    t < deadline ∧ held.covers nodes = false := by
  simp only [takes, Bool.and_eq_true, decide_eq_true_eq, Bool.not_eq_true'] at h
  exact ⟨h.1.2, h.2⟩

/-- Nodes that are covered remain covered, since nothing is taken in any
more. -/
theorem isSome_coveredAt? (nodes : List Node) (deadline start : Instant)
    (h : History) : (coveredAt? nodes deadline start h).isSome =
      (ofHistory nodes deadline h).covers nodes := by
  induction h using List.reverseRecOn with
  | nil =>
      rw [coveredAt?, List.inits, List.find?_singleton]
      split
      · next hcovers => rw [hcovers]; rfl
      · next hcovers => simp [hcovers]
  | append_singleton h step ih =>
      obtain ⟨t, op⟩ := step
      have hlast : ∀ b : Bool,
          (if b then some t else none : Option Instant).isSome = b := by
        simp
      rw [coveredAt?_snoc, Option.isSome_or, ih, hlast]
      rcases ofHistory_snoc_cases nodes deadline t h op with hsame |
        ⟨a, -, htakes⟩
      · rw [hsame, Bool.or_self]
      · rw [(lt_of_takes htakes).2, Bool.false_or]

end Collation.Tally

open Collation.Tally (ofHistory coveredAt? isSome_coveredAt? coveredAt?_snoc)

/-! ## What can happen to a collation at a moment -/

/-- What can happen to a collation at a moment. If its nodes are covered now and
were not before, it completes. -/
structure Course (now : Instant) (covered covered' : Option Instant)
    (c c' : Collation) : Prop where
  same : Same c c'
  stays : c.isComplete = true → c'.isComplete = true
  covered : covered' = covered ∨ covered = none ∧ covered' = some now ∧
    now < c.deadline ∧ c.isComplete = false ∧ c'.isComplete = true

section

variable {now : Instant} {c : Collation} {h : History} {held : Collation.Tally}

theorem Collation.isComplete_settle_of_isComplete (hc : c.isComplete = true)
    (now : Instant) : (c.settle now).isComplete = true := by
  rw [settle_of_isComplete hc]
  exact hc

theorem course_of_seen {c' : Collation} (h : c.Seen now c')
    (covered : Option Instant) : Course now covered covered c c' where
  same := h.same
  stays hc := by
    rcases h with rfl | rfl
    · exact hc
    · exact Collation.isComplete_settle_of_isComplete hc now
  covered := Or.inl rfl

theorem Collation.Agrees.not_isComplete (hagree : Agrees now held c)
    (hnot : held.covers c.expected = false) (hlt : now < c.deadline) :
    c.isComplete = false := by
  cases hc : c.isComplete with
  | false => rfl
  | true =>
      have hsettled := hagree.isComplete_settle
      rw [isComplete_settle_of_isComplete hc, hnot,
        decide_eq_false (Nat.not_le.2 hlt)] at hsettled
      cases hsettled

theorem course_perform (start : Instant)
    (hagree : Agrees now (ofHistory c.expected c.deadline h) c)
    (op : Operation) :
    Course now (coveredAt? c.expected c.deadline start h)
      (coveredAt? c.expected c.deadline start (h ++ [(now, op)])) c
        (c.perform now op).1 := by
  have hsame := Collation.same_perform now c op
  refine ⟨hsame,
    fun hc => by rw [Collation.perform_of_isComplete hc]; exact hc, ?_⟩
  have hbefore := isSome_coveredAt? c.expected c.deadline start h
  rw [coveredAt?_snoc]
  cases hcovered : coveredAt? c.expected c.deadline start h with
  | some t => exact Or.inl rfl
  | none =>
      rw [hcovered] at hbefore
      rw [Option.none_or]
      split
      · next hcovers =>
          rcases Collation.Tally.ofHistory_snoc_cases c.expected
            c.deadline now h op with
            hunmoved | ⟨a, rfl, htakes⟩
          · rw [hunmoved, ← hbefore] at hcovers
            cases hcovers
          · obtain ⟨hlt, hnot⟩ := Collation.Tally.lt_of_takes htakes
            refine Or.inr ⟨rfl, rfl, hlt, hagree.not_isComplete hnot hlt, ?_⟩
            have hafter := (hagree.perform (.merge a)).isComplete_settle
            rw [hsame.expected, hcovers, Bool.true_or] at hafter
            rw [← hafter]
            exact congrArg Collation.isComplete
              (Collation.settle_merge now a c).symm
      · exact Or.inl rfl

end

/-! ## One waiter -/

namespace Waiter

/-- What a turn can be. -/
inductive Turned (now : Instant) (c : Collation) (w : Waiter) :
    Collation → Waiter → Prop
  | listens (h : w.phase = .awake) :
      Turned now c w c { w with phase := .listening false }
  | finds (called : Bool) (h : w.phase = .listening called)
      (hc : (c.settle now).isComplete = true) :
      Turned now c w (c.settle now) { w with phase := .left true now }
  | sleeps (called : Bool) (h : w.phase = .listening called)
      (hc : (c.settle now).isComplete = false) :
      Turned now c w (c.settle now) { w with phase := .asleep called }
  | wakes (h : w.phase = .asleep true) :
      Turned now c w c { w with phase := .awake }
  | rises (h : w.phase = .asleep false) (hdue : w.wakeAt c ≤ now) :
      Turned now c w c { w with phase := .leaving }
  | leaves (h : w.phase = .leaving) :
      Turned now c w (c.settle now)
        { w with phase := .left (c.settle now).isComplete now }

section

variable {now : Instant} {covered covered' : Option Instant} {c c' : Collation}
  {w w' : Waiter}

theorem exists_of_hasLeft (h : w.hasLeft = true) :
    ∃ complete moment, w.phase = .left complete moment := by
  obtain ⟨entered, span, phase⟩ := w
  cases phase with
  | left complete moment => exact ⟨complete, moment, rfl⟩
  | awake | listening | asleep | leaving => cases h

theorem turned_of_turn (h : w.turn now c = some (c', w')) :
    Turned now c w c' w' := by
  unfold turn at h
  dsimp only at h
  split at h
  · next hphase =>
      cases h
      exact .listens hphase
  · next called hphase =>
      cases h
      cases hc : (c.settle now).isComplete with
      | true => exact .finds called hphase hc
      | false => exact .sleeps called hphase hc
  · next hphase =>
      cases h
      exact .wakes hphase
  · next hphase =>
      split at h
      · next hdue =>
          cases h
          exact .rises hphase hdue
      · cases h
  · next hphase =>
      cases h
      exact .leaves hphase
  · cases h

/-- One that is still there has not missed anything: neither the time at which
it wakes, nor that the nodes were covered since it came. -/
structure Present (entered wake now : Instant)
    (covered : Option Instant) : Prop where
  came : entered ≤ now
  punctual : now ≤ max entered wake
  noticed : ∀ t, covered = some t → entered ≤ t → t = now

/-- One that has left has done so in time, and with the right answer. -/
structure Gone (entered limit deadline now : Instant) (covered : Option Instant)
    (complete : Bool) (moment : Instant) : Prop where
  came : entered ≤ moment
  past : moment ≤ now
  punctual : moment ≤ max entered (min limit deadline)
  unfinished : complete = false → limit ≤ moment ∧ moment < deadline
  finished : complete = true → covered.isSome = true ∨ deadline ≤ moment
  noticed : ∀ t, covered = some t → entered ≤ t → t < min limit deadline →
    complete = true ∧ moment = t

/-- What is true of a waiter in each phase. -/
def Fits (now : Instant) (covered : Option Instant) (c : Collation)
    (w : Waiter) : Prop :=
  match w.phase with
  | .awake => Present w.entered (w.wakeAt c) now covered
  | .listening called =>
    Present w.entered (w.wakeAt c) now covered ∧
      (called = true → c.isComplete = true)
  | .asleep true => Present w.entered (w.wakeAt c) now covered ∧
      c.isComplete = true
  | .asleep false => Present w.entered (w.wakeAt c) now covered ∧ covered = none
  | .leaving => Present w.entered (w.wakeAt c) now covered ∧ w.wakeAt c ≤ now
  | .left complete moment => Gone w.entered w.limit c.deadline now
      covered complete moment

theorem Fits.present (h : w.Fits now covered c) (hstill : w.hasLeft = false) :
    Present w.entered (w.wakeAt c) now covered := by
  obtain ⟨entered, span, phase⟩ := w
  cases phase with
  | awake => exact h
  | listening called => exact h.1
  | asleep called =>
      cases called
      · exact h.1
      · exact h.1
  | leaving => exact h.1
  | left complete moment => cases hstill

/-! ### What a change of the collation does to a waiter -/

/-- What a waiter makes of a change of the collation: it is called if that
completed it. -/
def hear (c c' : Collation) (w : Waiter) : Waiter :=
  if !c.isComplete && c'.isComplete then w.call else w

theorem Present.course {entered wake : Instant}
    (h : Present entered wake now covered)
    (hcourse : Course now covered covered' c c') :
    Present entered wake now covered' where
  came := h.came
  punctual := h.punctual
  noticed t ht hle := by
    rcases hcourse.covered with hsame | ⟨-, hnew, -⟩
    · exact h.noticed t (hsame ▸ ht) hle
    · rw [hnew] at ht
      exact (Option.some.inj ht).symm

/-- Nobody has left for whom the nodes are covered just now: there was still
time, so it had no reason to. -/
theorem Gone.course {entered limit moment : Instant} {complete : Bool}
    (h : Gone entered limit c.deadline now covered complete moment)
    (hcourse : Course now covered covered' c c') :
    Gone entered limit c.deadline now covered' complete moment := by
  rcases hcourse.covered with hsame | ⟨hnone, hnew, hlt, -⟩
  · rw [hsame]
    exact h
  · refine ⟨h.came, h.past, h.punctual, h.unfinished, fun _ =>
      Or.inl (by rw [hnew]; rfl), fun t ht hle hin => ?_⟩
    rw [hnew] at ht
    cases ht
    exfalso
    cases complete with
    | true =>
        rcases h.finished rfl with hsome | hlate
        · rw [hnone] at hsome
          cases hsome
        · exact Nat.not_le.2 hlt (Nat.le_trans hlate h.past)
    | false =>
        have hlate := Nat.le_trans (h.unfinished rfl).1 h.past
        exact Nat.not_le.2 hin (Nat.le_trans (Nat.min_le_left ..) hlate)

theorem hear_of_deaf (h : w.call = w) : w.hear c c' = w := by
  rw [hear, h, ite_self]

theorem Fits.hear (h : w.Fits now covered c)
    (hcourse : Course now covered covered' c c') :
    (w.hear c c').Fits now covered' c' := by
  have hdeadline := hcourse.same.deadline
  have hpresent : Present w.entered (w.wakeAt c) now covered →
      Present w.entered (w.wakeAt c') now covered' := by
    intro hp
    rw [wakeAt, hdeadline]
    exact hp.course hcourse
  obtain ⟨entered, span, phase⟩ := w
  cases phase with
  | awake =>
      rw [hear_of_deaf rfl]
      exact hpresent h
  | leaving =>
      rw [hear_of_deaf rfl]
      refine ⟨hpresent h.1, ?_⟩
      rw [wakeAt, hdeadline]
      exact h.2
  | left complete moment =>
      rw [hear_of_deaf rfl]
      show Gone _ _ c'.deadline _ _ _ _
      rw [hdeadline]
      exact Gone.course h hcourse
  | listening called =>
      unfold Waiter.hear
      split
      · next hflip => exact ⟨hpresent h.1, fun _ =>
          (Bool.and_eq_true .. ▸ hflip).2⟩
      · exact ⟨hpresent h.1, fun hcalled => hcourse.stays (h.2 hcalled)⟩
  | asleep called =>
      unfold Waiter.hear
      split
      · next hflip => exact ⟨hpresent (h.present rfl),
          (Bool.and_eq_true .. ▸ hflip).2⟩
      · next hflip =>
          cases called with
          | true => exact ⟨hpresent h.1, hcourse.stays h.2⟩
          | false =>
              -- No call, so if the nodes were covered just now the collation
              -- had been complete before, and then it takes nothing in.
              rcases hcourse.covered with hsame | ⟨-, -, -, hbefore, hafter⟩
              · exact ⟨hpresent h.1, hsame.trans h.2⟩
              · simp [hbefore, hafter] at hflip

/-- A call makes nobody leave. -/
theorem phase_of_hear {complete : Bool} {moment : Instant}
    (h : (w.hear c c').phase = .left complete moment) :
    w.phase = .left complete moment := by
  obtain ⟨entered, span, phase⟩ := w
  cases phase with
  | awake | leaving | left => rwa [hear_of_deaf rfl] at h
  | listening | asleep =>
      unfold hear at h
      split at h
      · cases h
      · cases h

/-! ### What a waiter does itself -/

theorem Turned.seen (h : Turned now c w c' w') : c.Seen now c' := by
  cases h with
  | listens | wakes | rises => exact Collation.Seen.refl now c
  | finds | sleeps | leaves => exact Collation.Seen.settle now c

/-- Who leaves says what it has just found. -/
theorem Turned.left (h : Turned now c w c' w') {complete : Bool}
    {moment : Instant} (hphase : w'.phase = .left complete moment) :
    moment = now ∧ c' = c.settle now ∧ complete = c'.isComplete := by
  cases h with
  | listens | sleeps | wakes | rises => cases hphase
  | finds called _ hc =>
      cases hphase
      exact ⟨rfl, rfl, hc.symm⟩
  | leaves =>
      cases hphase
      exact ⟨rfl, rfl, rfl⟩

/-- One that is there may leave if it has found the collation complete or its
time is up. -/
theorem Present.gone (h : Present w.entered (w.wakeAt c) now covered)
    (hsettle : (c.settle now).isComplete = true ↔
      covered.isSome = true ∨ c.deadline ≤ now)
    (hdue : (c.settle now).isComplete = false → w.wakeAt c ≤ now) :
    Gone w.entered w.limit c.deadline now covered
      (c.settle now).isComplete now where
  came := h.came
  past := Nat.le_refl now
  punctual := h.punctual
  unfinished hc := by
    have hopen : ¬ c.deadline ≤ now := fun hlate => by
      rw [hsettle.2 (Or.inr hlate)] at hc
      cases hc
    exact ⟨(min_le_iff.1 (hdue hc)).resolve_right hopen, Nat.not_le.1 hopen⟩
  finished := hsettle.1
  noticed t ht hle _ :=
    ⟨hsettle.2 (Or.inl (by rw [ht]; rfl)), (h.noticed t ht hle).symm⟩

/-- After its turn a waiter fits as it did, to the collation as it was found. -/
theorem Fits.turned (h : w.Fits now covered c) (hturned : Turned now c w c' w')
    (hsettle : (c.settle now).isComplete = true ↔
      covered.isSome = true ∨ c.deadline ≤ now) :
    w'.Fits now covered c := by
  obtain ⟨entered, span, phase⟩ := w
  cases hturned with
  | listens hphase =>
      cases hphase
      exact ⟨h, nofun⟩
  | finds called hphase hc =>
      cases hphase
      have hgone := h.1.gone hsettle fun hnot => by rw [hc] at hnot; cases hnot
      rw [hc] at hgone
      exact hgone
  | sleeps called hphase hc =>
      cases hphase
      cases called with
      | true =>
          -- Only a completion calls, so one that has been called cannot look in
          -- vain.
          rw [Collation.isComplete_settle_of_isComplete (h.2 rfl)] at hc
          cases hc
      | false =>
          refine ⟨h.1, ?_⟩
          cases covered with
          | none => rfl
          | some t =>
              rw [hsettle.2 (Or.inl rfl)] at hc
              cases hc
  | wakes hphase =>
      cases hphase
      exact h.1
  | rises hphase hdue =>
      cases hphase
      exact ⟨h.1, hdue⟩
  | leaves hphase =>
      cases hphase
      exact h.1.gone hsettle fun _ => h.2

/-- Whether a waiter has nothing to do before a moment. -/
def rests (c : Collation) (moment : Instant) (w : Waiter) : Bool :=
  match w.phase with
  | .asleep false => moment ≤ w.wakeAt c
  | .left .. => true
  | _ => false

theorem rests_of_hasLeft (h : w.hasLeft = true) (c : Collation)
    (moment : Instant) : w.rests c moment = true := by
  obtain ⟨complete, moment, hphase⟩ := exists_of_hasLeft h
  rw [rests, hphase]

theorem Fits.advance (h : w.Fits now covered c) {later : Instant}
    (hlater : now ≤ later) (hrests : w.rests c later = true) :
    w.Fits later covered c := by
  obtain ⟨entered, span, phase⟩ := w
  cases phase with
  | awake | listening | leaving => cases hrests
  | asleep called =>
      cases called with
      | true => cases hrests
      | false =>
          obtain ⟨hp, hnone⟩ := h
          have hwake := of_decide_eq_true hrests
          refine ⟨⟨Nat.le_trans hp.came hlater,
            Nat.le_trans hwake (Nat.le_max_right ..), ?_⟩, hnone⟩
          intro t ht
          rw [hnone] at ht
          cases ht
  | left complete moment => exact { h with past := Nat.le_trans h.past hlater }

theorem fits_new (now : Instant) (span : Span) (c : Collation)
    (hcovered : ∀ t, covered = some t → t ≤ now) :
    Fits now covered c { entered := now, span } where
  came := Nat.le_refl now
  punctual := Nat.le_max_left ..
  noticed t ht hle := Nat.le_antisymm (hcovered t ht) hle

/-! ### What a waiter may become -/

/-- One that has nothing to do has left, or sleeps and its time has not come. -/
theorem turn_eq_none (h : w.turn now c = none) :
    w.hasLeft = true ∨ w.phase = .asleep false ∧ now < w.wakeAt c := by
  obtain ⟨entered, span, phase⟩ := w
  cases phase with
  | awake | listening | leaving => cases h
  | asleep called =>
      cases called with
      | true => cases h
      | false =>
          refine Or.inr ⟨rfl, Nat.not_le.1 fun hdue => ?_⟩
          have hrises := (if_pos hdue).symm.trans h
          cases hrises
  | left complete moment => exact Or.inl rfl

/-- What a waiter may become: it stays the same waiter, and it leaves only
once. -/
structure Becomes (w w' : Waiter) : Prop where
  entered : w'.entered = w.entered
  span : w'.span = w.span
  left : w.hasLeft = true → w' = w

theorem Becomes.refl (w : Waiter) : Becomes w w := ⟨rfl, rfl, fun _ => rfl⟩

theorem Becomes.trans {w₁ w₂ w₃ : Waiter} (h : Becomes w₁ w₂)
    (h' : Becomes w₂ w₃) : Becomes w₁ w₃ where
  entered := h'.entered.trans h.entered
  span := h'.span.trans h.span
  left hleft := by
    cases h.left hleft
    exact h'.left hleft

theorem becomes_hear (c c' : Collation) (w : Waiter) :
    Becomes w (w.hear c c') := by
  obtain ⟨entered, span, phase⟩ := w
  cases phase with
  | awake | leaving | left =>
      rw [hear_of_deaf rfl]
      exact Becomes.refl _
  | listening | asleep =>
      unfold hear
      split
      · exact ⟨rfl, rfl, nofun⟩
      · exact Becomes.refl _

theorem Turned.becomes (h : Turned now c w c' w') : Becomes w w' := by
  cases h with
  | listens hphase | finds _ hphase | sleeps _ hphase | wakes hphase
  | rises hphase | leaves hphase =>
      refine ⟨rfl, rfl, fun hleft => ?_⟩
      rw [hasLeft, result?, hphase] at hleft
      cases hleft

end

end Waiter

end Fanout
