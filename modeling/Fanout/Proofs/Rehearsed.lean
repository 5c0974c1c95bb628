import Fanout.Proofs.Owners

/-!
# What a rehearsal makes of the engine

A rehearsal lets its engine take steps, and now and then it writes something
into the journal that no step would write. The journal decides nothing, so an
engine with another journal can do just the same, and every state of the engine
in a rehearsal is one that a run leads to, but for the journal. All that is
known of runs is thereby known of rehearsals.
-/

namespace Fanout.Engine

/-! ## The journal decides nothing -/

/-- Two engines that differ at most in their journals. -/
def Alike (e₁ e₂ : Engine) : Prop :=
  ∃ journal, e₂ = { e₁ with journal }

section

variable {e₁ e₂ : Engine}

theorem Alike.reject (h : Alike e₁ e₂) (s : Nat) (sub : Submission)
    (fault : Fault) :
    Alike (e₁.reject s sub fault) (e₂.reject s sub fault) := by
  obtain ⟨journal, rfl⟩ := h
  exact ⟨_, rfl⟩

theorem Alike.enroll (h : Alike e₁ e₂) (s : Nat) (sub : Submission)
    (nodes : List Node) :
    Alike (e₁.enroll s sub nodes) (e₂.enroll s sub nodes) := by
  obtain ⟨journal, rfl⟩ := h
  unfold Engine.enroll Engine.takeOn Engine.hold
  dsimp only
  split
  · exact ⟨_, rfl⟩
  · split
    · exact ⟨_, rfl⟩
    · exact ⟨_, rfl⟩

theorem Alike.passRound (h : Alike e₁ e₂) (r : Nat) (round : Round) :
    Alike (e₁.passRound r round) (e₂.passRound r round) := by
  obtain ⟨journal, rfl⟩ := h
  unfold Engine.passRound
  dsimp only [setRound, Engine.tell]
  split
  · exact ⟨_, rfl⟩
  · split
    · exact Alike.enroll ⟨_, rfl⟩ _ _ _
    · exact ⟨_, rfl⟩

theorem Alike.passIfDone (h : Alike e₁ e₂) (r : Nat) :
    Alike (e₁.passIfDone r) (e₂.passIfDone r) := by
  obtain ⟨journal, rfl⟩ := h
  unfold Engine.passIfDone
  dsimp only
  split
  · split
    · exact Alike.passRound ⟨_, rfl⟩ _ _
    · exact ⟨_, rfl⟩
  · exact ⟨_, rfl⟩

theorem Alike.failRound (h : Alike e₁ e₂) (r : Nat) (round : Round)
    (fault : Fault) :
    Alike (e₁.failRound r round fault) (e₂.failRound r round fault) := by
  obtain ⟨journal, rfl⟩ := h
  unfold Engine.failRound
  dsimp only [setRound, abandonCalls]
  split
  · exact ⟨_, rfl⟩
  · split
    · exact ⟨_, rfl⟩
    · exact ⟨_, rfl⟩

theorem Alike.judge (h : Alike e₁ e₂) (r : Nat) (round : Round) (call : Nat)
    (answer : Answer) :
    Alike (e₁.judge r round call answer) (e₂.judge r round call answer) := by
  obtain ⟨journal, rfl⟩ := h
  unfold Engine.judge
  dsimp only [setRound]
  split
  · exact Alike.passIfDone ⟨_, rfl⟩ r
  · exact Alike.failRound ⟨_, rfl⟩ _ _ _

theorem Alike.submit (h : Alike e₁ e₂) (target : Target) (request : Request)
    (id seed : String) :
    Alike (e₁.submit target request id seed)
      (e₂.submit target request id seed) := by
  obtain ⟨journal, rfl⟩ := h
  unfold Engine.submit
  dsimp only
  split
  · exact Alike.reject ⟨_, rfl⟩ _ _ _
  · split
    · exact Alike.reject ⟨_, rfl⟩ _ _ _
    · split
      · split
        · exact Alike.reject ⟨_, rfl⟩ _ _ _
        · exact Alike.passIfDone ⟨_, rfl⟩ _
      · exact Alike.enroll ⟨_, rfl⟩ _ _ _

theorem Alike.merge (h : Alike e₁ e₂) (handle : Handle) (answer : Answer) :
    Alike (e₁.merge handle answer) (e₂.merge handle answer) := by
  obtain ⟨journal, rfl⟩ := h
  unfold Engine.merge
  dsimp only
  split
  · exact ⟨_, rfl⟩
  · exact ⟨_, rfl⟩

theorem Alike.settle (h : Alike e₁ e₂) (handle : Handle) :
    Alike (e₁.settle handle) (e₂.settle handle) := by
  obtain ⟨journal, rfl⟩ := h
  unfold Engine.settle
  dsimp only
  split
  · exact ⟨_, rfl⟩
  · exact ⟨_, rfl⟩

theorem Alike.callBack (h : Alike e₁ e₂) (handle : Handle) :
    Alike (e₁.callBack handle) (e₂.callBack handle) := by
  obtain ⟨journal, rfl⟩ := h
  unfold Engine.callBack
  dsimp only [report?]
  split
  · split
    · obtain ⟨journal', heq⟩ :=
        (show Alike e₁ { e₁ with journal } from ⟨_, rfl⟩).settle handle
      rw [heq]
      exact ⟨_, rfl⟩
    · exact ⟨_, rfl⟩
  · exact ⟨_, rfl⟩

theorem Alike.countOff (h : Alike e₁ e₂) (b : Nat) :
    Alike (e₁.countOff b) (e₂.countOff b) := by
  obtain ⟨journal, rfl⟩ := h
  unfold Engine.countOff
  dsimp only
  split
  · split
    · exact Alike.callBack ⟨_, rfl⟩ _
    · exact ⟨_, rfl⟩
  · exact ⟨_, rfl⟩

theorem Alike.finishJob (h : Alike e₁ e₂) (j : Nat) (answer : Answer) :
    Alike (e₁.finishJob j answer) (e₂.finishJob j answer) := by
  obtain ⟨journal, rfl⟩ := h
  unfold Engine.finishJob
  dsimp only
  split
  · exact ⟨_, rfl⟩
  · split
    · exact ⟨_, rfl⟩
    · exact (Alike.merge ⟨_, rfl⟩ _ _).countOff _

theorem rel_bind {α : Type} {f g : α → Option Engine} (x : Option α)
    (h : ∀ a, Option.Rel Alike (f a) (g a)) :
    Option.Rel Alike (x.bind f) (x.bind g) := by
  cases x with
  | none => exact .none
  | some a => exact h a

theorem Alike.startProbe (h : Alike e₁ e₂) (r : Nat) :
    Option.Rel Alike (e₁.startProbe r) (e₂.startProbe r) := by
  obtain ⟨journal, rfl⟩ := h
  refine rel_bind _ fun round => ?_
  split
  · exact .some ⟨_, rfl⟩
  · exact .none

theorem Alike.startJob (h : Alike e₁ e₂) :
    Option.Rel Alike e₁.startJob e₂.startJob := by
  obtain ⟨journal, rfl⟩ := h
  refine rel_bind _ fun _ => rel_bind _ fun j => rel_bind _ fun job =>
    rel_bind _ fun batch => ?_
  exact .some ⟨_, rfl⟩

theorem Alike.finish (h : Alike e₁ e₂) (call : Nat) :
    Option.Rel Alike (e₁.finish call) (e₂.finish call) := by
  obtain ⟨journal, rfl⟩ := h
  refine rel_bind _ fun c => rel_bind _ fun answer => ?_
  have hclosed : Alike (e₁.closeCall call c answer)
      (({ e₁ with journal } : Engine).closeCall call c answer) := ⟨_, rfl⟩
  dsimp only
  split
  · exact .some hclosed
  · exact .some (hclosed.finishJob _ answer)
  · refine rel_bind _ fun round => ?_
    exact .some (hclosed.judge _ round call answer)

theorem Alike.expireRound (h : Alike e₁ e₂) (r : Nat) :
    Option.Rel Alike (e₁.expireRound r) (e₂.expireRound r) := by
  obtain ⟨journal, rfl⟩ := h
  refine rel_bind _ fun round => ?_
  split
  · refine rel_bind _ fun _ => ?_
    exact .some (Alike.failRound ⟨_, rfl⟩ r round _)
  · exact .none

theorem Alike.shutDown (h : Alike e₁ e₂) : Alike e₁.shutDown e₂.shutDown := by
  obtain ⟨journal, rfl⟩ := h
  unfold Engine.shutDown
  dsimp only
  split
  · exact ⟨_, rfl⟩
  · exact ⟨_, rfl⟩

theorem Alike.step (h : Alike e₁ e₂) (event : Event) :
    Option.Rel Alike (e₁.step event) (e₂.step event) := by
  cases event with
  | submit target request id seed =>
      exact .some (h.submit target request id seed)
  | startProbe r => exact h.startProbe r
  | startJob => exact h.startJob
  | finish k => exact h.finish k
  | expireRound r => exact h.expireRound r
  | look handle => exact .some (h.settle handle)
  | shutDown => exact .some h.shutDown
  | advance now =>
      obtain ⟨journal, rfl⟩ := h
      unfold Engine.step
      dsimp only
      split
      · exact .some ⟨_, rfl⟩
      · exact .none
  | arrive | lookUp | sweep | addNode | setState | removeNode =>
      obtain ⟨journal, rfl⟩ := h
      exact .some ⟨_, rfl⟩

end

/-! ## States of a rehearsal -/

/-- A state that a run leads to, but for the journal, in which nobody joins or
leaves. -/
def Rehearsed (config : EngineConfig) (entries : List (Node × Connectivity))
    (e : Engine) : Prop :=
  ∃ events journal,
    (start config (.ofEntries entries)).run events = some { e with journal } ∧
      ∀ event ∈ events, event.isMembership = false

section

variable {config : EngineConfig} {entries : List (Node × Connectivity)}
  {e e' : Engine} {event : Event}

theorem rehearsed_start (config : EngineConfig)
    (entries : List (Node × Connectivity)) :
    Rehearsed config entries (start config (.ofEntries entries)) :=
  ⟨[], _, rfl, fun _ h => nomatch h⟩

theorem Rehearsed.tell (h : Rehearsed config entries e) (notices : Journal) :
    Rehearsed config entries (e.tell notices) := h

theorem Rehearsed.linked (h : Rehearsed config entries e) : e.Linked := by
  obtain ⟨events, journal, hrun, -⟩ := h
  obtain ⟨hprobes, hdeliveries, hsingle, hasked, hrounds, hjobs, hbatches⟩ :=
    (reached_of_run hrun).linked
  exact ⟨hprobes, hdeliveries, hsingle, hasked, hrounds, hjobs, hbatches⟩

theorem Rehearsed.owned (h : Rehearsed config entries e) : e.Owned := by
  obtain ⟨events, journal, hrun, -⟩ := h
  obtain ⟨hsound, hcollations, hentries, hcallbacks⟩ := owned_of_run hrun
  exact ⟨hsound, hcollations, hentries, hcallbacks⟩

theorem Rehearsed.transition (h : Rehearsed config entries e)
    (hstep : e.step event = some e') : Transition e event e' :=
  step_transition h.linked hstep

theorem Rehearsed.step (h : Rehearsed config entries e)
    (hstep : e.step event = some e') (hmembers : event.isMembership = false) :
    Rehearsed config entries e' := by
  obtain ⟨events, journal, hrun, hevents⟩ := h
  have halike : Alike e { e with journal } := ⟨journal, rfl⟩
  have hrel := halike.step event
  rw [hstep] at hrel
  cases hstep' : ({ e with journal } : Engine).step event with
  | none =>
      rw [hstep'] at hrel
      cases hrel
  | some e₂ =>
      rw [hstep'] at hrel
      cases hrel with
      | some heq =>
          obtain ⟨journal', rfl⟩ := heq
          refine ⟨events ++ [event], journal', run_snoc.2 ⟨_, hrun, hstep'⟩,
            fun ev hev => ?_⟩
          rcases List.mem_append.1 hev with hev | hev
          · exact hevents ev hev
          · rw [List.mem_singleton.1 hev]
            exact hmembers

theorem Rehearsed.jobs_ne_nil (h : Rehearsed config entries e)
    (hstep : e.step event = some e') (hjobs : e.jobs ≠ []) : e'.jobs ≠ [] := by
  obtain ⟨job, rest, heq⟩ := List.exists_cons_of_ne_nil hjobs
  obtain ⟨job', hjob', -⟩ :=
    (h.transition hstep).later.jobs 0 job (by rw [heq]; rfl)
  exact List.ne_nil_of_mem (List.mem_of_getElem? hjob')

end

end Fanout.Engine
