import Fanout.Ascending
import Fanout.Node.Basic

/-!
# Ascending lists hold each element once

Node sets and tables are plain lists, and what makes them sets and tables is
that insertion keeps them strictly ascending. This file says so: the members of
`ascending` are the members of the list it was given, in an order in which no
two are equal, and a list that was in that order already comes back unchanged.

A table put together by `putAscending` is read by `valueAt?`, and the two meet
in one equation that needs no order at all: an entry under another key is never
touched, whatever the list looks like. The keys of a table are kept by the same
insertion as the members of a set, so one argument serves both.
-/

namespace Fanout

/-! ## The order of nodes -/

namespace Node

theorem compare_def (a b : Node) :
    compare a b = compareLex (compareOn Node.id)
      (compareLex (compareOn Node.host) (compareOn Node.port)) a b := rfl

instance : Std.TransOrd Node :=
  inferInstanceAs (Std.TransCmp (compareLex (compareOn Node.id)
    (compareLex (compareOn Node.host) (compareOn Node.port))))

instance : Std.LawfulEqOrd Node where
  eq_of_compare {a b} h := by
    rw [compare_def] at h
    simp only [compareLex_eq_eq, compareOn] at h
    obtain ⟨hid, hhost, hport⟩ := h
    cases a
    cases b
    rw [Node.mk.injEq]
    exact ⟨Std.LawfulEqOrd.eq_of_compare hid,
      Std.LawfulEqOrd.eq_of_compare hhost, Std.LawfulEqOrd.eq_of_compare hport⟩

end Node

section

variable {α : Type} [Ord α]

/-- Each element comes before all that follow it. -/
def IsAscending (l : List α) : Prop :=
  l.Pairwise fun a b => compare a b = .lt

theorem isAscending_nil : IsAscending ([] : List α) := List.Pairwise.nil

variable [Std.LawfulEqOrd α]

theorem IsAscending.nodup {l : List α} (h : IsAscending l) : l.Nodup := by
  refine List.Pairwise.imp (fun {a b} hab => ?_) h
  rintro rfl
  rw [Std.ReflOrd.compare_self] at hab
  cases hab

/-! ## Sets -/

theorem mem_insertAscending {a x : α} {l : List α} :
    x ∈ insertAscending a l ↔ x = a ∨ x ∈ l := by
  induction l with
  | nil => simp [insertAscending]
  | cons b rest ih =>
      rw [insertAscending]
      cases hc : compare a b with
      | lt => simp
      | eq =>
          have hab : a = b := Std.LawfulEqOrd.eq_of_compare hc
          subst hab
          simp
      | gt =>
          simp only [List.mem_cons, ih]
          exact or_left_comm

variable [Std.TransOrd α]

theorem isAscending_insertAscending {a : α} {l : List α} (h : IsAscending l) :
    IsAscending (insertAscending a l) := by
  induction l with
  | nil => exact List.pairwise_singleton _ _
  | cons b rest ih =>
      obtain ⟨hb, hrest⟩ := List.pairwise_cons.1 h
      rw [insertAscending]
      cases hc : compare a b with
      | lt =>
          refine List.pairwise_cons.2 ⟨fun x hx => ?_, h⟩
          rcases List.mem_cons.1 hx with rfl | hx
          · exact hc
          · exact Std.TransCmp.lt_trans hc (hb x hx)
      | eq =>
          have hab : a = b := Std.LawfulEqOrd.eq_of_compare hc
          subst hab
          exact h
      | gt =>
          refine List.pairwise_cons.2 ⟨fun x hx => ?_, ih hrest⟩
          rcases mem_insertAscending.1 hx with rfl | hx
          · exact Std.OrientedCmp.lt_of_gt hc
          · exact hb x hx

theorem foldl_insertAscending {l : List α} :
    ∀ {held : List α}, IsAscending held →
      IsAscending (l.foldl (fun held a => insertAscending a held) held) ∧
      ∀ x, x ∈ l.foldl (fun held a => insertAscending a held) held ↔
        x ∈ l ∨ x ∈ held := by
  induction l with
  | nil =>
      intro held h
      exact ⟨h, fun x => by simp⟩
  | cons a rest ih =>
      intro held h
      obtain ⟨hasc, hmem⟩ := ih (isAscending_insertAscending (a := a) h)
      refine ⟨hasc, fun x => ?_⟩
      rw [List.foldl_cons, hmem, mem_insertAscending, List.mem_cons]
      exact or_left_comm.trans or_assoc.symm

theorem isAscending_ascending (l : List α) : IsAscending (ascending l) :=
  (foldl_insertAscending isAscending_nil).1

@[simp] theorem mem_ascending {x : α} {l : List α} :
    x ∈ ascending l ↔ x ∈ l := by
  rw [ascending, (foldl_insertAscending isAscending_nil).2]
  simp

/-- Two ascending lists with the same members are the same list. -/
theorem IsAscending.ext {l₁ l₂ : List α} (h₁ : IsAscending l₁)
    (h₂ : IsAscending l₂) (h : ∀ x, x ∈ l₁ ↔ x ∈ l₂) : l₁ = l₂ := by
  have hp : l₁.Perm l₂ := (List.perm_ext_iff_of_nodup h₁.nodup h₂.nodup).2 h
  refine List.Perm.eq_of_pairwise (fun a b _ _ hab hba => ?_) h₁ h₂ hp
  rw [Std.OrientedCmp.gt_of_lt hab] at hba
  cases hba

theorem ascending_eq_self {l : List α} (h : IsAscending l) : ascending l = l :=
  (isAscending_ascending l).ext h fun _ => mem_ascending

end

/-! ## Tables -/

variable {α β : Type}

theorem map_fst_putAscending [Ord α] (key : α) (value : β) (l : List (α × β)) :
    (putAscending key value l).map (·.1) =
      insertAscending key (l.map (·.1)) := by
  induction l with
  | nil => rfl
  | cons entry rest ih =>
      rw [putAscending, List.map_cons, insertAscending]
      cases compare key entry.1 with
      | lt => rfl
      | eq => rfl
      | gt => simp only [List.map_cons, ih]

theorem isAscending_ascendingBy [Ord α] [Std.LawfulEqOrd α] [Std.TransOrd α]
    (entries : List (α × β)) :
    IsAscending ((ascendingBy entries).map (·.1)) := by
  have hput : ∀ held : List (α × β), IsAscending (held.map (·.1)) →
      IsAscending
        ((entries.foldl (fun held e => putAscending e.1 e.2 held) held).map
          (·.1)) := by
    induction entries with
    | nil => exact fun held h => h
    | cons entry rest ih =>
        intro held h
        refine ih _ ?_
        rw [map_fst_putAscending]
        exact isAscending_insertAscending h
  exact hput [] isAscending_nil

variable [BEq α] [LawfulBEq α]

theorem valueAt?_putAscending [Ord α] [Std.LawfulEqOrd α] (key key' : α)
    (value : β) (l : List (α × β)) :
    valueAt? key' (putAscending key value l) =
      if key == key' then some value else valueAt? key' l := by
  induction l with
  | nil => rfl
  | cons entry rest ih =>
      rw [putAscending]
      cases hc : compare key entry.1 with
      | lt => rfl
      | eq =>
          have hk : key = entry.1 := Std.LawfulEqOrd.eq_of_compare hc
          subst hk
          simp only [valueAt?]
          split
          · rfl
          · rfl
      | gt =>
          have hk : key ≠ entry.1 := by
            rintro rfl
            rw [Std.ReflOrd.compare_self] at hc
            cases hc
          simp only [valueAt?, ih]
          split
          · next he =>
              rw [if_neg]
              intro h
              exact hk ((eq_of_beq h).trans (eq_of_beq he).symm)
          · rfl

end Fanout
