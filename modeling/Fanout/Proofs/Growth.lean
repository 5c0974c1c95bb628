import Fanout.Engine.Step
import Fanout.Proofs.Tally

/-!
# Records are kept

The state of the engine is a handful of lists that only grow, and what happens
to a record in one of them later changes its phase and nothing else. `Grows`
says this of a list: every record is still at its place, and it has become what
it may become. The relation is closed under the two things that steps do to a
list, adding a record at the end and setting one, and it is transitive, so what
holds of one step holds of a run.

The registry is the one part that is changed in bulk. For the collations it is
enough to know that looking at them is all that happens: `Registry.Kept` holds
of every operation of the registry, and a collation that was complete before is
the same after. In the same way a journal grows, and what matters here is only
which merges it tells of.
-/

namespace Fanout

variable {α β : Type}

/-! ## Lists whose elements stay at their places -/

/-- Every element of a list is at its place in the other, related to what it
was. -/
def Grows (R : α → α → Prop) (l l' : List α) : Prop :=
  ∀ (i : Nat) (a : α), l[i]? = some a → ∃ a', l'[i]? = some a' ∧ R a a'

section

variable {R : α → α → Prop} {l l' l'' : List α}

theorem Grows.refl (hR : ∀ a, R a a) (l : List α) : Grows R l l :=
  fun _ a h => ⟨a, h, hR a⟩

theorem Grows.trans (hR : ∀ {a b c}, R a b → R b c → R a c) (h : Grows R l l')
    (h' : Grows R l' l'') : Grows R l l'' := by
  intro i a ha
  obtain ⟨b, hb, hab⟩ := h i a ha
  obtain ⟨c, hc, hbc⟩ := h' i b hb
  exact ⟨c, hc, hR hab hbc⟩

theorem Grows.append (hR : ∀ a, R a a) (l more : List α) :
    Grows R l (l ++ more) := by
  intro i a ha
  obtain ⟨hi, -⟩ := List.getElem?_eq_some_iff.1 ha
  exact ⟨a, by rw [List.getElem?_append_left hi]; exact ha, hR a⟩

theorem Grows.old_or_new (h : Grows R l l') {i : Nat} {a' : α}
    (ha : l'[i]? = some a') :
    (∃ a, l[i]? = some a ∧ R a a') ∨ l.length ≤ i := by
  by_cases hi : i < l.length
  · obtain ⟨a'', ha'', hR⟩ := h i _ (List.getElem?_eq_getElem hi)
    rw [ha] at ha''
    cases ha''
    exact Or.inl ⟨_, List.getElem?_eq_getElem hi, hR⟩
  · exact Or.inr (Nat.le_of_not_lt hi)

end

theorem eq_of_getElem?_concat {l : List α} {a b : α} {i : Nat}
    (hi : l.length ≤ i) (h : (l ++ [a])[i]? = some b) :
    i = l.length ∧ b = a := by
  rw [List.getElem?_append_right hi, List.getElem?_singleton] at h
  split at h
  · next h0 => exact ⟨by omega, (Option.some.inj h).symm⟩
  · cases h

theorem getElem?_concat_cases {l : List α} {a b : α} {i : Nat}
    (h : (l ++ [a])[i]? = some b) : l[i]? = some b ∨ i = l.length ∧ b = a := by
  by_cases hlt : i < l.length
  · rw [List.getElem?_append_left hlt] at h
    exact Or.inl h
  · exact Or.inr (eq_of_getElem?_concat (Nat.le_of_not_lt hlt) h)

theorem getElem?_append_of_some {l : List α} {i : Nat} {a : α}
    (h : l[i]? = some a) (more : List α) : (l ++ more)[i]? = some a := by
  rw [List.getElem?_append_left (List.getElem?_eq_some_iff.1 h).1]
  exact h

theorem getElem?_ne_some {l : List α} {i : Nat} (h : l.length ≤ i) (a : α) :
    l[i]? ≠ some a := by
  rw [List.getElem?_eq_none h]
  exact (Option.some_ne_none a).symm

theorem getElem?_set_ne_some {l : List α} {i j : Nat} (h : l.length ≤ i)
    (a b : α) : (l.set j b)[i]? ≠ some a :=
  getElem?_ne_some (by rw [List.length_set]; exact h) a

/-- What holds of all elements of a list can be found out by looking at them. -/
theorem forall_getElem?_iff {l : List α} {P : Nat → α → Prop} :
    (∀ i : Fin l.length, P i l[i]) ↔ ∀ (i : Nat) a, l[i]? = some a → P i a := by
  refine ⟨fun h i a ha => ?_, fun h i =>
    h i l[i] (List.getElem?_eq_getElem i.isLt)⟩
  obtain ⟨hlt, rfl⟩ := List.getElem?_eq_some_iff.1 ha
  exact h ⟨i, hlt⟩

theorem getElem?_set_of_some {l : List α} {i : Nat} {a : α} (h : l[i]? = some a)
    (b : α) (j : Nat) : (l.set i b)[j]? = if i = j then some b else l[j]? := by
  rw [List.getElem?_set, if_pos (List.getElem?_eq_some_iff.1 h).1]

theorem getElem?_set_cases {l : List α} {i j : Nat} {a b c : α}
    (h : l[i]? = some a) (hj : (l.set i b)[j]? = some c) :
    i = j ∧ c = b ∨ i ≠ j ∧ l[j]? = some c := by
  rw [getElem?_set_of_some h] at hj
  split at hj
  · next hij => exact Or.inl ⟨hij, (Option.some.inj hj).symm⟩
  · next hij => exact Or.inr ⟨hij, hj⟩

theorem modify_eq_set_of_some {l : List α} {i : Nat} {a : α}
    (h : l[i]? = some a) (f : α → α) : l.modify i f = l.set i (f a) := by
  refine List.ext_getElem? fun j => ?_
  rw [getElem?_set_of_some h, List.getElem?_modify]
  split
  · next hij =>
      subst hij
      rw [h]
      rfl
  · cases l[j]?
    · rfl
    · rfl

theorem set_eq_self_of_some {l : List α} {i : Nat} {a : α}
    (h : l[i]? = some a) : l.set i a = l := by
  refine List.ext_getElem? fun j => ?_
  rw [getElem?_set_of_some h]
  split
  · next hij => rw [← hij, h]
  · rfl

theorem modify_append_length (l : List α) (a : α) (f : α → α) :
    (l ++ [a]).modify l.length f = l ++ [f a] := by
  rw [modify_eq_set_of_some List.getElem?_concat_length,
    List.set_append_right _ _ (Nat.le_refl _), Nat.sub_self, List.set_cons_zero]

theorem Grows.set {R : α → α → Prop} (hR : ∀ a, R a a) {l : List α} {i : Nat}
    {a b : α} (h : l[i]? = some a) (hab : R a b) : Grows R l (l.set i b) := by
  intro j c hc
  rw [getElem?_set_of_some h]
  by_cases hij : i = j
  · subst hij
    rw [h] at hc
    cases hc
    exact ⟨b, if_pos rfl, hab⟩
  · exact ⟨c, by rw [if_neg hij]; exact hc, hR c⟩

/-- Nothing that is set is new. -/
theorem Grows.old_of_set {R : α → α → Prop} {l : List α} {i j : Nat} {a b : α}
    (h : Grows R l (l.set i b)) (ha : (l.set i b)[j]? = some a) :
    ∃ a', l[j]? = some a' ∧ R a' a := by
  refine (h.old_or_new ha).resolve_right fun hle => ?_
  have hlt := (List.getElem?_eq_some_iff.1 ha).1
  rw [List.length_set] at hlt
  omega

theorem filterMap_set_of_some {l : List α} {i : Nat} {a b : α}
    {f : α → Option β} (h : l[i]? = some a) (hf : f b = f a) :
    (l.set i b).filterMap f = l.filterMap f := by
  induction l generalizing i with
  | nil => rfl
  | cons x rest ih =>
      cases i with
      | zero =>
          cases h
          simp only [List.set_cons_zero, List.filterMap_cons, hf]
      | succ i =>
          simp only [List.set_cons_succ, List.filterMap_cons, ih h]

theorem countP_set_of_some {l : List α} {i : Nat} {a b : α} {p : α → Bool}
    (h : l[i]? = some a) :
    (l.set i b).countP p + (if p a then 1 else 0) =
      l.countP p + if p b then 1 else 0 := by
  induction l generalizing i with
  | nil => cases h
  | cons x rest ih =>
      cases i with
      | zero =>
          cases h
          simp only [List.set_cons_zero, List.countP_cons]
          omega
      | succ i =>
          have hrest := ih (i := i) h
          simp only [List.set_cons_succ, List.countP_cons]
          omega

/-! ## Steps that may fail, one after the other -/

theorem foldlM_append_eq_some {f : β → α → Option β} {b c : β}
    {pre post : List α} : (pre ++ post).foldlM f b = some c ↔
      ∃ b₁, pre.foldlM f b = some b₁ ∧ post.foldlM f b₁ = some c := by
  rw [List.foldlM_append]
  exact Option.bind_eq_some_iff

theorem foldlM_cons_eq_some {f : β → α → Option β} {b c : β} {a : α}
    {l : List α} : (a :: l).foldlM f b = some c ↔
      ∃ b₁, f b a = some b₁ ∧ l.foldlM f b₁ = some c := by
  rw [List.foldlM_cons]
  exact Option.bind_eq_some_iff

theorem foldlM_snoc_eq_some {f : β → α → Option β} {b c : β} {l : List α}
    {a : α} : (l ++ [a]).foldlM f b = some c ↔
      ∃ b₁, l.foldlM f b = some b₁ ∧ f b₁ a = some c := by
  rw [foldlM_append_eq_some]
  refine exists_congr fun b₁ => and_congr_right fun _ => ?_
  rw [List.foldlM_cons]
  exact iff_of_eq (congrArg (· = some c) (bind_pure (f b₁ a)))

/-- What holds at the beginning and is kept by each step holds at the end. -/
theorem foldlM_invariant {f : β → α → Option β} {b : β} {P : List α → β → Prop}
    (hstart : P [] b)
    (hstep : ∀ l a b₁ b₂, l.foldlM f b = some b₁ → P l b₁ → f b₁ a = some b₂ →
      P (l ++ [a]) b₂) :
    ∀ {l : List α} {c : β}, l.foldlM f b = some c → P l c := by
  intro l
  induction l using List.reverseRecOn with
  | nil =>
      intro c h
      cases h
      exact hstart
  | append_singleton l a ih =>
      intro c h
      obtain ⟨b₁, hrun, hlast⟩ := foldlM_snoc_eq_some.1 h
      exact hstep l a b₁ c hrun (ih hrun) hlast

/-! ## What the registry does to collations -/

namespace Collation

theorem settle_idem (now : Instant) (c : Collation) :
    (c.settle now).settle now = c.settle now := by
  by_cases h : (c.settle now).isComplete = true
  · exact settle_of_isComplete h now
  · have hsame : c.settle now = c := by
      rw [settle] at h ⊢
      split
      · rfl
      · next hc =>
          rw [if_neg hc] at h
          split
          · next hm => exact absurd rfl (by rw [if_pos hm] at h; exact h)
          · next hm =>
              rw [if_neg hm] at h
              split
              · rfl
              · next hlt => exact absurd rfl (by rw [if_neg hlt] at h; exact h)
    rw [hsame, hsame]

theorem settle_merge (now : Instant) (a : Answer) (c : Collation) :
    (c.merge now a).settle now = c.merge now a := by
  rw [merge]
  split
  · exact settle_idem now _
  · exact settle_idem now _

/-- A collation has at most been looked at. -/
def Seen (now : Instant) (c c' : Collation) : Prop :=
  c' = c ∨ c' = c.settle now

theorem Seen.refl (now : Instant) (c : Collation) : Seen now c c := Or.inl rfl

theorem Seen.settle (now : Instant) (c : Collation) :
    Seen now c (c.settle now) :=
  Or.inr rfl

theorem Seen.trans {now : Instant} {c₁ c₂ c₃ : Collation} (h : Seen now c₁ c₂)
    (h' : Seen now c₂ c₃) : Seen now c₁ c₃ := by
  rcases h with rfl | rfl
  · exact h'
  · rcases h' with rfl | rfl
    · exact Or.inr rfl
    · exact Or.inr (settle_idem now _)

/-- Looking changes nothing that was fixed when a collation was made. -/
theorem Seen.same {now : Instant} {c c' : Collation}
    (h : Seen now c c') : c.Same c' := by
  rcases h with rfl | rfl
  · exact Same.refl _
  · exact same_settle now c

theorem Seen.sound {now : Instant} {c c' : Collation} (h : Seen now c c')
    (hc : c.Sound) : c'.Sound := by
  rcases h with rfl | rfl
  · exact hc
  · exact sound_settle hc now

theorem Agrees.of_seen {now : Instant} {held : Tally} {c c' : Collation}
    (h : Agrees now held c) (hs : c.Seen now c') : Agrees now held c' := by
  rcases hs with rfl | rfl
  · exact h
  · exact h.settle

end Collation

namespace Registry

open Collation (Seen Agrees)

/-- What every operation of the registry does to the collations: new ones may be
added, into which nothing was put, and the others are looked at or left
alone. -/
structure Kept (now : Instant) (r r' : Registry) : Prop where
  config : r'.config = r.config
  collations : Grows (Seen now) r.collations r'.collations
  fresh : ∀ (h : Handle) c, r'.collations[h]? = some c →
    r.collations.length ≤ h → Agrees now (fun _ => none) c

theorem Kept.same {now : Instant} {r r' : Registry} (h : Kept now r r') :
    Grows Collation.Same r.collations r'.collations := fun i c hc =>
  (h.collations i c hc).imp fun _ ⟨hc', hseen⟩ => ⟨hc', hseen.same⟩

theorem Kept.of_length {now : Instant} {r r' : Registry}
    (hconfig : r'.config = r.config)
    (hgrows : Grows (Seen now) r.collations r'.collations)
    (hlength : r'.collations.length = r.collations.length) : Kept now r r' where
  config := hconfig
  collations := hgrows
  fresh h c hc hle := by
    rw [List.getElem?_eq_none (hlength ▸ hle)] at hc
    cases hc

theorem Kept.refl (now : Instant) (r : Registry) : Kept now r r :=
  .of_length rfl (Grows.refl (Seen.refl now) _) rfl

theorem Kept.trans {now : Instant} {r₁ r₂ r₃ : Registry} (h : Kept now r₁ r₂)
    (h' : Kept now r₂ r₃) : Kept now r₁ r₃ where
  config := h'.config.trans h.config
  collations := Grows.trans Seen.trans h.collations h'.collations
  fresh i c hc hi := by
    rcases h'.collations.old_or_new hc with ⟨c₂, hc₂, hseen⟩ | hnew
    · exact (h.fresh i c₂ hc₂ hi).of_seen hseen
    · exact h'.fresh i c hc hnew

/-- What a complete collation is, it remains. -/
theorem Kept.collation_of_isComplete {now : Instant} {r r' : Registry}
    (hkept : Kept now r r') {h : Handle} {c : Collation}
    (hc : r.collations[h]? = some c) (hcomplete : c.isComplete = true) :
    r'.collations[h]? = some c := by
  obtain ⟨c', hc', hseen⟩ := hkept.collations h c hc
  rcases hseen with rfl | rfl
  · exact hc'
  · rw [hc', Collation.settle_of_isComplete hcomplete]

theorem kept_entries (now : Instant) (r : Registry) (entries : List Entry) :
    Kept now r { r with entries } :=
  .of_length rfl (Grows.refl (Seen.refl now) _) rfl

theorem kept_update_settle (now : Instant) (h : Handle) (r : Registry) :
    Kept now r (r.update h (Collation.settle now)) := by
  refine .of_length rfl (fun i c hc => ?_) (List.length_modify ..)
  show ∃ c', (r.collations.modify h (Collation.settle now))[i]? = some c' ∧ _
  rw [List.getElem?_modify, hc]
  split
  · exact ⟨_, rfl, Seen.settle now c⟩
  · exact ⟨_, rfl, Seen.refl now c⟩

theorem kept_foldl_settle (now : Instant)
    (entries : List Entry) : ∀ (r : Registry),
    Kept now r (entries.foldl
      (fun r e => r.update e.handle (Collation.settle now)) r) := by
  induction entries with
  | nil => exact fun r => Kept.refl now r
  | cons e rest ih => exact fun r =>
      (kept_update_settle now e.handle r).trans (ih _)

theorem kept_purge (now : Instant) (r : Registry) : Kept now r (r.purge now) :=
  (kept_foldl_settle now r.entries r).trans (kept_entries now _ _)

theorem kept_make {now : Instant} {c : Collation}
    (hc : Agrees now (fun _ => none) c) (r : Registry) :
    Kept now r (r.make c) where
  config := rfl
  collations := Grows.append (Seen.refl now) _ _
  fresh h c' hc' hle := by
    obtain ⟨-, rfl⟩ := eq_of_getElem?_concat hle hc'
    exact hc

theorem kept_withRoom (now : Instant) (r : Registry) :
    Kept now r (r.withRoom now) := by
  rw [withRoom]
  split
  · exact kept_purge now r
  · exact Kept.refl now r

theorem kept_make_register (now : Instant) (c : Collation) (r : Registry) :
    Kept now (r.make c) (r.register now c).1 := by
  unfold register
  dsimp only
  split
  · exact kept_withRoom now _
  · exact (kept_withRoom now _).trans (kept_entries now _ _)

theorem kept_register {now : Instant} {c : Collation}
    (hc : Agrees now (fun _ => none) c) (r : Registry) :
    Kept now r (r.register now c).1 :=
  (kept_make hc r).trans (kept_make_register now c r)

theorem handle_of_register {now : Instant} {c : Collation} {r r' : Registry}
    {h : Handle} (hr : r.register now c = (r', .ok h)) :
    h = r.collations.length := by
  unfold register at hr
  dsimp only at hr
  split at hr
  · cases hr
  · cases hr
    rfl

/-- The collation that was registered is found under its handle. -/
theorem collation_of_register {now : Instant} {c : Collation} {r r' : Registry}
    {h : Handle} (hr : r.register now c = (r', .ok h)) :
    ∃ c', r'.collations[h]? = some c' ∧ c.Seen now c' := by
  have hkept := kept_make_register now c r
  rw [hr] at hkept
  refine hkept.collations h c ?_
  rw [handle_of_register hr]
  exact List.getElem?_concat_length

theorem kept_get (now : Instant) (id : String) (r : Registry) :
    Kept now r (r.get now id).1 := by
  rw [get]
  split
  · exact Kept.refl now r
  · next e _ =>
      have h : Kept now r
          ((r.touch now id).update e.handle (Collation.settle now)) :=
        (kept_entries now r _).trans (kept_update_settle now e.handle _)
      dsimp only
      split
      · exact h.trans (kept_entries now _ _)
      · exact h

end Registry

/-! ## What a journal tells of merges -/

/-- The node and the request of a merge, if that is what a notice tells of. -/
def Notice.merge? : Notice → Option (Node × String)
  | .answerTooLate node id | .answerNotAsked node id |
      .answerMerged node id _ =>
    some (node, id)
  | _ => none

/-- The merges that a journal tells of. -/
def mergesTold (j : Journal) : List (Node × String) := j.filterMap Notice.merge?

/-- A journal has grown by notices that tell of the given merges. -/
def Tells (told : List (Node × String)) (j j' : Journal) : Prop :=
  ∃ more, j' = j ++ more ∧ mergesTold more = told

/-- A journal has grown by notices that tell of no merge. -/
abbrev Quietly (j j' : Journal) : Prop := Tells [] j j'

theorem Tells.mergesTold_eq {told : List (Node × String)} {j j' : Journal}
    (h : Tells told j j') : mergesTold j' = mergesTold j ++ told := by
  obtain ⟨more, rfl, rfl⟩ := h
  exact List.filterMap_append

theorem Tells.append {told : List (Node × String)} (j : Journal)
    {more : Journal} (h : mergesTold more = told) : Tells told j (j ++ more) :=
  ⟨more, rfl, h⟩

theorem Tells.trans {told told' : List (Node × String)} {j₁ j₂ j₃ : Journal}
    (h : Tells told j₁ j₂) (h' : Tells told' j₂ j₃) :
    Tells (told ++ told') j₁ j₃ := by
  obtain ⟨more, rfl, rfl⟩ := h
  obtain ⟨more', rfl, rfl⟩ := h'
  exact ⟨more ++ more', List.append_assoc .., List.filterMap_append⟩

theorem Quietly.append (j : Journal) {more : Journal}
    (h : mergesTold more = []) : Quietly j (j ++ more) :=
  Tells.append j h

theorem Quietly.refl (j : Journal) :
    Quietly j j := ⟨[], (List.append_nil j).symm, rfl⟩

theorem mergesTold_eq_nil {j : Journal} (h : ∀ n ∈ j, n.merge? = none) :
    mergesTold j = [] :=
  List.filterMap_eq_nil_iff.2 h

theorem Collation.mergesTold_settleNotices (now : Instant) (c : Collation) :
    mergesTold (c.settleNotices now) = [] := by
  rw [settleNotices]
  split
  · rfl
  · rfl

theorem Collation.mergesTold_mergeNotices (now : Instant) (a : Answer)
    (c : Collation) : mergesTold (c.mergeNotices now a) = [(a.node, c.id)] := by
  have happend : mergesTold (c.mergeNotices now a) =
      mergesTold (c.settleNotices now) ++ mergesTold
        (if (c.settle now).isComplete then [.answerTooLate a.node c.id]
        else if !c.expected.contains a.node then [.answerNotAsked a.node c.id]
        else [.answerMerged a.node c.id a.status]) := List.filterMap_append
  rw [happend, mergesTold_settleNotices, List.nil_append]
  split
  · rfl
  · split
    · rfl
    · rfl

namespace Registry

theorem mergesTold_purgeNotices (now : Instant) (r : Registry) :
    mergesTold (r.purgeNotices now) = [] := by
  refine mergesTold_eq_nil fun n hn => ?_
  rw [purgeNotices] at hn
  simp only [List.append_assoc, List.mem_append, List.mem_map] at hn
  rcases hn with hn | ⟨e, -, rfl⟩ | hn
  · obtain ⟨c, -, hn⟩ := List.mem_flatMap.1 hn
    exact List.filterMap_eq_nil_iff.1
      (Collation.mergesTold_settleNotices now c) n hn
  · rfl
  · split at hn
    · cases hn
    · rw [List.mem_singleton.1 hn]
      rfl

theorem mergesTold_registerNotices (now : Instant) (c : Collation)
    (r : Registry) : mergesTold (r.registerNotices now c) = [] := by
  have hpurging : mergesTold
      (if r.config.limit ≤ r.size then r.purgeNotices now else []) = [] := by
    split
    · exact mergesTold_purgeNotices now r
    · rfl
  unfold registerNotices
  dsimp only
  split
  · rw [mergesTold, List.filterMap_append]
    rw [← mergesTold, hpurging]
    rfl
  · exact hpurging

theorem mergesTold_getNotices (now : Instant) (id : String) (r : Registry) :
    mergesTold (r.getNotices now id) = [] := by
  refine mergesTold_eq_nil fun n hn => ?_
  rw [getNotices] at hn
  split at hn
  · cases hn
  · next e _ =>
      rcases List.mem_append.1 hn with hn | hn
      · cases hc : r.collation? e.handle with
        | none =>
            rw [hc] at hn
            cases hn
        | some c =>
            rw [hc] at hn
            exact List.filterMap_eq_nil_iff.1
              (Collation.mergesTold_settleNotices now c) n hn
      · split at hn
        · cases hn
        · rw [List.mem_singleton.1 hn]
          rfl

end Registry

end Fanout
