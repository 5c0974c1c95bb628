import Fanout.Collation
import Fanout.Proofs.Ascending

/-!
# What each operation does to a collation

A collation is read node by node, through `answer?`, and this file says for
every operation what it does to that reading. The laws look simple because of
one invariant: a complete collation has no node without an answer. Without it a
complete collation could be told apart from one whose nodes all have answers,
and `settle` would need a case for each.

The invariant is `Sound`, and it also keeps every answer under the node that
gave it and every node among those that were asked. All that comes later reads
collations through the laws below and never opens an operation again.
-/

namespace Fanout.Collation

/-! ## What never changes -/

@[simp] theorem answer?_eq {c : Collation} {completedAt : Option Instant}
    (n : Node) :
    ({ c with completedAt } : Collation).answer? n = c.answer? n := rfl

/-- Two collations of one request: all that was fixed when it was made is
equal. -/
structure Same (c c' : Collation) : Prop where
  id : c'.id = c.id
  method : c'.method = c.method
  uri : c'.uri = c.uri
  expected : c'.expected = c.expected
  timeout : c'.timeout = c.timeout
  deadline : c'.deadline = c.deadline

theorem Same.refl (c : Collation) : Same c c := ⟨rfl, rfl, rfl, rfl, rfl, rfl⟩

theorem Same.trans {c₁ c₂ c₃ : Collation} (h : Same c₁ c₂) (h' : Same c₂ c₃) :
    Same c₁ c₃ :=
  ⟨h'.id.trans h.id, h'.method.trans h.method, h'.uri.trans h.uri,
    h'.expected.trans h.expected, h'.timeout.trans h.timeout,
    h'.deadline.trans h.deadline⟩

theorem same_record (a : Answer) (c : Collation) : Same c (c.record a) :=
  ⟨rfl, rfl, rfl, rfl, rfl, rfl⟩

theorem same_foldl_record {nodes : List Node} {f : Node → Collation → Answer} :
    ∀ {c : Collation},
      Same c (nodes.foldl (fun c n => c.record (f n c)) c) := by
  induction nodes with
  | nil => exact fun {c} => Same.refl c
  | cons n rest ih => exact fun {c} => (same_record _ c).trans ih

theorem same_fillIn (c : Collation) : Same c c.fillIn :=
  same_foldl_record (f := fun n c => .timeout n c.timeout)

theorem same_settle (now : Instant) (c : Collation) :
    Same c (c.settle now) := by
  rw [settle]
  split
  · exact Same.refl c
  · split
    · exact ⟨rfl, rfl, rfl, rfl, rfl, rfl⟩
    · split
      · exact Same.refl c
      · obtain ⟨h₁, h₂, h₃, h₄, h₅, h₆⟩ := same_fillIn c
        exact ⟨h₁, h₂, h₃, h₄, h₅, h₆⟩

theorem same_merge (now : Instant) (a : Answer) (c : Collation) :
    Same c (c.merge now a) := by
  rw [merge]
  split
  · exact ((same_settle now c).trans (same_record a _)).trans
      (same_settle now _)
  · exact same_settle now c

/-! ## Answers node by node -/

theorem answer?_record (a : Answer) (c : Collation) (n : Node) :
    (c.record a).answer? n = if a.node = n then some a else c.answer? n := by
  rw [answer?, record, valueAt?_putAscending, answer?]
  by_cases h : a.node = n
  · rw [if_pos h, if_pos (beq_iff_eq.2 h)]
  · rw [if_neg h, if_neg (fun hb => h (beq_iff_eq.1 hb))]

theorem mem_missing {c : Collation} {n : Node} :
    n ∈ c.missing ↔ n ∈ c.expected ∧ c.answer? n = none := by
  rw [missing, List.mem_filter, Option.isNone_iff_eq_none]

theorem missing_eq_nil {c : Collation} :
    c.missing = [] ↔ ∀ n ∈ c.expected, (c.answer? n).isSome := by
  rw [missing, List.filter_eq_nil_iff]
  refine forall_congr' fun n => imp_congr_right fun _ => ?_
  cases c.answer? n
  · simp
  · simp

theorem answer?_foldl_timeout {nodes : List Node} :
    ∀ {c : Collation} (n : Node),
      (nodes.foldl (fun c n => c.record (.timeout n c.timeout)) c).answer? n =
      if n ∈ nodes then some (.timeout n c.timeout) else c.answer? n := by
  induction nodes with
  | nil => exact fun n => rfl
  | cons m rest ih =>
      intro c n
      rw [List.foldl_cons, ih, answer?_record]
      show (if n ∈ rest then some (Answer.timeout n c.timeout)
        else if m = n then some (Answer.timeout m c.timeout)
        else c.answer? n) = _
      by_cases hn : n ∈ rest
      · rw [if_pos hn, if_pos (List.mem_cons_of_mem _ hn)]
      · rw [if_neg hn]
        by_cases hm : m = n
        · subst hm
          rw [if_pos rfl, if_pos List.mem_cons_self]
        · rw [if_neg hm, if_neg]
          exact fun h => (List.mem_cons.1 h).elim (fun he => hm he.symm) hn

theorem answer?_fillIn (c : Collation) (n : Node) :
    c.fillIn.answer? n =
      if n ∈ c.missing then some (.timeout n c.timeout) else c.answer? n :=
  answer?_foldl_timeout n

/-! ## The invariant -/

/-- Every answer stands under the node that gave it, which is one of those
asked, and a complete collation has all of them. -/
structure Sound (c : Collation) : Prop where
  ascending : IsAscending c.expected
  named : ∀ n a, c.answer? n = some a → a.node = n ∧ n ∈ c.expected
  full : c.isComplete = true → c.missing = []

theorem sound_new (now : Instant) (id : String) (method : Method) (uri : String)
    (nodes : List Node) (timeout : Span) :
    (new now id method uri nodes timeout).Sound where
  ascending := isAscending_ascending nodes
  named _ _ h := nomatch h
  full h := nomatch h

theorem isComplete_of_completedAt {c : Collation} {completed : Instant}
    (h : c.completedAt = some completed) : c.isComplete = true := by
  rw [isComplete, h]
  rfl

/-- When a collation is complete at a moment: no answer is missing, or there is
no more time for one. -/
def IsOver (now : Instant) (c : Collation) : Prop :=
  c.missing = [] ∨ c.deadline ≤ now

instance (now : Instant) (c : Collation) : Decidable (c.IsOver now) :=
  inferInstanceAs (Decidable (_ ∨ _))

theorem Sound.answer?_settle {c : Collation} (hc : c.Sound) (now : Instant)
    (n : Node) : (c.settle now).answer? n =
      if c.deadline ≤ now ∧ n ∈ c.missing then some (.timeout n c.timeout)
      else c.answer? n := by
  rw [settle]
  split
  · next h =>
      rw [if_neg]
      rw [hc.full h]
      exact fun hm => List.not_mem_nil hm.2
  · split
    · next hm =>
        rw [if_neg]
        · rfl
        · rw [List.isEmpty_iff.1 hm]
          exact fun hm => List.not_mem_nil hm.2
    · split
      · next hlt =>
          rw [if_neg]
          exact fun hm => absurd hlt (Nat.not_lt.2 hm.1)
      · next hlt =>
          rw [answer?_eq, answer?_fillIn]
          by_cases hn : n ∈ c.missing
          · rw [if_pos hn, if_pos ⟨Nat.not_lt.1 hlt, hn⟩]
          · rw [if_neg hn, if_neg fun h => hn h.2]

theorem Sound.mem_missing_settle {c : Collation} (hc : c.Sound) (now : Instant)
    (n : Node) :
    n ∈ (c.settle now).missing ↔ n ∈ c.missing ∧ now < c.deadline := by
  rw [mem_missing, hc.answer?_settle, (same_settle now c).expected]
  by_cases hd : c.deadline ≤ now
  · by_cases hn : n ∈ c.missing
    · rw [if_pos ⟨hd, hn⟩]
      exact ⟨fun h => (nomatch h.2), fun h => absurd h.2 (Nat.not_lt.2 hd)⟩
    · rw [if_neg fun h => hn h.2, ← mem_missing]
      exact ⟨fun h => absurd h hn, fun h => h.1⟩
  · rw [if_neg fun h => hd h.1, ← mem_missing]
    exact ⟨fun h => ⟨h, Nat.not_le.1 hd⟩, And.left⟩

theorem Sound.isComplete_settle {c : Collation} (hc : c.Sound) (now : Instant) :
    (c.settle now).isComplete = true ↔ c.IsOver now := by
  rw [settle]
  split
  · next h => exact iff_of_true h (Or.inl (hc.full h))
  · next h =>
      split
      · next hm => exact iff_of_true rfl (Or.inl (List.isEmpty_iff.1 hm))
      · next hm =>
          split
          · next hlt =>
              refine iff_of_false h fun ho => ?_
              rcases ho with ho | ho
              · exact hm (List.isEmpty_iff.2 ho)
              · exact Nat.not_lt.2 ho hlt
          · next hlt => exact iff_of_true rfl (Or.inr (Nat.not_lt.1 hlt))

theorem sound_settle {c : Collation} (hc : c.Sound) (now : Instant) :
    (c.settle now).Sound where
  ascending := (same_settle now c).expected ▸ hc.ascending
  named n a h := by
    rw [hc.answer?_settle] at h
    rw [(same_settle now c).expected]
    split at h
    · next hm =>
        cases h
        exact ⟨rfl, (mem_missing.1 hm.2).1⟩
    · exact hc.named n a h
  full h := by
    refine List.eq_nil_iff_forall_not_mem.2 fun n hn => ?_
    obtain ⟨hm, hlt⟩ := (hc.mem_missing_settle now n).1 hn
    rcases (hc.isComplete_settle now).1 h with ho | ho
    · rw [ho] at hm
      exact List.not_mem_nil hm
    · exact Nat.not_lt.2 ho hlt

theorem settle_of_isComplete {c : Collation} (h : c.isComplete = true)
    (now : Instant) : c.settle now = c := by
  rw [settle, if_pos h]

/-! ## Taking an answer in -/

theorem Sound.accepts_iff {c : Collation} (hc : c.Sound) (now : Instant)
    (a : Answer) : c.accepts now a = true ↔
      a.node ∈ c.expected ∧ now < c.deadline ∧ c.missing ≠ [] := by
  have hover : (c.settle now).isComplete = false ↔ ¬ c.IsOver now := by
    rw [← hc.isComplete_settle now, Bool.not_eq_true]
  rw [accepts, Bool.and_eq_true, Bool.not_eq_true', hover,
    List.contains_iff_mem, IsOver, not_or, Nat.not_le]
  exact ⟨fun h => ⟨h.2, h.1.2, h.1.1⟩, fun h => ⟨⟨h.2.2, h.2.1⟩, h.1⟩⟩

/-- An answer can only be taken in by a collation that has not been settled. -/
theorem Sound.settle_of_accepts {c : Collation} (hc : c.Sound) {now : Instant}
    {a : Answer} (h : c.accepts now a = true) : c.settle now = c := by
  obtain ⟨-, hlt, hm⟩ := (hc.accepts_iff now a).1 h
  have hcomplete : ¬ c.isComplete = true :=
    fun hcomplete => hm (hc.full hcomplete)
  rw [settle, if_neg hcomplete, if_neg (fun he => hm (List.isEmpty_iff.1 he)),
    if_pos hlt]

theorem sound_record {c : Collation} (hc : c.Sound) {a : Answer}
    (ha : a.node ∈ c.expected) : (c.record a).Sound where
  ascending := hc.ascending
  named n b h := by
    rw [answer?_record] at h
    split at h
    · next hn =>
        cases h
        exact ⟨hn, hn ▸ ha⟩
    · exact hc.named n b h
  full h := by
    have hfull := hc.full h
    rw [missing_eq_nil] at hfull ⊢
    intro n hn
    rw [answer?_record]
    split
    · rfl
    · exact hfull n hn

theorem sound_merge {c : Collation} (hc : c.Sound) (now : Instant)
    (a : Answer) : (c.merge now a).Sound := by
  rw [merge]
  split
  · next h =>
      rw [hc.settle_of_accepts h]
      exact sound_settle (sound_record hc ((hc.accepts_iff now a).1 h).1) now
  · exact sound_settle hc now

theorem Sound.answer?_merge {c : Collation} (hc : c.Sound) (now : Instant)
    (a : Answer) (n : Node) :
    (c.merge now a).answer? n =
      if c.accepts now a ∧ a.node = n then some a
      else (c.settle now).answer? n := by
  rw [merge]
  split
  · next h =>
      obtain ⟨ha, hlt, -⟩ := (hc.accepts_iff now a).1 h
      rw [hc.settle_of_accepts h, (sound_record hc ha).answer?_settle,
        answer?_record]
      rw [if_neg fun hd => absurd hlt (Nat.not_lt.2 hd.1)]
      simp [h]
  · next h => simp [h]

/-! ## Reports -/

/-- A complete collation looks the same at every moment. -/
theorem report_of_isComplete {c : Collation} (h : c.isComplete = true)
    (now : Instant) : c.report now = c.view := by
  rw [report, settle_of_isComplete h]

end Fanout.Collation
