import Fanout.Proofs.Outcome

/-!
# What a report can be relied on for

A report is put together from three readings of one collation: the answers in
the order of the nodes that were asked, the nodes that have none, and whether
the collation is complete. Each is computed on its own, the outcome from the
first and the last of them, so that they fit together is a property of the
collation and not of the report.

What makes them fit is `Sound`: an answer stands under the node that gave it, so
the nodes of the answers are those asked nodes that have one, and the pending
nodes are the rest. A collation that has been settled is complete exactly when
there is no rest. The order of the asked nodes passes to both parts, and with it
the first answer that is no success is the one of the smallest such node.

Time and operations only ever add answers, which is why the nodes that a later
report waits for are some of those that an earlier one did.
-/

namespace Fanout

/-! ## Outcomes -/

namespace Outcome

theorem ofAnswers_ne_pending (answers : List Answer) :
    ofAnswers answers ≠ .pending := by
  unfold ofAnswers
  split
  · exact fun h => nomatch h
  · exact fun h => nomatch h

theorem ofAnswers_eq_success {answers : List Answer} {s : Nat} :
    ofAnswers answers = .success s ↔
      (∀ a ∈ answers, a.isSuccess = true) ∧
        (answers.head?.map (·.status)).getD 200 = s := by
  unfold ofAnswers
  split
  · next failed hfind =>
      refine iff_of_false (fun h => nomatch h) fun ⟨hall, _⟩ => ?_
      have hfailed := List.find?_some hfind
      rw [hall failed (List.mem_of_find?_eq_some hfind)] at hfailed
      cases hfailed
  · next hfind =>
      have hall : ∀ a ∈ answers, a.isSuccess = true := by
        simpa using List.find?_eq_none.1 hfind
      rw [Outcome.success.injEq]
      exact ⟨fun h => ⟨hall, h⟩, And.right⟩

theorem ofAnswers_eq_failure {answers : List Answer} {n : Node} {s : Nat} :
    ofAnswers answers = .failure n s ↔
      ∃ a, (answers.filter fun a => !a.isSuccess).head? = some a ∧
        a.node = n ∧ a.status = s := by
  rw [List.head?_filter]
  unfold ofAnswers
  split
  · next failed hfind =>
      rw [hfind, Outcome.failure.injEq]
      refine ⟨fun h => ⟨failed, rfl, h⟩, fun ⟨a, ha, h⟩ => ?_⟩
      cases ha
      exact h
  · next hfind =>
      rw [hfind]
      exact iff_of_false (fun h => nomatch h) fun ⟨_, ha, _⟩ => nomatch ha

end Outcome

/-! ## Reports that hold together -/

namespace Report

/-- The nodes whose answers a report lists. -/
def answered (r : Report) : List Node := r.answers.map (·.node)

/-- How the parts of a report on a request to these nodes fit together. -/
structure WellFormed (asked : List Node) (r : Report) : Prop where
  answered_ascending : IsAscending r.answered
  pending_ascending : IsAscending r.pending
  disjoint : ∀ n ∈ r.answered, n ∉ r.pending
  mem_asked : ∀ n, n ∈ asked ↔ n ∈ r.answered ∨ n ∈ r.pending
  complete_iff : r.complete = true ↔ ∀ n ∈ asked, n ∈ r.answered
  outcome_pending : r.outcome = .pending ↔ r.complete = false
  /-- A success has the status of the first answer, if there is one. -/
  outcome_success : ∀ s, r.outcome = .success s ↔ r.complete = true ∧
    (∀ a ∈ r.answers, a.failure = none ∧ 200 ≤ a.status ∧ a.status < 300) ∧
      (r.answers.head?.map (·.status)).getD 200 = s
  /-- A failure is the first of the answers that are no success. -/
  outcome_failure : ∀ n s, r.outcome = .failure n s ↔ r.complete = true ∧
    ∃ a, r.failed.head? = some a ∧ a.node = n ∧ a.status = s
  /-- No other node that failed comes before the first. -/
  failed_least : ∀ a, r.failed.head? = some a →
    a ∈ r.answers ∧ a.isSuccess = false ∧ ∀ b ∈ r.answers, b.isSuccess = false →
    b = a ∨ compare a.node b.node = .lt
  answer_iff : ∀ n, (∃ a, r.answer? n = some a) ↔ n ∈ asked ∧ n ∉ r.pending

theorem mem_answered {r : Report} {n : Node} :
    n ∈ r.answered ↔ ∃ a ∈ r.answers, a.node = n :=
  List.mem_map

theorem answer?_isSome (r : Report) (n : Node) :
    (∃ a, r.answer? n = some a) ↔ n ∈ r.answered := by
  rw [← Option.isSome_iff_exists, answer?, List.find?_isSome, mem_answered]
  exact exists_congr fun a => and_congr_right fun _ => beq_iff_eq

/-- In answers in the order of their nodes, the first of some kind is the one of
the smallest node. -/
theorem failed_least_of_ascending {r : Report} (h : IsAscending r.answered)
    {a : Answer} (hfirst : r.failed.head? = some a) :
      a ∈ r.answers ∧ a.isSuccess = false ∧
        ∀ b ∈ r.answers, b.isSuccess = false → b = a ∨
          compare a.node b.node = .lt := by
  obtain ⟨rest, hfailed⟩ := List.head?_eq_some_iff.1 hfirst
  have hmem : ∀ b, b ∈ r.failed ↔ b ∈ r.answers ∧ b.isSuccess = false :=
    fun b => by
    rw [failed, List.mem_filter, Bool.not_eq_true']
  have hordered : r.failed.Pairwise fun a b => compare a.node b.node = .lt :=
    List.Pairwise.filter _ (List.pairwise_map.1 h)
  rw [hfailed] at hordered hmem
  obtain ⟨hin, hno⟩ := (hmem a).1 List.mem_cons_self
  refine ⟨hin, hno, fun b hb hbno => ?_⟩
  rcases List.mem_cons.1 ((hmem b).2 ⟨hb, hbno⟩) with rfl | hrest
  · exact Or.inl rfl
  · exact Or.inr ((List.pairwise_cons.1 hordered).1 b hrest)

end Report

namespace Collation

/-! ## What a report shows of a collation -/

/-- The answers that a report lists are those of the asked nodes that have
one. -/
theorem Sound.answered_view {c : Collation} (hc : c.Sound) :
    c.view.answered = c.expected.filter fun n => (c.answer? n).isSome := by
  show (c.expected.filterMap c.answer?).map (·.node) = _
  rw [List.map_filterMap, ← List.filterMap_eq_filter]
  refine List.filterMap_congr fun n _ => ?_
  cases ha : c.answer? n with
  | none => simp [Option.guard, ha]
  | some a => simp [Option.guard, ha, (hc.named n a ha).1]

/-- A collation that is up to date is complete exactly when no answer is
missing. -/
theorem Sound.isComplete_settle_iff {c : Collation} (hc : c.Sound)
    (now : Instant) :
    (c.settle now).isComplete = true ↔ (c.settle now).missing = [] := by
  refine ⟨(sound_settle hc now).full, fun hnone =>
    (hc.isComplete_settle now).2 ?_⟩
  by_cases hd : c.deadline ≤ now
  · exact Or.inr hd
  · refine Or.inl (List.eq_nil_iff_forall_not_mem.2 fun n hn => ?_)
    have hn' := (hc.mem_missing_settle now n).2 ⟨hn, Nat.not_le.1 hd⟩
    rw [hnone] at hn'
    exact List.not_mem_nil hn'

/-- A view is well-formed if the collation is complete exactly when no answer is
missing. -/
theorem Sound.wellFormed_view {c : Collation} (hc : c.Sound)
    (hfull : c.isComplete = true ↔ c.missing = []) :
    c.view.WellFormed c.expected := by
  have hanswered : ∀ n, n ∈ c.view.answered ↔
      n ∈ c.expected ∧ (c.answer? n).isSome := by
    intro n
    rw [hc.answered_view, List.mem_filter]
  have hpending : ∀ n, n ∈ c.view.pending ↔
      n ∈ c.expected ∧ c.answer? n = none :=
    fun n => mem_missing
  have hascending : IsAscending c.view.answered := by
    rw [hc.answered_view]
    exact List.Pairwise.filter _ hc.ascending
  have hmem : ∀ n, n ∈ c.expected ↔ n ∈ c.view.answered ∨
      n ∈ c.view.pending := by
    intro n
    rw [hanswered, hpending, ← and_or_left, ← Option.isNone_iff_eq_none]
    cases c.answer? n with
    | none => simp
    | some a => simp
  have hdisjoint : ∀ n ∈ c.view.answered, n ∉ c.view.pending := by
    intro n hn hp
    have hsome := ((hanswered n).1 hn).2
    rw [((hpending n).1 hp).2] at hsome
    cases hsome
  have houtcome : c.view.outcome =
      if c.view.complete then .ofAnswers c.view.answers else .pending := rfl
  refine ⟨hascending, List.Pairwise.filter _ hc.ascending, hdisjoint, hmem,
    ?complete, ?pending, fun s => ?success, fun n s => ?failure,
    fun a => Report.failed_least_of_ascending hascending, fun n => ?answer⟩
  case complete =>
    refine hfull.trans (missing_eq_nil.trans ?_)
    refine forall_congr' fun n => imp_congr_right fun hn => ?_
    rw [hanswered]
    exact (and_iff_right hn).symm
  case pending =>
    rw [houtcome]
    split
    · next h =>
        rw [h]
        exact iff_of_false (Outcome.ofAnswers_ne_pending _)
          Bool.true_eq_false.mp
    · next h => exact iff_of_true rfl (Bool.not_eq_true _ ▸ h)
  case success =>
    rw [houtcome]
    split
    · next h =>
        rw [Outcome.ofAnswers_eq_success, and_iff_right h]
        exact and_congr_left fun _ => forall_congr' fun a =>
          imp_congr_right fun _ => Answer.isSuccess_iff a
    · next h => exact iff_of_false (fun h' => nomatch h') fun h' => h h'.1
  case failure =>
    rw [houtcome]
    split
    · next h =>
        rw [Outcome.ofAnswers_eq_failure, and_iff_right h]
        rfl
    · next h => exact iff_of_false (fun h' => nomatch h') fun h' => h h'.1
  case answer =>
    rw [Report.answer?_isSome, hmem]
    refine ⟨fun hn => ⟨Or.inl hn, hdisjoint n hn⟩, fun ⟨hn, hp⟩ =>
      hn.resolve_right hp⟩

theorem Sound.wellFormed_report {c : Collation} (hc : c.Sound) (now : Instant) :
    (c.report now).WellFormed c.expected := by
  rw [← (same_settle now c).expected]
  exact (sound_settle hc now).wellFormed_view (hc.isComplete_settle_iff now)

/-! ## Answers only come in -/

theorem sound_perform {c : Collation} (hc : c.Sound) (t : Instant)
    (op : Operation) : (c.perform t op).1.Sound := by
  cases op with
  | merge a => exact sound_merge hc t a
  | isComplete | completedAt | report => exact sound_settle hc t
  | count => exact hc

theorem sound_after {c : Collation} (hc : c.Sound)
    (h : History) : (c.after h).Sound := by
  induction h generalizing c with
  | nil => exact hc
  | cons step rest ih => exact ih (sound_perform hc step.1 step.2)

/-- A later state of a collation waits for no node that an earlier one does
not. -/
structure Fewer (c c' : Collation) : Prop where
  same : Same c c'
  missing : c'.missing ⊆ c.missing

theorem Fewer.refl (c : Collation) :
    Fewer c c := ⟨Same.refl c, List.Subset.refl _⟩

theorem Fewer.trans {c₁ c₂ c₃ : Collation} (h : Fewer c₁ c₂)
    (h' : Fewer c₂ c₃) : Fewer c₁ c₃ :=
  ⟨h.same.trans h'.same, List.Subset.trans h'.missing h.missing⟩

theorem Sound.fewer_settle {c : Collation} (hc : c.Sound) (now : Instant) :
    Fewer c (c.settle now) :=
  ⟨same_settle now c, fun n hn => ((hc.mem_missing_settle now n).1 hn).1⟩

theorem Sound.fewer_perform {c : Collation} (hc : c.Sound) (t : Instant)
    (op : Operation) : Fewer c (c.perform t op).1 := by
  cases op with
  | merge a =>
      refine ⟨same_merge t a c, fun n hn => ?_⟩
      obtain ⟨hasked, hnone⟩ := mem_missing.1 hn
      have hasked' : n ∈ c.expected := (same_merge t a c).expected ▸ hasked
      rw [show (c.perform t (.merge a)).1 =
        c.merge t a from rfl, hc.answer?_merge] at hnone
      split at hnone
      · cases hnone
      · refine (hc.fewer_settle t).missing (mem_missing.2 ⟨?_, hnone⟩)
        rw [(same_settle t c).expected]
        exact hasked'
  | isComplete | completedAt | report => exact hc.fewer_settle t
  | count => exact Fewer.refl c

theorem Sound.fewer_after {c : Collation} (hc : c.Sound) (h : History) :
    Fewer c (c.after h) := by
  induction h generalizing c with
  | nil => exact Fewer.refl c
  | cons step rest ih =>
      exact (hc.fewer_perform step.1 step.2).trans
        (ih (sound_perform hc step.1 step.2))

/-- A report made later waits for some of the nodes that an earlier one waited
for, and is complete if that one was. -/
theorem Fewer.report {c c' : Collation} (hc : c.Sound) (hc' : c'.Sound)
    (h : Fewer c c') {t t' : Instant} (hle : t ≤ t') :
    (c'.report t').pending ⊆ (c.report t).pending ∧
      ((c.report t).complete = true → (c'.report t').complete = true) := by
  have hsub : (c'.settle t').missing ⊆ (c.settle t).missing := by
    intro n hn
    obtain ⟨hmissing, hlt⟩ := (hc'.mem_missing_settle t' n).1 hn
    rw [h.same.deadline] at hlt
    exact (hc.mem_missing_settle t n).2
      ⟨h.missing hmissing, Nat.lt_of_le_of_lt hle hlt⟩
  refine ⟨hsub, fun hdone => (hc'.isComplete_settle_iff t').2 ?_⟩
  have hnone : (c.settle t).missing = [] := (hc.isComplete_settle_iff t).1 hdone
  rw [hnone] at hsub
  exact List.subset_nil.1 hsub

/-- A collation that starts at a moment with some nodes to wait for, and on
which anything at all is done, reports at every moment what holds together: each
of the nodes once, in order, as answered or as pending, with the outcome that
these answers have. It is complete exactly when an answer is recorded for each
of the nodes. A later report waits for no other nodes than an earlier one and
stays complete; and once a report is made, this does not even depend on the
clock. -/
theorem wellFormed_reports (t₀ : Instant) (id : String) (method : Method)
    (uri : String) (nodes : List Node) (timeout : Span) :
    let c := new t₀ id method uri nodes timeout
    let asked := ascending nodes
    (∀ h t, ((c.after h).report t).WellFormed asked) ∧
    (∀ h t, ((c.after h).report t).complete = true ↔
      ∀ n ∈ asked, ∃ a, ((c.after h).settle t).answer? n = some a) ∧
    (∀ h t k t', t ≤ t' →
      ((c.after (h ++ k)).report t').pending ⊆ ((c.after h).report t).pending ∧
      (((c.after h).report t).complete = true →
        ((c.after (h ++ k)).report t').complete = true)) ∧
    (∀ h t k t',
      ((c.after (h ++ (t, .report) :: k)).report t').pending ⊆
        ((c.after h).report t).pending ∧
      (((c.after h).report t).complete = true →
        ((c.after (h ++ (t, .report) :: k)).report t').complete = true)) := by
  intro c asked
  have hsound : ∀ h, (c.after h).Sound :=
    sound_after (sound_new t₀ id method uri nodes timeout)
  refine ⟨fun h t => ?wellFormed, fun h t => ?complete, fun h t k t' hle =>
    ?later, fun h t k t' => ?seen⟩
  case wellFormed =>
    have hasked : (c.after h).expected = asked := (same_after c h).expected
    rw [← hasked]
    exact (hsound h).wellFormed_report t
  case complete =>
    have hasked : ((c.after h).settle t).expected = asked :=
      ((same_after c h).trans (same_settle t _)).expected
    rw [← hasked]
    refine ((hsound h).isComplete_settle_iff t).trans (missing_eq_nil.trans ?_)
    exact forall_congr' fun n => imp_congr_right fun _ =>
      Option.isSome_iff_exists
  case later =>
    have hfewer : Fewer (c.after h) (c.after (h ++ k)) := by
      rw [after_append]
      exact (hsound h).fewer_after k
    exact hfewer.report (hsound h) (hsound _) hle
  case seen =>
    have hsettled : ((c.after h).settle t).Sound := sound_settle (hsound h) t
    have hstate : c.after (h ++ (t, .report) :: k) =
        ((c.after h).settle t).after k :=
      after_append c h _
    have hfewer := hsettled.fewer_after k
    have hlater := hfewer.trans ((sound_after hsettled k).fewer_settle t')
    rw [hstate]
    refine ⟨hlater.missing, fun hdone => ?_⟩
    have hsame : ((c.after h).settle t).after k = (c.after h).settle t :=
      after_of_isComplete hdone k
    rw [hsame, report_of_isComplete hdone]
    exact hdone

/-- One of two nodes has failed and the other is awaited until the deadline has
passed. Then both have failed, and the report names the one that comes first. -/
theorem wellFormed_reports_half :
    let a : Node := ⟨"a", "localhost", 1⟩
    let b : Node := ⟨"b", "localhost", 2⟩
    let h : History := [(3, .merge (.ofReply b { status := 500 } ⟨3⟩))]
    let k : History := [(9, .isComplete)]
    let c := new 0 "r" .put "/" [b, a, b] ⟨10⟩
    ((c.after h).report 4).pending = [a] ∧
      ((c.after (h ++ k)).report 12).pending ⊆ ((c.after h).report 4).pending ∧
      ((c.after (h ++ k)).report 12).outcome = .failure a 504 := by
  intro a b h k c
  have hreports := wellFormed_reports 0 "r" .put "/" [b, a, b] ⟨10⟩
  exact ⟨by decide, (hreports.2.2.1 h 4 k 12 (by decide)).1,
    ((hreports.1 (h ++ k) 12).outcome_failure a 504).2 (by decide)⟩

end Collation

end Fanout
