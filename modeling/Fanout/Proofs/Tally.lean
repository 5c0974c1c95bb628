import Fanout.Proofs.Collation
import Mathlib.Data.List.Basic
import Mathlib.Data.List.Induction

/-!
# A collation is what its accepted answers say

Nobody watches the clock for a collation: its deadline takes effect only when
somebody looks, and every operation is such a look. Seen from outside that must
not matter. The tally below is the collation without that laziness. It keeps
the last answer taken in from each node and has no other state, so reading it
cannot change it, and a deadline is a comparison and not an event.

After any history of operations a collation says what the tally of that history
says: a merge is taken in exactly when the tally takes it, and a report is a
function of the tally and the moment. The laws that callers rely on follow at
once, because they are laws of the tally: reads leave no trace, a complete
report is final, and answers of different nodes may come in any order.

The induction is on the history from its end. What it carries is `Agrees`: node
by node the collation holds what the tally holds, or else the deadline has
passed and a timeout stands where the tally has nothing.
-/

namespace Fanout.Collation

/-! ## Operations and histories -/

/-- What can be asked of a collation. -/
inductive Operation where
  | merge (answer : Answer)
  | isComplete
  | completedAt
  | count
  | report

/-- What is found out by an operation. -/
inductive Finding where
  | taken (yes : Bool)
  | complete (yes : Bool)
  | completed (moment : Option Instant)
  | counted (n : Nat)
  | reported (report : Report)
  deriving DecidableEq

/-- Does an operation at a moment. Counting is the only one that does not look
at the clock. -/
def perform (now : Instant) (c : Collation) : Operation → Collation × Finding
  | .merge a => (c.merge now a, .taken (c.accepts now a))
  | .isComplete => (c.settle now, .complete (c.settle now).isComplete)
  | .completedAt => (c.settle now, .completed (c.settle now).completedAt)
  | .count => (c, .counted c.count)
  | .report => (c.settle now, .reported (c.report now))

/-- Operations with the moments at which they are done. -/
abbrev History := List (Instant × Operation)

/-- No operation is done before one that stands ahead of it. -/
def Chronological (h : History) : Prop :=
  h.Pairwise fun a b => a.1 ≤ b.1

instance (h : History) : Decidable (Chronological h) :=
  inferInstanceAs (Decidable (h.Pairwise _))

/-- A collation after a history. -/
def after (c : Collation) (h : History) : Collation :=
  h.foldl (fun c step => (c.perform step.1 step.2).1) c

/-- The merge that a step of a history is, with its moment. -/
def merge? : Instant × Operation → Option (Instant × Answer)
  | (t, .merge a) => some (t, a)
  | _ => none

/-- The merges of a history. -/
def merges (h : History) : List (Instant × Answer) := h.filterMap merge?

theorem after_append (c : Collation) (h k : History) :
    c.after (h ++ k) = (c.after h).after k :=
  List.foldl_append

theorem Chronological.of_append {h k : History} (hc : Chronological (h ++ k)) :
    Chronological h :=
  (List.pairwise_append.1 hc).1

theorem Chronological.le_last {h : History} {t : Instant} {op : Operation}
    (hc : Chronological (h ++ [(t, op)])) : ∀ step ∈ h, step.1 ≤ t :=
  fun step hs => (List.pairwise_append.1 hc).2.2 step hs _ List.mem_cons_self

/-! ## The tally -/

/-- The last answer taken in from each node. -/
abbrev Tally := Node → Option Answer

namespace Tally

/-- Whether every node has an answer. -/
def covers (nodes : List Node) (held : Tally) : Bool :=
  nodes.all fun n => (held n).isSome

/-- Whether an answer is taken in: its node was asked, there is still time, and
some node has no answer yet. -/
def takes (nodes : List Node) (deadline now : Instant) (a : Answer)
    (held : Tally) : Bool :=
  nodes.contains a.node && now < deadline && !held.covers nodes

/-- Sets the answer of its node. -/
def put (a : Answer) (held : Tally) : Tally :=
  fun n => if a.node = n then some a else held n

/-- Offers an answer at a moment. -/
def offer (nodes : List Node) (deadline : Instant) (held : Tally)
    (m : Instant × Answer) : Tally :=
  if held.takes nodes deadline m.1 m.2 then held.put m.2 else held

/-- Offers answers one after the other. -/
def offerAll (nodes : List Node) (deadline : Instant) (held : Tally)
    (ms : List (Instant × Answer)) : Tally :=
  ms.foldl (offer nodes deadline) held

/-- The tally of a history: only its merges matter. -/
def ofHistory (nodes : List Node) (deadline : Instant) (h : History) : Tally :=
  offerAll nodes deadline (fun _ => none) (merges h)

/-- The answer that stands for a node at a moment. -/
def standing (c : Collation) (now : Instant) (held : Tally)
    (n : Node) : Option Answer :=
  if c.deadline ≤ now then some ((held n).getD (.timeout n c.timeout))
  else held n

/-- The report on a request at a moment. -/
def report (c : Collation) (now : Instant) (held : Tally) : Report :=
  let answers := c.expected.filterMap (standing c now held)
  let complete := held.covers c.expected || decide (c.deadline ≤ now)
  { id := c.id, method := c.method, uri := c.uri, complete
    outcome := if complete then .ofAnswers answers else .pending
    answers
    pending := c.expected.filter fun n => (standing c now held n).isNone }

theorem ofHistory_snoc (nodes : List Node) (deadline : Instant) (h : History)
    (t : Instant) (op : Operation) :
    ofHistory nodes deadline (h ++ [(t, op)]) =
      match op with
      | .merge a => offer nodes deadline (ofHistory nodes deadline h) (t, a)
      | _ => ofHistory nodes deadline h := by
  rw [ofHistory, merges, List.filterMap_append]
  cases op with
  | merge a => exact List.foldl_append
  | isComplete | completedAt | count | report =>
      rw [List.filterMap_cons_none rfl, List.filterMap_nil, List.append_nil]
      rfl

end Tally

/-! ## The collation agrees with the tally -/

/-- A collation holds what a tally holds, except that timeouts may have been
filled in since the deadline passed. -/
structure Agrees (clock : Instant) (held : Tally) (c : Collation) : Prop where
  sound : c.Sound
  answers : ∀ n ∈ c.expected, c.answer? n = held n ∨
    held n = none ∧ c.deadline ≤ clock ∧
    c.answer? n = some (.timeout n c.timeout)

theorem agrees_new (now : Instant) (id : String) (method : Method)
    (uri : String) (nodes : List Node) (timeout : Span) :
    Agrees now (fun _ => none) (new now id method uri nodes timeout) :=
  ⟨sound_new now id method uri nodes timeout, fun _ _ => Or.inl rfl⟩

theorem Agrees.later {clock now : Instant} {held : Tally} {c : Collation}
    (h : Agrees clock held c) (hle : clock ≤ now) : Agrees now held c :=
  ⟨h.sound, fun n hn => (h.answers n hn).imp_right fun ⟨hnone, hd, ha⟩ =>
    ⟨hnone, Nat.le_trans hd hle, ha⟩⟩

/-- Before the deadline nothing has been filled in. -/
theorem Agrees.answer?_eq {now : Instant} {held : Tally} {c : Collation}
    (h : Agrees now held c) (hlt : now < c.deadline) {n : Node}
    (hn : n ∈ c.expected) : c.answer? n = held n := by
  rcases h.answers n hn with ha | ⟨-, hd, -⟩
  · exact ha
  · exact absurd hlt (Nat.not_lt.2 hd)

theorem Agrees.answer?_settle {now : Instant} {held : Tally} {c : Collation}
    (h : Agrees now held c) {n : Node} (hn : n ∈ c.expected) :
    (c.settle now).answer? n = Tally.standing c now held n := by
  rw [h.sound.answer?_settle, Tally.standing]
  by_cases hd : c.deadline ≤ now
  · rw [if_pos hd]
    rcases h.answers n hn with ha | ⟨hnone, -, ha⟩
    · cases hheld : held n with
      | none =>
          rw [if_pos ⟨hd, mem_missing.2 ⟨hn, ha.trans hheld⟩⟩]
          rfl
      | some a =>
          rw [if_neg, ha, hheld]
          · rfl
          · intro hm
            have hnone := (mem_missing.1 hm.2).2
            rw [ha, hheld] at hnone
            cases hnone
    · rw [if_neg, ha, hnone]
      · rfl
      · intro hm
        have hnone := (mem_missing.1 hm.2).2
        rw [ha] at hnone
        cases hnone
  · rw [if_neg hd, if_neg fun hm => hd hm.1]
    exact h.answer?_eq (Nat.not_le.1 hd) hn

theorem Agrees.missing_eq_nil {now : Instant} {held : Tally} {c : Collation}
    (h : Agrees now held c) (hlt : now < c.deadline) :
    c.missing = [] ↔ held.covers c.expected = true := by
  rw [Collation.missing_eq_nil, Tally.covers, List.all_eq_true]
  refine forall_congr' fun n => ⟨fun hi hn => ?_, fun hi hn => ?_⟩
  · rw [← h.answer?_eq hlt hn]
    exact hi hn
  · rw [h.answer?_eq hlt hn]
    exact hi hn

/-- A collation that is looked at is complete just if its nodes are covered or
the deadline has come. -/
theorem Agrees.isComplete_settle {now : Instant} {held : Tally} {c : Collation}
    (h : Agrees now held c) :
    (c.settle now).isComplete =
      (held.covers c.expected || decide (c.deadline ≤ now)) := by
  rw [Bool.eq_iff_iff, h.sound.isComplete_settle, Bool.or_eq_true,
    decide_eq_true_eq, IsOver]
  by_cases hd : c.deadline ≤ now
  · exact iff_of_true (Or.inr hd) (Or.inr hd)
  · exact or_congr_left (h.missing_eq_nil (Nat.not_le.1 hd))

theorem Agrees.accepts_eq {now : Instant} {held : Tally} {c : Collation}
    (h : Agrees now held c) (a : Answer) :
    c.accepts now a = held.takes c.expected c.deadline now a := by
  rw [Bool.eq_iff_iff, h.sound.accepts_iff, Tally.takes, Bool.and_eq_true,
    Bool.and_eq_true, List.contains_iff_mem, decide_eq_true_eq, and_assoc]
  refine and_congr_right fun _ => and_congr_right fun hlt => ?_
  rw [Bool.not_eq_true', ← Bool.not_eq_true, ← h.missing_eq_nil hlt]

theorem Agrees.settle {now : Instant} {held : Tally} {c : Collation}
    (h : Agrees now held c) : Agrees now held (c.settle now) where
  sound := sound_settle h.sound now
  answers n hn := by
    have hsame := same_settle now c
    rw [hsame.expected] at hn
    rw [hsame.deadline, hsame.timeout, h.answer?_settle hn, Tally.standing]
    by_cases hd : c.deadline ≤ now
    · rw [if_pos hd]
      cases hheld : held n with
      | none => exact Or.inr ⟨rfl, hd, rfl⟩
      | some a => exact Or.inl rfl
    · rw [if_neg hd]
      exact Or.inl rfl

theorem Agrees.merge {now : Instant} {held : Tally} {c : Collation}
    (h : Agrees now held c) (a : Answer) :
    Agrees now (Tally.offer c.expected c.deadline held (now, a))
      (c.merge now a) := by
  rw [Tally.offer, ← h.accepts_eq]
  split
  · next hacc =>
      refine ⟨sound_merge h.sound now a, fun n hn => ?_⟩
      obtain ⟨-, hlt, -⟩ := (h.sound.accepts_iff now a).1 hacc
      rw [(same_merge now a c).expected] at hn
      rw [h.sound.answer?_merge, h.sound.settle_of_accepts hacc, Tally.put]
      simp only [hacc, true_and]
      exact Or.inl (by rw [h.answer?_eq hlt hn])
  · next hacc =>
      rw [Collation.merge, if_neg hacc]
      exact h.settle

theorem same_perform (t : Instant) (c : Collation) (op : Operation) :
    Same c (c.perform t op).1 := by
  cases op with
  | merge a => exact same_merge t a c
  | isComplete => exact same_settle t c
  | completedAt => exact same_settle t c
  | count => exact Same.refl c
  | report => exact same_settle t c

theorem same_after (c : Collation) (h : History) : Same c (c.after h) := by
  induction h generalizing c with
  | nil => exact Same.refl c
  | cons step rest ih => exact (same_perform step.1 c step.2).trans (ih _)

/-- An operation leads to a collation that agrees with the tally of one step
more. -/
theorem Agrees.perform {now : Instant} {c : Collation} {h : History}
    (hagree : Agrees now (Tally.ofHistory c.expected c.deadline h) c)
    (op : Operation) :
      Agrees now (Tally.ofHistory c.expected c.deadline (h ++ [(now, op)]))
      (c.perform now op).1 := by
  rw [Tally.ofHistory_snoc]
  cases op with
  | merge a => exact hagree.merge a
  | isComplete | completedAt | report => exact hagree.settle
  | count => exact hagree

/-- After a chronological history a collation agrees with the tally of it. -/
theorem agrees_after {c : Collation} (hc : c.Sound) (hnew : c.recorded = [])
    {h : History} (hchron : Chronological h) :
    ∀ now, (∀ step ∈ h, step.1 ≤ now) →
      Agrees now (Tally.ofHistory c.expected c.deadline h) (c.after h) := by
  induction h using List.reverseRecOn with
  | nil =>
      intro now _
      refine ⟨hc, fun n _ => Or.inl ?_⟩
      show valueAt? n c.recorded = none
      rw [hnew]
      rfl
  | append_singleton h step ih =>
      obtain ⟨t, op⟩ := step
      intro now hnow
      have ht : t ≤ now := hnow _ (List.mem_append_right _ List.mem_cons_self)
      have hsame := same_after c h
      have hagree := ih hchron.of_append t hchron.le_last
      rw [← hsame.expected, ← hsame.deadline] at hagree ⊢
      rw [after_append]
      exact (hagree.perform op).later ht

theorem Agrees.report_eq {now : Instant} {held : Tally} {c : Collation}
    (h : Agrees now held c) : c.report now = Tally.report c now held := by
  have hsame := same_settle now c
  have hanswers : c.expected.filterMap (c.settle now).answer? =
      c.expected.filterMap (Tally.standing c now held) :=
    List.filterMap_congr fun n hn => h.answer?_settle hn
  have hpending : (c.settle now).missing =
      c.expected.filter fun n => (Tally.standing c now held n).isNone := by
    rw [missing, hsame.expected]
    exact List.filter_congr fun n hn => by rw [h.answer?_settle hn]
  rw [report, view, Tally.report, hsame.expected, hsame.id, hsame.method,
    hsame.uri, hanswers, hpending, h.isComplete_settle]

/-! ## Answers of different nodes come in any order -/

/-- The answers offered in a history. -/
def offered (h : History) : List Answer := (merges h).map (·.2)

namespace Tally

theorem ofHistory_append (nodes : List Node) (deadline : Instant)
    (h k : History) : ofHistory nodes deadline (h ++ k) =
      offerAll nodes deadline (ofHistory nodes deadline h) (merges k) := by
  rw [ofHistory, ofHistory, merges, List.filterMap_append]
  exact List.foldl_append

theorem offerAll_of_forall_ne {nodes : List Node} {deadline : Instant}
    {n : Node} {ms : List (Instant × Answer)} :
    ∀ {held : Tally}, (∀ m ∈ ms, m.2.node ≠ n) →
    offerAll nodes deadline held ms n = held n := by
  induction ms with
  | nil => exact fun _ => rfl
  | cons m rest ih =>
      intro held h
      have hm : m.2.node ≠ n := h m List.mem_cons_self
      rw [offerAll, List.foldl_cons]
      refine (ih fun m' hm' => h m' (List.mem_cons_of_mem _ hm')).trans ?_
      rw [offer]
      split
      · rw [put, if_neg hm]
      · rfl

/-- An answer of a node that was asked and has no answer is taken in while there
is time, since that node keeps the request from being complete. -/
theorem takes_of_none {nodes : List Node} {deadline t : Instant} {a : Answer}
    {held : Tally} (hlt : t < deadline) (hnone : held a.node = none) :
    held.takes nodes deadline t a = nodes.contains a.node := by
  rw [takes, decide_eq_true hlt, Bool.and_true]
  cases hmem : nodes.contains a.node with
  | false => rfl
  | true =>
      rw [Bool.true_and, Bool.not_eq_true', ← Bool.not_eq_true, covers,
        List.all_eq_true]
      intro hall
      have hsome := hall a.node (List.contains_iff_mem.1 hmem)
      rw [hnone] at hsome
      cases hsome

theorem offerAll_of_fresh {nodes : List Node} {deadline : Instant}
    {ms : List (Instant × Answer)} :
    ∀ {held : Tally}, (∀ m ∈ ms, m.1 < deadline) →
    (∀ m ∈ ms, held m.2.node = none) → (ms.map fun m => m.2.node).Nodup → ∀ n,
    offerAll nodes deadline held ms n =
      if n ∈ nodes then ((ms.map (·.2)).find? fun a => a.node == n).or (held n)
      else held n := by
  induction ms with
  | nil =>
      intro held _ _ _ n
      split
      · rfl
      · rfl
  | cons m rest ih =>
      intro held htime hnone hnodup n
      obtain ⟨hnew, hrest⟩ := List.nodup_cons.1 hnodup
      have hm := hnone m List.mem_cons_self
      have hne : ∀ m' ∈ rest, m.2.node ≠ m'.2.node := by
        intro m' hm' he
        exact hnew (List.mem_map.2 ⟨m', hm', he.symm⟩)
      rw [offerAll, List.foldl_cons]
      rw [← offerAll, ih (fun m' hm' => htime m' (List.mem_cons_of_mem _ hm')) _
        hrest n]
      · rw [offer, takes_of_none (htime m List.mem_cons_self) hm, List.map_cons,
          List.find?_cons]
        by_cases hn : m.2.node = n
        · subst hn
          have hnot : (rest.map (·.2)).find? (fun a => a.node == m.2.node) =
              none := by
            refine List.find?_eq_none.2 fun a ha => ?_
            obtain ⟨m', hm', rfl⟩ := List.mem_map.1 ha
            exact fun he => hne m' hm' (eq_of_beq he).symm
          rw [hnot, beq_self_eq_true]
          by_cases hin : m.2.node ∈ nodes
          · rw [if_pos hin, if_pos hin, if_pos (List.contains_iff_mem.2 hin),
              put, if_pos rfl]
            rfl
          · rw [if_neg hin, if_neg hin, if_neg fun hc =>
              hin (List.contains_iff_mem.1 hc)]
        · have hkept : (if nodes.contains m.2.node then held.put m.2 else held)
              n = held n := by
            split
            · rw [put, if_neg hn]
            · rfl
          rw [beq_false_of_ne hn, hkept]
      · intro m' hm'
        rw [offer]
        split
        · rw [put, if_neg (hne m' hm')]
          exact hnone m' (List.mem_cons_of_mem _ hm')
        · exact hnone m' (List.mem_cons_of_mem _ hm')

end Tally

/-- Where at most one element passes a test, the order of a list does not decide
what the test finds. -/
theorem find?_node_perm {as bs : List Answer} (hp : as.Perm bs)
    (hnodup : (as.map (·.node)).Nodup) (n : Node) :
    as.find? (fun a => a.node == n) = bs.find? fun a => a.node == n := by
  have hpair : as.Pairwise fun a b => a.node ≠ b.node :=
    List.pairwise_map.1 hnodup
  induction hp with
  | nil => rfl
  | cons a _ ih =>
      rw [List.find?_cons, List.find?_cons]
      split
      · rfl
      · exact ih (List.nodup_cons.1 hnodup).2 (List.pairwise_cons.1 hpair).2
  | swap a b l =>
      have hne : b.node ≠ a.node :=
        (List.pairwise_cons.1 hpair).1 a List.mem_cons_self
      simp only [List.find?_cons]
      by_cases ha : a.node = n
      · rw [beq_iff_eq.2 ha, beq_false_of_ne fun hb => hne (hb.trans ha.symm)]
      · rw [beq_false_of_ne ha]
  | trans hab _ ih₁ ih₂ =>
      have hmid := (hab.map (·.node)).nodup_iff.1 hnodup
      rw [ih₁ hnodup hpair, ih₂ hmid (List.pairwise_map.1 hmid)]

/-- Two orders of offering answers of different nodes in time, none of which has
been offered before, lead to the same tally. -/
theorem Tally.ofHistory_perm {nodes : List Node} {deadline : Instant}
    {pre mid mid' post : History} (hp : (offered mid).Perm (offered mid'))
    (hnodup : ((offered mid).map (·.node)).Nodup)
    (hfresh : ∀ a ∈ offered mid, ∀ b ∈ offered pre, b.node ≠ a.node)
    (hlt : ∀ m ∈ merges mid, m.1 < deadline)
    (hlt' : ∀ m ∈ merges mid', m.1 < deadline) :
    ofHistory nodes deadline (pre ++ mid ++ post) =
      ofHistory nodes deadline (pre ++ mid' ++ post) := by
  have hnone : ∀ a ∈ offered mid, ofHistory nodes deadline pre a.node =
      none := by
    intro a ha
    refine (offerAll_of_forall_ne fun m hm => ?_).trans rfl
    exact hfresh a ha m.2 (List.mem_map_of_mem hm)
  have hmid : ofHistory nodes deadline (pre ++ mid) =
      ofHistory nodes deadline (pre ++ mid') := by
    funext n
    rw [ofHistory_append, ofHistory_append, offerAll_of_fresh hlt,
      offerAll_of_fresh hlt']
    · show (if n ∈ nodes then
          ((offered mid).find? fun a => a.node == n).or _ else _) =
        if n ∈ nodes then
          ((offered mid').find? fun a => a.node == n).or _ else _
      rw [find?_node_perm hp hnodup]
    · exact fun m hm => hnone m.2 (hp.mem_iff.2 (List.mem_map_of_mem hm))
    · have h := (hp.map (·.node)).nodup_iff.1 hnodup
      rwa [offered, List.map_map] at h
    · exact fun m hm => hnone m.2 (List.mem_map_of_mem hm)
    · rwa [offered, List.map_map] at hnodup
  rw [ofHistory_append _ _ (pre ++ mid), hmid, ← ofHistory_append]

/-! ## Complete reports are final -/

theorem perform_of_isComplete {c : Collation} (h : c.isComplete = true)
    (t : Instant) (op : Operation) : (c.perform t op).1 = c := by
  have hs := settle_of_isComplete h t
  cases op with
  | merge a =>
      show c.merge t a = c
      rw [merge, if_neg, hs]
      rw [accepts, hs, h]
      exact Bool.false_ne_true
  | isComplete | completedAt | report => exact hs
  | count => rfl

theorem after_of_isComplete {c : Collation} (h : c.isComplete = true)
    (k : History) : c.after k = c := by
  induction k with
  | nil => rfl
  | cons step rest ih =>
      show ((c.perform step.1 step.2).1).after rest = c
      rw [perform_of_isComplete h, ih]

/-! ## A new collation -/

section

variable {t₀ : Instant} {id : String} {method : Method} {uri : String}
  {nodes : List Node} {timeout : Span}

theorem agrees_new_after {h : History} {t : Instant} {op : Operation}
    (hc : Chronological (h ++ [(t, op)])) :
    Agrees t (Tally.ofHistory (ascending nodes) (Instant.deadline t₀ timeout) h)
      ((new t₀ id method uri nodes timeout).after h) :=
  agrees_after (sound_new t₀ id method uri nodes timeout) rfl
    hc.of_append t hc.le_last

theorem accepts_after {h : History} {t : Instant} {op : Operation}
    (hc : Chronological (h ++ [(t, op)])) (a : Answer) :
    ((new t₀ id method uri nodes timeout).after h).accepts t a =
      (Tally.ofHistory (ascending nodes) (Instant.deadline t₀ timeout) h).takes
        (ascending nodes) (Instant.deadline t₀ timeout) t a := by
  have hsame := same_after (new t₀ id method uri nodes timeout) h
  rw [(agrees_new_after hc).accepts_eq, hsame.expected, hsame.deadline]
  rfl

theorem report_after {h : History} {t : Instant} {op : Operation}
    (hc : Chronological (h ++ [(t, op)])) :
    ((new t₀ id method uri nodes timeout).after h).report t =
      Tally.report (new t₀ id method uri nodes timeout) t
        (Tally.ofHistory (ascending nodes)
          (Instant.deadline t₀ timeout) h) := by
  have hsame := same_after (new t₀ id method uri nodes timeout) h
  rw [(agrees_new_after hc).report_eq]
  unfold Tally.report Tally.standing
  rw [hsame.id, hsame.method, hsame.uri, hsame.expected, hsame.timeout,
    hsame.deadline]

end

/-- A report that is complete has an answer of every node and waits for none. -/
theorem Tally.report_of_over {c : Collation} {t : Instant} {held : Tally}
    (h : c.deadline ≤ t ∨ held.covers c.expected = true) :
    (report c t held).complete = true ∧
      (report c t held).answers =
        c.expected.map (fun n => (held n).getD (.timeout n c.timeout)) ∧
      (report c t held).pending = [] := by
  have hstanding : ∀ n ∈ c.expected,
      standing c t held n = some ((held n).getD (.timeout n c.timeout)) := by
    intro n hn
    rw [standing]
    split
    · rfl
    · next hd =>
        have hcovers := h.resolve_left hd
        rw [covers, List.all_eq_true] at hcovers
        obtain ⟨a, ha⟩ := Option.isSome_iff_exists.1 (hcovers n hn)
        rw [ha]
        rfl
  refine ⟨?_, ?_, ?_⟩
  · show (held.covers c.expected || decide (c.deadline ≤ t)) = true
    rw [Bool.or_eq_true, decide_eq_true_eq]
    exact h.symm
  · show c.expected.filterMap (standing c t held) = _
    rw [List.filterMap_congr hstanding, List.filterMap_eq_map']
  · show c.expected.filter (fun n => (standing c t held n).isNone) = []
    rw [List.filter_eq_nil_iff]
    intro n hn
    rw [hstanding n hn]
    exact Bool.false_ne_true

/-- A collation that starts at a moment with some nodes to wait for behaves,
under every history of operations, as the tally of that history says. A merge is
taken in exactly when its node was asked, the deadline has not come, and the
answers taken in before do not cover the nodes. A report from the deadline on,
or once the nodes are covered, lists for each node the last answer taken in, or
a timeout. Reads in between change nothing, a complete report is final, and
answers of different nodes may be offered in any order before the deadline. Only
a second answer of a node has its place: if the nodes are covered by then, it is
not taken in any more. -/
theorem findings_by_tally (t₀ : Instant) (id : String) (method : Method)
    (uri : String) (nodes : List Node) (timeout : Span) :
    let c := new t₀ id method uri nodes timeout
    let asked := ascending nodes
    let deadline := Instant.deadline t₀ timeout
    let held := Tally.ofHistory asked deadline
    (∀ h t a, Chronological (h ++ [(t, .merge a)]) →
      ((c.after h).perform t (.merge a)).2 =
        .taken ((held h).takes asked deadline t a)) ∧
    (∀ h t, Chronological (h ++ [(t, .report)]) →
      deadline ≤ t ∨ (held h).covers asked = true →
      ∃ r, ((c.after h).perform t .report).2 = .reported r ∧ r.complete = true ∧
        r.answers = asked.map (fun n => (held h n).getD (.timeout n timeout)) ∧
        r.pending = []) ∧
    (∀ h k t, Chronological (h ++ [(t, .report)]) →
      Chronological (k ++ [(t, .report)]) → merges h = merges k →
      (∀ a, ((c.after h).perform t (.merge a)).2 =
        ((c.after k).perform t (.merge a)).2) ∧
      ((c.after h).perform t .report).2 = ((c.after k).perform t .report).2) ∧
    (∀ h t k t' r, ((c.after h).perform t .report).2 = .reported r →
      r.complete = true →
      ((c.after (h ++ [(t, .report)] ++ k)).perform t' .report).2 =
        .reported r) ∧
    (∀ pre mid mid' post t, Chronological
      (pre ++ mid ++ post ++ [(t, .report)]) →
      Chronological (pre ++ mid' ++ post ++ [(t, .report)]) →
      (offered mid).Perm (offered mid') → ((offered mid).map (·.node)).Nodup →
      (∀ a ∈ offered mid, ∀ b ∈ offered pre, b.node ≠ a.node) →
      (∀ m ∈ merges mid, m.1 < deadline) → (∀ m ∈ merges mid', m.1 < deadline) →
      ((c.after (pre ++ mid ++ post)).perform t .report).2 =
        ((c.after (pre ++ mid' ++ post)).perform t .report).2) := by
  intro c asked deadline held
  refine ⟨?merged, ?listed, ?unread, ?final, ?reordered⟩
  case merged =>
    intro h t a hc
    exact congrArg Finding.taken (accepts_after hc a)
  case listed =>
    intro h t hc hover
    refine ⟨(c.after h).report t, rfl, ?_⟩
    rw [report_after hc]
    exact Tally.report_of_over hover
  case unread =>
    intro h k t hh hk he
    have hheld : held h = held k :=
      congrArg (Tally.offerAll asked deadline _) he
    refine ⟨fun a => ?_, ?_⟩
    · show Finding.taken ((c.after h).accepts t a) =
          .taken ((c.after k).accepts t a)
      rw [accepts_after hh, accepts_after hk]
      exact congrArg (fun d => Finding.taken (Tally.takes asked deadline t a d))
        hheld
    · show Finding.reported ((c.after h).report t) =
          .reported ((c.after k).report t)
      rw [report_after hh, report_after hk]
      exact congrArg (fun d => Finding.reported (Tally.report c t d)) hheld
  case final =>
    intro h t k t' r hr hcomplete
    cases hr
    have hfinal : ((c.after h).settle t).isComplete = true := hcomplete
    rw [after_append, after_append]
    show Finding.reported ((((c.after h).settle t).after k).report t') = _
    rw [after_of_isComplete hfinal, report_of_isComplete hfinal]
    rfl
  case reordered =>
    intro pre mid mid' post t hc hc' hp hnodup hfresh hlt hlt'
    show Finding.reported (Collation.report t _) =
        .reported (Collation.report t _)
    rw [report_after hc, report_after hc',
      Tally.ofHistory_perm hp hnodup hfresh hlt hlt']

/-- An answer of one of two nodes comes in time and that of the other too
late. -/
theorem findings_by_tally_late :
    let a : Node := ⟨"a", "localhost", 1⟩
    let b : Node := ⟨"b", "localhost", 2⟩
    let first : Answer := .ofReply a { status := 200 } ⟨3⟩
    let late : Answer := .ofReply b { status := 200 } ⟨12⟩
    let h : History := [(3, .merge first), (5, .isComplete), (12, .merge late)]
    let c := new 0 "r" .put "/" [b, a] ⟨10⟩
    Chronological (h ++ [(13, .report)]) ∧ Instant.deadline 0 ⟨10⟩ ≤ 13 ∧
      ∃ r, ((c.after h).perform 13 .report).2 = .reported r ∧
        r.complete = true ∧ r.answers = [first, .timeout b ⟨10⟩] ∧
        r.pending = [] :=
  ⟨by decide, by decide,
    (findings_by_tally 0 "r" .put "/"
      [⟨"b", "localhost", 2⟩, ⟨"a", "localhost", 1⟩]
      ⟨10⟩).2.1 _ 13 (by decide) (Or.inl (by decide))⟩

end Fanout.Collation
