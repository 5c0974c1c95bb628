import Fanout.Proofs.Holding
import Fanout.Proofs.Reporting

/-!
# What a purge takes out

An entry is stale at a moment if its collation has been over, and nobody has
asked for it, for the whole retention time. A purge goes by the moment at which
the collation was stamped as complete, and that is the moment at which somebody
looked. The two differ when a deadline passes unnoticed. The purge itself may
then be the first to look, and the retention time begins with it.

The history is cut at the moment that lies the retention time before the purge.
Before the cut a collation is stamped no later than the cut, and after it no
earlier, so all that decides is whether a collation was stamped at the cut. What
carries this through a history is that a registry does nothing to a collation
that its own operations do not, at the same moments (`Via`).
-/

namespace Fanout

/-! ## When a collation is stamped -/

namespace Collation

/-- One collation becomes another by operations at moments of some kind. -/
def Via (P : Instant → Prop) (c c' : Collation) : Prop :=
  ∃ k : History, (∀ step ∈ k, P step.1) ∧ c' = c.after k

theorem Via.refl {P : Instant → Prop} (c : Collation) : Via P c c :=
  ⟨[], by simp, rfl⟩

theorem Via.trans {P : Instant → Prop} {c₁ c₂ c₃ : Collation} (h : Via P c₁ c₂)
    (h' : Via P c₂ c₃) : Via P c₁ c₃ := by
  obtain ⟨k, hk, rfl⟩ := h
  obtain ⟨k', hk', rfl⟩ := h'
  refine ⟨k ++ k', fun step hstep => ?_, (after_append c₁ k k').symm⟩
  exact (List.mem_append.1 hstep).elim (hk step) (hk' step)

theorem Via.mono {P Q : Instant → Prop} (hPQ : ∀ t, P t → Q t)
    {c c' : Collation} (h : Via P c c') : Via Q c c' := by
  obtain ⟨k, hk, rfl⟩ := h
  exact ⟨k, fun step hstep => hPQ _ (hk step hstep), rfl⟩

theorem Via.perform {P : Instant → Prop} {t : Instant} (ht : P t)
    (c : Collation) (op : Operation) : Via P c (c.perform t op).1 :=
  ⟨[(t, op)], fun _ h => List.mem_singleton.1 h ▸ ht, rfl⟩

theorem Via.of_seen {P : Instant → Prop} {t : Instant} (ht : P t)
    {c c' : Collation} (h : c.Seen t c') : Via P c c' := by
  rcases h with rfl | rfl
  · exact Via.refl _
  · exact Via.perform ht c .isComplete

theorem Via.sound {P : Instant → Prop} {c c' : Collation} (h : Via P c c')
    (hc : c.Sound) : c'.Sound := by
  obtain ⟨k, -, rfl⟩ := h
  exact sound_after hc k

/-- A collation that was made somehow, and on which nothing was done later than
now. -/
def Begun (now : Instant) (c : Collation) : Prop :=
  ∃ t₀ id method uri nodes timeout,
    Via (· ≤ now) (new t₀ id method uri nodes timeout) c

theorem completedAt_settle {c : Collation} {now s : Instant}
    (h : (c.settle now).completedAt = some s) :
    c.completedAt = some s ∨ s = now := by
  rw [settle] at h
  split at h
  · exact Or.inl h
  · split at h
    · exact Or.inr (Option.some.inj h).symm
    · split at h
      · exact Or.inl h
      · exact Or.inr (Option.some.inj h).symm

theorem completedAt_perform {c : Collation} {t s : Instant} {op : Operation}
    (h : (c.perform t op).1.completedAt = some s) :
    c.completedAt = some s ∨ s = t := by
  cases op with
  | merge a =>
      have h' : (c.merge t a).completedAt = some s := h
      rw [merge] at h'
      split at h'
      · rcases completedAt_settle h' with hrecorded | rfl
        · exact completedAt_settle hrecorded
        · exact Or.inr rfl
      · exact completedAt_settle h'
  | isComplete | completedAt | report => exact completedAt_settle h
  | count => exact Or.inl h

/-- A collation is stamped with the moment of one of the operations on it. -/
theorem Via.completedAt {P : Instant → Prop} {c c' : Collation} (h : Via P c c')
    {s : Instant} (hs : c'.completedAt = some s) :
    c.completedAt = some s ∨ P s := by
  obtain ⟨k, hk, rfl⟩ := h
  induction k generalizing c with
  | nil => exact Or.inl hs
  | cons step rest ih =>
      rcases ih (fun step hstep => hk step (List.mem_cons_of_mem _ hstep))
        hs with hs | hs
      · rcases completedAt_perform hs with hs | rfl
        · exact Or.inl hs
        · exact Or.inr (hk step List.mem_cons_self)
      · exact Or.inr hs

theorem Begun.completedAt_le {now : Instant} {c : Collation} (h : c.Begun now)
    {s : Instant} (hs : c.completedAt = some s) : s ≤ now := by
  obtain ⟨t₀, id, method, uri, nodes, timeout, hvia⟩ := h
  exact (hvia.completedAt hs).resolve_left fun hnew => nomatch hnew

theorem Begun.via {now : Instant} {c c' : Collation} (h : c.Begun now)
    (hvia : Via (· ≤ now) c c') : c'.Begun now := by
  obtain ⟨t₀, id, method, uri, nodes, timeout, hnew⟩ := h
  exact ⟨t₀, id, method, uri, nodes, timeout, hnew.trans hvia⟩

theorem Begun.later {now now' : Instant} {c : Collation} (h : c.Begun now)
    (hle : now ≤ now') : c.Begun now' := by
  obtain ⟨t₀, id, method, uri, nodes, timeout, hnew⟩ := h
  exact ⟨t₀, id, method, uri, nodes, timeout, hnew.mono fun t ht =>
    Nat.le_trans ht hle⟩

/-- The last answer that was missing completes a collation when it is taken
in. -/
theorem Begun.isComplete {now : Instant} {c : Collation} (h : c.Begun now)
    (hasked : c.expected ≠ []) (hnone : c.missing = []) :
    c.isComplete = true := by
  obtain ⟨t₀, id, method, uri, nodes, timeout, k, -, rfl⟩ := h
  rw [(same_after _ k).expected] at hasked
  induction k using List.reverseRecOn with
  | nil =>
      have hmissing : (new t₀ id method uri nodes timeout).missing =
          (new t₀ id method uri nodes timeout).expected :=
        List.filter_eq_self.2 fun _ _ => rfl
      exact absurd (hmissing.symm.trans hnone) hasked
  | append_singleton k step ih =>
      obtain ⟨t, op⟩ := step
      have hsound := sound_after (sound_new t₀ id method uri nodes timeout) k
      rw [after_append] at hnone ⊢
      cases op with
      | merge a =>
          have hsettled := (sound_merge hsound t a).isComplete_settle_iff t
          rw [settle_merge] at hsettled
          exact hsettled.2 hnone
      | isComplete | completedAt | report =>
          exact (hsound.isComplete_settle_iff t).2 hnone
      | count => exact ih hnone

theorem isOver_after {c : Collation} (hc : c.Sound) {now now' : Instant}
    (hover : c.IsOver now) (hle : now ≤ now') (k : History) :
    (c.after k).IsOver now' := by
  have hfewer := hc.fewer_after k
  rcases hover with hnone | hdeadline
  · exact Or.inl (List.subset_nil.1 (hnone ▸ hfewer.missing))
  · refine Or.inr ?_
    rw [hfewer.same.deadline]
    exact Nat.le_trans hdeadline hle

/-- A collation that was over at some moment has a stamp whenever it is looked
at from then on. -/
theorem Via.exists_completedAt {P : Instant → Prop} {c c' : Collation}
    (h : Via P c c') (hc : c.Sound) {cut now : Instant} (hover : c.IsOver cut)
    (hle : cut ≤ now) : ∃ s, (c'.settle now).completedAt = some s := by
  have hsound' := h.sound hc
  obtain ⟨k, -, rfl⟩ := h
  exact Option.isSome_iff_exists.1
    ((hsound'.isComplete_settle now).2 (isOver_after hc hover hle k))

/-- A stamp that is looked at later is from before a moment exactly if it was
there at that moment. -/
theorem Via.stamp_le_iff {cut : Instant} {c c' : Collation}
    (h : Via (cut < ·) c c') (hbegun : c.Begun cut) {s : Instant}
    (hs : c'.completedAt = some s) : s ≤ cut ↔ c.isComplete = true := by
  refine ⟨fun hle => ?_, fun hcomplete => ?_⟩
  · rcases h.completedAt hs with hs | hlt
    · exact isComplete_of_completedAt hs
    · exact absurd hle (Nat.not_le.2 hlt)
  · obtain ⟨k, -, rfl⟩ := h
    rw [after_of_isComplete hcomplete] at hs
    exact hbegun.completedAt_le hs

end Collation

namespace Registry

open Collation (Via Begun)

/-! ## What a registry does to collations and entries -/

theorem grows_via_perform {P : Instant → Prop} {t : Instant} (ht : P t)
    (r : Registry) (op : Operation) :
    Grows (Via P) r.collations (r.perform t op).collations := by
  have hupdate : ∀ (h : Handle) (op : Collation.Operation),
      Grows (Via P) r.collations
        (r.update h fun c => (c.perform t op).1).collations := by
    intro h op i c hc
    rw [update, List.getElem?_modify, hc]
    refine ⟨_, rfl, ?_⟩
    split
    · exact Via.perform ht c op
    · exact Via.refl c
  have hkept : ∀ {r₁ r₂ : Registry}, Kept t r₁ r₂ →
      Grows (Via P) r₁.collations r₂.collations := by
    intro r₁ r₂ h i c hc
    obtain ⟨c', hc', hseen⟩ := h.collations i c hc
    exact ⟨c', hc', Via.of_seen ht hseen⟩
  cases op with
  | register c _ =>
      exact Grows.trans Via.trans (Grows.append Via.refl r.collations [c])
        (hkept (kept_make_register t c r))
  | get id => exact hkept (kept_get t id r)
  | purge => exact hkept (kept_purge t r)
  | stop => exact Grows.refl Via.refl _
  | merge h a => exact hupdate h (.merge a)
  | look h => exact hupdate h .isComplete

theorem grows_via_after {P : Instant → Prop} (r : Registry) {h : History}
    (hP : ∀ step ∈ h, P step.1) :
    Grows (Via P) r.collations (r.after h).collations := by
  induction h generalizing r with
  | nil => exact Grows.refl Via.refl _
  | cons step rest ih =>
      exact Grows.trans Via.trans
        (grows_via_perform (hP step List.mem_cons_self) r step.2)
        (ih _ fun step hstep => hP step (List.mem_cons_of_mem _ hstep))

/-- How an entry that is held after an operation came to be what it is. -/
inductive Comes (t : Instant) (r : Registry) (op : Operation)
    (e : Entry) : Prop where
  | kept (held : e ∈ r.entries) (other : op.asked? ≠ some e.id)
  | touched (e₀ : Entry) (held : e₀ ∈ r.entries) (id : e₀.id = e.id)
      (handle : e₀.handle = e.handle) (now : e.touched = t)
        (asked : op = .get e.id)
  | registered (c : Collation) (sound : c.Sound) (step : op = .register c sound)
      (id : c.id = e.id) (now : e.touched = t) (taken : (r.register t c).2 =
        .ok e.handle)

theorem comes_of_get {r : Registry} {t : Instant} {id : String} {e : Entry}
    (h : e ∈ (r.get t id).1.entries) : Comes t r (.get id) e := by
  have hother : e.id ≠ id → Operation.asked? (.get id) ≠ some e.id :=
    fun hne heq => hne (Option.some.inj heq).symm
  have htouch : e ∈ (r.touch t id).entries → Comes t r (.get id) e := by
    intro he
    obtain ⟨e₀, he₀, heq⟩ := List.mem_map.1 he
    split at heq
    · next hid =>
        subst heq
        exact .touched e₀ he₀ rfl rfl rfl
          (congrArg Operation.get (eq_of_beq hid).symm)
    · next hid =>
        subst heq
        exact .kept he₀ (hother fun hb => hid (beq_iff_eq.2 hb))
  rw [get] at h
  split at h
  · next hnone => exact .kept h (hother (entry?_eq_none.1 hnone e h))
  · dsimp only at h
    split at h
    · exact htouch (List.mem_filter.1 h).1
    · exact htouch h

theorem comes_of_perform {r : Registry} {t : Instant} {op : Operation}
    {e : Entry} (h : e ∈ (r.perform t op).entries) : Comes t r op e := by
  cases op with
  | register c sound =>
      rcases mem_register h with hold | ⟨rfl, htaken⟩
      · exact .kept hold nofun
      · exact .registered c sound rfl rfl rfl htaken
  | get id => exact comes_of_get h
  | purge =>
      have h' : e ∈ (r.purge t).entries := h
      rw [entries_purge] at h'
      exact .kept (List.mem_filter.1 h').1 nofun
  | stop => exact absurd h List.not_mem_nil
  | merge | look => exact .kept h nofun

/-- An entry is touched last when it is registered or looked up, whichever is
later. -/
theorem last_touched {r : Registry} (hr : r.entries = []) {h : History}
    {e : Entry} (he : e ∈ (r.after h).entries) :
    ∃ pre op post, h = pre ++ (e.touched, op) :: post ∧
      (op = .get e.id ∨ ∃ c sound, op = .register c sound ∧ c.id = e.id ∧
        ((r.after pre).register e.touched c).2 = .ok e.handle) ∧
      ∀ step ∈ post, step.2.asked? ≠ some e.id := by
  induction h using List.reverseRecOn generalizing e with
  | nil =>
      rw [show r.after [] = r from rfl, hr] at he
      exact absurd he List.not_mem_nil
  | append_singleton h step ih =>
      obtain ⟨t, op⟩ := step
      rw [after_append] at he
      have hcomes : Comes t (r.after h) op e := comes_of_perform he
      cases hcomes with
      | kept held other =>
          obtain ⟨pre, op', post, rfl, hop', hpost⟩ := ih held
          refine ⟨pre, op', post ++
            [(t, op)], by simp, hop', fun step hstep => ?_⟩
          rcases List.mem_append.1 hstep with hstep | hstep
          · exact hpost step hstep
          · exact List.mem_singleton.1 hstep ▸ other
      | touched e₀ held id handle now asked =>
          subst now
          exact ⟨h, op, [], rfl, Or.inl asked, by simp⟩
      | registered c sound step id now taken =>
          subst now
          exact ⟨h, op, [], rfl, Or.inr ⟨c, sound, step, id, taken⟩, by simp⟩

/-- An entry that was last touched before some moment was held then, as it
is. -/
theorem mem_of_touched_le {r : Registry} {h : History} {d : Instant} {e : Entry}
    (he : e ∈ (r.after h).entries) (hd : e.touched ≤ d)
    (hlate : ∀ step ∈ h, d < step.1) : e ∈ r.entries := by
  induction h generalizing r with
  | nil => exact he
  | cons step rest ih =>
      have hcomes := comes_of_perform
        (ih he fun step hstep => hlate step (List.mem_cons_of_mem _ hstep))
      have hlt := hlate step List.mem_cons_self
      cases hcomes with
      | kept held _ => exact held
      | touched _ _ _ _ now _ => exact absurd (now ▸ hd) (Nat.not_le.2 hlt)
      | registered _ _ _ _ now _ => exact absurd (now ▸ hd) (Nat.not_le.2 hlt)

/-- What is held under an entry was made somehow and not worked on after a
moment. -/
def HeldBegun (d : Instant) (r : Registry) : Prop :=
  ∀ e ∈ r.entries, ∃ c, r.collation? e.handle = some c ∧ c.Begun d

theorem heldBegun_perform {d t : Instant} {r : Registry} (hr : HeldBegun d r)
    (ht : t ≤ d) {op : Operation}
    (hop : ∀ c sound, op = .register c sound → c.Begun t) :
    HeldBegun d (r.perform t op) := by
  have hold : ∀ e₀ ∈ r.entries,
      ∃ c, (r.perform t op).collation? e₀.handle = some c ∧ c.Begun d := by
    intro e₀ he₀
    obtain ⟨c, hc, hbegun⟩ := hr e₀ he₀
    obtain ⟨c', hc', hvia⟩ :=
      grows_via_perform (P := (· ≤ d)) ht r op e₀.handle c hc
    exact ⟨c', hc', hbegun.via hvia⟩
  intro e he
  cases comes_of_perform he with
  | kept held _ => exact hold e held
  | touched e₀ held _ handle _ _ =>
      rw [← handle]
      exact hold e₀ held
  | registered c sound step _ _ taken =>
      subst step
      obtain ⟨c', hc', hseen⟩ := collation_of_register (Prod.ext rfl taken)
      have hvia : Via (· ≤ d) c c' := Via.of_seen (P := (· ≤ d)) ht hseen
      exact ⟨c', hc', ((hop c sound rfl).later ht).via hvia⟩

theorem heldBegun_after {d : Instant} {r : Registry} (hr : HeldBegun d r)
    {h : History} (hearly : ∀ step ∈ h, step.1 ≤ d)
    (hbegun : ∀ t c sound, (t, .register c sound) ∈ h → c.Begun t) :
    HeldBegun d (r.after h) := by
  induction h generalizing r with
  | nil => exact hr
  | cons step rest ih =>
      have hstep : HeldBegun d (r.perform step.1 step.2) :=
        heldBegun_perform hr (hearly step List.mem_cons_self) fun c sound hop =>
          hbegun step.1 c sound (hop ▸ List.mem_cons_self)
      exact ih hstep (fun step hs => hearly step (List.mem_cons_of_mem _ hs))
        fun t c sound hs => hbegun t c sound (List.mem_cons_of_mem _ hs)

/-! ## What a purge finds -/

/-- A purge looks at every collation that is held. -/
theorem collation?_settleHeld {r : Registry} {e : Entry} (he : e ∈ r.entries)
    {c : Collation} (hc : r.collation? e.handle = some c) (now : Instant) :
    (r.settleHeld now).collation? e.handle = some (c.settle now) := by
  have hdone : ∀ (entries : List Entry) (r : Registry),
      r.collations[e.handle]? = some (c.settle now) →
      (entries.foldl (fun r e => r.update e.handle (Collation.settle now))
        r).collations[ e.handle]? = some (c.settle now) := by
    intro entries r hr
    obtain ⟨c', hc', hseen⟩ :=
      (kept_foldl_settle now entries r).collations _ _ hr
    rcases hseen with rfl | rfl
    · exact hc'
    · rw [hc', Collation.settle_idem]
  have hfold : ∀ (entries : List Entry) (r : Registry), e ∈ entries →
      r.collations[e.handle]? = some c →
      (entries.foldl (fun r e => r.update e.handle (Collation.settle now))
        r).collations[ e.handle]? = some (c.settle now) := by
    intro entries
    induction entries with
    | nil => exact fun r he _ => absurd he List.not_mem_nil
    | cons e' rest ih =>
        intro r he hr
        have hupdate :
            (r.update e'.handle (Collation.settle now)).collations[e.handle]? =
            some (if e'.handle = e.handle then c.settle now else c) := by
          rw [update, List.getElem?_modify, hr]
          rfl
        by_cases hhandle : e'.handle = e.handle
        · rw [if_pos hhandle] at hupdate
          exact hdone rest _ hupdate
        · rw [if_neg hhandle] at hupdate
          have hrest : e ∈ rest := (List.mem_cons.1 he).resolve_left
            fun heq => hhandle (congrArg Entry.handle heq.symm)
          exact ih _ hrest hupdate
  exact hfold r.entries r he hc

/-- What a purge leaves: whatever was stamped or touched less than the retention
time ago, or has no stamp even now. -/
theorem mem_purge {r : Registry} {e : Entry} (he : e ∈ r.entries)
    {c : Collation} (hc : r.collation? e.handle = some c) (now : Instant) :
    e ∈ (r.purge now).entries ↔ ∀ s, (c.settle now).completedAt = some s →
      now - max s e.touched < r.config.retention.nanos := by
  have hexpired : (r.settleHeld now).expired now e =
      isExpired now r.config.retention e (c.settle now) := by
    rw [expired, collation?_settleHeld he hc now, Option.any_some]
    exact congrArg (isExpired now · e _)
      (congrArg RegistryConfig.retention
        (kept_foldl_settle now r.entries r).config)
  rw [entries_purge, List.mem_filter, hexpired, and_iff_right he, isExpired]
  cases (c.settle now).completedAt with
  | none => simp
  | some s =>
      rw [Bool.not_eq_true', decide_eq_false_iff_not, Nat.not_le]
      exact ⟨fun h s' hs' => Option.some.inj hs' ▸ h, fun h => h s rfl⟩

/-- Of a window that reaches back to a cut, what was touched before the cut is
in it only by its stamp. -/
theorem sub_max_lt_iff {cut now s touched retention : Nat}
    (hcut : cut + retention = now) (hpositive : 0 < retention)
    (htouched : touched ≤ cut) :
    now - max s touched < retention ↔ ¬ s ≤ cut := by
  omega

/-- If a purge would take something out, a registration finds room. -/
theorem register_ne_tooManyRequests {r : Registry} (hr : r.Sound) {e : Entry}
    (he : e ∈ r.entries) {now : Instant} (hgone : e ∉ (r.purge now).entries)
    (new : Collation) (n : Nat) :
    (r.register now new).2 ≠ .error (.tooManyRequests n) := by
  obtain ⟨c, hc, -⟩ := hr.placed e he
  have hmake : (r.make new).collation? e.handle = some c :=
    getElem?_append_of_some hc _
  have hgone' : e ∉ ((r.make new).purge now).entries := by
    rw [mem_purge he hc] at hgone
    exact fun hmem => hgone ((mem_purge (r := r.make new) he hmake now).1 hmem)
  have hpurged : ((r.make new).purge now).size < r.config.limit := by
    refine Nat.lt_of_lt_of_le ?_ hr.room
    rw [entries_purge, List.mem_filter, not_and] at hgone'
    rw [size, entries_purge]
    exact List.length_filter_lt_length_iff_exists.2 ⟨e, he, hgone' he⟩
  have hroom : ((r.make new).withRoom now).size <
      ((r.make new).withRoom now).config.limit := by
    rw [(kept_withRoom now (r.make new)).config, withRoom]
    split
    · exact hpurged
    · next h => exact Nat.not_le.1 h
  intro h
  rcases register_cases now new r with ⟨fault, hrefusal, heq⟩ | ⟨-, heq⟩
  · rw [heq] at h
    rw [refusal?, if_neg (Nat.not_le.2 hroom)] at hrefusal
    split at hrefusal
    · cases hrefusal
      cases h
    · cases hrefusal
  · rw [heq] at h
    cases h

/-- A purge and the entries for which nobody has asked for the retention time.
The history before it is cut at the moment that lies the retention time back;
whatever was done before the cut and after, such an entry is one that was held
at the cut. If its collation was over by then, and had been noticed to be, the
entry is taken out, and had there been no room for a registration there is now.
If nobody had noticed, the entry stays, unless the retention time is none. An
answer that completes a collation is noticed at once, so that only a deadline
can pass unnoticed. -/
theorem purged_iff_noticed (config : RegistryConfig) (early late : History)
    (cut now : Instant) (hearly : ∀ step ∈ early, step.1 ≤ cut)
    (hlate : ∀ step ∈ late, cut < step.1)
    (hcut : cut + config.retention.nanos = now)
    (hbegun : ∀ t c sound, (t, .register c sound) ∈ early → c.Begun t) :
    let r := after { config } (early ++ late)
    ∀ e ∈ r.entries,
      (∃ pre op post, early ++ late = pre ++ (e.touched, op) :: post ∧
        (op = .get e.id ∨ ∃ c sound, op = .register c sound ∧ c.id = e.id ∧
          ((after { config } pre).register e.touched c).2 = .ok e.handle) ∧
        ∀ step ∈ post, step.2.asked? ≠ some e.id) ∧
      (e.touched ≤ cut →
        ∃ c, (after { config } early).collation? e.handle = some c ∧
          c.id = e.id ∧
          (c.expected ≠ [] → c.missing = [] → c.isComplete = true) ∧
          (c.IsOver cut → (e ∈ (r.purge now).entries ↔
            c.isComplete = false ∧ 0 < config.retention.nanos)) ∧
          (c.IsOver cut → c.isComplete = true ∨ config.retention.nanos = 0 →
            ∀ new n, (r.register now new).2 ≠
              .error (.tooManyRequests n))) := by
  intro r e he
  refine ⟨last_touched rfl he, fun htouched => ?_⟩
  have hr : r.Sound := sound_after (sound_start config) _
  have hconfig : r.config = config := config_after { config } _
  have hsplit : r = (after { config } early).after late := after_append _ _ _
  have hheld : e ∈ (after { config } early).entries :=
    mem_of_touched_le (hsplit ▸ he) htouched hlate
  have hsound : (after { config } early).Sound :=
    sound_after (sound_start config) early
  obtain ⟨c, hc, hid⟩ := hsound.placed e hheld
  obtain ⟨c₀, hc₀, hcbegun⟩ : ∃ c,
      (after { config } early).collation? e.handle = some c ∧ c.Begun cut :=
    heldBegun_after (fun _ h => absurd h List.not_mem_nil) hearly hbegun e hheld
  obtain rfl : c₀ = c := Option.some.inj (hc₀.symm.trans hc)
  -- What becomes of the collation after the cut.
  obtain ⟨c', hc', hvia⟩ : ∃ c', r.collation? e.handle = some c' ∧
      Via (cut < ·) c₀ c' := by
    rw [hsplit]
    exact grows_via_after _ hlate e.handle c₀ hc
  have hpurge : c₀.IsOver cut → (e ∈ (r.purge now).entries ↔
      c₀.isComplete = false ∧ 0 < config.retention.nanos) := by
    intro hover
    obtain ⟨s, hs⟩ := hvia.exists_completedAt (hsound.collations _ _ hc) hover
      (Nat.le.intro hcut)
    have hmem : e ∈ (r.purge now).entries ↔
        now - max s e.touched < config.retention.nanos := by
      rw [mem_purge he hc' now, hconfig, hs]
      exact ⟨fun h => h s rfl, fun h s' hs' => Option.some.inj hs' ▸ h⟩
    rw [hmem]
    rcases Nat.eq_zero_or_pos config.retention.nanos with hzero | hpositive
    · rw [hzero]
      exact iff_of_false (Nat.not_lt_zero _) fun h => Nat.lt_irrefl 0 h.2
    · have hlt : cut < now := hcut ▸ Nat.lt_add_of_pos_right hpositive
      have hlooked : Via (cut < ·) c₀ (c'.settle now) :=
        hvia.trans (Via.perform (P := (cut < ·)) hlt c' .isComplete)
      have hstamp := hlooked.stamp_le_iff hcbegun hs
      rw [← Bool.not_eq_true, ← hstamp, and_iff_left hpositive]
      exact sub_max_lt_iff hcut hpositive htouched
  refine ⟨c₀, hc, hid, hcbegun.isComplete, hpurge,
    fun hover hnoticed new n => ?_⟩
  refine register_ne_tooManyRequests hr he (fun hstays => ?_) new n
  obtain ⟨hopen, hpositive⟩ := (hpurge hover).1 hstays
  rcases hnoticed with hcomplete | hzero
  · rw [hopen] at hcomplete
    cases hcomplete
  · exact Nat.lt_irrefl 0 (hzero ▸ hpositive)

/-- Of two entries that are stale the one whose answer came is taken out, and
that makes room. -/
theorem purged_iff_noticed_answered :
    let n : Node := ⟨"a", "localhost", 1⟩
    let config : RegistryConfig := { limit := 2, retention := ⟨10⟩ }
    let c := Collation.new 0 "c" .get "/" [n] ⟨5⟩
    let d := Collation.new 1 "d" .get "/" [n] ⟨5⟩
    let early : History := [
      (0, .register c (Collation.sound_new 0 "c" .get "/" [n] ⟨5⟩)),
      (1, .register d (Collation.sound_new 1 "d" .get "/" [n] ⟨5⟩)),
      (4, .merge 0 (.ofReply n { status := 200 } ⟨4⟩))]
    let r := after { config } (early ++
      [(9, .merge 1 (.ofReply n { status := 200 } ⟨8⟩))])
    r.entries = [⟨"c", 0, 0⟩, ⟨"d", 1, 1⟩] ∧
      ⟨"c", 0, 0⟩ ∉ (r.purge 16).entries ∧ ⟨"d", 1, 1⟩ ∈ (r.purge 16).entries ∧
      ∀ new n, (r.register 16 new).2 ≠ .error (.tooManyRequests n) := by
  intro n config c d early r
  have hnew : ∀ t c' sound, (t, Operation.register c' sound) ∈ early →
      c'.Begun t := by
    intro t c' sound hmem
    simp only [early, List.mem_cons, List.not_mem_nil, or_false, Prod.mk.injEq,
      Operation.register.injEq, reduceCtorEq, and_false] at hmem
    rcases hmem with ⟨rfl, rfl⟩ | ⟨rfl, rfl⟩
    · exact ⟨0, "c", .get, "/", [n], ⟨5⟩, Via.refl _⟩
    · exact ⟨1, "d", .get, "/", [n], ⟨5⟩, Via.refl _⟩
  have hpurged := purged_iff_noticed config early
    [(9, .merge 1 (.ofReply n { status := 200 } ⟨8⟩))] 6 16 (by decide)
      (by decide) rfl hnew
  obtain ⟨c', hc', -, -, hgone, hroom⟩ :=
    (hpurged ⟨"c", 0, 0⟩ (by decide)).2 (by decide)
  obtain ⟨d', hd', -, -, hstays, -⟩ :=
    (hpurged ⟨"d", 1, 1⟩ (by decide)).2 (by decide)
  cases hc'
  cases hd'
  refine ⟨by decide, fun h => ?_, (hstays (by decide)).2 (by decide),
    hroom (by decide) (by decide)⟩
  exact absurd ((hgone (by decide)).1 h) (by decide)

/-- A deadline passes at which nobody looks. Long after the retention time the
entry is still there, a purge leaves it, and there is no room for another. -/
theorem stale_unnoticed :
    let n : Node := ⟨"n1", "10.0.0.1", 8080⟩
    let config : RegistryConfig := { limit := 1, retention := .ofMillis 1000 }
    let c := Collation.new 0 "a" .put "/api/flow" [n] (.ofMillis 100)
    let d := Collation.new (Span.ofMillis 5000).nanos "b" .put "/api/flow" [n]
      (.ofMillis 100)
    let r := after { config }
      [(0, .register c (Collation.sound_new 0 "a" .put "/api/flow" [n] _))]
    let now : Instant := (Span.ofMillis 5000).nanos
    let cut : Instant := (Span.ofMillis 4000).nanos
    cut + config.retention.nanos = now ∧ r.entries = [⟨"a", 0, 0⟩] ∧
      r.collation? 0 = some c ∧ c.IsOver cut ∧
      (r.purge now).entries = [⟨"a", 0, 0⟩] ∧
      (r.register now d).2 = .error (.tooManyRequests 1) :=
  ⟨rfl, rfl, rfl, by decide, by decide, rfl⟩

end Registry

end Fanout
