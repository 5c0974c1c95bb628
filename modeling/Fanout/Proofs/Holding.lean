import Fanout.Proofs.Growth

/-!
# A collation that is asked for is held until it has been seen complete

Three things take a collation out of the registry: a look-up that finds it
complete, a purge that finds it complete and untouched for the retention time,
and the stop of the registry. Purges come at any time, on their own or because a
registration wants room, and a purge may itself be what completes a collation,
since nobody else watches its deadline. A caller that keeps asking should notice
none of this.

The induction is on the operations between the registration and a look-up. What
it carries is the entry with the moment at which it was last touched. A purge
may take the entry out only a retention time after that moment, and the next
look-up comes sooner.
-/

namespace Fanout.Registry

open Collation (Seen Same Agrees IsOver)

/-! ## Operations and histories -/

/-- What can be done with a registry and the collations made by it. -/
inductive Operation where
  | register (c : Collation) (sound : c.Sound)
  | get (id : String)
  | purge
  | stop
  | merge (handle : Handle) (answer : Answer)
  | look (handle : Handle)

namespace Operation

def isStop : Operation → Bool
  | stop => true
  | _ => false

/-- The identifier that an operation looks up. -/
def asked? : Operation → Option String
  | get id => some id
  | _ => none

end Operation

def perform (now : Instant) (r : Registry) : Operation → Registry
  | .register c _ => (r.register now c).1
  | .get id => (r.get now id).1
  | .purge => r.purge now
  | .stop => r.stop
  | .merge h a => r.update h (Collation.merge now a)
  | .look h => r.update h (Collation.settle now)

/-- Operations with the moments at which they are done. -/
abbrev History := List (Instant × Operation)

def Chronological (h : History) : Prop :=
  h.Pairwise fun a b => a.1 ≤ b.1

instance (h : History) : Decidable (Chronological h) :=
  inferInstanceAs (Decidable (h.Pairwise _))

/-- A registry after a history. -/
def after (r : Registry) (h : History) : Registry :=
  h.foldl (fun r step => r.perform step.1 step.2) r

theorem after_append (r : Registry) (h k : History) :
    r.after (h ++ k) = (r.after h).after k :=
  List.foldl_append

/-- When an identifier is looked up in a history. -/
def lookUps (id : String) (h : History) : List Instant :=
  (h.filter fun step => step.2.asked? == some id).map (·.1)

/-- No look-up of an identifier in a history comes when the collation at a
handle is complete. -/
def Unseen (id : String) (handle : Handle) (r : Registry)
    (h : History) : Prop :=
  ∀ pre t op post, h = pre ++ (t, op) :: post → op.asked? = some id →
    ∀ c ∈ (r.after pre).collation? handle, ¬ c.IsOver t

/-- No registration under an identifier succeeds in a history. -/
def Unclaimed (id : String) (r : Registry) (h : History) : Prop :=
  ∀ pre t c sound post, h = pre ++ (t, .register c sound) :: post → c.id = id →
    ∀ handle, ((r.after pre).register t c).2 ≠ .ok handle

/-- Each of these moments comes less than a span after the one before. -/
def Closer (s : Span) (moments : List Instant) : Prop :=
  moments.IsChain fun t t' => t' < t + s.nanos

instance (s : Span) (moments : List Instant) : Decidable (Closer s moments) :=
  inferInstanceAs (Decidable (moments.IsChain _))

/-! ## What holds of every registry -/

/-- The collations are sound, every entry stands for one of them under its
identifier, and no more are held than the limit allows. -/
structure Sound (r : Registry) : Prop where
  collations : ∀ (h : Handle) c, r.collations[h]? = some c → c.Sound
  placed : ∀ e ∈ r.entries, ∃ c, r.collations[e.handle]? = some c ∧ c.id = e.id
  room : r.size ≤ r.config.limit

theorem id_of_entry {r : Registry} {id : String} {e : Entry}
    (h : r.entry? id = some e) : e.id = id := by
  have hp := List.find?_some h
  exact eq_of_beq hp

theorem mem_of_entry {r : Registry} {id : String} {e : Entry}
    (h : r.entry? id = some e) : e ∈ r.entries :=
  List.mem_of_find?_eq_some h

theorem entry?_eq_none {r : Registry} {id : String} :
    r.entry? id = none ↔ ∀ e ∈ r.entries, e.id ≠ id := by
  rw [Registry.entry?, List.find?_eq_none]
  exact forall_congr' fun e => imp_congr_right fun _ => by rw [beq_iff_eq]

theorem contains_eq_false {r : Registry} {id : String} :
    r.contains id = false ↔ r.entry? id = none := by
  rw [contains]
  cases r.entry? id with
  | none => exact iff_of_true rfl rfl
  | some e => exact iff_of_false nofun nofun

theorem Sound.held {r : Registry} (hr : r.Sound) {id : String} {e : Entry}
    (h : r.entry? id = some e) :
    ∃ c, r.collation? e.handle = some c ∧ c.id = id ∧ c.Sound := by
  obtain ⟨c, hc, hid⟩ := hr.placed e (mem_of_entry h)
  exact ⟨c, hc, hid.trans (id_of_entry h), hr.collations _ c hc⟩

theorem sound_start (config : RegistryConfig) : Sound { config } where
  collations _ _ h := nomatch h
  placed _ h := nomatch h
  room := Nat.zero_le _

/-- What is held, and under which identifiers. -/
def named (r : Registry) : List (String × Handle) :=
  r.entries.map fun e => (e.id, e.handle)

theorem mem_named {r : Registry} {id : String} {h : Handle} :
    (id, h) ∈ r.named ↔ ∃ e ∈ r.entries, e.id = id ∧ e.handle = h := by
  rw [named, List.mem_map]
  exact exists_congr fun e => and_congr_right fun _ =>
    Prod.mk.injEq _ _ _ _ ▸ Iff.rfl

/-- Looking at collations and letting entries go keeps a registry sound. -/
theorem Sound.of_kept {now : Instant} {r r' : Registry} (hr : r.Sound)
    (hkept : Kept now r r') (hnamed : r'.named.Sublist r.named) : r'.Sound where
  collations h c hc := by
    rcases hkept.collations.old_or_new hc with ⟨c₀, hc₀, hseen⟩ | hnew
    · exact hseen.sound (hr.collations h c₀ hc₀)
    · exact (hkept.fresh h c hc hnew).sound
  placed e he := by
    obtain ⟨e₀, he₀, hid, hhandle⟩ :=
      mem_named.1 (hnamed.subset (mem_named.2 ⟨e, he, rfl, rfl⟩))
    obtain ⟨c, hc, hcid⟩ := hr.placed e₀ he₀
    obtain ⟨c', hc', hseen⟩ := hkept.collations _ c hc
    refine ⟨c', hhandle ▸ hc', ?_⟩
    rw [hseen.same.id, hcid, hid]
  room := by
    have hlength := hnamed.length_le
    rw [named, named, List.length_map, List.length_map] at hlength
    rw [size, hkept.config]
    exact Nat.le_trans hlength hr.room

theorem entry?_eq_none_iff_named {r : Registry} {id : String} :
    r.entry? id = none ↔ ∀ h, (id, h) ∉ r.named := by
  rw [entry?_eq_none]
  refine ⟨fun hne h hmem => ?_, fun hnot e he hid => ?_⟩
  · obtain ⟨e, he, hid, -⟩ := mem_named.1 hmem
    exact hne e he hid
  · exact hnot e.handle (mem_named.2 ⟨e, he, hid, rfl⟩)

theorem entry?_of_named {r r' : Registry} {id : String} (h : r.entry? id = none)
    (hnamed : r'.named.Sublist r.named) : r'.entry? id = none :=
  entry?_eq_none_iff_named.2 fun handle hmem =>
    entry?_eq_none_iff_named.1 h handle (hnamed.subset hmem)

theorem sound_make {r : Registry} (hr : r.Sound) {c : Collation}
    (hc : c.Sound) : (r.make c).Sound where
  collations h c' h' := by
    rcases getElem?_concat_cases h' with hold | ⟨-, rfl⟩
    · exact hr.collations h c' hold
    · exact hc
  placed e he := by
    obtain ⟨c', hc', hid⟩ := hr.placed e he
    exact ⟨c', getElem?_append_of_some hc' _, hid⟩
  room := hr.room

theorem entries_settleHeld (now : Instant) (r : Registry) :
    (r.settleHeld now).entries = r.entries := by
  have hfold : ∀ (entries : List Entry) (r : Registry),
      (entries.foldl (fun r e => r.update e.handle (Collation.settle now))
        r).entries = r.entries := by
    intro entries
    induction entries with
    | nil => exact fun r => rfl
    | cons e rest ih => exact fun r => ih _
  exact hfold r.entries r

theorem entries_purge (now : Instant) (r : Registry) :
    (r.purge now).entries =
      r.entries.filter fun e => !(r.settleHeld now).expired now e := by
  rw [← entries_settleHeld now r]
  rfl

theorem named_purge (now : Instant) (r : Registry) :
    (r.purge now).named.Sublist r.named := by
  rw [named, entries_purge]
  exact List.filter_sublist.map _

theorem sound_purge {r : Registry} (hr : r.Sound) (now : Instant) :
    (r.purge now).Sound :=
  hr.of_kept (kept_purge now r) (named_purge now r)

theorem named_withRoom (now : Instant) (r : Registry) :
    (r.withRoom now).named.Sublist r.named := by
  rw [withRoom]
  split
  · exact named_purge now r
  · exact List.Sublist.refl _

theorem sound_withRoom {r : Registry} (hr : r.Sound) (now : Instant) :
    (r.withRoom now).Sound :=
  hr.of_kept (kept_withRoom now r) (named_withRoom now r)

theorem sound_update {r : Registry} (hr : r.Sound) (h : Handle)
    {change : Collation → Collation} (hsound : ∀ c, c.Sound → (change c).Sound)
    (hid : ∀ c, (change c).id = c.id) : (r.update h change).Sound where
  collations k c hc := by
    rw [update, List.getElem?_modify] at hc
    obtain ⟨c₀, hc₀, rfl⟩ := Option.map_eq_some_iff.1 hc
    split
    · exact hsound _ (hr.collations k c₀ hc₀)
    · exact hr.collations k c₀ hc₀
  placed e he := by
    obtain ⟨c, hc, hcid⟩ := hr.placed e he
    rw [update, List.getElem?_modify, hc]
    refine ⟨_, rfl, ?_⟩
    split
    · exact (hid c).trans hcid
    · exact hcid
  room := hr.room

/-- Where there was no reason to refuse there was room. -/
theorem size_lt_of_refusal? {r : Registry} {id : String}
    (h : r.refusal? id = none) :
    r.size < r.config.limit ∧ r.contains id = false := by
  rw [refusal?] at h
  split at h
  · cases h
  · next hroom =>
      split at h
      · cases h
      · next hfree => exact ⟨Nat.not_le.1 hroom, Bool.not_eq_true _ ▸ hfree⟩

theorem register_cases (now : Instant) (c : Collation) (r : Registry) :
    (∃ fault, ((r.make c).withRoom now).refusal? c.id = some fault ∧
      r.register now c = ((r.make c).withRoom now, .error fault)) ∨
    ((r.make c).withRoom now).refusal? c.id = none ∧
      r.register now c =
        ({ (r.make c).withRoom now with
            entries := ((r.make c).withRoom now).entries ++
              [⟨c.id, r.collations.length, now⟩] },
                .ok r.collations.length) := by
  unfold register
  dsimp only
  split
  · next fault h => exact Or.inl ⟨fault, h, rfl⟩
  · next h => exact Or.inr ⟨h, rfl⟩

theorem sound_register {r : Registry} (hr : r.Sound) (now : Instant)
    {c : Collation} (hc : c.Sound) : (r.register now c).1.Sound := by
  have hroom := sound_withRoom (sound_make hr hc) now
  rcases register_cases now c r with ⟨fault, -, heq⟩ | ⟨hfree, heq⟩
  · rw [heq]
    exact hroom
  · rw [heq]
    refine ⟨hroom.collations, fun e he => ?_, ?_⟩
    · rcases List.mem_append.1 he with he | he
      · exact hroom.placed e he
      · rw [List.mem_singleton.1 he]
        obtain ⟨c', hc', hseen⟩ :=
          (kept_withRoom now (r.make c)).collations _ c
            List.getElem?_concat_length
        exact ⟨c', hc', hseen.same.id⟩
    · rw [size, List.length_append]
      exact (size_lt_of_refusal? hfree).1

/-- A registration that is refused takes nothing out: if the purge it begins
with had found anything, there would be room. -/
theorem entries_of_refused {r r' : Registry} (hr : r.Sound) {now : Instant}
    {c : Collation} {fault : Fault} (h : r.register now c = (r', .error fault))
    (hfree : r.entry? c.id = none) :
    r'.entries = r.entries ∧ fault = .tooManyRequests r.config.limit := by
  have hnamed := named_withRoom now (r.make c)
  have hconfig : ((r.make c).withRoom now).config = r.config :=
    (kept_withRoom now (r.make c)).config
  rcases register_cases now c r with ⟨fault', hrefusal, heq⟩ | ⟨-, heq⟩
  · rw [heq, Prod.mk.injEq, Except.error.injEq] at h
    obtain ⟨rfl, rfl⟩ := h
    rw [refusal?] at hrefusal
    split at hrefusal
    · next hfull =>
        cases hrefusal
        refine ⟨?_, by rw [hconfig]⟩
        have hroom := hr.room
        have hlength := hnamed.length_le
        rw [named, named, List.length_map, List.length_map] at hlength
        rw [withRoom] at hfull hlength ⊢
        split
        · next hsize =>
            rw [if_pos hsize] at hfull hlength
            have hsublist : ((r.make c).purge now).entries.Sublist
                (r.make c).entries := by
              rw [entries_purge]
              exact List.filter_sublist
            refine hsublist.eq_of_length_le ?_
            rw [(kept_purge now (r.make c)).config] at hfull
            exact Nat.le_trans hroom hfull
        · rfl
    · split at hrefusal
      · next hheld =>
          rw [contains_eq_false.2 (entry?_of_named hfree hnamed)] at hheld
          cases hheld
      · cases hrefusal
  · rw [heq] at h
    cases h

/-! ## Looking an entry up -/

theorem find?_filter_of_some {entries : List Entry} {p q : Entry → Bool}
    {e : Entry} (h : entries.find? p = some e) (hq : q e = true) :
    (entries.filter q).find? p = some e := by
  obtain ⟨hp, pre, post, rfl, hpre⟩ := List.find?_eq_some_iff_append.1 h
  rw [List.filter_append, List.filter_cons_of_pos hq]
  refine List.find?_eq_some_iff_append.2 ⟨hp, _, _, rfl, fun a ha => ?_⟩
  exact hpre a (List.mem_filter.1 ha).1

theorem entry?_touch (now : Instant) (id id' : String) (r : Registry) :
    entry? id' (r.touch now id) =
      (r.entry? id').map fun e => if e.id == id then
        { e with touched := now } else e := by
  have hsame : (fun e : Entry => e.id == id') ∘
      (fun e => if e.id == id then { e with touched := now } else e) =
        fun e => e.id == id' := by
    funext e
    change ((if e.id == id then { e with touched := now } else e).id == id') = _
    split
    · rfl
    · rfl
  rw [Registry.entry?, touch, List.find?_map, hsame, entry?]

theorem get_of_none {r : Registry} {id : String} (h : r.entry? id = none)
    (now : Instant) : r.get now id = (r, none) := by
  rw [get, h]

/-- A look-up that finds an entry takes it out if the collation is complete and
touches it otherwise. -/
theorem get_of_entry {r : Registry} {id : String} {e : Entry} {c : Collation}
    (he : r.entry? id = some e) (hc : r.collation? e.handle = some c)
    (now : Instant) :
    (r.get now id).2 = some e.handle ∧ (r.get now id).1.entries =
        if (c.settle now).isComplete then
          (r.touch now id).entries.filter fun e => !(e.id == id)
        else (r.touch now id).entries := by
  have hsettled :
      ((r.touch now id).update e.handle (Collation.settle now)).collation?
      e.handle = some (c.settle now) := by
    rw [collation?] at hc
    rw [collation?, update, List.getElem?_modify, touch, hc]
    exact congrArg some (if_pos rfl)
  rw [get, he]
  dsimp only
  rw [hsettled, Option.any_some]
  split
  · next h => exact ⟨rfl, rfl⟩
  · next h => exact ⟨rfl, rfl⟩

theorem named_touch (now : Instant) (id : String) (r : Registry) :
    (r.touch now id).named = r.named := by
  rw [named, touch, List.map_map]
  refine List.map_congr_left fun e _ => ?_
  show (fun e : Entry => (e.id, e.handle))
    (if e.id == id then { e with touched := now } else e) = _
  split
  · rfl
  · rfl

theorem named_get (now : Instant) (id : String) (r : Registry) :
    (r.get now id).1.named.Sublist r.named := by
  rw [get]
  split
  · exact List.Sublist.refl _
  · next e _ =>
      rw [← named_touch now id r]
      dsimp only
      split
      · exact List.filter_sublist.map _
      · exact List.Sublist.refl _

theorem sound_get {r : Registry} (hr : r.Sound) (now : Instant) (id : String) :
    (r.get now id).1.Sound :=
  hr.of_kept (kept_get now id r) (named_get now id r)

theorem sound_stop {r : Registry} (hr : r.Sound) : r.stop.Sound :=
  hr.of_kept (kept_entries 0 r []) (List.nil_sublist _)

theorem sound_perform {r : Registry} (hr : r.Sound) (now : Instant)
    (op : Operation) : (r.perform now op).Sound := by
  cases op with
  | register c hc => exact sound_register hr now hc
  | get id => exact sound_get hr now id
  | purge => exact sound_purge hr now
  | stop => exact sound_stop hr
  | merge h a =>
      exact sound_update hr h (fun c hc => Collation.sound_merge hc now a)
        fun c => (Collation.same_merge now a c).id
  | look h =>
      exact sound_update hr h (fun c hc => Collation.sound_settle hc now)
        fun c => (Collation.same_settle now c).id

theorem sound_after {r : Registry} (hr : r.Sound)
    (h : History) : (r.after h).Sound := by
  induction h generalizing r with
  | nil => exact hr
  | cons step rest ih => exact ih (sound_perform hr step.1 step.2)

/-! ## What takes an entry out -/

theorem isOver_of_seen {now : Instant} {c c' : Collation} (hc : c.Sound)
    (h : c.Seen now c') (hcomplete : c'.isComplete = true) : c.IsOver now := by
  rcases h with rfl | rfl
  · exact Or.inl (hc.full hcomplete)
  · exact (hc.isComplete_settle now).1 hcomplete

/-- What is known of an entry that a purge took out. -/
structure Lapsed (now : Instant) (r r' : Registry) (e : Entry)
    (c : Collation) : Prop where
  due : c.IsOver now
  complete : ∃ c' completed, r'.collation? e.handle = some c' ∧
    c'.completedAt = some completed ∧ r.config.retention.nanos ≤ now - completed
  untouched : r.config.retention.nanos ≤ now - e.touched

/-- What a purge takes out is complete and was not touched for the retention
time. -/
theorem entry?_purge {r : Registry} {id : String} {e : Entry} {c : Collation}
    (he : r.entry? id = some e) (hc : r.collation? e.handle = some c)
    (hsound : c.Sound) (now : Instant) :
    entry? id (r.purge now) = some e ∨ Lapsed now r (r.purge now) e c := by
  cases hexpired : (r.settleHeld now).expired now e with
  | false =>
      refine Or.inl ?_
      rw [Registry.entry?, entries_purge]
      exact find?_filter_of_some he (by rw [hexpired]; rfl)
  | true =>
      have hkept := kept_foldl_settle now r.entries r
      obtain ⟨c', hc', hseen⟩ := hkept.collations _ c hc
      have hexpired' : isExpired now r.config.retention e c' = true := by
        have h := hexpired
        rw [expired, collation?, settleHeld, hc', Option.any_some,
          hkept.config] at h
        exact h
      rw [isExpired] at hexpired'
      split at hexpired'
      · next completed hcompleted =>
          have hle := of_decide_eq_true hexpired'
          have hcomplete := Collation.isComplete_of_completedAt hcompleted
          exact Or.inr ⟨isOver_of_seen hsound hseen hcomplete,
            ⟨c', completed, hc', hcompleted, by omega⟩, by omega⟩
      · cases hexpired'

/-- Whatever a purge takes out, it tells of. -/
theorem mem_purgeNotices {r : Registry} {id : String} {e : Entry}
    (he : r.entry? id = some e) {now : Instant}
    (hgone : entry? id (r.purge now) ≠ some e) :
    Notice.purging id ∈ r.purgeNotices now := by
  have hexpired : (r.settleHeld now).expired now e = true := by
    by_contra hfresh
    refine hgone ?_
    rw [Registry.entry?, entries_purge]
    exact find?_filter_of_some he (by rw [Bool.eq_false_iff.2 hfresh]; rfl)
  have htold : Notice.purging id ∈
      (r.entries.filter fun e => (r.settleHeld now).expired now e).map fun e =>
        Notice.purging e.id :=
    List.mem_map.2 ⟨e, List.mem_filter.2 ⟨mem_of_entry he, hexpired⟩,
      congrArg Notice.purging (id_of_entry he)⟩
  exact List.mem_append_left _ (List.mem_append_right _ htold)

theorem entry?_withRoom {r : Registry} {id : String} {e : Entry} {c : Collation}
    (he : r.entry? id = some e) (hc : r.collation? e.handle = some c)
    (hsound : c.Sound) (now : Instant) :
    entry? id (r.withRoom now) = some e ∨
      Lapsed now r (r.withRoom now) e c := by
  rw [withRoom]
  split
  · exact entry?_purge he hc hsound now
  · exact Or.inl he

theorem entry?_register {r : Registry} {id : String} {e : Entry} {c : Collation}
    (he : r.entry? id = some e) (hc : r.collation? e.handle = some c)
    (hsound : c.Sound) (now : Instant) (new : Collation) :
    entry? id (r.register now new).1 = some e ∨
      Lapsed now r (r.register now new).1 e c := by
  have hroom :=
    entry?_withRoom (r := r.make new) he (getElem?_append_of_some hc _)
      hsound now
  rcases register_cases now new r with ⟨fault, -, heq⟩ | ⟨-, heq⟩
  · rw [heq]
    exact hroom.imp_right fun ⟨hover, hcomplete, hlong⟩ =>
      ⟨hover, hcomplete, hlong⟩
  · rw [heq]
    refine hroom.imp (fun hkept => ?_) fun ⟨hover, hcomplete, hlong⟩ =>
      ⟨hover, hcomplete, hlong⟩
    rw [Registry.entry?, List.find?_append, ← entry?, hkept]
    rfl

theorem entry?_get_of_ne {r : Registry} {id id' : String} {e e' : Entry}
    {c : Collation} (he : r.entry? id = some e) (he' : r.entry? id' = some e')
    (hc : r.collation? e'.handle = some c) (hne : id ≠ id') (now : Instant) :
    entry? id (r.get now id').1 = some e := by
  have hid : (e.id == id') = false := by
    rw [id_of_entry he]
    exact beq_false_of_ne hne
  have htouched : entry? id (r.touch now id') = some e := by
    rw [entry?_touch, he, Option.map_some,
      if_neg (by rw [hid]; exact Bool.false_ne_true)]
  rw [Registry.entry?, (get_of_entry he' hc now).2]
  split
  · exact find?_filter_of_some htouched (by rw [hid]; rfl)
  · exact htouched

/-- Short of a stop and of a look-up of its own identifier, only a purge takes
an entry out, and only when its collation is complete and it was not touched for
the retention time. -/
theorem entry?_perform {r : Registry} (hr : r.Sound) {id : String} {e : Entry}
    {c : Collation} (he : r.entry? id = some e)
    (hc : r.collation? e.handle = some c) (now : Instant) {op : Operation}
    (hstop : op.isStop = false) (hasked : op.asked? ≠ some id) :
    entry? id (r.perform now op) = some e ∨
      Lapsed now r (r.perform now op) e c := by
  have hsound := hr.collations _ c hc
  cases op with
  | register new _ => exact entry?_register he hc hsound now new
  | purge => exact entry?_purge he hc hsound now
  | stop => cases hstop
  | merge h a => exact Or.inl he
  | look h => exact Or.inl he
  | get id' =>
      refine Or.inl ?_
      have hne : id ≠ id' := fun h => hasked (congrArg some h.symm)
      show entry? id (r.get now id').1 = some e
      cases he' : r.entry? id' with
      | none =>
          rw [get_of_none he']
          exact he
      | some e' =>
          obtain ⟨c', hc', -⟩ := hr.held he'
          exact entry?_get_of_ne he he' hc' hne now

/-- A look-up of its identifier takes an entry out if the collation is complete,
and otherwise touches it. -/
theorem entry?_get {r : Registry} {id : String} {e : Entry} {c : Collation}
    (he : r.entry? id = some e) (hc : r.collation? e.handle = some c)
    (hsound : c.Sound) (now : Instant) :
    (c.IsOver now → entry? id (r.get now id).1 = none) ∧
      (¬ c.IsOver now → entry? id (r.get now id).1 =
        some { e with touched := now }) := by
  have hentries := (get_of_entry he hc now).2
  refine ⟨fun hover => ?_, fun hopen => ?_⟩
  · rw [if_pos ((hsound.isComplete_settle now).2 hover)] at hentries
    rw [entry?_eq_none, hentries]
    intro e' he' hid
    have hkept := (List.mem_filter.1 he').2
    rw [hid, beq_self_eq_true] at hkept
    cases hkept
  · rw [if_neg fun h => hopen ((hsound.isComplete_settle now).1 h)] at hentries
    rw [Registry.entry?, hentries, ← entry?, entry?_touch, he, Option.map_some,
      if_pos (beq_iff_eq.2 (id_of_entry he))]

/-- What a complete collation is, it remains, whether it is held or not. -/
theorem collation?_perform_of_isComplete {r : Registry} {h : Handle}
    {c : Collation} (hc : r.collation? h = some c)
    (hcomplete : c.isComplete = true) (now : Instant)
    (op : Operation) : (r.perform now op).collation? h = some c := by
  have hupdate : ∀ {h' : Handle} {change : Collation → Collation}, change c =
      c → (r.update h' change).collation? h = some c := by
    intro h' change hchange
    rw [collation?] at hc
    rw [collation?, update, List.getElem?_modify, hc]
    split
    · exact congrArg some hchange
    · rfl
  cases op with
  | register new _ =>
      exact (kept_make_register now new r).collation_of_isComplete
        (getElem?_append_of_some hc _) hcomplete
  | get id => exact (kept_get now id r).collation_of_isComplete hc hcomplete
  | purge => exact (kept_purge now r).collation_of_isComplete hc hcomplete
  | stop => exact hc
  | merge h' a =>
      exact hupdate (Collation.perform_of_isComplete hcomplete now (.merge a))
  | look h' => exact hupdate (Collation.settle_of_isComplete hcomplete now)

/-! ## What puts an entry in -/

/-- Only registering puts an entry in. -/
theorem named_perform {op : Operation} (hop : ∀ c sound, op ≠ .register c sound)
    (now : Instant) (r : Registry) :
    (r.perform now op).named.Sublist r.named := by
  cases op with
  | register c sound => exact absurd rfl (hop c sound)
  | get id => exact named_get now id r
  | purge => exact named_purge now r
  | stop => exact List.nil_sublist _
  | merge _ _ | look _ => exact List.Sublist.refl _

theorem mem_register {now : Instant} {c : Collation} {r : Registry} {e : Entry}
    (h : e ∈ (r.register now c).1.entries) :
    e ∈ r.entries ∨ e = ⟨c.id, r.collations.length, now⟩ ∧
      (r.register now c).2 = .ok r.collations.length := by
  have hroom : ∀ e ∈ ((r.make c).withRoom now).entries, e ∈ r.entries := by
    intro e he
    rw [withRoom] at he
    split at he
    · rw [entries_purge] at he
      exact (List.mem_filter.1 he).1
    · exact he
  rcases register_cases now c r with ⟨fault, -, heq⟩ | ⟨-, heq⟩
  · rw [heq] at h
    exact Or.inl (hroom e h)
  · rw [heq] at h
    rcases List.mem_append.1 h with h | h
    · exact Or.inl (hroom e h)
    · exact Or.inr ⟨List.mem_singleton.1 h, by rw [heq]⟩

/-- An identifier that is not held is not held later unless it is registered. -/
theorem entry?_perform_of_none {r : Registry} {id : String}
    (h : r.entry? id = none) (now : Instant) {op : Operation}
    (hop : ∀ c sound, op = .register c sound → c.id = id →
      ∀ handle, (r.register now c).2 ≠ .ok handle) :
    entry? id (r.perform now op) = none := by
  cases op with
  | register c sound =>
      refine entry?_eq_none.2 fun e he hid => ?_
      rcases mem_register he with hold | ⟨rfl, hok⟩
      · exact entry?_eq_none.1 h e hold hid
      · exact hop c sound rfl hid _ hok
  | get | purge | stop | merge | look =>
      exact entry?_of_named h
        (named_perform (fun c sound h => by cases h) now r)

theorem entry?_after_of_none {r : Registry} {id : String}
    (h : r.entry? id = none) {later : History} (hclaim : Unclaimed id r later) :
    entry? id (r.after later) = none := by
  induction later generalizing r with
  | nil => exact h
  | cons step rest ih =>
      refine ih (entry?_perform_of_none h step.1 fun c sound hop hid =>
        hclaim [] step.1 c sound rest (by rw [← hop]; rfl) hid) ?_
      intro pre t c sound post hrest hid
      exact hclaim (step :: pre) t c sound post (by rw [hrest]; rfl) hid

/-! ## A caller that keeps asking -/

theorem config_perform (now : Instant) (r : Registry) (op : Operation) :
    (r.perform now op).config = r.config := by
  cases op with
  | register c _ => exact (kept_make_register now c r).config
  | get id => exact (kept_get now id r).config
  | purge => exact (kept_purge now r).config
  | stop | merge _ _ | look _ => rfl

theorem config_after (r : Registry) (h : History) :
    (r.after h).config = r.config := by
  induction h generalizing r with
  | nil => rfl
  | cons step rest ih => exact (ih _).trans (config_perform step.1 r step.2)

theorem unseen_cons {id : String} {handle : Handle} {r : Registry} {t : Instant}
    {op : Operation} {rest : History} :
    Unseen id handle r ((t, op) :: rest) ↔
      (op.asked? = some id → ∀ c ∈ r.collation? handle, ¬ c.IsOver t) ∧
        Unseen id handle (r.perform t op) rest := by
  refine ⟨fun h => ⟨h [] t op rest rfl, fun pre t' op' post hrest => ?_⟩,
    fun ⟨hop, hrest⟩ pre t' op' post h => ?_⟩
  · exact h ((t, op) :: pre) t' op' post (by rw [hrest]; rfl)
  · cases pre with
    | nil =>
        cases h
        exact hop
    | cons step pre =>
        cases h
        exact hrest pre t' op' post rfl

instance decidableUnseen (id : String) (handle : Handle) :
    (h : History) → (r : Registry) → Decidable (Unseen id handle r h)
  | [], _ => isTrue fun pre _ _ _ h => by cases pre <;> cases h
  | (t, op) :: rest, r =>
    have : Decidable (Unseen id handle (r.perform t op) rest) :=
      decidableUnseen id handle rest _
    have : Decidable (∀ c ∈ r.collation? handle, ¬ c.IsOver t) :=
      Option.decidableForallMem _
    decidable_of_iff
      ((op.asked? = some id → ∀ c ∈ r.collation? handle, ¬ c.IsOver t) ∧
        Unseen id handle (r.perform t op) rest) unseen_cons.symm

theorem mem_lookUps {id : String} {h : History} {t : Instant} :
    t ∈ lookUps id h ↔ ∃ op, (t, op) ∈ h ∧ op.asked? = some id := by
  rw [lookUps, List.mem_map]
  refine ⟨fun ⟨step, hstep, ht⟩ => ?_, fun ⟨op, hmem, hop⟩ => ?_⟩
  · obtain ⟨hmem, hop⟩ := List.mem_filter.1 hstep
    exact ⟨step.2, ht ▸ hmem, eq_of_beq hop⟩
  · exact ⟨(t, op), List.mem_filter.2 ⟨hmem, beq_iff_eq.2 hop⟩, rfl⟩

theorem lookUps_cons_of_asked {id : String} {t : Instant} {op : Operation}
    {h : History} (hop : op.asked? = some id) :
    lookUps id ((t, op) :: h) = t :: lookUps id h := by
  rw [lookUps, List.filter_cons, if_pos (beq_iff_eq.2 hop)]
  rfl

theorem lookUps_cons_of_ne {id : String} {t : Instant} {op : Operation}
    {h : History} (hop : op.asked? ≠ some id) :
    lookUps id ((t, op) :: h) = lookUps id h := by
  rw [lookUps, List.filter_cons, if_neg fun hb => hop (eq_of_beq hb)]
  rfl

/-- What is done before the next of these look-ups is done less than a span
after the last. -/
theorem lt_of_closer {id : String} {s : Span} {touched t₁ t : Instant}
    {op : Operation} {rest : History}
    (hchron : Chronological ((t₁, op) :: rest ++ [(t, .get id)]))
    (hcloser : Closer s (touched :: lookUps id (rest ++ [(t, .get id)]))) :
    t₁ < touched + s.nanos := by
  have hle : ∀ next ∈ lookUps id (rest ++ [(t, .get id)]), t₁ ≤ next := by
    intro next hnext
    obtain ⟨op', hmem, -⟩ := mem_lookUps.1 hnext
    exact (List.pairwise_cons.1 hchron).1 _ hmem
  have hlast : t ∈ lookUps id (rest ++ [(t, .get id)]) :=
    mem_lookUps.2 ⟨_, List.mem_append_right _ List.mem_cons_self, rfl⟩
  cases hnext : lookUps id (rest ++ [(t, .get id)]) with
  | nil =>
      rw [hnext] at hlast
      cases hlast
  | cons next more =>
      rw [hnext] at hle hcloser
      exact Nat.lt_of_le_of_lt (hle next List.mem_cons_self)
        (List.isChain_cons_cons.1 hcloser).1

/-- Between its registration and a look-up, the entry of a collation that is
asked for stays, with the moment at which it was last asked for. -/
theorem entry?_after_of_asked {id : String} {handle : Handle} {t : Instant} :
    ∀ {mid : History} {r : Registry} {touched : Instant}, r.Sound →
      r.entry? id = some ⟨id, handle, touched⟩ →
      (∀ step ∈ mid, touched ≤ step.1) →
      Chronological (mid ++ [(t, .get id)]) →
      (∀ step ∈ mid, step.2.isStop = false) →
      Closer r.config.retention (touched :: lookUps id
        (mid ++ [(t, .get id)])) →
      Unseen id handle r mid →
      ∃ touched', entry? id (r.after mid) = some ⟨id, handle, touched'⟩ := by
  intro mid
  induction mid with
  | nil => exact fun {r touched} _ he _ _ _ _ _ => ⟨touched, he⟩
  | cons step rest ih =>
      obtain ⟨t₁, op⟩ := step
      intro r touched hr he hpast hchron hstop hcloser hunseen
      obtain ⟨c, hc, -, hsound⟩ := hr.held he
      obtain ⟨hopen, hunseen⟩ := unseen_cons.1 hunseen
      have hsound' := sound_perform hr t₁ op
      have hchron' : Chronological (rest ++ [(t, .get id)]) :=
        (List.pairwise_cons.1 hchron).2
      have hstop' : ∀ step ∈ rest, step.2.isStop = false :=
        fun step hstep => hstop step (List.mem_cons_of_mem _ hstep)
      rw [List.cons_append] at hcloser
      by_cases hop : op.asked? = some id
      · have hget : op = .get id := by
          cases op with
          | get id' =>
              cases hop
              rfl
          | register | purge | stop | merge | look => cases hop
        subst hget
        rw [lookUps_cons_of_asked hop] at hcloser
        have hpast' : ∀ step ∈ rest, t₁ ≤ step.1 := fun step hstep =>
          (List.pairwise_cons.1 hchron).1 step (List.mem_append_left _ hstep)
        refine ih hsound' ?_ hpast' hchron' hstop' ?_ hunseen
        · exact (entry?_get he hc hsound t₁).2 (hopen hop c hc)
        · rw [config_perform]
          exact (List.isChain_cons_cons.1 hcloser).2
      · rw [lookUps_cons_of_ne hop] at hcloser
        have hpast' : ∀ step ∈ rest, touched ≤ step.1 :=
          fun step hstep => hpast step (List.mem_cons_of_mem _ hstep)
        refine ih hsound' ?_ hpast' hchron' hstop' ?_ hunseen
        · refine (entry?_perform hr he hc t₁ (hstop _ List.mem_cons_self)
            hop).resolve_right fun hgone => ?_
          have hsoon := Nat.sub_lt_left_of_lt_add (hpast _ List.mem_cons_self)
            (lt_of_closer hchron hcloser)
          exact Nat.not_le.2 hsoon hgone.untouched
        · rw [config_perform]
          exact hcloser

/-! ## From the registration to the last look-up -/

theorem grows_same_update {r : Registry} {h : Handle}
    {change : Collation → Collation} (hchange : ∀ c, Same c (change c)) :
    Grows Same r.collations (r.update h change).collations := by
  intro i c hc
  rw [update, List.getElem?_modify, hc]
  refine ⟨_, rfl, ?_⟩
  split
  · exact hchange c
  · exact Same.refl c

/-- A handle always leads to the same collation. -/
theorem grows_same_perform (now : Instant) (r : Registry) (op : Operation) :
    Grows Same r.collations (r.perform now op).collations := by
  cases op with
  | register c _ =>
      exact Grows.trans Same.trans (Grows.append Same.refl r.collations [c])
        (kept_make_register now c r).same
  | get id => exact (kept_get now id r).same
  | purge => exact (kept_purge now r).same
  | stop => exact Grows.refl Same.refl _
  | merge h a => exact grows_same_update (Collation.same_merge now a)
  | look h => exact grows_same_update (Collation.same_settle now)

theorem grows_same_after (r : Registry) (h : History) :
    Grows Same r.collations (r.after h).collations := by
  induction h generalizing r with
  | nil => exact Grows.refl Same.refl _
  | cons step rest ih =>
      exact Grows.trans Same.trans (grows_same_perform step.1 r step.2) (ih _)

theorem entry?_of_registered {r : Registry} {t : Instant} {c : Collation}
    {handle : Handle} (h : (r.register t c).2 = .ok handle) :
    entry? c.id (r.register t c).1 = some ⟨c.id, handle, t⟩ ∧
      ∃ c', (r.register t c).1.collations[handle]? = some c' ∧ c.Same c' := by
  rcases register_cases t c r with ⟨fault, -, heq⟩ | ⟨hfree, heq⟩
  · rw [heq] at h
    cases h
  · rw [heq] at h
    cases h
    have hnone := contains_eq_false.1 (size_lt_of_refusal? hfree).2
    obtain ⟨c', hc', hseen⟩ :=
      (kept_withRoom t (r.make c)).collations _ c List.getElem?_concat_length
    rw [heq]
    refine ⟨?_, c', hc', hseen.same⟩
    rw [Registry.entry?, List.find?_append, ← entry?, hnone, Option.none_or,
      List.find?_singleton, if_pos (beq_self_eq_true _)]

/-- Whoever asks for a collation in time, first and ever again, finds it, up to
the first time that it is complete; that look-up takes it out, and nothing is
found any more until the identifier is registered again. Nobody but a stop takes
out a collation that is not complete. -/
theorem held_until_seen_complete (config : RegistryConfig) :
    (∀ (pre mid : History) (t₀ t : Instant) (c : Collation) (sound : c.Sound)
      (handle : Handle),
      let r₀ := after { config } pre
      let r := (r₀.register t₀ c).1.after mid
      (r₀.register t₀ c).2 = .ok handle →
      Chronological (pre ++ (t₀, .register c sound) :: mid ++
        [(t, .get c.id)]) →
      (∀ step ∈ mid, step.2.isStop = false) →
      Closer config.retention (t₀ :: lookUps c.id (mid ++ [(t, .get c.id)])) →
      Unseen c.id handle (r₀.register t₀ c).1 mid →
      ∃ c', r.collation? handle = some c' ∧ c.Same c' ∧
        (r.get t c.id).2 = some handle ∧
        (¬ c'.IsOver t → (r.get t c.id).1.contains c.id = true) ∧
        (c'.IsOver t → (r.get t c.id).1.contains c.id = false ∧
          ∀ later t', Unclaimed c.id (r.get t c.id).1 later →
            (((r.get t c.id).1.after later).get t' c.id).2 = none)) ∧
    (∀ (h : History) (t : Instant) (op : Operation) (id : String) (e : Entry)
      (c : Collation), op.isStop = false →
        entry? id (after { config } h) = some e →
      (after { config } h).collation? e.handle = some c → ¬ c.IsOver t →
      ∃ e', entry? id ((after { config } h).perform t op) = some e' ∧
        e'.handle = e.handle) := by
  refine ⟨?asked, ?kept⟩
  case asked =>
    intro pre mid t₀ t c sound handle r₀ r hregister hchron
      hstop hcloser hunseen
    have hr₀ : r₀.Sound := sound_after (sound_start config) pre
    have hr₁ : (r₀.register t₀ c).1.Sound := sound_register hr₀ t₀ sound
    obtain ⟨hentry, c₁, hc₁, hsame₁⟩ := entry?_of_registered hregister
    rw [List.append_assoc] at hchron
    have hlater := List.pairwise_cons.1 (List.pairwise_append.1 hchron).2.1
    obtain ⟨touched, he⟩ := entry?_after_of_asked hr₁ hentry
      (fun step hstep => hlater.1 step (List.mem_append_left _ hstep))
        hlater.2 hstop
      (by
        rw [(kept_make_register t₀ c r₀).config]
        exact (config_after { config } pre).symm ▸ hcloser) hunseen
    obtain ⟨c', hc', hsame'⟩ :=
      grows_same_after (r₀.register t₀ c).1 mid handle c₁ hc₁
    have hsound' : c'.Sound := (sound_after hr₁ mid).collations handle c' hc'
    obtain ⟨hover, hopen⟩ := entry?_get he hc' hsound' t
    refine ⟨c', hc', hsame₁.trans hsame', (get_of_entry he hc' t).1, fun h =>
      ?_, fun h => ⟨contains_eq_false.2 (hover h), fun later t' hclaim => ?_⟩⟩
    · rw [contains, hopen h]
      rfl
    · rw [get_of_none (entry?_after_of_none (hover h) hclaim)]
  case kept =>
    intro h t op id e c hstop he hc hopen
    have hr : (after { config } h).Sound := sound_after (sound_start config) h
    by_cases hop : op.asked? = some id
    · cases op with
      | get id' =>
          cases hop
          exact ⟨_, (entry?_get he hc (hr.collations _ c hc) t).2 hopen, rfl⟩
      | register | purge | stop | merge | look => cases hop
    · exact ⟨e, (entry?_perform hr he hc t hstop hop).resolve_right
        fun hgone => hopen hgone.due, rfl⟩

/-- Two purges come between the look-ups. The second is what completes the
collation, and it stays for the look-up that follows. -/
theorem held_until_seen_complete_purged :
    let n : Node := ⟨"a", "localhost", 1⟩
    let c := Collation.new 2 "r" .put "/" [n] ⟨20⟩
    let mid : History := [(9, .purge), (10, .get "r"), (23, .purge)]
    let r := Registry.get 24 "r"
      ((register 2 c { config := { retention := ⟨15⟩ } }).1.after mid)
    r.2 = some 0 ∧ r.1.contains "r" = false ∧
      ((r.1.after [(25, .purge)]).get 26 "r").2 = none := by
  intro n c mid r
  obtain ⟨c', hc', -, hfound, -, hgone⟩ :=
    (held_until_seen_complete { retention := ⟨15⟩ }).1 [] mid 2 24 c
      (Collation.sound_new 2 "r" .put "/" [n] ⟨20⟩) 0 rfl
        (by decide) (by decide)
      (by decide) (by decide)
  have hover : c'.IsOver 24 := by
    have hall :
        ∀ c' ∈ ((register 2 c { config := { retention := ⟨15⟩ } }).1.after
        mid).collation? 0, c'.IsOver 24 := by decide
    exact hall c' hc'
  obtain ⟨hfree, hlater⟩ := hgone hover
  refine ⟨hfound, hfree, hlater _ 26 fun pre t c sound post h => ?_⟩
  cases pre with
  | nil => cases h
  | cons step pre => cases pre <;> cases h

end Fanout.Registry
