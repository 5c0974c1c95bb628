import Fanout.Proofs.Acceptance
import Mathlib.Data.List.Nodup

/-!
# A registry at its limit

A registration that finds no room purges the registry and then looks again.
Whatever it comes to, the purge has been made by then, so a refusal might leave
the registry with less than it held before. It does not when the refusal is for
want of room: no more is ever held than the limit allows, and so a purge that
takes out anything at all has made room. This is why the bound is proved first,
of every history, and the refusals are read off it.

What the purge takes out is said without the purge. An entry has expired if its
collation is over and the later of its stamp and its last touch lies the
retention time back. A collation over whose deadline nobody has looked has no
stamp yet. The purge is the first to look, and stamps it with the moment of the
purge.
-/

namespace Fanout

/-- A collation that is looked at has the stamp it had, or that of the moment if
it is over and has none. -/
theorem Collation.Sound.completedAt_settle_iff {c : Collation} (hc : c.Sound)
    (now s : Instant) :
    (c.settle now).completedAt = some s ↔
      c.IsOver now ∧ c.completedAt.getD now = s := by
  cases hstamp : c.completedAt with
  | some s' =>
      have hcomplete := isComplete_of_completedAt hstamp
      rw [settle_of_isComplete hcomplete, hstamp, Option.some.injEq,
        Option.getD_some]
      exact (and_iff_right (Or.inl (hc.full hcomplete))).symm
  | none =>
      rw [Option.getD_none, ← hc.isComplete_settle now, isComplete]
      cases hsettled : (c.settle now).completedAt with
      | none => simp
      | some s' =>
          have hnow : s' = now :=
            (completedAt_settle hsettled).resolve_left fun h => by
            rw [hstamp] at h
            cases h
          simp [hnow]

namespace Registry

open Collation (Seen)

/-! ## What has expired -/

/-- Whether an entry has expired at a moment: its collation is over, and was
stamped and touched the retention time ago or longer. -/
def HasExpired (now : Instant) (r : Registry) (e : Entry) : Prop :=
  ∃ c ∈ r.collation? e.handle, c.IsOver now ∧
    r.config.retention.nanos ≤ now - max (c.completedAt.getD now) e.touched

instance (now : Instant) (r : Registry) (e : Entry) :
    Decidable (r.HasExpired now e) :=
  Option.decidableExistsMem _

theorem mem_unexpired {r : Registry} (hr : r.Sound) {now : Instant}
    {e : Entry} :
    e ∈ r.unexpired now ↔ e ∈ r.entries ∧ ¬ r.HasExpired now e := by
  rw [unexpired, List.mem_filter]
  refine and_congr_right fun he => ?_
  obtain ⟨c, hc, -⟩ := hr.placed e he
  have hstamp := (hr.collations _ c hc).completedAt_settle_iff now
  have hexpired : isExpired now r.config.retention e (c.settle now) = true ↔
      r.HasExpired now e := by
    rw [isExpired, HasExpired, collation?, hc]
    cases hsettled : (c.settle now).completedAt with
    | none =>
        refine iff_of_false Bool.false_ne_true ?_
        rintro ⟨c', hc', hover, -⟩
        cases hc'
        have hsome := (hstamp _).2 ⟨hover, rfl⟩
        rw [hsettled] at hsome
        cases hsome
    | some s =>
        obtain ⟨hover, rfl⟩ := (hstamp s).1 hsettled
        rw [decide_eq_true_iff]
        refine ⟨fun hle => ⟨c, rfl, hover, hle⟩, ?_⟩
        rintro ⟨c', hc', -, hle⟩
        cases hc'
        exact hle
  rw [collation?, hc, Option.all_some, Bool.not_eq_true', ← Bool.not_eq_true,
    hexpired]

/-- What a registration leaves of what is held: everything while there is room,
and otherwise what has not expired. -/
def survivors (now : Instant) (r : Registry) : List Entry :=
  if r.config.limit ≤ r.size then r.unexpired now else r.entries

theorem survivors_sublist (now : Instant) (r : Registry) :
    (r.survivors now).Sublist r.entries := by
  rw [survivors]
  split
  · exact List.filter_sublist
  · exact List.Sublist.refl _

theorem mem_survivors {r : Registry} (hr : r.Sound) {now : Instant}
    {e : Entry} : e ∈ r.survivors now ↔
      e ∈ r.entries ∧ (r.size = r.config.limit → ¬ r.HasExpired now e) := by
  rw [survivors]
  split
  · next hfull =>
      have hsize := Nat.le_antisymm hr.room hfull
      rw [mem_unexpired hr]
      exact and_congr_right fun _ => ⟨fun h _ => h, fun h => h hsize⟩
  · next hroom =>
      refine (and_iff_left fun hsize => ?_).symm
      exact absurd (Nat.le_of_eq hsize.symm) hroom

theorem entries_withRoom_make {r : Registry} (hr : r.Sound) (new : Collation)
    (now : Instant) :
    ((r.make new).withRoom now).entries = r.survivors now := by
  rw [withRoom, survivors]
  split
  · next hfull =>
      rw [if_pos (show r.config.limit ≤ r.size from hfull)]
      exact entries_purge_make hr new now
  · next hroom =>
      exact (if_neg (show ¬ r.config.limit ≤ r.size from hroom)).symm

/-- There is no room left only if the registry is full and nothing in it has
expired. -/
theorem limit_le_survivors_iff {r : Registry} (hr : r.Sound) {now : Instant} :
    r.config.limit ≤ (r.survivors now).length ↔
      r.size = r.config.limit ∧ ∀ e ∈ r.entries, ¬ r.HasExpired now e := by
  have hsublist := survivors_sublist now r
  constructor
  · intro hle
    have hsize : r.size = r.config.limit :=
      Nat.le_antisymm hr.room (Nat.le_trans hle hsublist.length_le)
    have hall : r.survivors now = r.entries :=
      hsublist.eq_of_length_le (Nat.le_trans hr.room hle)
    refine ⟨hsize, fun e he => ?_⟩
    rw [← hall] at he
    exact ((mem_survivors hr).1 he).2 hsize
  · rintro ⟨hsize, hfresh⟩
    have hall : r.unexpired now = r.entries := List.filter_eq_self.2 fun e he =>
      (List.mem_filter.1 ((mem_unexpired hr).2 ⟨he, hfresh e he⟩)).2
    rw [survivors, if_pos (Nat.le_of_eq hsize.symm), hall]
    exact Nat.le_of_eq hsize.symm

/-! ## Identifiers -/

/-- No two entries are held under one identifier. -/
def Distinct (r : Registry) : Prop :=
  (r.entries.map (·.id)).Nodup

theorem Distinct.of_named {r r' : Registry} (hr : r.Distinct)
    (h : r'.named.Sublist r.named) : r'.Distinct := by
  have hids : ∀ r : Registry, r.named.map (·.1) = r.entries.map (·.id) :=
    fun r => by
    rw [named, List.map_map]
    rfl
  rw [Distinct, ← hids]
  refine List.Nodup.sublist (h.map _) ?_
  rw [hids]
  exact hr

theorem distinct_register {r : Registry} (hr : r.Distinct) (now : Instant)
    (c : Collation) : (r.register now c).1.Distinct := by
  have hroom : ((r.make c).withRoom now).Distinct :=
    (show (r.make c).Distinct from hr).of_named (named_withRoom now (r.make c))
  rcases register_cases now c r with ⟨fault, -, heq⟩ | ⟨hfree, heq⟩
  · rw [heq]
    exact hroom
  · rw [heq, Distinct, List.map_append]
    have hnone :=
      entry?_eq_none.1 (contains_eq_false.1 (size_lt_of_refusal? hfree).2)
    refine List.Nodup.append hroom (List.nodup_singleton _)
      fun id hid hnew => ?_
    obtain ⟨e, he, heid⟩ := List.mem_map.1 hid
    exact hnone e he (heid.trans (List.mem_singleton.1 hnew))

theorem distinct_perform {r : Registry} (hr : r.Distinct) (now : Instant)
    (op : Operation) : (r.perform now op).Distinct := by
  cases op with
  | register c sound => exact distinct_register hr now c
  | get | purge | stop | merge | look =>
      exact hr.of_named (named_perform (fun c sound h => by cases h) now r)

theorem distinct_after {r : Registry} (hr : r.Distinct) (h : History) :
    (r.after h).Distinct := by
  induction h generalizing r with
  | nil => exact hr
  | cons step rest ih => exact ih (distinct_perform hr step.1 step.2)

theorem Distinct.entry?_of_mem {r : Registry} (hr : r.Distinct) {e : Entry}
    (he : e ∈ r.entries) : r.entry? e.id = some e := by
  cases hfound : r.entry? e.id with
  | none => exact absurd rfl (entry?_eq_none.1 hfound e he)
  | some e' =>
      exact congrArg some (List.inj_on_of_nodup_map hr (mem_of_entry hfound) he
        (id_of_entry hfound))

/-! ## What a registration comes to -/

/-- The fault of a registration under an identifier that is held. -/
def inUse (id : String) : Fault :=
  .illegalArgument ("request " ++ id ++ " is already registered")

/-- What a registration comes to: there is no room, or the identifier is in use,
or the collation is held. What is held besides is in each case what the
registration leaves. -/
theorem register_decided {r : Registry} (hr : r.Sound) (now : Instant)
    (c : Collation) : (r.config.limit ≤ (r.survivors now).length ∧
      (r.register now c).2 = .error (.tooManyRequests r.config.limit) ∧
      (r.register now c).1.entries = r.survivors now) ∨
    (r.survivors now).length < r.config.limit ∧
      (((∃ e ∈ r.survivors now, e.id = c.id) ∧
        (r.register now c).2 = .error (inUse c.id) ∧
        (r.register now c).1.entries = r.survivors now) ∨
      ((¬ ∃ e ∈ r.survivors now, e.id = c.id) ∧
        (r.register now c).2 = .ok r.collations.length ∧
        (r.register now c).1.entries =
          r.survivors now ++ [⟨c.id, r.collations.length, now⟩])) := by
  have hentries := entries_withRoom_make hr c now
  have hconfig : ((r.make c).withRoom now).config = r.config :=
    (kept_withRoom now (r.make c)).config
  have hheld : ((r.make c).withRoom now).contains c.id = true ↔
      ∃ e ∈ r.survivors now, e.id = c.id := by
    rw [← Bool.not_eq_false, contains_eq_false, entry?_eq_none, hentries]
    push Not
    rfl
  have hrefusal : ((r.make c).withRoom now).refusal? c.id =
      if r.config.limit ≤ (r.survivors now).length then
        some (.tooManyRequests r.config.limit)
      else if ∃ e ∈ r.survivors now, e.id =
        c.id then some (inUse c.id) else none := by
    rw [refusal?, hconfig, size, hentries]
    simp only [hheld, inUse]
  rw [← Nat.not_le]
  rcases register_cases now c r with ⟨fault, hfault, heq⟩ | ⟨hnofault, heq⟩
  · rw [heq]
    rw [hrefusal] at hfault
    split at hfault
    · next hfull =>
        cases hfault
        exact Or.inl ⟨hfull, rfl, hentries⟩
    · next hroom =>
        split at hfault
        · next huse =>
            cases hfault
            exact Or.inr ⟨hroom, Or.inl ⟨huse, rfl, hentries⟩⟩
        · cases hfault
  · rw [heq]
    rw [hrefusal] at hnofault
    split at hnofault
    · cases hnofault
    · next hroom =>
        split at hnofault
        · cases hnofault
        · next hfree =>
            exact Or.inr ⟨hroom, Or.inr ⟨hfree, rfl, by rw [← hentries]⟩⟩

/-- A collation that a registration leaves is found as before, and has at most
been looked at. -/
theorem entry?_of_survivor {r : Registry} (hr : r.Sound)
    (hdistinct : r.Distinct) {now : Instant} {e : Entry}
    (he : e ∈ r.survivors now) (c : Collation) :
    r.entry? e.id = some e ∧ entry? e.id (r.register now c).1 = some e ∧
      ∃ c₀ c₁, r.collation? e.handle = some c₀ ∧
        (r.register now c).1.collation? e.handle = some c₁ ∧
        c₀.Seen now c₁ := by
  have hold : e ∈ r.entries := (survivors_sublist now r).subset he
  have hkept : e ∈ (r.register now c).1.entries := by
    rcases register_decided hr now c with
      ⟨-, -, heq⟩ | ⟨-, ⟨-, -, heq⟩ | ⟨-, -, heq⟩⟩
    · rw [heq]
      exact he
    · rw [heq]
      exact he
    · rw [heq]
      exact List.mem_append_left _ he
  obtain ⟨c₀, hc₀, -⟩ := hr.placed e hold
  obtain ⟨c₁, hc₁, hseen⟩ := (kept_make_register now c r).collations e.handle c₀
    (getElem?_append_of_some hc₀ _)
  exact ⟨hdistinct.entry?_of_mem hold,
    (distinct_register hdistinct now c).entry?_of_mem hkept,
    c₀, c₁, hc₀, hc₁, hseen⟩

/-- No more is held than the limit allows, whatever was done, and no two
collations under one identifier. A registration is refused for want of room
exactly if as many are held as the limit allows and none of them has expired;
all of them are then still held. Otherwise it is refused exactly if its
identifier is in use by one that is left, and that one stays where it is. If it
is not refused, its collation is held under its identifier, as touched now. What
is left of what was held before is everything, except that the expired go if the
registry was full. -/
theorem held_within_limit (config : RegistryConfig) (h : History) :
    let r := after { config } h
    r.size ≤ config.limit ∧ (r.entries.map (·.id)).Nodup ∧
    ∀ (now : Instant) (c : Collation),
      let r' := (r.register now c).1
      let result := (r.register now c).2
      let noRoom : Except Fault Handle := .error (.tooManyRequests config.limit)
      (∀ e, e ∈ r.survivors now ↔
        e ∈ r.entries ∧ (r.size = config.limit → ¬ r.HasExpired now e)) ∧
      (result = noRoom ↔ r.size = config.limit ∧
        ∀ e ∈ r.entries, ¬ r.HasExpired now e) ∧
      (result = noRoom → r'.entries = r.entries) ∧
      (result ≠ noRoom →
        (result = .error (inUse c.id) ↔ ∃ e ∈ r.survivors now, e.id = c.id)) ∧
      (result = .error (inUse c.id) → r'.entries = r.survivors now ∧
        ∃ e, r.entry? c.id = some e ∧ r'.entry? c.id = some e ∧
          ∃ c₀ c₁, r.collation? e.handle = some c₀ ∧
            r'.collation? e.handle = some c₁ ∧ c₀.Seen now c₁) ∧
      (result ≠ noRoom → result ≠ .error (inUse c.id) →
        ∃ handle c', result = .ok handle ∧
          r'.entries = r.survivors now ++ [⟨c.id, handle, now⟩] ∧
          r'.collation? handle = some c' ∧ c.Seen now c') := by
  intro r
  have hr : r.Sound := sound_after (sound_start config) h
  have hdistinct : r.Distinct :=
    distinct_after (show Distinct { config } from List.nodup_nil) h
  have hconfig : r.config = config := config_after { config } h
  have hroom := hr.room
  rw [hconfig] at hroom
  refine ⟨hroom, hdistinct, fun now c => ?_⟩
  intro r' result noRoom
  have hleft : ∀ e, e ∈ r.survivors now ↔
      e ∈ r.entries ∧ (r.size = config.limit → ¬ r.HasExpired now e) :=
        fun e => by
    rw [mem_survivors hr, hconfig]
  have hfull : r.config.limit ≤ (r.survivors now).length ↔
      r.size = r.config.limit ∧ ∀ e ∈ r.entries, ¬ r.HasExpired now e :=
    limit_le_survivors_iff hr
  rw [hconfig] at hfull
  have hne : noRoom ≠ .error (inUse c.id) := fun h => by
    rw [Except.error.injEq] at h
    cases h
  have hdecided := register_decided hr now c
  rw [hconfig] at hdecided
  refine ⟨hleft, ?_⟩
  rcases hdecided with
    ⟨hle, hresult, hentries⟩ | ⟨hlt, ⟨huse, hresult, hentries⟩ |
      ⟨hfree, hresult, hentries⟩⟩
  · have hall : r.survivors now = r.entries :=
      (survivors_sublist now r).eq_of_length_le (Nat.le_trans hroom hle)
    refine ⟨iff_of_true hresult (hfull.1 hle), fun _ => hentries.trans hall,
      fun h => absurd hresult h, fun h => absurd (hresult.symm.trans h) hne,
      fun h => absurd hresult h⟩
  · have hnot : result ≠ noRoom := fun h => hne (h.symm.trans hresult)
    refine ⟨iff_of_false hnot fun h => Nat.not_le.2 hlt (hfull.2 h), fun h =>
      absurd h hnot, fun _ => iff_of_true hresult huse, fun _ => ⟨hentries, ?_⟩,
      fun _ h => absurd hresult h⟩
    obtain ⟨e, he, hid⟩ := huse
    rw [← hid]
    exact ⟨e, entry?_of_survivor hr hdistinct he c⟩
  · have hok : ∀ fault, result ≠ .error fault := fun fault h => by
      cases hresult.symm.trans h
    refine ⟨iff_of_false (hok _) fun h => Nat.not_le.2 hlt (hfull.2 h),
      fun h => absurd h (hok _), fun _ => iff_of_false (hok _) hfree, fun h =>
        absurd h (hok _),
      fun _ _ => ?_⟩
    obtain ⟨c', hc', hseen⟩ := collation_of_register (Prod.ext rfl hresult)
    exact ⟨_, c', hresult, hentries, hc', hseen⟩

/-- The only place is taken, under the identifier that is registered again. The
collation there was answered long ago and nobody has asked for it, so it has
expired and makes room. A third registration, a moment later, finds none. -/
theorem held_within_limit_again :
    let n : Node := ⟨"a", "localhost", 1⟩
    let c := Collation.new 0 "r" .put "/" [n] ⟨20⟩
    let c' := Collation.new 9 "r" .put "/" [n] ⟨20⟩
    let config : RegistryConfig := { limit := 1, retention := ⟨5⟩ }
    let h : History :=
      [(0, .register c (Collation.sound_new 0 "r" .put "/" [n] ⟨20⟩)),
        (4, .merge 0 (.ofReply n { status := 200 } ⟨4⟩))]
    let h' : History :=
      h ++ [(9, .register c' (Collation.sound_new 9 "r" .put "/" [n] ⟨20⟩))]
    ((after { config } h).register 9 c').1.entries = [⟨"r", 1, 9⟩] ∧
      ((after { config } h').register 10 c').2 = .error (.tooManyRequests 1) ∧
      ((after { config } h').register 10 c').1.entries = [⟨"r", 1, 9⟩] := by
  intro n c c' config h h'
  obtain ⟨-, -, -, -, -, hheld⟩ := (held_within_limit config h).2.2 9 c'
  obtain ⟨-, hfull, hunchanged, -⟩ := (held_within_limit config h').2.2 10 c'
  obtain ⟨handle, -, hok, hentries, -⟩ := hheld (by decide) (by decide)
  obtain rfl : 1 = handle := by
    cases hok
    rfl
  have hrefused := hfull.2 (by decide)
  exact ⟨hentries, hrefused, hunchanged hrefused⟩

end Registry

end Fanout
