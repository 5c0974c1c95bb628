import Fanout.CommandLine.Invocation
import Fanout.Proofs.Heading
import Mathlib.Data.List.Basic

/-!
# What is found under settings that are laid over each other

Laying a value at a path changes what is found there and nothing beside it. The
paths that matter here consist of names, and two of them are beside each other
if they part at a name: then neither leads to the other, and the tables on the
way to one are the tables on the way to the other. A path that goes on with a
position is not beside anything, as it makes a list of the value that it is
asked of.

A path leads from a table, and the name it begins with is a step like every
other. So everything is proved of steps (`update`), and paths inherit it. Then
layers are folded: of the values laid at one path the last is found, and where
none was laid, what was there before.

The last section is about tables that are laid over nothing. Such a table is
itself again if each of its tables is in order, which is how tables are kept.
-/

namespace Fanout

/-- Steps that part from a path of names at one of its names. -/
inductive Parts : List Step → List String → Prop
  | here {s t : String} {steps : List Step} {names : List String} (h : s ≠ t) :
    Parts (.name s :: steps) (t :: names)
  | there {s : String} {steps : List Step} {names : List String}
    (h : Parts steps names) : Parts (.name s :: steps) (s :: names)

theorem Parts.ne_nil {steps : List Step} {names : List String}
    (h : Parts steps names) : names ≠ [] := by
  cases h <;> exact List.cons_ne_nil _ _

/-- Two paths of names part unless one of them goes on from the other. -/
theorem parts_of_incomparable {names names' : List String}
    (h : ¬ names <+: names') (h' : ¬ names' <+: names) :
    Parts (names.map .name) names' := by
  induction names generalizing names' with
  | nil => exact absurd List.nil_prefix h
  | cons s names ih =>
      cases names' with
      | nil => exact absurd List.nil_prefix h'
      | cons t names' =>
          by_cases hst : s = t
          · subst hst
            rw [List.cons_prefix_cons] at h h'
            exact .there (ih (fun hp => h ⟨rfl, hp⟩) fun hp => h' ⟨rfl, hp⟩)
          · exact .here hst

namespace Setting

/-- A value with nothing below it. -/
def IsLeaf : Setting → Prop
  | table _ => False
  | _ => True

theorem overlay_of_isLeaf {s : Setting} (h : s.IsLeaf)
    (held : Setting) : held.overlay s = s := by
  cases s with
  | table entries => exact h.elim
  | _ => rfl

@[simp] theorem find?_nil (s : Setting) : s.find? [] = some s := rfl

theorem find?_cons (name : String) (rest : List String) (s : Setting) :
    s.find? (name :: rest) = (valueAt? name s.entries).bind (find? rest) := by
  cases s <;> rfl

theorem find?_of_empty {names : List String} (h : names ≠ []) :
    nil.find? names = none := by
  cases names with
  | nil => exact absurd rfl h
  | cons name rest => rfl

theorem find?_getD_of_empty (names : List String) :
    (nil.find? names).getD nil = nil := by
  cases names <;> rfl

/-- The value at a path of names is the one that was changed. -/
theorem find?_update_self (change : Setting → Setting) (names : List String)
    (held : Setting) : (held.update change (names.map .name)).find? names =
      some (change ((held.find? names).getD nil)) := by
  induction names generalizing held with
  | nil => rfl
  | cons name rest ih =>
      rw [List.map_cons, update, find?_cons, find?_cons, entries,
        valueAt?_putAscending, if_pos (beq_self_eq_true name),
        Option.bind_some, ih]
      cases valueAt? name held.entries with
      | none => rw [Option.getD_none, find?_getD_of_empty, Option.bind_none,
          Option.getD_none]
      | some value => rfl

/-- Nothing changes at a path of names from which the steps part. -/
theorem find?_update_of_parts {steps : List Step} {names : List String}
    (h : Parts steps names) (change : Setting → Setting) (held : Setting) :
    (held.update change steps).find? names = held.find? names := by
  induction h generalizing held with
  | here hne =>
      rw [update, find?_cons, find?_cons, entries, valueAt?_putAscending,
        if_neg (by simpa using hne)]
  | @there s steps names hparts ih =>
      rw [update, find?_cons, find?_cons, entries, valueAt?_putAscending,
        if_pos (beq_self_eq_true s), Option.bind_some, ih]
      cases valueAt? s held.entries with
      | none => rw [Option.getD_none, find?_of_empty hparts.ne_nil,
          Option.bind_none]
      | some value => rfl

end Setting

namespace SettingPath

/-- The steps of a path from the top. -/
def full (path : SettingPath) : List Step := .name path.root :: path.steps

theorem full_injective : Function.Injective full := by
  intro p q h
  obtain ⟨hroot, hsteps⟩ := List.cons.inj h
  cases p
  cases q
  rw [mk.injEq]
  exact ⟨Step.name.inj hroot, hsteps⟩

end SettingPath

namespace Settings

theorem table_put (path : SettingPath) (value : Setting) (settings : Settings) :
    Setting.table (put path value settings) =
      (Setting.table settings).update (·.overlay value) path.full := rfl

variable {path : SettingPath} {names : List String}

theorem find?_put_self (h : path.full = names.map .name) {value : Setting}
    (hleaf : value.IsLeaf) (settings : Settings) :
    (settings.put path value).find? names = some value := by
  rw [find?, table_put, h, Setting.find?_update_self,
    Setting.overlay_of_isLeaf hleaf]

theorem find?_put_of_parts (h : Parts path.full names) (value : Setting)
    (settings : Settings) :
    (settings.put path value).find? names = settings.find? names := by
  rw [find?, table_put, Setting.find?_update_of_parts h, find?]

/-- Of values that are laid at a path or beside it, the last one laid there is
found. -/
theorem find?_layPlaced (h : path.full = names.map .name) {placed : Placements}
    (hplaced : ∀ p ∈ placed, p.2.IsLeaf ∧ (p.1 = path ∨ Parts p.1.full names))
    (settings : Settings) :
    (settings.layPlaced placed).find? names =
      (valueAt? path placed.reverse).or (settings.find? names) := by
  induction placed using List.reverseRecOn with
  | nil => rfl
  | append_singleton placed p ih =>
      have hput : settings.layPlaced (placed ++ [p]) =
          (settings.layPlaced placed).put p.1 p.2 := by
        rw [layPlaced, List.foldl_append]
        rfl
      have ih := ih fun q hq => hplaced q (List.mem_append_left _ hq)
      obtain ⟨hleaf, hp⟩ :=
        hplaced p (List.mem_append_right _ (List.mem_singleton_self p))
      rw [hput, List.reverse_append, List.reverse_singleton,
        List.singleton_append, valueAt?]
      by_cases hsame : p.1 = path
      · rw [if_pos (beq_iff_eq.2 hsame), find?_put_self (hsame ▸ h) hleaf,
          Option.some_or]
      · rw [if_neg (by simpa using hsame),
          find?_put_of_parts (hp.resolve_left hsame), ih]

/-- A source is laid at the paths that its names stand for. -/
theorem laySource_eq (settings source : Settings) :
    settings.laySource source =
      settings.layPlaced (source.map fun e =>
        (SettingPath.ofName e.1, e.2)) := by
  rw [laySource, layPlaced, List.foldl_map]

end Settings

/-! ## Tables over nothing -/

section

variable {α β : Type} [Ord α]

/-- An entry that comes after all others is put at the end. -/
theorem putAscending_of_forall_lt [Std.TransOrd α] {held : List (α × β)}
    {key : α} (h : ∀ e ∈ held, compare e.1 key = .lt) (value : β) :
    putAscending key value held = held ++ [(key, value)] := by
  induction held with
  | nil => rfl
  | cons entry rest ih =>
      have hgt : compare key entry.1 = .gt :=
        Std.OrientedCmp.gt_of_lt (h entry List.mem_cons_self)
      rw [putAscending, hgt]
      exact congrArg (entry :: ·) (ih fun e he =>
        h e (List.mem_cons_of_mem _ he))

theorem valueAt?_of_forall_lt [Std.LawfulEqOrd α] [BEq α] [LawfulBEq α]
    {held : List (α × β)} {key : α}
    (h : ∀ e ∈ held, compare e.1 key = .lt) : valueAt? key held = none := by
  induction held with
  | nil => rfl
  | cons entry rest ih =>
      have hne : entry.1 ≠ key := by
        intro heq
        have hlt := h entry List.mem_cons_self
        rw [heq, Std.ReflOrd.compare_self] at hlt
        cases hlt
      rw [valueAt?, if_neg (by simpa using hne)]
      exact ih fun e he => h e (List.mem_cons_of_mem _ he)

end

namespace Setting

mutual

/-- Whether every table in a value has its names in order. -/
def Ordered : Setting → Prop
  | table entries => IsAscending (entries.map (·.1)) ∧ OrderedEach entries
  | _ => True

def OrderedEach : Settings → Prop
  | [] => True
  | (_, value) :: rest => value.Ordered ∧ OrderedEach rest

end

mutual

/-- A value in order that is laid over nothing is itself. -/
theorem overlay_nil : ∀ {s : Setting}, s.Ordered → nil.overlay s = s
  | table entries, h => by
      rw [overlay]
      exact congrArg table (overlayEach_append h.1 h.2)
  | nil, _ | bool _, _ | int _, _ | real _, _ | text _, _ | list, _ => rfl

/-- Entries in order that come after those which are held are added to them. -/
theorem overlayEach_append : ∀ {held rest : Settings},
    IsAscending ((held ++ rest).map (·.1)) → OrderedEach rest →
      overlayEach held rest = held ++ rest
  | held, [], _, _ => by rw [overlayEach, List.append_nil]
  | held, (name, value) :: rest, hascending, hrest => by
      have hlt : ∀ e ∈ held, compare e.1 name = .lt := by
        intro e he
        rw [IsAscending, List.map_append, List.pairwise_append] at hascending
        exact hascending.2.2 e.1 (List.mem_map_of_mem he) name
          (List.mem_map_of_mem (List.mem_cons_self (a := (name, value))))
      rw [overlayEach, valueAt?_of_forall_lt hlt, Option.getD_none,
        overlay_nil hrest.1, putAscending_of_forall_lt hlt,
        overlayEach_append ?_ hrest.2]
      · rw [List.append_assoc, List.singleton_append]
      · rwa [List.append_assoc, List.singleton_append]

end

end Setting

namespace Settings

/-- A table of tables: every name at its top stands for itself, and all names
are in order. -/
structure IsNested (settings : Settings) : Prop where
  plain : ∀ e ∈ settings, SettingPath.ofName e.1 = .single e.1
  ordered : (Setting.table settings).Ordered

theorem laySource_of_plain {source : Settings}
    (h : ∀ e ∈ source, SettingPath.ofName e.1 = .single e.1) (held : Settings) :
    held.laySource source = Setting.overlayEach held source := by
  induction source generalizing held with
  | nil => rw [Setting.overlayEach, laySource, List.foldl_nil]
  | cons entry rest ih =>
      obtain ⟨name, value⟩ := entry
      have hname : SettingPath.ofName name = .single name :=
        h _ List.mem_cons_self
      rw [Setting.overlayEach, ← ih fun e he =>
        h e (List.mem_cons_of_mem _ he), laySource,
        List.foldl_cons, hname, laySource]
      rfl

/-- A nested table that is laid over nothing is itself. -/
theorem IsNested.laySource_eq {source : Settings} (h : source.IsNested) :
    laySource [] source = source := by
  rw [laySource_of_plain h.plain, Setting.overlayEach_append ?_ h.ordered.2,
    List.nil_append]
  exact h.ordered.1

end Settings

end Fanout
