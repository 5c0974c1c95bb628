import Fanout.Configuration
import Fanout.Proofs.Layering

/-!
# What each source says about a place
-/

namespace Fanout

namespace Settings

/-- The places that the configuration is read from. -/
def places : List (List String) :=
  [["replication", "connect-timeout"], ["replication", "request-timeout"],
    ["replication", "response-timeout"],
    ["replication", "verification-timeout"],
    ["replication", "max-concurrent-requests"],
    ["replication", "worker-pool-size"],
    ["replication", "retention"], ["replication", "sweep-interval"],
    ["node", "scheme"],
    ["cluster", "nodes"], ["logs", "path"], ["logs", "level"],
    ["logs", "console"],
    ["logs", "rotation"]]

end Settings

/-! ## Flags -/

/-- The places that flags speak about. -/
def Flag.places : List (List String × Flag) :=
  [(["cluster", "nodes"], .node),
    (["replication", "request-timeout"], .requestTimeout),
    (["replication", "response-timeout"], .responseTimeout),
    (["logs", "path"], .logDir),
    (["logs", "level"], .logLevel)]

namespace Arguments

/-- What is said of a flag for which a variable can speak. -/
def said (f : Flag) (a : Arguments) : Option Setting :=
  match f with
  | .config => a.config.map .text
  | .node =>
    if a.nodes.isEmpty then none else some (.text (",".intercalate a.nodes))
  | .requestTimeout => a.requestTimeout.map fun n : Nat => .int n
  | .responseTimeout => a.responseTimeout.map fun n : Nat => .int n
  | .logDir => a.logDir.map .text
  | .logLevel => a.logLevel.map .text
  | _ => none

/-- What the flags say about a place. -/
def flag? (names : List String) (a : Arguments) : Option Setting :=
  (valueAt? names Flag.places).bind fun f => a.said f

/-- The places that flags speak about. -/
def flagged : List (List String) := Flag.places.map (·.1)

theorem full_setting (names : List String) :
    (setting names).full = ("replix" :: names).map .name := rfl

theorem setting_injective : Function.Injective setting := fun _ _ h =>
  List.map_injective_iff.2 (fun _ _ => Step.name.inj) (SettingPath.mk.inj h).2

theorem said_isLeaf {f : Flag} {a : Arguments} {value : Setting}
    (h : a.said f = some value) : value.IsLeaf := by
  cases f with
  | node =>
      unfold said at h
      split_ifs at h
      cases h
      trivial
  | config | requestTimeout | responseTimeout | logDir | logLevel =>
      obtain ⟨given, -, rfl⟩ := Option.map_eq_some_iff.1 h
      trivial
  | _ => cases h

theorem flag?_isLeaf {names : List String} {a : Arguments} {value : Setting}
    (h : a.flag? names = some value) : value.IsLeaf := by
  obtain ⟨f, -, hsaid⟩ := Option.bind_eq_some_iff.1 h
  exact said_isLeaf hsaid

theorem flag?_of_not_mem {names : List String} {a : Arguments}
    (h : names ∉ flagged) : a.flag? names = none := by
  have hnone : valueAt? names Flag.places = none := by
    rw [Option.eq_none_iff_forall_not_mem]
    exact fun f hf => h (List.mem_map.2 ⟨_, mem_of_valueAt? hf, rfl⟩)
  rw [flag?, hnone, Option.bind_none]

/-- Flags are laid at just the places that they speak about. -/
theorem placements_eq (a : Arguments) :
    a.placements = flagged.filterMap fun names =>
      (a.flag? names).map (setting names, ·) := by
  have hmap : ∀ l : List (List String),
      (l.filterMap fun names => (a.flag? names).map (setting names, ·)) =
      (l.map fun names => (a.flag? names).map (setting names, ·)).filterMap
        id := by
    intro l
    rw [List.filterMap_map]
    rfl
  rw [hmap, placements]
  refine congrArg (List.filterMap id) ?_
  simp only [flagged, Flag.places, List.map_cons, List.map_nil, List.cons.injEq,
    and_true]
  refine ⟨?_, ?_, ?_, ?_, ?_⟩
  · cases h : a.nodes.isEmpty <;> simp [flag?, Flag.places, valueAt?, said, h]
  · cases h : a.requestTimeout <;> simp [flag?, Flag.places, valueAt?, said, h]
  · cases h : a.responseTimeout <;> simp [flag?, Flag.places, valueAt?, said, h]
  · cases h : a.logDir <;> simp [flag?, Flag.places, valueAt?, said, h]
  · cases h : a.logLevel <;> simp [flag?, Flag.places, valueAt?, said, h]

/-- What is laid at a place is what the flags say about it. -/
theorem valueAt?_placements (a : Arguments) (names : List String) :
    valueAt? (setting names) a.placements.reverse = a.flag? names := by
  have hlist : ∀ l : List (List String),
      valueAt? (setting names) (l.filterMap fun n =>
        (a.flag? n).map (setting n, ·)) = if names ∈
          l then a.flag? names else none := by
    intro l
    induction l with
    | nil => rfl
    | cons n rest ih =>
        cases hflag : a.flag? n with
        | none =>
            rw [List.filterMap_cons_none (by rw [hflag]; rfl), ih]
            grind
        | some value =>
            rw [List.filterMap_cons_some (by rw [hflag]; rfl), valueAt?, ih]
            grind [setting_injective.eq_iff]
  rw [placements_eq, ← List.filterMap_reverse, hlist]
  split
  · rfl
  · next hnot => rw [flag?_of_not_mem fun hmem =>
      hnot (List.mem_reverse.2 hmem)]

/-- A flag lays a value at the place of a reader or beside it. -/
theorem parts_of_placements {a : Arguments} {names : List String}
    (hnames : names ∈ Settings.places) {p : SettingPath × Setting}
    (hp : p ∈ a.placements) : p.2.IsLeaf ∧
      (p.1 = setting names ∨ Parts p.1.full ("replix" :: names)) := by
  rw [placements_eq] at hp
  obtain ⟨n, hn, hvalue⟩ := List.mem_filterMap.1 hp
  obtain ⟨value, hflag, rfl⟩ := Option.map_eq_some_iff.1 hvalue
  refine ⟨flag?_isLeaf hflag, ?_⟩
  have hapart : ∀ n ∈ flagged, ∀ names ∈ Settings.places,
      n = names ∨ ¬ n <+: names ∧ ¬ names <+: n := by decide
  rcases hapart n hn names hnames with rfl | ⟨hnot, hnot'⟩
  · exact Or.inl rfl
  · exact Or.inr (.there (parts_of_incomparable hnot hnot'))

/-! ## Files -/

/-- The settings of the file that a command line names, and none where it names
none. -/
def file? (files : Files) (a : Arguments) : Option Settings :=
  match a.config with
  | none => some []
  | some path => files.settings? path

/-- The settings below the flags. -/
def beneath (file : Settings) (environment : Environment) : Settings :=
  (Settings.laySource [] file).laySource environment.settings

theorem settings_eq (files : Files) (environment : Environment)
    (a : Arguments) :
    a.settings files environment = match a.file? files with
      | some file => .ok ((beneath file environment).layPlaced a.placements)
      | none => .error .settings := by
  unfold settings file?
  cases a.config with
  | none => rfl
  | some path =>
      dsimp only
      cases files.settings? path <;> rfl

/-- Flags come before everything beneath them. -/
theorem find?_layPlaced_placements (a : Arguments) {names : List String}
    (hnames : names ∈ Settings.places) (beneath : Settings) :
    (beneath.layPlaced a.placements).find? ("replix" :: names) =
      (a.flag? names).or (beneath.find? ("replix" :: names)) := by
  rw [Settings.find?_layPlaced (full_setting names)
    (fun p => parts_of_placements hnames), valueAt?_placements]

end Arguments

end Fanout
