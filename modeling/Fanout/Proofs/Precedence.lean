import Fanout.Proofs.Fallback
import Mathlib.Data.List.TakeDrop

/-!
# Which source a value comes from

Each reader of the configuration has a place, and three sources can speak about
it: flags with the variables that stand in for them, the variables of settings,
and the file. The highest source that speaks is the only one that counts,
whether the reader understands what it says or not.

That needs the sources not to get in each other's way. Flags speak about places
of readers only, and no such place leads to another one. A file is one tree,
whatever is in it. Variables are the trouble, since anyone can name one: a key
that leads to the place of a reader, or goes on behind it, takes away what is
there, and so does one that asks a table on the way for a position, which turns
the table into a list. `Clear` rules out these three, and it is enough: such a
key is the place itself, or it parts from the way to it (`Clear.eq_or_parts`).

Keys are texts and places are names. A key is read back as the names it was made
of, and no other text is (`ofName_key`, `eq_key_of_ofName`), so that variables
can be looked up by their keys.
-/

namespace Fanout

/-! ## Keys -/

/-- The key of a place: its names, with points between them. -/
def Settings.key (names : List String) : String :=
  String.ofList ("replix".toList ++ names.flatMap fun n => '.' :: n.toList)

theorem Settings.toList_key (names : List String) :
    (key names).toList = "replix".toList ++ names.flatMap fun n =>
      '.' :: n.toList :=
  String.toList_ofList

namespace SettingPath

/-- What steps are read from: nothing, a name behind a point, or a position. -/
theorem readSteps_cases {fuel : Nat} {cs : List Char} {steps : List Step}
    (h : readSteps fuel cs = some steps) :
    (cs = [] ∧ steps = []) ∨
    (∃ fuel' name after rest, cs = '.' :: (name ++ after) ∧
      steps = .name (String.ofList name) :: rest ∧
      readSteps fuel' after = some rest) ∨
    ∃ rest, steps = .position :: rest := by
  unfold readSteps at h
  split at h
  · cases h
    exact Or.inl ⟨rfl, rfl⟩
  · cases h
  · split at h
    · cases h
    · next name after _ hspan =>
        obtain ⟨rest, hafter, rfl⟩ := Option.map_eq_some_iff.1 h
        rw [List.span_eq_takeWhile_dropWhile, Prod.mk.injEq] at hspan
        refine Or.inr (Or.inl ⟨_, name, after, rest, ?_, rfl, hafter⟩)
        rw [← hspan.1, ← hspan.2, List.takeWhile_append_dropWhile]
  · split at h
    · split_ifs at h
      obtain ⟨rest, -, rfl⟩ := Option.map_eq_some_iff.1 h
      exact Or.inr (Or.inr ⟨rest, rfl⟩)
    · cases h
  · cases h

/-- Steps that are all names have been read from these names, each behind a
point. -/
theorem readSteps_names {fuel : Nat} {cs : List Char} {names : List String}
    (h : readSteps fuel cs = some (names.map .name)) :
    cs = names.flatMap fun n => '.' :: n.toList := by
  induction names generalizing fuel cs with
  | nil =>
      rcases readSteps_cases h with ⟨rfl, -⟩ | ⟨_, _, _, _, -, hsteps, -⟩ |
        ⟨_, hsteps⟩
      · rfl
      · cases hsteps
      · cases hsteps
  | cons n names ih =>
      rcases readSteps_cases h with ⟨-, hsteps⟩ |
        ⟨_, name, after, rest, rfl, hsteps, hafter⟩ | ⟨_, hsteps⟩
      · cases hsteps
      · rw [List.map_cons, List.cons.injEq, Step.name.injEq] at hsteps
        obtain ⟨rfl, rfl⟩ := hsteps
        rw [List.flatMap_cons, ← ih hafter, String.toList_ofList,
          List.cons_append]
      · cases hsteps

open Arguments in
/-- One text alone stands for a place. -/
theorem eq_key_of_ofName {text : String} {names : List String}
    (hnames : names ≠ []) (h : ofName text = setting names) :
    text = Settings.key names := by
  unfold ofName at h
  cases htext : ofText? text with
  | none =>
      rw [htext] at h
      exact absurd (List.map_eq_nil_iff.1 (SettingPath.mk.inj h).2.symm) hnames
  | some path =>
      rw [htext] at h
      change path = _ at h
      subst h
      unfold ofText? at htext
      split at htext
      · cases htext
      · next name after _ hspan =>
          obtain ⟨steps, hafter, hpath⟩ := Option.map_eq_some_iff.1 htext
          have hroot : String.ofList name = "replix" :=
            congrArg SettingPath.root hpath
          have hsteps : steps = names.map .name :=
            congrArg SettingPath.steps hpath
          subst hsteps
          rw [List.span_eq_takeWhile_dropWhile, Prod.mk.injEq] at hspan
          have hname : name = "replix".toList := by
            rw [← hroot, String.toList_ofList]
          have htext : text.toList = "replix".toList ++ names.flatMap fun n =>
              '.' :: n.toList := by
            rw [← readSteps_names hafter, ← hname, ← hspan.1, ← hspan.2,
              List.takeWhile_append_dropWhile]
          exact String.toList_inj.1
            (htext.trans (Settings.toList_key names).symm)

/-- A name ends where the next one begins, or with the text. -/
theorem span_append_names {cs : List Char}
    (hchars : ∀ c ∈ cs, isNameChar c = true)
    (names : List String) :
      (cs ++ names.flatMap fun n => '.' :: n.toList).span isNameChar =
      (cs, names.flatMap fun n => '.' :: n.toList) := by
  rw [List.span_eq_takeWhile_dropWhile, List.takeWhile_append_of_pos hchars,
    List.dropWhile_append_of_pos hchars]
  cases names with
  | nil => simp
  | cons n names => simp [isNameChar]

/-- Names of the characters that a path takes are read back from the text behind
them. -/
theorem readSteps_flatMap {names : List String}
    (h : ∀ n ∈ names, n.toList ≠ [] ∧ ∀ c ∈ n.toList, isNameChar c = true)
    {fuel : Nat}
    (hfuel : (names.flatMap fun n => '.' :: n.toList).length ≤ fuel) :
    readSteps fuel (names.flatMap fun n => '.' :: n.toList) =
      some (names.map .name) := by
  induction names generalizing fuel with
  | nil => cases fuel <;> rfl
  | cons n names ih =>
      obtain ⟨hne, hchars⟩ := h n List.mem_cons_self
      cases fuel with
      | zero => simp at hfuel
      | succ fuel =>
          rw [List.flatMap_cons, List.length_append, List.length_cons] at hfuel
          have hrest : readSteps fuel (names.flatMap fun n => '.' :: n.toList) =
              some (names.map .name) :=
            ih (fun m hm => h m (List.mem_cons_of_mem n hm)) (by omega)
          rw [List.flatMap_cons, List.cons_append, readSteps,
            span_append_names hchars]
          split
          · next heq => exact absurd (Prod.mk.inj heq).1 hne
          · next heq =>
              obtain ⟨rfl, rfl⟩ := Prod.mk.inj heq
              rw [hrest, Option.map_some, String.ofList_toList, List.map_cons]

open Arguments in
/-- The key of a place stands for it. -/
theorem ofName_key {names : List String}
    (h : ∀ n ∈ names, n.toList ≠ [] ∧ ∀ c ∈ n.toList, isNameChar c = true) :
    ofName (Settings.key names) = setting names := by
  have hfirst : ∀ c ∈ "replix".toList, isNameChar c = true :=
    List.all_eq_true.1 (by decide)
  have hread : ofText? (Settings.key names) = some (setting names) := by
    rw [ofText?, Settings.toList_key, span_append_names hfirst]
    split
    · next heq => exact absurd (Prod.mk.inj heq).1 (by decide)
    · next heq =>
        obtain ⟨rfl, rfl⟩ := Prod.mk.inj heq
        rw [readSteps_flatMap h (Nat.le_refl _), Option.map_some,
          String.ofList_toList]
        rfl
  rw [ofName, hread, Option.getD_some]

open Arguments in
theorem ofName_key_of_mem {names : List String}
    (hnames : names ∈ Settings.places) :
    ofName (Settings.key names) = setting names := by
  have hall : ∀ names ∈ Settings.places, ∀ n ∈ names,
      n.toList ≠ [] ∧ n.toList.all isNameChar = true := by decide +kernel
  exact ofName_key fun n hn =>
    (hall names hnames n hn).imp_right List.all_eq_true.1

end SettingPath

/-! ## Variables -/

/-- A path that leaves the place of a reader alone, or is that place. It neither
leads to the place nor goes on behind it, and it asks none of the tables on the
way for a position. -/
structure Clear (steps : List Step) (names : List String) : Prop where
  not_above : steps <+: names.map .name → steps = names.map .name
  not_below : names.map .name <+: steps → steps = names.map .name
  not_listed : ∀ front, front <+: names →
    ¬ front.map .name ++ [.position] <+: steps

theorem Clear.eq_or_parts {steps : List Step} {names : List String}
    (h : Clear steps names) : steps = names.map .name ∨ Parts steps names := by
  induction names generalizing steps with
  | nil => exact Or.inl (h.not_below List.nil_prefix)
  | cons n names ih =>
      cases steps with
      | nil => exact Or.inl (h.not_above List.nil_prefix)
      | cons step steps =>
          cases step with
          | position =>
              exact absurd (List.prefix_append [Step.position] steps)
                (h.not_listed [] List.nil_prefix)
          | name s =>
              by_cases hs : s = n
              · subst hs
                have hrest : Clear steps names := by
                  refine ⟨fun hp => ?_, fun hp => ?_, fun front hfront hp => ?_⟩
                  · exact (List.cons.inj
                      (h.not_above (List.cons_prefix_cons.2 ⟨rfl, hp⟩))).2
                  · exact (List.cons.inj
                      (h.not_below (List.cons_prefix_cons.2 ⟨rfl, hp⟩))).2
                  · exact h.not_listed (s :: front)
                      (List.cons_prefix_cons.2 ⟨rfl, hfront⟩)
                      (List.cons_prefix_cons.2 ⟨rfl, hp⟩)
                rcases ih hrest with hsteps | hparts
                · exact Or.inl (congrArg _ hsteps)
                · exact Or.inr (.there hparts)
              · exact Or.inr (.here hs)

/-- A path that parts from a place leaves it alone. -/
theorem Parts.clear {steps : List Step} {names : List String}
    (h : Parts steps names) : Clear steps names := by
  induction h with
  | @here s t steps names hne =>
      have hst : (Step.name s) ≠ .name t := fun hst => hne (Step.name.inj hst)
      refine ⟨fun hp => ?_, fun hp => ?_, fun front hfront hp => ?_⟩
      · exact absurd (List.cons_prefix_cons.1 hp).1 hst
      · exact absurd (List.cons_prefix_cons.1 hp).1.symm hst
      · cases front with
        | nil => cases (List.cons_prefix_cons.1 hp).1
        | cons u front =>
            obtain ⟨rfl, -⟩ := List.cons_prefix_cons.1 hfront
            exact absurd (List.cons_prefix_cons.1 hp).1.symm hst
  | @there s steps names _ ih =>
      refine ⟨fun hp => ?_, fun hp => ?_, fun front hfront hp => ?_⟩
      · exact congrArg _ (ih.not_above (List.cons_prefix_cons.1 hp).2)
      · exact congrArg _ (ih.not_below (List.cons_prefix_cons.1 hp).2)
      · cases front with
        | nil => cases (List.cons_prefix_cons.1 hp).1
        | cons u front =>
            exact ih.not_listed front (List.cons_prefix_cons.1 hfront).2
              (List.cons_prefix_cons.1 hp).2

theorem clear_self (names : List String) : Clear (names.map .name) names where
  not_above _ := rfl
  not_below _ := rfl
  not_listed front _ hp := by
    obtain ⟨s, -, hs⟩ :=
      List.mem_map.1 (hp.subset (List.mem_append_right _ List.mem_cons_self))
    cases hs

theorem valueAt?_foldl_putAscending {α β : Type} [Ord α] [Std.LawfulEqOrd α]
    [BEq α] [LawfulBEq α] (entries held : List (α × β)) (key : α) :
    valueAt? key
      (entries.foldl (fun held e => putAscending e.1 e.2 held) held) =
      (valueAt? key entries.reverse).or (valueAt? key held) := by
  induction entries using List.reverseRecOn with
  | nil => rfl
  | append_singleton entries e ih =>
      rw [List.foldl_append, List.foldl_cons, List.foldl_nil,
        valueAt?_putAscending, ih, List.reverse_append, List.reverse_singleton,
        List.singleton_append, valueAt?]
      split
      · rfl
      · rfl

/-- In a table that is put in order the last value of a key is found. -/
theorem valueAt?_ascendingBy {α β : Type} [Ord α] [Std.LawfulEqOrd α] [BEq α]
    [LawfulBEq α] (entries : List (α × β)) (key : α) :
    valueAt? key (ascendingBy entries) = valueAt? key entries.reverse := by
  rw [ascendingBy, valueAt?_foldl_putAscending, valueAt?, Option.or_none]

namespace Environment

theorem value_isLeaf (text : String) : (value text).IsLeaf := by
  unfold value
  dsimp only
  split_ifs
  · trivial
  · trivial
  · cases hint : readInt? text.toList with
    | some n => trivial
    | none => cases hreal : readBinary64? text.toList <;> trivial

/-- The values that variables give, with their keys. -/
def keyed (environment : Environment) : List (String × Setting) :=
  environment.filterMap fun v => (place? v.1).map (·, value v.2)

/-- What the variables say about a place; the last one that speaks about it
counts. -/
def setting? (names : List String)
    (environment : Environment) : Option Setting :=
  (environment.reverse.find? fun v => place? v.1 ==
    some (Settings.key names)).map fun v => value v.2

theorem valueAt?_keyed (key : String) (environment : Environment) :
    valueAt? key environment.keyed =
      (environment.find? fun v => place? v.1 == some key).map fun v =>
        value v.2 := by
  induction environment with
  | nil => rfl
  | cons v rest ih =>
      cases hplace : place? v.1 with
      | none =>
          rw [keyed, List.filterMap_cons_none (by rw [hplace]; rfl),
            List.find?_cons_of_neg (by simp [hplace])]
          exact ih
      | some place =>
          rw [keyed, List.filterMap_cons_some (by rw [hplace]; rfl), valueAt?]
          by_cases hkey : place = key
          · rw [if_pos (beq_iff_eq.2 hkey),
              List.find?_cons_of_pos (by simp [hplace, hkey])]
            rfl
          · rw [if_neg (by simpa using hkey),
              List.find?_cons_of_neg (by simp [hplace, hkey])]
            exact ih

theorem valueAt?_settings (names : List String) (environment : Environment) :
    valueAt? (Settings.key names) environment.settings =
      environment.setting? names := by
  rw [settings, valueAt?_ascendingBy, ← List.filterMap_reverse]
  exact valueAt?_keyed _ environment.reverse

theorem mem_settings {environment : Environment} {e : String × Setting}
    (h : e ∈ environment.settings) :
    e.2.IsLeaf ∧ ∃ v ∈ environment, place? v.1 = some e.1 := by
  have hnodup := (isAscending_ascendingBy environment.keyed).nodup
  have hvalue : valueAt? e.1 (ascendingBy environment.keyed) = some e.2 :=
    (mem_iff_valueAt? hnodup).1 h
  rw [valueAt?_ascendingBy] at hvalue
  obtain ⟨v, hv, hplace⟩ :=
    List.mem_filterMap.1 (List.mem_reverse.1 (mem_of_valueAt? hvalue))
  obtain ⟨key, hkey, he⟩ := Option.map_eq_some_iff.1 hplace
  obtain ⟨hkey', hvalue'⟩ := Prod.mk.inj he
  exact ⟨hvalue' ▸ value_isLeaf v.2, v, hv, hkey' ▸ hkey⟩

/-- Variables whose keys leave the places of the readers alone, as far as they
are not these places. -/
def IsClear (environment : Environment) : Prop :=
  ∀ v ∈ environment, ∀ key, place? v.1 = some key → ∀ names ∈ Settings.places,
    Clear (SettingPath.ofName key).full ("replix" :: names)

end Environment

namespace Settings

/-- At the place of a reader, variables come before everything beneath them. -/
theorem find?_laySource_variables {environment : Environment}
    (hclear : environment.IsClear) {names : List String}
    (hnames : names ∈ places) (beneath : Settings) :
    (beneath.laySource environment.settings).find? ("replix" :: names) =
      (environment.setting? names).or (beneath.find? ("replix" :: names)) := by
  have hne : names ≠ [] := by
    rintro rfl
    exact absurd hnames (by decide)
  have hsame : ∀ key, SettingPath.ofName key = Arguments.setting names ↔
      key = Settings.key names :=
    fun key => ⟨SettingPath.eq_key_of_ofName hne,
      fun h => h ▸ SettingPath.ofName_key_of_mem hnames⟩
  have hvalue : ∀ entries : List (String × Setting),
      valueAt? (Arguments.setting names)
          (entries.map fun e => (SettingPath.ofName e.1, e.2)) =
        valueAt? (key names) entries := by
    intro entries
    induction entries with
    | nil => rfl
    | cons e rest ih => simp only [List.map_cons, valueAt?, ih, beq_iff_eq,
        hsame]
  rw [laySource_eq, find?_layPlaced (Arguments.full_setting names),
    ← List.map_reverse, hvalue, valueAt?_perm environment.settings.reverse_perm,
    Environment.valueAt?_settings]
  · exact (isAscending_ascendingBy environment.keyed).nodup
  · intro p hp
    obtain ⟨e, he, rfl⟩ := List.mem_map.1 hp
    obtain ⟨hleaf, v, hv, hplace⟩ := Environment.mem_settings he
    refine ⟨hleaf, (hclear v hv e.1 hplace names hnames).eq_or_parts.imp_left
      fun hfull => ?_⟩
    exact SettingPath.full_injective hfull

end Settings

namespace Environment

/-- Variables at the places of readers are clear, as no such place leads to
another one. -/
theorem isClear_of_places {environment : Environment}
    (h : ∀ v ∈ environment, ∀ key, place? v.1 = some key →
      ∃ names ∈ Settings.places, key = Settings.key names) :
        environment.IsClear := by
  intro v hv key hkey names hnames
  obtain ⟨others, hothers, rfl⟩ := h v hv key hkey
  rw [SettingPath.ofName_key_of_mem hothers, Arguments.full_setting]
  have hapart : ∀ others ∈ Settings.places, ∀ names ∈ Settings.places,
      others = names ∨ ¬ others <+: names ∧ ¬ names <+: others := by decide
  rcases hapart others hothers names hnames with rfl | ⟨hnot, hnot'⟩
  · exact clear_self _
  · exact (Parts.there (parts_of_incomparable hnot hnot')).clear

/-! ## Variables that nobody asks for -/

/-- Whether a variable can speak: in place of a flag, or for a setting. -/
def speaks (name : String) : Bool :=
  Flag.all.any (·.variableName? == some name) || (place? name).isSome

/-- The variables that can speak. -/
def heard (environment : Environment) : Environment :=
  environment.filter fun v => speaks v.1

theorem settings_heard (environment : Environment) :
    environment.heard.settings = environment.settings := by
  rw [settings, settings, heard, List.filterMap_filter]
  refine congrArg ascendingBy (List.filterMap_congr fun v _ => ?_)
  cases hplace : place? v.1 with
  | none => simp
  | some key => simp [speaks, hplace]

theorem valueAt?_heard {name : String} (hname : speaks name = true)
    (environment : Environment) :
    valueAt? name environment.heard = valueAt? name environment := by
  induction environment with
  | nil => rfl
  | cons v rest ih =>
      by_cases hv : v.1 = name
      · rw [heard, List.filter_cons_of_pos (by rw [hv, hname]), valueAt?,
          valueAt?, if_pos (beq_iff_eq.2 hv), if_pos (beq_iff_eq.2 hv)]
      · rw [valueAt?, if_neg (by simpa using hv), ← ih, heard, heard,
          List.filter_cons]
        split
        · rw [valueAt?, if_neg (by simpa using hv)]
        · rfl

theorem askVariables_heard (environment : Environment) (s : Scan) :
    s.askVariables environment.heard = s.askVariables environment := by
  have hask : Scan.ask environment.heard = Scan.ask environment := by
    funext s f
    have hvalue : (f.variableName?.bind fun name =>
        valueAt? name environment.heard) = f.variableName?.bind fun name =>
          valueAt? name environment := by
      cases hname : f.variableName? with
      | none => rfl
      | some name =>
          refine valueAt?_heard ?_ environment
          rw [speaks, Bool.or_eq_true, List.any_eq_true]
          exact Or.inl ⟨f, by cases f <;> decide, beq_iff_eq.2 hname⟩
    rw [Scan.ask, Scan.ask, hvalue]
  rw [Scan.askVariables_eq, Scan.askVariables_eq, hask]

end Environment

/-! ## The readers -/

/-- The readers of the configuration ask for what is said about their places.
Each keeps its default if nothing is said, or if it does not understand or want
what is said. -/
structure Settings.ReadFrom (said? : List String → Option Setting)
    (s : Settings) : Prop where
  connectTimeout : s.connectTimeout =
    ((said? ["replication", "connect-timeout"]).bind Setting.nat?).getD 5000
  requestTimeout : s.requestTimeout =
    ((said? ["replication", "request-timeout"]).bind Setting.nat?).getD 30000
  responseTimeout : s.responseTimeout =
    ((said? ["replication", "response-timeout"]).bind Setting.nat?).getD 60000
  verificationTimeout : s.verificationTimeout =
    ((said? ["replication", "verification-timeout"]).bind Setting.nat?).getD
      10000
  retention : s.retention =
    ((said? ["replication", "retention"]).bind Setting.nat?).getD 30000
  sweepInterval : s.sweepInterval =
    ((said? ["replication", "sweep-interval"]).bind Setting.nat?).getD 5000
  maxConcurrentRequests : s.maxConcurrentRequests =
    ((said? ["replication", "max-concurrent-requests"]).bind Setting.nat?).getD
      100
  workerPoolSize : s.workerPoolSize =
    (((said? ["replication", "worker-pool-size"]).bind Setting.nat?).filter
      (0 < ·)).getD 20
  nodeScheme : s.nodeScheme =
    ((said? ["node", "scheme"]).bind Setting.text?).getD "http"
  clusterNodes : s.clusterNodes =
    ((said? ["cluster", "nodes"]).bind Setting.text?).elim
      (.ok []) Node.listOfText
  logDirectory : s.logConfig.directory =
    (said? ["logs", "path"]).bind Setting.text?
  logConsole : s.logConfig.console =
    ((said? ["logs", "console"]).bind Setting.bool?).getD true
  logLevel : s.logConfig.level =
    (((said? ["logs", "level"]).bind Setting.text?).bind Level.ofText?).getD
      .info
  logRotation : s.logConfig.rotation =
    (((said? ["logs", "rotation"]).bind Setting.text?).map Rotation.ofText).getD
      .daily

theorem Settings.readFrom_of_find? {said? : List String → Option Setting}
    {s : Settings}
    (h : ∀ names ∈ places, s.find? ("replix" :: names) = said? names) :
    s.ReadFrom said? := by
  have hcount : ∀ name standard, ["replication", name] ∈ places →
      s.replication name standard =
        ((said? ["replication", name]).bind Setting.nat?).getD standard := by
    intro name standard hname
    rw [replication, h _ hname]
  refine
    { connectTimeout := hcount _ _ (by decide)
      requestTimeout := hcount _ _ (by decide)
      responseTimeout := hcount _ _ (by decide)
      verificationTimeout := hcount _ _ (by decide)
      retention := hcount _ _ (by decide)
      sweepInterval := hcount _ _ (by decide)
      maxConcurrentRequests := hcount _ _ (by decide)
      workerPoolSize := ?_
      nodeScheme := by rw [nodeScheme, h _ (by decide)]
      clusterNodes := ?_
      logDirectory := by rw [← h ["logs", "path"] (by decide)]; rfl
      logConsole := by rw [← h ["logs", "console"] (by decide)]; rfl
      logLevel := by rw [← h ["logs", "level"] (by decide)]; rfl
      logRotation := by rw [← h ["logs", "rotation"] (by decide)]; rfl }
  · rw [workerPoolSize, hcount _ _ (by decide)]
    cases (said? ["replication", "worker-pool-size"]).bind Setting.nat? with
    | none => rfl
    | some n => cases n <;> rfl
  · rw [clusterNodes, h _ (by decide)]
    cases (said? ["cluster", "nodes"]).bind Setting.text? <;> rfl

namespace Arguments

/-- What the sources say about a place, the highest one first: the flags with
the variables that stand in for them, the variables of the settings, and the
file. -/
def says? (file : Settings) (environment : Environment) (a : Arguments)
    (names : List String) : Option Setting :=
  (a.flag? names).or ((environment.setting? names).or
    (file.find? ("replix" :: names)))

theorem read_heard (words : List String) (environment : Environment) :
    read words environment.heard = read words environment := by
  simp only [read, Environment.askVariables_heard]

theorem settings_of_heard (files : Files) (environment : Environment)
    (a : Arguments) :
    a.settings files environment.heard = a.settings files environment := by
  simp only [settings, Environment.settings_heard]

/-- Every reader of the configuration is answered by the highest source that
speaks about its place, and by its default if there is none. A flag speaks for
itself if it is on the line, and else its variable does; a table of tables is
taken as it is; and variables that belong neither to a flag nor to a setting
change nothing. -/
theorem settings_from_highest_source (words : List String) (files : Files)
    (environment : Environment) (a : Arguments) (file : Settings)
    (hread : read words environment = .ok a) (hfile : a.file? files = some file)
    (hclear : environment.IsClear) :
    (∃ settings, a.settings files environment = .ok settings ∧
      settings.ReadFrom (a.says? (Settings.laySource [] file) environment)) ∧
    (∃ line, Scan.ofWords words = .ok line ∧ ∀ f : Flag,
      a.said f = if line.given.contains f then line.arguments.said f
        else f.fallback? environment) ∧
    (file.IsNested → Settings.laySource [] file = file) ∧
    (read words environment.heard = .ok a ∧
      a.settings files environment.heard = a.settings files environment) := by
  refine ⟨⟨_, by rw [settings_eq, hfile],
    Settings.readFrom_of_find? fun names hnames => ?_⟩,
    said_of_read hread, fun h => h.laySource_eq, by rw [read_heard, hread],
    settings_of_heard files environment a⟩
  rw [find?_layPlaced_placements a hnames, beneath,
    Settings.find?_laySource_variables hclear hnames, says?]

/-- A flag above a file, a variable above the same file, and the file where
neither speaks. -/
theorem settings_from_highest_source_of_each :
    ∃ a settings,
      read ["/p", "-c", "a.toml", "--request-timeout", "250"]
        [("REPLIX__NODE__SCHEME", "https"), ("PATH", "/bin")] = .ok a ∧
      a.settings
          [("a.toml", "replix.node.scheme = 'ftp'\nreplix.replication = " ++
          "\x7b request-timeout = 400, retention = 500 \x7d")]
        [("REPLIX__NODE__SCHEME", "https"), ("PATH", "/bin")] = .ok settings ∧
      settings.requestTimeout = 250 ∧ settings.nodeScheme = "https" ∧
      settings.retention = 500 := by
  have hread : read ["/p", "-c", "a.toml", "--request-timeout", "250"]
      [("REPLIX__NODE__SCHEME", "https"), ("PATH", "/bin")] =
        .ok { uri := "/p", config := some "a.toml"
              requestTimeout := some 250 } := by
    decide +kernel
  have hplace : Environment.place? "REPLIX__NODE__SCHEME" =
      some (Settings.key ["node", "scheme"]) := by decide +kernel
  have hother : Environment.place? "PATH" = none := by decide +kernel
  have hclear : Environment.IsClear
      [("REPLIX__NODE__SCHEME", "https"), ("PATH", "/bin")] := by
    refine Environment.isClear_of_places fun v hv key hkey => ?_
    simp only [List.mem_cons, List.not_mem_nil, or_false] at hv
    rcases hv with rfl | rfl
    · exact ⟨["node",
        "scheme"], by decide, Option.some.inj (hkey.symm.trans hplace)⟩
    · cases hkey.symm.trans hother
  have hscheme : Environment.setting? ["node", "scheme"]
      [("REPLIX__NODE__SCHEME", "https"), ("PATH", "/bin")] =
        some (Environment.value "https") := by
    simp [Environment.setting?, hplace, hother]
  have hsilent : Environment.setting? ["replication", "retention"]
      [("REPLIX__NODE__SCHEME", "https"), ("PATH", "/bin")] = none := by
    have hkey : Settings.key ["node", "scheme"] ≠
        Settings.key ["replication", "retention"] := by
      decide +kernel
    simp [Environment.setting?, hplace, hother, hkey]
  have hheld : (Files.settings? "a.toml" [("a.toml",
      "replix.node.scheme = 'ftp'\nreplix.replication = " ++
        "\x7b request-timeout = 400, retention = 500 \x7d")]).map (fun file =>
      ((Settings.laySource [] file).find?
        ["replix", "replication", "retention"]).bind
        Setting.nat?) = some (some 500) := by decide +kernel
  obtain ⟨file, hfile, hretention⟩ := Option.map_eq_some_iff.1 hheld
  obtain ⟨⟨settings, hsettings, hfrom⟩, -⟩ :=
    settings_from_highest_source _ _ _ _ file hread hfile hclear
  refine ⟨_, settings, hread, hsettings, hfrom.requestTimeout, ?_, ?_⟩
  · rw [hfrom.nodeScheme, says?, hscheme]
    change (Environment.value "https").text?.getD "http" = "https"
    decide +kernel
  · rw [hfrom.retention, says?, hsilent, Option.none_or]
    exact congrArg (Option.getD · 30000) hretention

/-- A variable that asks the table of the nodes for a position. Its key neither
begins nor goes on like the key of a reader, and still it hides what the file
says about the scheme. -/
theorem scheme_hidden_by_position :
    ∃ a file settings,
      Environment.place? "REPLIX__NODE[0]" = some "replix.node[0]" ∧
      (∀ names ∈ Settings.places,
        ¬ "replix.node[0]".toList <+: (Settings.key names).toList ∧
        ¬ (Settings.key names).toList <+: "replix.node[0]".toList) ∧
      read ["/p", "-c", "a.toml"] [("REPLIX__NODE[0]", "x")] = .ok a ∧
      a.file? [("a.toml", "[replix.node]\nscheme = \"https\"\n")] = some file ∧
      a.flag? ["node", "scheme"] = none ∧
      Environment.setting? ["node", "scheme"]
        [("REPLIX__NODE[0]", "x")] = none ∧
      (file.find? ["replix", "node", "scheme"]).bind Setting.text? =
        some "https" ∧
      a.settings [("a.toml", "[replix.node]\nscheme = \"https\"\n")]
        [("REPLIX__NODE[0]", "x")] = .ok settings ∧
      settings.nodeScheme = "http" := by
  have hplace : Environment.place? "REPLIX__NODE[0]" =
      some "replix.node[0]" := by
    decide +kernel
  have hkey : "replix.node[0]" ≠ Settings.key ["node", "scheme"] := by
    decide +kernel
  have hread : read ["/p", "-c", "a.toml"] [("REPLIX__NODE[0]", "x")] =
      .ok { uri := "/p", config := some "a.toml" } := by decide +kernel
  have hheld : (file? [("a.toml", "[replix.node]\nscheme = \"https\"\n")]
      { uri := "/p", config := some "a.toml" }).map (fun file =>
        ((file.find? ["replix", "node", "scheme"]).bind Setting.text?,
          (beneath file [("REPLIX__NODE[0]", "x")]).nodeScheme)) =
      some (some "https", "http") := by decide +kernel
  obtain ⟨file, hfile, hsays⟩ := Option.map_eq_some_iff.1 hheld
  obtain ⟨hscheme, hhidden⟩ := Prod.mk.inj hsays
  have hplacements : placements { uri := "/p", config := some "a.toml" } = [] :=
    rfl
  have hsettings : settings [("a.toml", "[replix.node]\nscheme = \"https\"\n")]
      [("REPLIX__NODE[0]", "x")] { uri := "/p", config := some "a.toml" } =
        .ok (beneath file [("REPLIX__NODE[0]", "x")]) := by
    rw [settings_eq, hfile]
    dsimp only
    rw [hplacements, Settings.layPlaced, List.foldl_nil]
  refine ⟨_, file, _,
    hplace, by decide +kernel, hread, hfile, rfl, ?_, hscheme, hsettings,
    hhidden⟩
  simp [Environment.setting?, hplace, hkey]

end Arguments

end Fanout
