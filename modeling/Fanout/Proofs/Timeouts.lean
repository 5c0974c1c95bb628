import Fanout.Proofs.Fallback
import Fanout.Proofs.Naming

/-!
# Timeouts from flags

A timeout is given as a number of 64 bits without a sign, and it goes into the
settings as it is. The readers of the settings know integers of 64 bits with a
sign, and to them a number above these is a value without a meaning, for which
they have a default. So the upper half of what the command line accepts is lost,
and since flags lie on top, a good value of a file is lost with it.
-/

namespace Fanout

/-- No variable speaks for two flags. -/
theorem Flag.eq_of_variableName? {f g : Flag} {name : String}
    (h : f.variableName? = some name)
    (h' : g.variableName? = some name) : f = g := by
  have hall : ∀ f ∈ all, ∀ g ∈ all, f.variableName? = g.variableName? →
      f.variableName?.isSome = true → f = g := by decide +kernel
  exact hall f (by cases f <;> decide) g (by cases g <;> decide)
    (h.trans h'.symm) (by rw [h]; rfl)

namespace Arguments

theorem toList_toString (n : Nat) :
    (toString n).toList = Nat.toDigits 10 n := by
  rw [Nat.toString_eq_ofList_toDigits, String.toList_ofList]

theorem readCount_toString {n : Nat} (h : n ≤ mostNatural) :
    readCount (toString n) = .ok n := by
  rw [readCount, toList_toString, readNat?_toDigits h]

theorem head?_toString_ne_hyphen (n : Nat) :
    (toString n).toList.head? ≠ some '-' := by
  rw [toList_toString]
  intro h
  have hdigit :=
    Nat.isDigit_of_mem_toDigits (by decide) (by decide) (List.mem_of_head? h)
  cases hdigit

end Arguments

namespace Scan

theorem word_of_ne_hyphen {s : Scan} {w : String} (hflags : s.flagsOver = false)
    (hw : w.toList.head? ≠ some '-') : s.word w = s.value w := by
  unfold word
  rw [if_neg (by simp [hflags])]
  split
  · next h => simp [h] at hw
  · next h => simp [h] at hw
  · next h => simp [h] at hw
  · rfl

theorem take_of_store {s : Scan} {f : Flag} {text : String} {a : Arguments}
    (hnew : s.given.contains f = false)
    (hstore : s.arguments.store text f = .ok a) :
    s.take f text = .ok { s with arguments := a, given := f :: s.given } := by
  rw [take, hnew, hstore]
  rfl

/-- Flags for which no variable speaks change nothing. -/
theorem foldlM_ask_of_unspoken {environment : List (String × String)}
    {flags : List Flag}
    (h : ∀ f ∈ flags, (f.variableName?.bind fun name =>
      valueAt? name environment) = none)
    (s : Scan) : flags.foldlM (ask environment) s = .ok s := by
  induction flags with
  | nil => rfl
  | cons f rest ih =>
      have hask : ask environment s f = .ok s := by
        rw [ask, h f List.mem_cons_self]
        split <;> rfl
      rw [List.foldlM_cons, hask]
      exact ih fun g hg => h g (List.mem_cons_of_mem _ hg)

/-- After the path of a request. -/
def placed : Scan where
  arguments := { uri := "/" }
  given := [.uri]
  hasPlace := true

end Scan

namespace Arguments

variable {f : Flag} {text : String} {a : Arguments}

/-- A line with a path and a flag says what the flag says. -/
theorem read_flag {long : String}
    (hlong : Scan.word { pending := some (.uri, some "/"), hasPlace := true }
      long = .ok { Scan.placed with pending := some (f, none) })
    (htext : text.toList.head? ≠ some '-')
    (hnew : Scan.placed.given.contains f = false)
    (hstore : store { uri := "/" } text f = .ok a) :
    read ["/", long, text] [] =
      ({ Scan.placed with arguments := a, given := [f, .uri] } :
        Scan).finish := by
  have hpath : Scan.word {} "/" =
      .ok { pending := some (.uri, some "/"), hasPlace := true } := rfl
  have hvalue : Scan.word { Scan.placed with pending := some (f, none) } text =
      .ok { Scan.placed with pending := some (f, some text) } := by
    rw [Scan.word_of_ne_hyphen rfl htext]
    rfl
  have hclosed :
      Scan.close { Scan.placed with pending := some (f, some text) } =
      .ok { Scan.placed with arguments := a, given := [f, .uri] } :=
    Scan.take_of_store hnew hstore
  have hasked : ∀ s : Scan, s.askVariables [] = .ok s :=
    Scan.foldlM_ask_of_unspoken fun g _ => by cases g.variableName? <;> rfl
  rw [read, List.foldlM_cons, hpath]
  simp only [bind, Except.bind, List.foldlM_cons, List.foldlM_nil, hlong,
    hvalue, hclosed, hasked, pure, Except.pure]

/-- A line with a path alone says what a variable says. -/
theorem read_variable {name : String} (hname : f.variableName? = some name)
    (hnew : Scan.placed.given.contains f = false)
    (hstore : store { uri := "/" } text f = .ok a) :
    read ["/"] [(name, text)] =
      ({ Scan.placed with arguments := a, given := [f, .uri] } :
        Scan).finish := by
  have hpath : Scan.word {} "/" =
      .ok { pending := some (.uri, some "/"), hasPlace := true } := rfl
  have hclosed :
      Scan.close { pending := some (.uri, some "/"), hasPlace := true } =
      .ok Scan.placed := rfl
  have hsilent : ∀ g, g ≠ f →
      (g.variableName?.bind fun n => valueAt? n [(name, text)]) = none := by
    intro g hg
    cases hvariable : g.variableName? with
    | none => rfl
    | some n =>
        have hne : name ≠ n := by
          rintro rfl
          exact hg (Flag.eq_of_variableName? hvariable hname)
        simp [valueAt?, hne]
  have hspoken : (f.variableName?.bind fun n => valueAt? n [(name, text)]) =
      some text := by
    simp [hname, valueAt?]
  have hasked : Scan.placed.askVariables [(name, text)] =
      .ok { Scan.placed with arguments := a, given := [f, .uri] } := by
    have hask : Scan.ask [(name, text)] Scan.placed f =
        .ok { Scan.placed with arguments := a, given := [f, .uri] } := by
      rw [Scan.ask, hnew, hspoken]
      exact Scan.take_of_store hnew hstore
    obtain ⟨before, after, hall, hbefore, hafter⟩ := f.all_eq
    rw [Scan.askVariables_eq, hall, List.foldlM_append,
      Scan.foldlM_ask_of_unspoken fun g hg =>
        hsilent g (ne_of_mem_of_not_mem hg hbefore)]
    dsimp only [bind, Except.bind]
    rw [List.foldlM_cons, hask]
    exact Scan.foldlM_ask_of_unspoken
      (fun g hg => hsilent g (ne_of_mem_of_not_mem hg hafter)) _
  rw [read, List.foldlM_cons, hpath]
  simp only [bind, Except.bind, List.foldlM_nil, hclosed, hasked, pure,
    Except.pure]

/-- Every number of 64 bits can be given for a request, as a flag or as a
variable. -/
theorem read_requestTimeout {n : Nat} (h : n ≤ mostNatural) :
    read ["/", "--request-timeout", toString n] [] =
        .ok { uri := "/", requestTimeout := some n } ∧
      read ["/"] [("REPLIX_REQUEST_TIMEOUT", toString n)] =
        .ok { uri := "/", requestTimeout := some n } := by
  have hstore : store { uri := "/" } (toString n) .requestTimeout =
      .ok { uri := "/", requestTimeout := some n } := by
    rw [store, readCount_toString h]
    rfl
  exact ⟨read_flag rfl (head?_toString_ne_hyphen n) rfl hstore,
    read_variable rfl rfl hstore⟩

theorem read_responseTimeout {n : Nat} (h : n ≤ mostNatural) :
    read ["/", "--response-timeout", toString n] [] =
        .ok { uri := "/", responseTimeout := some n } ∧
      read ["/"] [("REPLIX_RESPONSE_TIMEOUT", toString n)] =
        .ok { uri := "/", responseTimeout := some n } := by
  have hstore : store { uri := "/" } (toString n) .responseTimeout =
      .ok { uri := "/", responseTimeout := some n } := by
    rw [store, readCount_toString h]
    rfl
  exact ⟨read_flag rfl (head?_toString_ne_hyphen n) rfl hstore,
    read_variable rfl rfl hstore⟩

/-! ## What becomes of a timeout -/

/-- What is kept of a timeout that a flag gives. -/
def kept (standard given : Nat) : Nat :=
  if (given : Int) ≤ mostInteger then given else standard

theorem kept_eq_iff {standard given : Nat}
    (h : (standard : Int) ≤ mostInteger) :
    kept standard given = given ↔ (given : Int) ≤ mostInteger := by
  unfold kept
  split
  · next hgiven => exact iff_of_true rfl hgiven
  · next hgiven => exact iff_of_false (by omega) hgiven

theorem settings_of_file {files : Files} {environment : Environment}
    (h : (a.file? files).isSome) :
    ∃ settings, a.settings files environment = .ok settings := by
  obtain ⟨file, hfile⟩ := Option.isSome_iff_exists.1 h
  rw [settings_eq, hfile]
  exact ⟨_, rfl⟩

/-- The settings hold what a flag says, and the reader of a timeout gets what is
kept of it. -/
theorem replication_eq_kept {files : Files} {environment : Environment}
    {settings : Settings} {name : String} {standard given : Nat}
    (h : a.settings files environment = .ok settings)
    (hname : ["replication", name] ∈ Settings.places)
    (hflag : a.flag? ["replication", name] = some (.int given)) :
    settings.replication name standard = kept standard given := by
  rw [settings_eq] at h
  cases hfile : a.file? files with
  | none =>
      rw [hfile] at h
      cases h
  | some file =>
      rw [hfile] at h
      cases h
      rw [Settings.replication, find?_layPlaced_placements a hname, hflag, kept]
      have hleast : leastInteger ≤ (given : Int) :=
        Int.le_trans (by decide) (Int.natCast_nonneg given)
      by_cases hmost : (given : Int) ≤ mostInteger
      · simp [Setting.nat?, Setting.int?, hleast, hmost]
      · simp [Setting.nat?, Setting.int?, hmost]

/-- Whatever the file and the variables say, a timeout from a flag reaches the
engine and the client if it is an integer of 64 bits with a sign, and otherwise
they wait for as long as they do without one. The command line takes twice as
many. -/
theorem timeouts_reach_parts (files : Files) (environment : Environment)
    (a : Arguments) (settings : Settings)
    (h : a.settings files environment = .ok settings) :
    (∀ v, a.requestTimeout = some v →
      settings.requestTimeout = kept 30000 v ∧
      settings.engineConfig.nodeTimeout = Span.ofMillis (kept 30000 v) ∧
      settings.clientConfig.requestTimeout = Span.ofMillis (kept 30000 v) ∧
      (settings.requestTimeout = v ↔ (v : Int) ≤ mostInteger)) ∧
    (∀ v, a.responseTimeout = some v →
      settings.responseTimeout = kept 60000 v ∧
      settings.engineConfig.responseTimeout = Span.ofMillis (kept 60000 v) ∧
      (settings.responseTimeout = v ↔ (v : Int) ≤ mostInteger)) ∧
    ∀ v ≤ mostNatural,
      (read ["/", "--request-timeout", toString v] [] =
          .ok { uri := "/", requestTimeout := some v } ∧
        read ["/"] [("REPLIX_REQUEST_TIMEOUT", toString v)] =
          .ok { uri := "/", requestTimeout := some v }) ∧
      (read ["/", "--response-timeout", toString v] [] =
          .ok { uri := "/", responseTimeout := some v } ∧
        read ["/"] [("REPLIX_RESPONSE_TIMEOUT", toString v)] =
          .ok { uri := "/", responseTimeout := some v }) := by
  refine ⟨fun v hv => ?_, fun v hv => ?_,
    fun v hv => ⟨read_requestTimeout hv, read_responseTimeout hv⟩⟩
  · have hkept : settings.requestTimeout = kept 30000 v :=
      replication_eq_kept h (by decide)
        (by simp [flag?, Flag.places, valueAt?, said, hv])
    refine ⟨hkept, ?_, ?_, ?_⟩
    · rw [← hkept]
      rfl
    · rw [← hkept]
      rfl
    · rw [hkept]
      exact kept_eq_iff (by decide)
  · have hkept : settings.responseTimeout = kept 60000 v :=
      replication_eq_kept h (by decide)
        (by simp [flag?, Flag.places, valueAt?, said, hv])
    refine ⟨hkept, ?_, ?_⟩
    · rw [← hkept]
      rfl
    · rw [hkept]
      exact kept_eq_iff (by decide)

/-- A flag counts more than a file, and one that is too great hides the file all
the same. -/
theorem timeouts_reach_parts_over_file :
    ∃ settings,
      ({ config := some "a.toml", requestTimeout := some 250,
          responseTimeout := some 9223372036854775808 } : Arguments).settings
        [("a.toml", "[replix.replication]\n" ++
          "request-timeout = 400\nresponse-timeout = 400")] [] =
          .ok settings ∧
      settings.engineConfig.nodeTimeout = Span.ofMillis 250 ∧
      settings.engineConfig.responseTimeout = Span.ofMillis 60000 := by
  obtain ⟨settings, h⟩ : ∃ settings,
      ({ config := some "a.toml", requestTimeout := some 250,
          responseTimeout := some 9223372036854775808 } : Arguments).settings
        [("a.toml", "[replix.replication]\n" ++
          "request-timeout = 400\nresponse-timeout = 400")] [] =
          .ok settings := settings_of_file (by decide +kernel)
  obtain ⟨hrequest, hresponse, -⟩ := timeouts_reach_parts _ _ _ _ h
  exact ⟨settings, h, (hrequest 250 rfl).2.1,
    (hresponse 9223372036854775808 rfl).2.1⟩

/-- A timeout that the command line takes and the settings lose. -/
theorem timeout_lost :
    ∃ a settings,
      read ["/api/flow", "--request-timeout", "9223372036854775808", "-n",
        "a@h:1"] [] = .ok a ∧
      a.requestTimeout = some 9223372036854775808 ∧ a.settings []
        [] = .ok settings ∧
      settings.requestTimeout = 30000 ∧
      settings.engineConfig.nodeTimeout = Span.ofMillis 30000 := by
  have hread : read ["/api/flow", "--request-timeout", "9223372036854775808",
      "-n", "a@h:1"] [] =
      .ok { uri := "/api/flow", requestTimeout := some 9223372036854775808,
            nodes := ["a@h:1"] } := by
    decide +kernel
  refine ⟨_, _, hread, rfl, rfl, ?_⟩
  constructor <;> decide +kernel

end Arguments

end Fanout
