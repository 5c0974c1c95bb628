import Fanout.CommandLine.Scan
import Fanout.Proofs.Form
import Fanout.Proofs.Results
import Fanout.Proofs.Sources
import Mathlib.Data.List.Nodup

/-!
# Flags and the variables that stand in for them

Some flags have a variable that speaks when they are not on the line, and its
text is then taken as the text of the flag would be. What the arguments say of
such a flag therefore comes from the line or from one variable, and from nothing
else.

Three facts carry this. Taking the text of a flag changes what is said of that
flag alone. While a line is read, a flag that has not been given has nothing
said of it (`Silent`), so that a variable never adds to what a flag has said.
And the variables are asked for each flag once.
-/

namespace Fanout

namespace Flag

/-- What a text says if a flag is given with it. -/
def says? (text : String) : Flag → Option Setting
  | .config | .logDir | .logLevel => some (.text text)
  | .node => some (.text (",".intercalate (Text.split ',' text)))
  | .requestTimeout | .responseTimeout =>
    (readNat? mostNatural text.toList).map fun n : Nat => .int n
  | _ => none

/-- What the variable of a flag says. -/
def fallback? (environment : List (String × String))
    (f : Flag) : Option Setting :=
  (f.variableName?.bind fun name => valueAt? name environment).bind f.says?

/-- Among all flags each stands once. -/
theorem all_eq (f : Flag) :
    ∃ before after, all = before ++ f :: after ∧ f ∉ before ∧ f ∉ after := by
  obtain ⟨before, after, hall⟩ :=
    List.append_of_mem (show f ∈ all by cases f <;> decide)
  have hnodup : (f :: (before ++ after)).Nodup :=
    List.nodup_middle.1 (hall ▸ (by decide : all.Nodup))
  have hnot := (List.nodup_cons.1 hnodup).1
  rw [List.mem_append, not_or] at hnot
  exact ⟨before, after, hall, hnot⟩

end Flag

/-! ## Taking a text -/

namespace Arguments

variable {a a' : Arguments} {f g : Flag} {text : String}

theorem readPath_ok {path : String}
    (h : readPath text = .ok path) : path = text := by
  unfold readPath at h
  split at h
  · cases h
  · exact (Except.ok.inj h).symm

theorem readCount_ok {n : Nat} (h : readCount text = .ok n) :
    readNat? mostNatural text.toList = some n := by
  unfold readCount at h
  split at h
  · next hread =>
      cases h
      exact hread
  · cases h

/-- The text of a flag says nothing of other flags. -/
theorem said_store_of_ne (h : a.store text g = .ok a') (hne : f ≠ g) :
    a'.said f = a.said f := by
  cases g with
  | config | logDir | requestTimeout | responseTimeout | pollInterval =>
      obtain ⟨value, -, rfl⟩ := ok_of_map h
      cases f <;> first | rfl | exact absurd rfl hne
  | header =>
      rw [store] at h
      split at h
      · cases h
        cases f <;> rfl
      · cases h
  | _ =>
      cases h
      cases f <;> first | rfl | exact absurd rfl hne

/-- Of a flag of which nothing was said, its text says what it says by
itself. -/
theorem said_store_self (h : a.store text f = .ok a')
    (hsilent : a.said f = none) : a'.said f = f.says? text := by
  cases f with
  | config | logDir =>
      obtain ⟨path, hpath, rfl⟩ := ok_of_map h
      rw [readPath_ok hpath]
      rfl
  | requestTimeout | responseTimeout =>
      obtain ⟨n, hn, rfl⟩ := ok_of_map h
      rw [Flag.says?, readCount_ok hn]
      rfl
  | node =>
      cases h
      have hnodes : a.nodes = [] := by
        cases hn : a.nodes with
        | nil => rfl
        | cons n rest => simp [said, hn] at hsilent
      have hsplit : (Text.split ',' text).isEmpty = false := by
        rw [List.isEmpty_eq_false_iff, Text.split]
        exact fun hnil => Text.pieces_ne_nil _ _ (List.map_eq_nil_iff.1 hnil)
      simp [said, Flag.says?, hnodes, hsplit]
  | logLevel =>
      cases h
      rfl
  | _ => rfl

end Arguments

/-! ## Reading the line -/

namespace Scan

variable {s s' : Scan} {f g : Flag} {text : String}

/-- Of a flag that has not been given nothing is said. -/
def Silent (s : Scan) : Prop :=
  ∀ f, s.given.contains f = false → s.arguments.said f = none

theorem take_ok (h : s.take f text = .ok s') :
    ∃ arguments, s.arguments.store text f = .ok arguments ∧
      s' = { s with arguments, given := f :: s.given } := by
  unfold take at h
  split at h
  · cases h
  · obtain ⟨arguments, hstore, h⟩ := ok_of_bind h
    cases h
    exact ⟨arguments, hstore, rfl⟩

theorem Silent.take (hs : s.Silent)
    (h : s.take f text = .ok s') : s'.Silent := by
  obtain ⟨arguments, hstore, rfl⟩ := take_ok h
  intro g hg
  rw [List.contains_cons, Bool.or_eq_false_iff, beq_eq_false_iff_ne] at hg
  exact (Arguments.said_store_of_ne hstore hg.1).trans (hs g hg.2)

theorem Silent.close (hs : s.Silent) (h : s.close = .ok s') : s'.Silent := by
  unfold Scan.close at h
  split at h
  · cases h
    exact hs
  · cases h
  · exact Silent.take (s := { s with pending := none }) hs h

/-- What follows the closing of an argument. -/
theorem Silent.bind_close {next : Scan → Except Refusal Scan} (hs : s.Silent)
    (hnext : ∀ t, t.Silent → ∀ t', next t = .ok t' → t'.Silent)
    (h : (s.close >>= next) = .ok s') : s'.Silent := by
  obtain ⟨t, hclose, h⟩ := ok_of_bind h
  exact hnext t (hs.close hclose) s' h

theorem Silent.place {w : String} (hs : s.Silent)
    (h : s.place w = .ok s') : s'.Silent := by
  unfold Scan.place at h
  split at h
  · cases h
  · refine hs.bind_close (fun t ht t' h => ?_) h
    cases h
    exact ht

theorem Silent.value {w : String} (hs : s.Silent)
    (h : s.value w = .ok s') : s'.Silent := by
  unfold Scan.value at h
  split at h
  · cases h
    exact hs
  · exact hs.place h

theorem Silent.flag {value : Option String} (hs : s.Silent)
    (h : s.flag f value = .ok s') : s'.Silent := by
  unfold Scan.flag at h
  split at h
  · exact hs.bind_close (fun t ht t' h => ht.take h) h
  · refine hs.bind_close (fun t ht t' h => ?_) h
    cases h
    exact ht
  · cases h
  · exact hs.bind_close (fun t ht t' h => ht.take h) h

theorem display_ne_ok {refusal : Refusal} {value : Option String} :
    s.display refusal value ≠ .ok s' := by
  unfold display
  cases value with
  | some value => exact fun h => by cases h
  | none => cases s.close <;> exact fun h => by cases h

theorem Silent.long {cs : List Char} (hs : s.Silent)
    (h : s.long cs = .ok s') : s'.Silent := by
  unfold Scan.long at h
  split at h
  next name value heq =>
    split at h
    · exact hs.flag h
    · split_ifs at h
      · exact absurd h display_ne_ok
      · exact absurd h display_ne_ok

theorem Silent.short {letter : Char} {rest : List Char} (hs : s.Silent)
    (h : s.short letter rest = .ok s') : s'.Silent := by
  unfold Scan.short at h
  split at h
  · split at h
    · exact hs.flag h
    · exact hs.flag h
    · exact hs.flag h
  · split_ifs at h
    · exact absurd h display_ne_ok
    · exact absurd h display_ne_ok

theorem Silent.word {w : String} (hs : s.Silent)
    (h : s.word w = .ok s') : s'.Silent := by
  unfold Scan.word at h
  split at h
  · exact hs.place h
  · split at h
    · cases h
      exact hs
    · exact hs.long h
    · exact hs.short h
    · exact hs.value h

theorem silent_empty : ({} : Scan).Silent := by
  intro f _
  cases f <;> rfl

/-- A line that has been read to its end. -/
def ofWords (words : List String) : Except Refusal Scan := do
  (← words.foldlM Scan.word ({} : Scan)).close

theorem silent_of_words {words : List String}
    (h : ofWords words = .ok s) : s.Silent := by
  have hfold : ∀ {words : List String} {s s' : Scan}, s.Silent →
      words.foldlM Scan.word s = .ok s' → s'.Silent := by
    intro words
    induction words with
    | nil =>
        intro s s' hs h
        cases h
        exact hs
    | cons w rest ih =>
        intro s s' hs h
        rw [List.foldlM_cons] at h
        obtain ⟨t, hword, h⟩ := ok_of_bind h
        exact ih (hs.word hword) h
  obtain ⟨t, hwords, h⟩ := ok_of_bind h
  exact (hfold silent_empty hwords).close h

/-! ## Asking the variables -/

/-- Asks the variables for one flag. -/
def ask (environment : List (String × String)) (s : Scan)
    (f : Flag) : Except Refusal Scan :=
  if s.given.contains f then .ok s
  else
    match f.variableName?.bind fun name => valueAt? name environment with
    | some text => s.take f text
    | none => .ok s

theorem askVariables_eq (environment : List (String × String)) (s : Scan) :
    s.askVariables environment = Flag.all.foldlM (ask environment) s := rfl

variable {environment : List (String × String)}

theorem ask_of_ne (h : ask environment s g = .ok s') (hne : f ≠ g) :
    s'.given.contains f = s.given.contains f ∧
      s'.arguments.said f = s.arguments.said f := by
  unfold ask at h
  split at h
  · cases h
    exact ⟨rfl, rfl⟩
  · split at h
    · obtain ⟨arguments, hstore, rfl⟩ := take_ok h
      refine ⟨?_, Arguments.said_store_of_ne hstore hne⟩
      rw [List.contains_cons, beq_eq_false_iff_ne.2 hne, Bool.false_or]
    · cases h
      exact ⟨rfl, rfl⟩

theorem ask_self (hs : s.Silent) (h : ask environment s f = .ok s') :
    s'.arguments.said f =
      if s.given.contains f then s.arguments.said f
      else f.fallback? environment := by
  unfold ask at h
  split at h
  · next hgiven =>
      cases h
      rw [if_pos hgiven]
  · next hgiven =>
      rw [if_neg hgiven, Flag.fallback?]
      have hnone := hs f (by simpa using hgiven)
      split at h
      · next text htext =>
          obtain ⟨arguments, hstore, rfl⟩ := take_ok h
          rw [htext]
          exact Arguments.said_store_self hstore hnone
      · next htext =>
          cases h
          rw [htext, hnone]
          rfl

theorem Silent.ask (hs : s.Silent)
    (h : ask environment s f = .ok s') : s'.Silent := by
  unfold Scan.ask at h
  split at h
  · cases h
    exact hs
  · split at h
    · exact hs.take h
    · cases h
      exact hs

/-- Nothing changes of a flag for which no variable is asked. -/
theorem foldlM_ask_of_not_mem {flags : List Flag} (hs : s.Silent)
    (h : flags.foldlM (Scan.ask environment) s = .ok s') (hf : f ∉ flags) :
    s'.Silent ∧ s'.given.contains f = s.given.contains f ∧
      s'.arguments.said f = s.arguments.said f := by
  induction flags generalizing s with
  | nil =>
      cases h
      exact ⟨hs, rfl, rfl⟩
  | cons g rest ih =>
      rw [List.mem_cons, not_or] at hf
      rw [List.foldlM_cons] at h
      obtain ⟨t, hask, h⟩ := ok_of_bind h
      obtain ⟨hgiven, hsaid⟩ := ask_of_ne hask hf.1
      obtain ⟨hsilent, hgiven', hsaid'⟩ := ih (hs.ask hask) h hf.2
      exact ⟨hsilent, hgiven'.trans hgiven, hsaid'.trans hsaid⟩

/-- Where a flag is not given, its variable is heard. -/
theorem said_askVariables (hs : s.Silent)
    (h : s.askVariables environment = .ok s') (f : Flag) :
    s'.arguments.said f =
      if s.given.contains f then s.arguments.said f
      else f.fallback? environment := by
  obtain ⟨before, after, hall, hbefore, hafter⟩ := f.all_eq
  rw [askVariables_eq, hall, List.foldlM_append] at h
  obtain ⟨t, ht, h⟩ := ok_of_bind h
  rw [List.foldlM_cons] at h
  obtain ⟨u, hask, h⟩ := ok_of_bind h
  obtain ⟨hsilent, hgiven, hsaid⟩ := foldlM_ask_of_not_mem hs ht hbefore
  rw [(foldlM_ask_of_not_mem (hsilent.ask hask) h hafter).2.2,
    ask_self hsilent hask, hgiven, hsaid]

theorem finish_ok {a : Arguments} (h : s.finish = .ok a) : a = s.arguments := by
  unfold finish at h
  split_ifs at h
  exact (Except.ok.inj h).symm

end Scan

/-! ## The arguments as a whole -/

namespace Arguments

variable {words : List String} {environment : List (String × String)}
  {a : Arguments}

/-- What is said of a flag comes from the line if the flag is given there, and
else from its variable. -/
theorem said_of_read (h : read words environment = .ok a) :
    ∃ line, Scan.ofWords words = .ok line ∧ ∀ f : Flag,
      a.said f = if line.given.contains f then line.arguments.said f
        else f.fallback? environment := by
  obtain ⟨s, hwords, h⟩ := ok_of_bind h
  obtain ⟨line, hclose, h⟩ := ok_of_bind h
  obtain ⟨t, hasked, h⟩ := ok_of_bind h
  have hline : Scan.ofWords words = .ok line := by
    rw [Scan.ofWords, hwords]
    exact hclose
  refine ⟨line, hline, fun f => ?_⟩
  rw [← Scan.said_askVariables (Scan.silent_of_words hline) hasked f,
    Scan.finish_ok h]

end Arguments

end Fanout
