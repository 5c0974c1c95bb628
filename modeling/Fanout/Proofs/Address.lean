import Fanout.Http.Client
import Fanout.Proofs.Form
import Mathlib.Data.List.TakeDrop
import Mathlib.Data.List.TakeWhile

/-!
# Where a question mark can come from

A node finds the query of a request behind the first question mark of what it is
asked for. That this is the query of the address, and all of it, needs that the
path has none: whatever stood there as one is written with a percent sign. An
address has a query of its own only if a question mark came in with the text
that it was read from.
-/

namespace Fanout.Http

/-! ## Paths and queries -/

theorem not_mem_percentEncode {keeps : Char → Bool} {mark : Char}
    (hkeeps : keeps mark = false) (hpercent : mark ≠ '%')
    (halphanum : mark.isAlphanum = false) (cs : List Char) :
    mark ∉ percentEncode keeps cs := by
  intro hmem
  rcases mem_percentEncode hmem with h | h | h
  · rw [hkeeps] at h
    cases h
  · exact hpercent h
  · rw [halphanum] at h
    cases h

namespace Url

theorem not_mem_readPath (special : Bool) (cs : List Char) :
    '?' ∉ readPath special cs := by
  have hencoded : ∀ cs : List Char, '?' ∉ percentEncode keepsInPath cs :=
    not_mem_percentEncode (by decide) (by decide) (by decide)
  have hslash : ∀ cs : List Char, '?' ∉ '/' ::
      percentEncode keepsInPath cs := by
    intro cs hmem
    exact hencoded cs ((List.mem_cons.1 hmem).resolve_left (by decide))
  unfold readPath
  dsimp only
  split
  · intro hmem
    obtain ⟨segment, -, hmem⟩ := List.mem_flatMap.1 hmem
    exact hslash segment hmem
  · split
    · exact hslash _
    · exact hencoded _

theorem not_mem_readTail (special : Bool) (cs : List Char) :
    '?' ∉ (readTail special cs).1 := by
  unfold readTail
  exact not_mem_readPath _ _

theorem readTail_of_not_mem (special : Bool) {cs : List Char} (h : '?' ∉ cs) :
    (readTail special cs).2.1 = none := by
  unfold readTail
  cases hcut : Text.cutFirst '#' cs with
  | none =>
      dsimp only
      rw [Text.cutFirst_eq_none.2 h]
  | some parts =>
      obtain ⟨before, after⟩ := parts
      obtain ⟨rfl, -⟩ := Text.cutFirst_eq_some hcut
      dsimp only
      rw [Text.cutFirst_eq_none.2 fun hmem => h (List.mem_append_left _ hmem)]

/-! ## Reading an address -/

theorem cutPort_subset {cs host port : List Char}
    (h : cutPort cs = some (host, port)) : host ⊆ cs := by
  have hinside : ∀ p : Char → Bool, cs.takeWhile p ++ (cs.dropWhile p).take 1 ⊆
      cs := by
    intro p c hc
    rcases List.mem_append.1 hc with hc | hc
    · exact (List.takeWhile_prefix p).subset hc
    · exact (List.dropWhile_suffix p).subset (List.mem_of_mem_take hc)
  have hboth : ∀ {p : Prop} [Decidable p] {a b : List Char × List Char}, a.1 ⊆
      cs → b.1 ⊆ cs → (if p then a else b).1 ⊆ cs := by
    intro p _ a b ha hb
    split
    · exact ha
    · exact hb
  unfold cutPort at h
  rw [List.span_eq_takeWhile_dropWhile, List.span_eq_takeWhile_dropWhile] at h
  dsimp only at h
  split at h
  · cases h
    exact hboth (hinside _) (List.takeWhile_prefix _).subset
  · cases h
    exact hboth (hinside _) (List.takeWhile_prefix _).subset
  · cases h

theorem place_subset (cs : List Char) :
    ((Text.cutLast '@' cs).map (·.2)).getD cs ⊆ cs := by
  cases hcut : Text.cutLast '@' cs with
  | none => exact List.Subset.refl _
  | some parts =>
      obtain ⟨before, after⟩ := parts
      obtain ⟨rfl, -⟩ := Text.cutLast_eq_some hcut
      exact fun c hc => List.mem_append_right _ (List.mem_cons_of_mem _ hc)

theorem exists_of_bind_ite {α β : Type} {p : Prop} [Decidable p]
    {first other : Option α} {next : α → Option β} {b : β}
    (h : (if p then first.bind next else other.bind next) = some b) :
    ∃ a, (p → first = some a) ∧ next a = some b := by
  split at h
  · obtain ⟨a, ha, h⟩ := Option.bind_eq_some_iff.1 h
    exact ⟨a, fun _ => ha, h⟩
  · next hp =>
      obtain ⟨a, -, h⟩ := Option.bind_eq_some_iff.1 h
      exact ⟨a, fun h => absurd h hp, h⟩

/-- What is read of an address with a host. -/
theorem readHosted_spec {scheme : String} {cs : List Char} {u : Url}
    (h : readHosted scheme cs = some u) :
    u.scheme = scheme ∧
      (∃ rest, rest ⊆ cs ∧ readTail (isSpecial scheme) rest =
        (u.path, u.query, u.fragment)) ∧
      ∃ place host, '?' ∉ place ∧ u.host = some host ∧
        (isSpecial scheme = true → Host.read? place = some host) := by
  unfold readHosted at h
  dsimp only at h
  rw [List.span_eq_takeWhile_dropWhile] at h
  obtain ⟨⟨place, port⟩, hcut, h⟩ := Option.bind_eq_some_iff.1 h
  have hplace : '?' ∉ place := by
    intro hmem
    have htaken :=
      List.mem_takeWhile_imp (place_subset _ (cutPort_subset hcut hmem))
    simp at htaken
  obtain ⟨host, hspecial, h⟩ := exists_of_bind_ite h
  obtain ⟨port', hport, h⟩ := Option.bind_eq_some_iff.1 h
  dsimp only at h
  split at h
  · cases h
  · cases h
    exact ⟨rfl, ⟨_, (List.dropWhile_sublist _).subset, rfl⟩, place, host,
      hplace, rfl, hspecial⟩

theorem cleaned_subset (cs : List Char) : cleaned cs ⊆ cs := by
  intro c hc
  have hc := (List.mem_filter.1 hc).1
  rw [List.mem_reverse] at hc
  have hc := (List.dropWhile_sublist _).subset hc
  rw [List.mem_reverse] at hc
  exact (List.dropWhile_sublist _).subset hc

theorem cutScheme_subset {cs rest : List Char} {scheme : String}
    (h : cutScheme cs = some (scheme, rest)) : rest ⊆ cs := by
  obtain ⟨⟨before, after⟩, hcut, heq⟩ := Option.bind_eq_some_iff.1 h
  obtain ⟨rfl, -⟩ := Text.cutFirst_eq_some hcut
  dsimp only at heq
  split at heq
  · cases heq
    exact fun c hc => List.mem_append_right _ (List.mem_cons_of_mem _ hc)
  · cases heq

theorem ofText?_spec {text : String} {u : Url} (h : ofText? text = some u) :
    (∃ special rest, rest ⊆ text.toList ∧
      readTail special rest = (u.path, u.query, u.fragment)) ∧
    (isSpecial u.scheme = true → ∃ place host, '?' ∉ place ∧
      u.host = some host ∧ Host.read? place = some host) := by
  unfold ofText? at h
  obtain ⟨⟨scheme, rest⟩, hcut, h⟩ := Option.bind_eq_some_iff.1 h
  have hrest : rest ⊆ text.toList :=
    fun c hc => cleaned_subset _ (cutScheme_subset hcut hc)
  have hhosted : ∀ {cs : List Char}, cs ⊆ rest → readHosted scheme cs = some u →
      (∃ special rest, rest ⊆ text.toList ∧
        readTail special rest = (u.path, u.query, u.fragment)) ∧
      (isSpecial u.scheme = true → ∃ place host, '?' ∉ place ∧
        u.host = some host ∧ Host.read? place = some host) := by
    intro cs hcs h
    obtain ⟨hscheme, ⟨tail, htail, hread⟩, place, host, hplace, hhost,
        hspecial⟩ :=
      readHosted_spec h
    exact ⟨⟨_, tail, fun c hc => hrest (hcs (htail hc)), hread⟩,
      fun hs => ⟨place, host, hplace, hhost, hspecial (hscheme ▸ hs)⟩⟩
  dsimp only at h
  split at h
  · cases h
  · split at h
    · exact hhosted (List.dropWhile_sublist _).subset h
    · next hspecial =>
        split at h
        · exact hhosted (fun c hc =>
            List.mem_cons_of_mem _ (List.mem_cons_of_mem _ hc)) h
        · cases h
          exact ⟨⟨false, _, hrest, rfl⟩, fun hs => absurd hs hspecial⟩

end Url

/-! ## Hosts -/

namespace Host

theorem not_mem_toString {mark : Char} (hmark : mark.isDigit = false)
    (n : Nat) : mark ∉ (toString n).toList := by
  rw [Nat.toString_eq_ofList_toDigits, String.toList_ofList]
  exact Text.not_mem_toDigits hmark n

theorem not_mem_textV4 (n : Nat) : '?' ∉ (textV4 n).toList := by
  have hbyte := not_mem_toString (show '?'.isDigit = false by decide)
  have hdot : '?' ∉ ".".toList := by decide
  rw [textV4, String.toList_intercalate]
  simp only [List.map_cons, List.map_nil, List.intercalate_cons_cons,
    List.intercalate_singleton, List.mem_append, hbyte, hdot, or_self,
    not_false_eq_true]

theorem eq_of_toLower {c : Char} (h : c.toLower = '?') : c = '?' := by
  unfold Char.toLower at h
  split at h
  · next hupper =>
      have hval : c.val + 32 = 63 := congrArg Char.val h
      have hle : 65 ≤ c.val.toNat ∧ c.val.toNat ≤ 90 := hupper
      have hnat := congrArg UInt32.toNat hval
      rw [UInt32.toNat_add] at hnat
      have h32 : (32 : UInt32).toNat = 32 := rfl
      have h63 : (63 : UInt32).toNat = 63 := rfl
      omega
  · exact h

/-- A host that was read has no question mark, if it was read from a text
without one. -/
theorem not_mem_read {cs : List Char} {host : String} (h : read? cs = some host)
    (hcs : '?' ∉ cs) : '?' ∉ host.toList := by
  unfold read? at h
  split at h
  · split at h
    · cases h
      rw [String.toList_ofList]
      intro hmem
      obtain ⟨c, hc, hlower⟩ := List.mem_map.1 hmem
      exact hcs (eq_of_toLower hlower ▸ hc)
    · cases h
  · dsimp only at h
    split at h
    · cases h
    · next hname =>
        split at h
        · obtain ⟨n, -, rfl⟩ := Option.map_eq_some_iff.1 h
          exact not_mem_textV4 n
        · cases h
          rw [String.toList_ofList]
          intro hmem
          refine hname ?_
          rw [List.any_eq_true.2 ⟨'?', hmem, by decide⟩, Bool.or_true,
            Bool.true_or]

end Host

namespace Url

theorem not_mem_authority {text : String} {u : Url} (h : ofText? text = some u)
    (hspecial : isSpecial u.scheme = true) : '?' ∉ u.authority.toList := by
  obtain ⟨place, host, hplace, hhost, hread⟩ := (ofText?_spec h).2 hspecial
  have hnot := Host.not_mem_read hread hplace
  rw [authority, hhost]
  cases u.port with
  | none => exact hnot
  | some port =>
      dsimp only
      rw [String.toList_append, String.toList_append, List.mem_append,
        List.mem_append, not_or, not_or]
      exact ⟨⟨hnot, by decide⟩, Host.not_mem_toString (by decide) port⟩

/-- The query of what is asked for is the query of the address. -/
theorem cutFirst_target {u : Url} (hpath : '?' ∉ u.path) :
    (Text.cutFirst '?' u.target.toList).map (·.2) = u.query := by
  rw [target, String.toList_ofList]
  cases u.query with
  | none =>
      rw [Option.map_none, Option.getD_none, List.append_nil,
        Text.cutFirst_eq_none.2 hpath]
      rfl
  | some query =>
      rw [Option.map_some, Option.getD_some, Text.cutFirst_append hpath]
      rfl

end Url

/-! ## The query of a call -/

/-- The query that the address of a call has before anything is added to it. -/
def ownQuery (config : ClientConfig) (node : Node)
    (uri : String) : Option (List Char) :=
  (Url.ofText? (urlText config node uri)).bind (·.query)

/-- Neither the scheme nor the host that a call is addressed with has a question
mark. One that has begins a query of its own with it, which the call then goes
out with. -/
def IsPlain (config : ClientConfig) (node : Node) : Prop :=
  '?' ∉ config.scheme.toList ∧ '?' ∉ node.host.toList

instance (config : ClientConfig) (node : Node) :
    Decidable (IsPlain config node) :=
  inferInstanceAs (Decidable (_ ∧ _))

theorem not_mem_of_accepted {method : Method} {uri : String} {request : Request}
    (h : Request.new method uri = .ok request) : '?' ∉ uri.toList := by
  unfold Request.new at h
  split at h
  · cases h
  · split at h
    · cases h
    · next hmark => simpa using hmark

/-- What a request is accepted for gives its address no query. -/
theorem ownQuery_eq_none {config : ClientConfig} {node : Node} {method : Method}
    {uri : String} {accepted : Request} (hplain : IsPlain config node)
    (huri : Request.new method uri = .ok accepted) :
    ownQuery config node uri = none := by
  have htext : '?' ∉ (urlText config node uri).toList := by
    simp only [urlText, Node.address, String.toList_append, List.mem_append,
      not_or]
    exact ⟨⟨⟨hplain.1, by decide⟩, ⟨hplain.2, by decide⟩,
      Host.not_mem_toString (by decide) _⟩, not_mem_of_accepted huri⟩
  rw [ownQuery]
  cases hread : Url.ofText? (urlText config node uri) with
  | none => rfl
  | some url =>
      obtain ⟨⟨special, rest, hrest, htail⟩, -⟩ := Url.ofText?_spec hread
      have hnone := Url.readTail_of_not_mem special fun hmem =>
        htext (hrest hmem)
      rw [htail] at hnone
      exact hnone

namespace HttpRequest

/-- The query as the receiver of a request finds it, after the first question
mark. -/
def query? (r : HttpRequest) : Option (List Char) :=
  (Text.cutFirst '?' r.target.toList).map (·.2)

end HttpRequest

end Fanout.Http
