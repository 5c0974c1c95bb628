import Fanout.CommandLine.Invocation
import Fanout.Proofs.Results
import Fanout.Proofs.Uniform

/-!
# One name in several spellings

A header map keeps two spellings of one name as two entries, and a reader takes
the first that matches. So a caller who writes a name in two ways sends both
values, and it is up to the order of the map which of them is read. This file
says how far that goes: any of the values that were given last under one of the
spellings can be read, and nothing else can.

A map has one spelling of each name just if its caller gave no two, since the
protocol adds nothing that could read like a header of the caller. The command
line is such a caller: an entity brings a header of its own, and the flags can
bring it once more in another case.
-/

namespace Fanout

/-- The value that was given last under a name in any case. -/
def lastLike (name : String) (given : List (String × String)) : Option String :=
  Headers.find? name given.reverse

theorem mem_of_lastGiven {name value : String} {given : List (String × String)}
    (h : lastGiven name given = some value) : (name, value) ∈ given :=
  List.mem_reverse.1 (mem_of_valueAt? h)

theorem exists_lastGiven {entry : String × String}
    {given : List (String × String)} (h : entry ∈ given) :
    ∃ value, lastGiven entry.1 given = some value := by
  induction given using List.reverseRecOn with
  | nil => cases h
  | append_singleton given last ih =>
      simp only [lastGiven_snoc]
      split
      · exact ⟨last.2, rfl⟩
      · next hname =>
          refine ih ((List.mem_append.1 h).resolve_right fun hlast => ?_)
          rw [List.mem_singleton.1 hlast] at hname
          exact hname (beq_self_eq_true _)

theorem eq_of_mem_of_length_le_one {α : Type} {l : List α} (h : l.length ≤ 1)
    {a b : α} (ha : a ∈ l) (hb : b ∈ l) : a = b := by
  match l, h with
  | [c], _ => rw [List.mem_singleton.1 ha, List.mem_singleton.1 hb]

/-! ## What can be read -/

namespace Headers

/-- What is found by a name stands under one of its spellings. -/
theorem exists_spelling {name value : String} {headers : Headers}
    (h : headers.find? name = some value) :
    ∃ n, Text.sameIgnoringCase n name = true ∧
      valueAt? n headers = some value := by
  induction headers with
  | nil => cases h
  | cons entry rest ih =>
      rw [find?, List.find?_cons] at h
      cases hsame : Text.sameIgnoringCase entry.1 name with
      | true =>
          rw [hsame] at h
          exact ⟨entry.1,
            hsame, by rw [valueAt?, if_pos (beq_self_eq_true _)]; exact h⟩
      | false =>
          rw [hsame] at h
          obtain ⟨n, hn, hvalue⟩ := ih h
          have hne : entry.1 ≠ n := by
            rintro rfl
            rw [hn] at hsame
            cases hsame
          exact ⟨n,
            hn, by rw [valueAt?, if_neg (by simpa using hne)]; exact hvalue⟩

/-- In some order a reader comes first upon any entry that reads like the
name. -/
theorem exists_find?_iff {name value : String} {headers : Headers} :
    (∃ l : Headers, l.Perm headers ∧ l.find? name = some value) ↔
      ∃ n, Text.sameIgnoringCase n name = true ∧ (n, value) ∈ headers := by
  constructor
  · rintro ⟨l, hperm, hfound⟩
    obtain ⟨entry, hentry, rfl⟩ := Option.map_eq_some_iff.1 hfound
    have hsame : Text.sameIgnoringCase entry.1 name = true := by
      simpa using List.find?_some hentry
    exact ⟨entry.1, hsame, hperm.mem_iff.1 (List.mem_of_find?_eq_some hentry)⟩
  · rintro ⟨n, hsame, hmem⟩
    refine ⟨(n, value) :: headers.erase (n, value),
      (List.perm_cons_erase hmem).symm, ?_⟩
    rw [find?, List.find?_cons, hsame]
    rfl

theorem find?_isSome_iff {name : String} {headers : Headers} :
    (headers.find? name).isSome = true ↔
      ∃ entry ∈ headers, Text.sameIgnoringCase entry.1 name = true := by
  rw [find?, Option.isSome_map, List.find?_isSome]

/-- Where no name stands twice, no two read alike just if each is spelled in one
way. -/
theorem countP_like_le_one_iff {headers : Headers}
    (hnodup : headers.names.Nodup) :
    (∀ name, headers.countP
        (fun entry => Text.sameIgnoringCase entry.1 name) ≤ 1) ↔
      ∀ name ∈ headers.names, headers.Spelled name := by
  constructor
  · intro hone name hname n hn hsame
    have hcount := hone name
    have hmap :
        headers.countP (fun entry => Text.sameIgnoringCase entry.1 name) =
        (headers.names.filter (Text.sameIgnoringCase · name)).length := by
      rw [← List.countP_eq_length_filter, names, List.countP_map]
      rfl
    rw [hmap] at hcount
    exact eq_of_mem_of_length_le_one hcount
      (List.mem_filter.2 ⟨hn, hsame⟩)
      (List.mem_filter.2 ⟨hname, Text.sameIgnoringCase_refl name⟩)
  · intro hspelled name
    by_cases hany : ∃ n ∈ headers.names, Text.sameIgnoringCase n name = true
    · obtain ⟨n, hn, hsame⟩ := hany
      have hle := (hspelled n hn).countP_le_one hnodup
      refine Nat.le_trans (List.countP_mono_left fun entry _ hentry => ?_) hle
      rw [Text.sameIgnoringCase_comm] at hsame
      exact Text.sameIgnoringCase_trans hentry hsame
    · have hnone : headers.countP (fun entry =>
          Text.sameIgnoringCase entry.1 name) = 0 := by
        rw [List.countP_eq_zero]
        exact fun entry hentry hsame =>
          hany ⟨entry.1, List.mem_map_of_mem hentry, hsame⟩
      omega

end Headers

/-! ## What a call carries -/

namespace Outbound

variable (id seed : String) (r : Request) (given : List (String × String))

theorem mem_ofGiven_iff {name value : String} :
    (name, value) ∈ (ofGiven id seed r given).headers ↔
      valueAt? name (ofGiven id seed r given).headers = some value :=
  mem_iff_valueAt? (guarded_ofGiven id seed r given).ascending.nodup

/-- A name in a call is one that callers may set or one of the protocol's. -/
theorem isCallers_or_mem_reserved {name : String}
    (h : name ∈ (ofGiven id seed r given).headers.names) :
    Header.isCallers name = true ∨ name ∈ Header.reserved := by
  obtain ⟨⟨n, value⟩, hmem, rfl⟩ := List.mem_map.1 h
  rw [mem_ofGiven_iff, valueAt?_ofGiven] at hmem
  by_cases hcallers : Header.isCallers n = true
  · exact Or.inl hcallers
  · have hseed : Header.seed ≠ n := by
      rintro rfl
      exact hcallers (by decide)
    rw [if_neg fun h => hseed h.2, if_neg hcallers, Option.or_none] at hmem
    right
    rcases protocolValue_eq_some id r hmem with heq | ⟨-, heq⟩ | ⟨user, -, heq⟩
    all_goals
      rw [show n = _ from congrArg Prod.fst heq]
      simp [Header.reserved]

variable {id seed : String} {r : Request} {given : List (String × String)}

/-- What callers may set was given, or it is a seed that nothing which was given
reads like. -/
theorem given_or_seed {name value : String}
    (hname : Header.isCallers name = true)
    (hmem : (name, value) ∈ (ofGiven id seed r given).headers) :
    (name, value) ∈ given ∨ name = Header.seed ∧ bringsSeed given = false := by
  rw [mem_ofGiven_iff, valueAt?_ofGiven,
    protocolValue_of_isCallers hname, if_pos hname, Option.none_or] at hmem
  split at hmem
  · next hseed => exact Or.inr ⟨hseed.2.symm,
      (takesSeed_withHeaders.1 hseed.1).2⟩
  · exact Or.inl (mem_of_lastGiven hmem)

/-- If something was given under a name, the spellings of the name hold what was
given last under each, and no seed is made in their place. -/
theorem mem_ofGiven_like {name last : String}
    (hname : Header.isCallers name = true)
    (hlast : lastLike name given = some last) {n value : String}
    (hsame : Text.sameIgnoringCase n name = true) :
    (n, value) ∈ (ofGiven id seed r given).headers ↔
      lastGiven n given = some value := by
  have hn := Header.isCallers_of_same hname hsame
  obtain ⟨n', hsame', hgiven⟩ := Headers.exists_spelling hlast
  by_cases hseed : Text.sameIgnoringCase n Header.seed = true
  · rw [mem_like_seed hseed, if_neg]
    rintro ⟨-, hbrings⟩
    -- Something was given that reads like the name, and the name reads like a
    -- seed.
    rw [Text.sameIgnoringCase_comm] at hsame
    have hlike :=
      Text.sameIgnoringCase_trans hsame'
        (Text.sameIgnoringCase_trans hsame hseed)
    rw [bringsSeed_of_lastGiven hlike hgiven] at hbrings
    cases hbrings
  · have hne : Header.seed ≠ n := by
      rintro rfl
      exact hseed (Text.sameIgnoringCase_refl _)
    rw [mem_ofGiven_iff, valueAt?_ofGiven,
      if_neg fun h => hne h.2, protocolValue_of_isCallers hn, if_pos hn,
      Option.none_or]

/-- Just what was given last under some spelling of a name can be read under
it. -/
theorem exists_read_iff {name last : String}
    (hname : Header.isCallers name = true)
    (hlast : lastLike name given = some last) (value : String) :
    (∃ l : Headers, l.Perm (ofGiven id seed r given).headers ∧
      l.find? name = some value) ↔
        ∃ n, Text.sameIgnoringCase n name = true ∧
          lastGiven n given = some value := by
  rw [Headers.exists_find?_iff]
  exact exists_congr fun n => and_congr_right fun hsame =>
    mem_ofGiven_like hname hlast hsame

/-- The value given last is read in every order just if every spelling ends with
it. -/
theorem read_last_iff {name last : String}
    (hname : Header.isCallers name = true)
    (hlast : lastLike name given = some last) :
    (∀ l : Headers, l.Perm (ofGiven id seed r given).headers →
      l.find? name = some last) ↔
        ∀ n value, Text.sameIgnoringCase n name = true →
          lastGiven n given = some value →
        value = last := by
  constructor
  · intro hall n value hsame hgiven
    obtain ⟨l, hperm, hfound⟩ :=
      (exists_read_iff hname hlast value).2 ⟨n, hsame, hgiven⟩
    rw [hall l hperm] at hfound
    exact (Option.some.inj hfound).symm
  · intro hall l hperm
    obtain ⟨n, hsame, hgiven⟩ := Headers.exists_spelling hlast
    have hmem : (n, last) ∈ (ofGiven id seed r given).headers :=
      (mem_ofGiven_like hname hlast hsame).2 hgiven
    have hsome := Headers.find?_isSome_iff.2 ⟨_, hperm.mem_iff.2 hmem, hsame⟩
    obtain ⟨value, hvalue⟩ := Option.isSome_iff_exists.1 hsome
    obtain ⟨n', hsame', hgiven'⟩ :=
      (exists_read_iff hname hlast value).1 ⟨l, hperm, hvalue⟩
    rw [hvalue, hall n' value hsame' hgiven']

/-- No two headers of a call read alike just if no two that its caller gave
do. -/
theorem one_like_each_iff :
    (∀ name, (ofGiven id seed r given).headers.countP
      (fun entry => Text.sameIgnoringCase entry.1 name) ≤ 1) ↔
    ∀ entry ∈ given, ∀ entry' ∈ given, Header.isCallers entry.1 = true →
      Text.sameIgnoringCase entry.1 entry'.1 = true → entry.1 = entry'.1 := by
  have hguarded := guarded_ofGiven id seed r given
  rw [Headers.countP_like_le_one_iff hguarded.ascending.nodup]
  constructor
  · intro hspelled entry hentry entry' hentry' hcallers hsame
    have hnames : ∀ e ∈ given, Header.isCallers e.1 = true →
        e.1 ∈ (ofGiven id seed r given).headers.names := by
      intro e he hcallers
      obtain ⟨value, hvalue⟩ := exists_lastGiven he
      have hmem := (mem_ofGiven_iff id seed r given).2
        (valueAt?_ofGiven_callers id seed r given hcallers hvalue)
      exact List.mem_map.2 ⟨_, hmem, rfl⟩
    have hsame' := hsame
    rw [Text.sameIgnoringCase_comm] at hsame'
    exact hspelled entry'.1 (hnames entry' hentry'
      (Header.isCallers_of_same hcallers hsame'))
      entry.1 (hnames entry hentry hcallers) hsame
  · intro hgiven name hname n hn hsame
    rcases isCallers_or_mem_reserved id seed r given hname with hcallers |
      hreserved
    · have hcallers' := Header.isCallers_of_same hcallers hsame
      obtain ⟨⟨name, value⟩, hmem, rfl⟩ := List.mem_map.1 hname
      obtain ⟨⟨n, value'⟩, hmem', rfl⟩ := List.mem_map.1 hn
      rcases given_or_seed hcallers hmem with hold | ⟨rfl, hnone⟩
      · rcases given_or_seed hcallers' hmem' with hold' | ⟨rfl, hnone⟩
        · exact hgiven _ hold' _ hold hcallers' hsame
        · rw [Text.sameIgnoringCase_comm] at hsame
          exact absurd (List.any_eq_true.2 ⟨_, hold, hsame⟩)
            (Bool.not_eq_true _ ▸ hnone)
      · rcases given_or_seed hcallers' hmem' with hold' | ⟨rfl, -⟩
        · exact absurd (List.any_eq_true.2 ⟨_, hold', hsame⟩)
            (Bool.not_eq_true _ ▸ hnone)
        · rfl
    · exact hguarded.spelled name hreserved n hn hsame

end Outbound

/-! ## The command line as a caller -/

theorem Request.withHeaders_append (r : Request)
    (given given' : List (String × String)) :
    r.withHeaders (given ++ given') =
      (r.withHeaders given).withHeaders given' :=
  List.foldl_append

theorem Request.withHeaders_singleton (r : Request) (name value : String) :
    r.withHeaders [(name, value)] = r.withHeader name value := rfl

/-- What headers become depends on no other part of a request. -/
theorem Request.headers_withHeaders_congr {r r' : Request}
    (h : r.headers = r'.headers) (given : List (String × String)) :
    (r.withHeaders given).headers = (r'.withHeaders given).headers := by
  induction given using List.reverseRecOn with
  | nil => exact h
  | append_singleton given entry ih =>
      rw [withHeaders_snoc, withHeaders_snoc, withHeader, withHeader]
      split
      · rw [ih]
      · exact ih

theorem Request.headers_new {method : Method} {uri : String} {r : Request}
    (h : Request.new method uri = .ok r) : r.headers = [] := by
  unfold Request.new at h
  split_ifs at h
  cases h
  rfl

namespace Arguments

/-- The headers that a command line gives: first the one that comes with an
entity. -/
def given (a : Arguments) : List (String × String) :=
  (a.data.map fun _ => ("Content-Type", "application/json")).toList ++ a.headers

theorem withData_headers {data : Option String} {r r' : Request}
    (h : withData data r = .ok r') : r'.headers = (r.withHeaders
      (data.map fun _ =>
        ("Content-Type", "application/json")).toList).headers := by
  unfold withData at h
  cases data with
  | none =>
      cases h
      rfl
  | some text =>
      dsimp only at h
      cases hentity : Json.ofText? text with
      | none =>
          rw [hentity] at h
          cases h
      | some entity =>
          rw [hentity] at h
          cases h
          rw [Option.map_some, Option.toList_some,
            Request.withHeaders_singleton]

/-- The request of a command line has the headers that were given, and no
others. -/
theorem request_eq {a : Arguments} {r : Request} (h : a.request = .ok r) :
    r = Request.withHeaders { r with headers := [] } a.given := by
  suffices hheaders : r.headers =
      (Request.withHeaders { r with headers := [] } a.given).headers by
    rw [Request.withHeaders_eq, ← hheaders]
  unfold request at h
  cases hmethod : Method.ofText? (Text.upper a.method) with
  | none =>
      rw [hmethod] at h
      cases h
  | some method =>
      rw [hmethod] at h
      obtain ⟨blank, hnew, h⟩ := ok_of_bind h
      obtain ⟨filled, hdata, h⟩ := ok_of_bind h
      cases h
      have hblank : blank.headers = [] :=
        Request.headers_new (ok_of_mapError hnew)
      dsimp only
      rw [given, Request.withHeaders_append]
      refine Request.headers_withHeaders_congr ?_ a.headers
      rw [withData_headers hdata]
      exact Request.headers_withHeaders_congr hblank _

end Arguments

namespace Outbound

/-- A call has one header for each name, whatever its case, just if its caller
spelled every name in one way, and the command line is such a caller. Under a
name that was given, in any case, a receiver reads what was given last under one
of its spellings; which of them, the order of the map decides, so that the value
given last is read in every order just if every spelling of the name ends with
that value. -/
theorem spelling_decides (id seed : String) (r : Request)
    (given : List (String × String)) :
    let call := (ofGiven id seed r given).headers
    ((∀ name, call.countP (fun entry => Text.sameIgnoringCase entry.1 name) ≤
      1) ↔ ∀ entry ∈ given, ∀ entry' ∈ given, Header.isCallers entry.1 = true →
        Text.sameIgnoringCase entry.1 entry'.1 = true → entry.1 = entry'.1) ∧
    (∀ name last, Header.isCallers name = true →
      lastLike name given = some last →
        ∀ value, (∃ l : Headers, l.Perm call ∧ l.find? name = some value) ↔
        ∃ n, Text.sameIgnoringCase n name = true ∧
          lastGiven n given = some value) ∧
    (∀ name last, Header.isCallers name = true →
      lastLike name given = some last →
        ((∀ l : Headers, l.Perm call → l.find? name = some last) ↔
        ∀ n value, Text.sameIgnoringCase n name = true →
          lastGiven n given = some value → value = last)) ∧
    ∀ (a : Arguments) (r : Request), a.request = .ok r →
      ofRequest id seed r = ofGiven id seed r a.given := by
  intro call
  refine ⟨one_like_each_iff, fun name last hname hlast =>
    exists_read_iff hname hlast, fun name last hname hlast =>
      read_last_iff hname hlast, fun a r hrequest => ?_⟩
  rw [ofGiven, ← Arguments.request_eq hrequest]

/-- An entity on the command line, and a flag that says what it is in another
case. -/
theorem spelling_decides_content_type :
    let a : Arguments :=
      { uri := "/api/flow", method := "put", data := some "[]",
        headers := [("content-type", "text/plain")] }
    ∃ r, a.request = .ok r ∧
      ofRequest "t1" "s1" r = ofGiven "t1" "s1" r a.given ∧
      Header.isCallers "CONTENT-TYPE" = true ∧
      lastLike "CONTENT-TYPE" a.given = some "text/plain" ∧
      (∃ l : Headers, l.Perm (ofRequest "t1" "s1" r).headers ∧
        l.find? "CONTENT-TYPE" = some "application/json") ∧
      ∃ l : Headers, l.Perm (ofRequest "t1" "s1" r).headers ∧
        l.find? "CONTENT-TYPE" = some "text/plain" := by
  intro a
  obtain ⟨r, hrequest⟩ : ∃ r, a.request = .ok r := ok_of_isOk (by decide)
  have hcallers : Header.isCallers "CONTENT-TYPE" = true := by decide
  have hlast : lastLike "CONTENT-TYPE" a.given = some "text/plain" := by decide
  obtain ⟨-, hread, -, hcommand⟩ := spelling_decides "t1" "s1" r a.given
  have hread := hread "CONTENT-TYPE" "text/plain" hcallers hlast
  have hcall := hcommand a r hrequest
  refine ⟨r, hrequest, hcall, hcallers, hlast, ?_⟩
  rw [hcall]
  exact ⟨(hread "application/json").2 ⟨"Content-Type", by decide, by decide⟩,
    (hread "text/plain").2 ⟨"content-type", by decide, by decide⟩⟩

/-- Both values are sent, and a receiver that goes through the headers the other
way round reads the other one. -/
theorem two_spellings_sent :
    let given := [("X-A", "1"), ("x-a", "2")]
    let call := ofGiven "t1" "s1" { method := .put, uri := "/api/flow" } given
    let reversed : Outbound := { call with headers := call.headers.reverse }
    call.headers.countP (fun entry => Text.sameIgnoringCase entry.1 "x-a") = 2 ∧
      lastLike "x-a" given = some "2" ∧ call.header? "x-a" = some "1" ∧
      reversed.header? "x-a" = some "2" := by
  decide

end Outbound

end Fanout
