import Fanout.Outbound
import Fanout.Proofs.Ascending
import Mathlib.Data.List.Induction
import Mathlib.Logic.Basic

/-!
# What a receiver reads off the headers

Names are kept as they were given and read without regard to case, and whoever
reads takes the first entry that matches. A caller who could slip in a second
spelling of a protocol header would leave it to the order of the map which of
the two is read. So the order must not matter, and it does not as long as nobody
but the protocol itself writes a name that reads like one of its own: `Spelled`
says that of one name, and `Guarded` keeps it for all reserved names while
headers are added one after the other.

The other half of the file says what the map holds. Under each name there is the
value that was given last, if a caller may set it at all, and the headers of the
protocol are put on top of that; only the seed gives way to what the caller has
brought.
-/

namespace Fanout

theorem Text.sameIgnoringCase_trans {a b c : String}
    (hab : sameIgnoringCase a b = true) (hbc : sameIgnoringCase b c = true) :
    sameIgnoringCase a c = true := by
  simp only [sameIgnoringCase, beq_iff_eq] at *
  exact hab.trans hbc

/-! ## Tables in any order -/

section

variable {α β : Type} [BEq α] [LawfulBEq α]

theorem mem_of_valueAt? {l : List (α × β)} {key : α} {value : β}
    (h : valueAt? key l = some value) : (key, value) ∈ l := by
  induction l with
  | nil => cases h
  | cons entry rest ih =>
      rw [valueAt?] at h
      split at h
      · next hk =>
          rw [← eq_of_beq hk, ← Option.some.inj h]
          exact List.mem_cons_self
      · exact List.mem_cons_of_mem _ (ih h)

/-- Where no key stands twice, an entry is in the table just if it is found by
its key. -/
theorem mem_iff_valueAt? {l : List (α × β)} (hnodup : (l.map (·.1)).Nodup)
    {key : α} {value : β} : (key, value) ∈ l ↔ valueAt? key l = some value := by
  induction l with
  | nil => simp [valueAt?]
  | cons entry rest ih =>
      simp only [List.map_cons, List.nodup_cons] at hnodup
      rw [valueAt?, List.mem_cons]
      by_cases hk : entry.1 = key
      · subst hk
        have hrest : (entry.1, value) ∉ rest := fun hmem =>
          hnodup.1 (List.mem_map.2 ⟨_, hmem, rfl⟩)
        simp [hrest, Prod.ext_iff, eq_comm]
      · have hne : (key, value) ≠ entry := fun he => hk (by rw [← he])
        simp [hk, hne, ih hnodup.2]

theorem valueAt?_perm {l l' : List (α × β)} (hperm : l.Perm l')
    (hnodup : (l'.map (·.1)).Nodup) (key : α) :
    valueAt? key l = valueAt? key l' := by
  have hnodup' : (l.map (·.1)).Nodup := (hperm.map _).nodup_iff.2 hnodup
  refine Option.ext fun value => ?_
  rw [← mem_iff_valueAt? hnodup', ← mem_iff_valueAt? hnodup, hperm.mem_iff]

end

/-- The value that was given last under a name. -/
def lastGiven (name : String)
    (given : List (String × String)) : Option String :=
  valueAt? name given.reverse

theorem lastGiven_snoc (name : String) (given : List (String × String))
    (entry : String × String) :
    lastGiven name (given ++ [entry]) =
      if entry.1 == name then some entry.2 else lastGiven name given := by
  rw [lastGiven, List.reverse_append]
  rfl

/-! ## Names that nobody else may write -/

namespace Header

/-- A name that reads like one that callers may set is one that they may set. -/
theorem isCallers_of_same {name name' : String} (h : isCallers name' = true)
    (hsame : Text.sameIgnoringCase name name' = true) :
    isCallers name = true := by
  have hlike : ∀ names : List String,
      (names.any fun n => Text.sameIgnoringCase n name') = false →
      (names.any fun n => Text.sameIgnoringCase n name) = false := by
    intro names hnone
    rw [List.any_eq_false] at hnone ⊢
    exact fun n hn hsame' => hnone n hn
      (Text.sameIgnoringCase_trans hsame' hsame)
  simp only [isCallers, isHopByHop, isReserved, Bool.and_eq_true,
    Bool.not_eq_true'] at h ⊢
  exact ⟨hlike _ h.1, hlike _ h.2⟩

theorem not_isCallers_of_mem_reserved {name : String} (h : name ∈ reserved) :
    isCallers name = false := by
  revert name
  decide

theorem not_isHopByHop_of_mem_reserved {name : String} (h : name ∈ reserved) :
    isHopByHop name = false := by
  revert name
  decide

/-- A reserved name is no other reserved name, also in another case. -/
theorem eq_of_same_of_mem_reserved {name name' : String} (h : name ∈ reserved)
    (h' : name' ∈ reserved) (hsame : Text.sameIgnoringCase name name' = true) :
    name = name' := by
  have hall : ∀ n ∈ reserved, ∀ n' ∈ reserved, Text.sameIgnoringCase n n' =
      true → n = n' := by
    decide
  exact hall name h name' h' hsame

end Header

namespace Headers

/-- The names in a map. -/
abbrev names (headers : Headers) : List String := headers.map (·.1)

/-- Whatever reads like a name in these headers is spelled like it. -/
def Spelled (name : String) (headers : Headers) : Prop :=
  ∀ n ∈ headers.names, Text.sameIgnoringCase n name = true → n = name

/-- The reader, who ignores case, finds what is written under the very name. -/
theorem Spelled.find?_eq {name : String} {headers : Headers}
    (h : Spelled name headers) :
    headers.find? name = valueAt? name headers := by
  rw [find?]
  induction headers with
  | nil => rfl
  | cons entry rest ih =>
      have hrest : Spelled name rest :=
        fun n hn => h n (List.mem_cons_of_mem _ hn)
      rw [List.find?_cons, valueAt?]
      cases hsame : Text.sameIgnoringCase entry.1 name with
      | true =>
          have heq := h entry.1 List.mem_cons_self hsame
          simp [heq]
      | false =>
          have hne : entry.1 ≠ name := by
            intro heq
            rw [heq, Text.sameIgnoringCase_refl] at hsame
            cases hsame
          simpa [hne] using ih hrest

/-- No name stands twice, none is hop-by-hop, and the reserved names are spelled
as the protocol spells them. -/
structure Guarded (headers : Headers) : Prop where
  ascending : IsAscending headers.names
  hopByHop : ∀ n ∈ headers.names, Header.isHopByHop n = false
  spelled : ∀ name ∈ Header.reserved, Spelled name headers

theorem guarded_nil : Guarded [] where
  ascending := isAscending_nil
  hopByHop _ h := nomatch h
  spelled _ _ _ h := nomatch h

theorem mem_names_put {n name value : String} {headers : Headers} :
    n ∈ (headers.put name value).names ↔ n = name ∨ n ∈ headers.names := by
  rw [names, put, map_fst_putAscending, mem_insertAscending]

/-- A header may be added if it is a caller's, or if it is the protocol that
adds it. -/
theorem Guarded.put {headers : Headers} (h : Guarded headers) {name : String}
    (hname : Header.isCallers name = true ∨ name ∈ Header.reserved)
    (value : String) : Guarded (headers.put name value) where
  ascending := by
    rw [names, Headers.put, map_fst_putAscending]
    exact isAscending_insertAscending h.ascending
  hopByHop n hn := by
    rcases mem_names_put.1 hn with rfl | hold
    · rcases hname with hcallers | hreserved
      · simp only [Header.isCallers, Bool.and_eq_true,
          Bool.not_eq_true'] at hcallers
        exact hcallers.1
      · exact Header.not_isHopByHop_of_mem_reserved hreserved
    · exact h.hopByHop n hold
  spelled reserved hreserved n hn hsame := by
    rcases mem_names_put.1 hn with rfl | hold
    · rcases hname with hcallers | hmem
      · -- A name that reads like a reserved one is not for callers.
        rw [Text.sameIgnoringCase_comm] at hsame
        have hcallers' := Header.isCallers_of_same hcallers hsame
        rw [Header.not_isCallers_of_mem_reserved hreserved] at hcallers'
        cases hcallers'
      · exact Header.eq_of_same_of_mem_reserved hmem hreserved hsame
    · exact h.spelled reserved hreserved n hold hsame

theorem has_iff {name : String} {headers : Headers} :
    headers.has name = true ↔ ∃ n ∈ headers.names,
      Text.sameIgnoringCase n name = true := by
  simp [has]

theorem valueAt?_put (name name' value : String) (headers : Headers) :
    valueAt? name' (headers.put name value) =
      if name = name' then some value else valueAt? name' headers := by
  rw [put, valueAt?_putAscending]
  exact if_congr beq_iff_eq rfl rfl

end Headers

/-! ## The caller's headers -/

namespace Request

theorem withHeaders_snoc (r : Request) (given : List (String × String))
    (entry : String × String) :
    r.withHeaders (given ++ [entry]) =
      (r.withHeaders given).withHeader entry.1 entry.2 := by
  rw [withHeaders, List.foldl_append]
  rfl

theorem withHeaders_eq (r : Request) (given : List (String × String)) :
    r.withHeaders given =
      { r with headers := (r.withHeaders given).headers } := by
  induction given using List.reverseRecOn with
  | nil => rfl
  | append_singleton given entry ih =>
      rw [withHeaders_snoc, withHeader]
      split
      · rw [ih]
      · exact ih

/-- Under a name there is what was given last, if it is a name for callers. -/
theorem valueAt?_withHeaders {r : Request} (hr : r.headers = []) (name : String)
    (given : List (String × String)) :
    valueAt? name (r.withHeaders given).headers =
      if Header.isCallers name = true then lastGiven name given else none := by
  induction given using List.reverseRecOn with
  | nil =>
      show valueAt? name r.headers = _
      simp [hr, lastGiven, valueAt?]
  | append_singleton given entry ih =>
      rw [withHeaders_snoc, withHeader, lastGiven_snoc]
      by_cases he : entry.1 = name
      · subst he
        by_cases hc : Header.isCallers entry.1 = true
        · simp [hc, Headers.valueAt?_put]
        · simp [hc, ih]
      · by_cases hc : Header.isCallers entry.1 = true
        · simp [hc, he, Headers.valueAt?_put, ih]
        · simp [hc, he, ih]

theorem guarded_withHeaders {r : Request} (hr : r.headers = [])
    (given : List (String × String)) :
    (r.withHeaders given).headers.Guarded := by
  induction given using List.reverseRecOn with
  | nil =>
      show r.headers.Guarded
      rw [hr]
      exact Headers.guarded_nil
  | append_singleton given entry ih =>
      rw [withHeaders_snoc, withHeader]
      split
      · next hc => exact ih.put (Or.inl hc) _
      · exact ih

end Request

/-! ## The headers of the protocol -/

namespace Headers

/-- Whoever looks a reserved name up finds the same, in whatever order the map
is read. -/
theorem Guarded.find?_perm {headers l : Headers} (h : Guarded headers)
    (hperm : l.Perm headers) {name : String} (hname : name ∈ Header.reserved) :
    l.find? name = valueAt? name headers := by
  have hspelled : Spelled name l := fun n hn =>
    h.spelled name hname n ((hperm.map _).mem_iff.1 hn)
  rw [hspelled.find?_eq, valueAt?_perm hperm h.ascending.nodup]

/-- Where no name stands twice, one that is spelled in one way is read off one
entry. -/
theorem Spelled.countP_le_one {name : String} {headers : Headers}
    (h : Spelled name headers) (hnodup : headers.names.Nodup) :
    headers.countP (fun entry => Text.sameIgnoringCase entry.1 name) ≤ 1 := by
  have hmap : headers.countP (fun entry => Text.sameIgnoringCase entry.1 name) =
      headers.names.countP (Text.sameIgnoringCase · name) := by
    rw [names, List.countP_map]
    rfl
  have hle : headers.names.countP (Text.sameIgnoringCase · name) ≤
      headers.names.countP (· == name) :=
    List.countP_mono_left fun n hn hsame => by simp [h n hn hsame]
  have hcount := List.nodup_iff_count.1 hnodup name
  rw [List.count] at hcount
  omega

/-- No name stands twice, none is hop-by-hop in any case, and of the names that
read like a reserved one there is at most one. -/
structure Unambiguous (headers : Headers) : Prop where
  nodup : headers.names.Nodup
  hopByHop : ∀ entry ∈ headers, Header.isHopByHop entry.1 = false
  reserved : ∀ name ∈ Header.reserved,
    headers.countP (fun entry => Text.sameIgnoringCase entry.1 name) ≤ 1

theorem Guarded.unambiguous {headers : Headers} (h : Guarded headers) :
    Unambiguous headers where
  nodup := h.ascending.nodup
  hopByHop entry hentry := h.hopByHop entry.1 (List.mem_map_of_mem hentry)
  reserved name hname := (h.spelled name hname).countP_le_one h.ascending.nodup

/-- What a receiver makes of headers. -/
structure Reads (headers : Headers) (id : String) (indicate probe : Bool)
    (chain : Option String) : Prop where
  requestId : headers.requestId? = some id
  isReplicated : headers.isReplicated = indicate
  isProbe : headers.isProbe = probe
  chain : headers.find? Header.entitiesChain = chain

/-- The receiver reads off what is written under the reserved names. -/
theorem Guarded.reads {headers l : Headers} (h : Guarded headers)
    (hperm : l.Perm headers) {id : String} {indicate probe : Bool}
    {chain : Option String}
    (hid : valueAt? Header.transactionId headers = some id)
    (hindicate : valueAt? Header.replicated headers =
      if indicate then some "true" else none)
    (hprobe : valueAt? Header.expectation headers =
      if probe then some Header.expectationValue else none)
    (hchain : valueAt? Header.entitiesChain headers = chain) :
    Reads l id indicate probe chain where
  requestId := by
    rw [requestId?, h.find?_perm hperm (by decide), hid]
  isReplicated := by
    rw [isReplicated, h.find?_perm hperm (by decide), hindicate]
    cases indicate with
    | true => simp [Text.sameIgnoringCase_refl]
    | false => rfl
  isProbe := by
    rw [isProbe, h.find?_perm hperm (by decide), hprobe]
    cases probe with
    | true => simp [Text.sameIgnoringCase_refl]
    | false => rfl
  chain := by
    rw [h.find?_perm hperm (by decide), hchain]

end Headers

namespace Outbound

/-- What the protocol itself writes under a name. -/
def protocolValue (id : String) (r : Request) (name : String) : Option String :=
  if name = Header.transactionId then some id
  else if name = Header.replicated then if r.indicate then some "true" else none
  else if name = Header.entitiesChain then r.user.map ActingUser.chain
  else none

/-- The headers of a call before a seed is put on. -/
def unseeded (id : String) (r : Request) : Headers :=
  let headers := r.headers.put Header.transactionId id
  let headers :=
    if r.indicate then headers.put Header.replicated "true" else headers
  match r.user with
  | some user => headers.put Header.entitiesChain user.chain
  | none => headers

theorem guarded_unseeded {r : Request} (h : r.headers.Guarded) (id : String) :
    (unseeded id r).Guarded := by
  have hid : (r.headers.put Header.transactionId id).Guarded :=
    h.put (Or.inr (by decide)) id
  have hindicate : Headers.Guarded
      (if r.indicate then (r.headers.put Header.transactionId id).put
        Header.replicated "true" else r.headers.put
          Header.transactionId id) := by
    split
    · exact hid.put (Or.inr (by decide)) _
    · exact hid
  unfold unseeded
  dsimp only
  split
  · exact hindicate.put (Or.inr (by decide)) _
  · exact hindicate

theorem valueAt?_unseeded (id : String) (r : Request) (name : String) :
    valueAt? name (unseeded id r) =
      (protocolValue id r name).or (valueAt? name r.headers) := by
  have hne : Header.transactionId ≠ Header.replicated ∧
      Header.transactionId ≠ Header.entitiesChain ∧
      Header.replicated ≠ Header.entitiesChain := by decide
  unfold unseeded protocolValue
  dsimp only
  split <;> split <;> simp only [Headers.valueAt?_put, *]
  all_goals grind

/-- Whether a call takes the seed that is made for it: its request makes things,
and no header of the caller reads like a seed. -/
def takesSeed (r : Request) :
    Bool := r.method == .post && !r.headers.has Header.seed

theorem has_seed_unseeded (id : String) (r : Request) :
    (unseeded id r).has Header.seed = r.headers.has Header.seed := by
  have hput : ∀ {name value : String} {headers : Headers},
      Text.sameIgnoringCase name Header.seed = false →
      (headers.put name value).has Header.seed = headers.has Header.seed := by
    intro name value headers hname
    rw [Bool.eq_iff_iff, Headers.has_iff, Headers.has_iff]
    simp [Headers.mem_names_put, hname]
  have hid : Text.sameIgnoringCase Header.transactionId Header.seed =
      false := by decide
  have hreplicated : Text.sameIgnoringCase Header.replicated Header.seed =
      false := by decide
  have hchain : Text.sameIgnoringCase Header.entitiesChain Header.seed =
      false := by decide
  unfold unseeded
  dsimp only
  split <;> split <;> simp only [hput hid, hput hreplicated, hput hchain]

theorem headersOf_eq (id seed : String) (r : Request) :
    headersOf id seed r =
      if takesSeed r then (unseeded id r).put Header.seed seed
      else unseeded id r := by
  rw [takesSeed, ← has_seed_unseeded id r]
  rfl

theorem guarded_headersOf {r : Request} (h : r.headers.Guarded)
    (id seed : String) : (headersOf id seed r).Guarded := by
  rw [headersOf_eq]
  split
  · exact (guarded_unseeded h id).put (Or.inl (by decide)) seed
  · exact guarded_unseeded h id

theorem valueAt?_headersOf (id seed : String) (r : Request) (name : String) :
    valueAt? name (headersOf id seed r) =
      if takesSeed r ∧ Header.seed = name then some seed
      else (protocolValue id r name).or (valueAt? name r.headers) := by
  rw [headersOf_eq]
  by_cases hseed : takesSeed r = true
  · by_cases hname : Header.seed = name
    · simp [hseed, hname, Headers.valueAt?_put]
    · simp [hseed, hname, Headers.valueAt?_put, valueAt?_unseeded]
  · simp [hseed, valueAt?_unseeded]

theorem protocolValue_of_isCallers {name : String}
    (h : Header.isCallers name = true) (id : String) (r : Request) :
    protocolValue id r name = none := by
  have hne : ∀ n ∈ Header.reserved, name ≠ n := by
    rintro n hn rfl
    rw [Header.not_isCallers_of_mem_reserved hn] at h
    cases h
  have hid := hne Header.transactionId (by decide)
  have hreplicated := hne Header.replicated (by decide)
  have hchain := hne Header.entitiesChain (by decide)
  simp [protocolValue, hid, hreplicated, hchain]

/-! ## Both ends agree -/

/-- The call of a request whose caller gave these headers one after the
other. -/
def ofGiven (id seed : String) (r : Request)
    (given : List (String × String)) : Outbound :=
  ofRequest id seed (Request.withHeaders { r with headers := [] } given)

variable (id seed : String) (r : Request) (given : List (String × String))

theorem guarded_ofGiven : (ofGiven id seed r given).headers.Guarded :=
  guarded_headersOf (Request.guarded_withHeaders rfl given) id seed

/-- Under each name there is the seed, the header of the protocol, or what was
given last. -/
theorem valueAt?_ofGiven (name : String) :
    valueAt? name (ofGiven id seed r given).headers =
      if takesSeed (Request.withHeaders { r with headers := [] } given) ∧
        Header.seed = name then
        some seed
      else (protocolValue id r name).or
        (if Header.isCallers name =
          true then lastGiven name given else none) := by
  have hprotocol : protocolValue id
      (Request.withHeaders { r with headers := [] } given) name =
      protocolValue id r name := by
    rw [Request.withHeaders_eq]
    rfl
  rw [ofGiven, ofRequest, valueAt?_headersOf, Request.valueAt?_withHeaders rfl,
    hprotocol]

theorem valueAt?_ofGiven_reserved {name : String}
    (hname : name ∈ Header.reserved) :
    valueAt? name (ofGiven id seed r given).headers =
      protocolValue id r name := by
  have hseed : Header.seed ≠ name := by
    rintro rfl
    revert hname
    decide
  rw [valueAt?_ofGiven, if_neg fun h => hseed h.2,
    Header.not_isCallers_of_mem_reserved hname]
  simp

/-- A seed is made only where the caller has given none, so that it takes the
place of nothing. -/
theorem valueAt?_ofGiven_callers {name value : String}
    (hname : Header.isCallers name = true)
    (hlast : lastGiven name given = some value) :
    valueAt? name (ofGiven id seed r given).headers = some value := by
  have hheld :
      valueAt? name (Request.withHeaders { r with headers := [] }
        given).headers =
      some value := by
    rw [Request.valueAt?_withHeaders rfl, if_pos hname, hlast]
  rw [valueAt?_ofGiven, if_neg]
  · simp [protocolValue_of_isCallers hname, hname, hlast]
  · rintro ⟨hseed, rfl⟩
    have hmem := (mem_iff_valueAt?
      (Request.guarded_withHeaders (r := { r with headers := [] }) rfl
        given).ascending.nodup).2
      hheld
    have hhas := Headers.has_iff.2
      ⟨Header.seed, List.mem_map_of_mem hmem, Text.sameIgnoringCase_refl _⟩
    simp [takesSeed, hhas] at hseed

/-- The probe has one header more, and no receiver can take the call itself for
it. -/
theorem valueAt?_probe (name : String) :
    valueAt? name (ofGiven id seed r given).probe.headers =
      if Header.expectation = name then some Header.expectationValue
      else valueAt? name (ofGiven id seed r given).headers :=
  Headers.valueAt?_put _ _ _ _

theorem guarded_probe : (ofGiven id seed r given).probe.headers.Guarded :=
  (guarded_ofGiven id seed r given).put (Or.inr (by decide)) _

/-- A receiver reads off the call of a request what was sent. -/
theorem reads_ofGiven {l : Headers}
    (hperm : l.Perm (ofGiven id seed r given).headers) :
    l.Reads id r.indicate false (r.user.map ActingUser.chain) := by
  have hreserved : ∀ {name}, name ∈ Header.reserved →
      valueAt? name (ofGiven id seed r given).headers =
        protocolValue id r name :=
    fun hname => valueAt?_ofGiven_reserved id seed r given hname
  apply (guarded_ofGiven id seed r given).reads hperm
  · exact hreserved (by decide)
  · exact hreserved (by decide)
  · exact hreserved (by decide)
  · exact hreserved (by decide)

theorem reads_probe {l : Headers}
    (hperm : l.Perm (ofGiven id seed r given).probe.headers) :
    l.Reads id r.indicate true (r.user.map ActingUser.chain) := by
  have hprobe : ∀ {name}, name ∈ Header.reserved →
      valueAt? name (ofGiven id seed r given).probe.headers =
        if Header.expectation = name then some Header.expectationValue
        else protocolValue id r name := fun hname => by
    rw [valueAt?_probe, valueAt?_ofGiven_reserved id seed r given hname]
  apply (guarded_probe id seed r given).reads hperm
  · exact hprobe (by decide)
  · exact hprobe (by decide)
  · exact hprobe (by decide)
  · exact hprobe (by decide)

theorem mem_probe (entry : String × String) :
    entry ∈ (ofGiven id seed r given).probe.headers ↔
      entry = (Header.expectation, Header.expectationValue) ∨
        entry ∈ (ofGiven id seed r given).headers := by
  obtain ⟨name, value⟩ := entry
  have hnone : valueAt? Header.expectation (ofGiven id seed r given).headers =
      none :=
    valueAt?_ofGiven_reserved id seed r given (by decide)
  rw [mem_iff_valueAt? (guarded_probe id seed r given).ascending.nodup,
    valueAt?_probe, mem_iff_valueAt?
      (guarded_ofGiven id seed r given).ascending.nodup]
  by_cases hname : Header.expectation = name
  · subst hname
    simp [hnone, eq_comm]
  · simp [hname, Ne.symm hname]

/-- What is in the headers of a request that makes nothing was given by its
caller, or it is one of the protocol's. -/
theorem given_or_protocol {name value : String} (hmethod : r.method ≠ .post)
    (hmem : (name, value) ∈ (ofGiven id seed r given).headers) :
    Header.isCallers name = true ∧ lastGiven name given = some value ∨
      protocolValue id r name = some value := by
  have hnoSeed :
      takesSeed (Request.withHeaders { r with headers := [] } given) =
        false := by
    rw [takesSeed, Request.withHeaders_eq]
    simp [hmethod]
  rw [mem_iff_valueAt? (guarded_ofGiven id seed r given).ascending.nodup,
    valueAt?_ofGiven, hnoSeed] at hmem
  by_cases hcallers : Header.isCallers name = true
  · simpa [hcallers, protocolValue_of_isCallers hcallers] using hmem
  · simpa [hcallers] using hmem

theorem protocolValue_eq_some {name value : String}
    (h : protocolValue id r name = some value) :
    (name, value) = (Header.transactionId, id) ∨
      r.indicate = true ∧ (name, value) = (Header.replicated, "true") ∨
      ∃ user, r.user = some user ∧
        (name, value) = (Header.entitiesChain, user.chain) := by
  unfold protocolValue at h
  split at h
  · next hname =>
      cases h
      exact Or.inl (by rw [hname])
  · split at h
    · next hname =>
        by_cases hindicate : r.indicate = true
        · rw [if_pos hindicate] at h
          cases h
          exact Or.inr (Or.inl ⟨hindicate, by rw [hname]⟩)
        · rw [if_neg hindicate] at h
          cases h
    · split at h
      · next hname =>
          obtain ⟨user, huser, rfl⟩ := Option.map_eq_some_iff.1 h
          exact Or.inr (Or.inr ⟨user, huser, by rw [hname]⟩)
      · cases h

/-- Whatever headers a caller gives, and in whatever order a receiver goes
through what it got, it reads the identifier, the marks and the user that were
sent. A probe is the call with one header more. Nothing that a caller may give
is lost, and a request that makes nothing carries nothing else. -/
theorem read_in_any_order :
    let call := ofGiven id seed r given
    (call.headers.Unambiguous ∧ ∀ l : Headers, l.Perm call.headers →
      l.Reads id r.indicate false (r.user.map ActingUser.chain)) ∧
    (call.probe.headers.Unambiguous ∧ ∀ l : Headers, l.Perm call.probe.headers →
      l.Reads id r.indicate true (r.user.map ActingUser.chain)) ∧
    (call.probe = { call with headers := call.probe.headers } ∧
      ∀ entry, entry ∈ call.probe.headers ↔
        entry = (Header.expectation, Header.expectationValue) ∨
        entry ∈ call.headers) ∧
    (∀ name value, Header.isCallers name = true →
      lastGiven name given = some value → (name, value) ∈ call.headers) ∧
    (r.method ≠ .post → ∀ name value, (name, value) ∈ call.headers →
      Header.isCallers name = true ∧ lastGiven name given = some value ∨
      (name, value) = (Header.transactionId, id) ∨
      r.indicate = true ∧ (name, value) = (Header.replicated, "true") ∨
      ∃ user, r.user = some user ∧
        (name, value) = (Header.entitiesChain, user.chain)) := by
  intro call
  refine ⟨⟨(guarded_ofGiven ..).unambiguous, fun l =>
    reads_ofGiven id seed r given⟩,
      ⟨(guarded_probe ..).unambiguous, fun l => reads_probe id seed r given⟩,
    ⟨rfl, mem_probe id seed r given⟩, fun name value hcallers hlast => ?_,
    fun hmethod name value hmem => ?_⟩
  · rw [mem_iff_valueAt? (guarded_ofGiven id seed r given).ascending.nodup]
    exact valueAt?_ofGiven_callers id seed r given hcallers hlast
  · rcases given_or_protocol id seed r given hmethod hmem with hgiven |
      hprotocol
    · exact Or.inl hgiven
    · exact Or.inr (protocolValue_eq_some id r hprotocol)

/-- The marks that the caller has tried to set are not there, and of the two
values under one name the later is. -/
example : (ofGiven "t1" "s1" { method := .put, uri := "/api/flow" }
    [("x-validation-expects", "202-accepted"), ("accept", "a"), ("Host", "h"),
      ("accept", "b")]).headers =
    [("X-Request-Replicated", "true"), ("X-RequestTransactionId", "t1"),
      ("accept", "b")] := by
  decide

end Outbound

end Fanout
