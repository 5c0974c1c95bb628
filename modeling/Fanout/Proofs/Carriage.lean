import Fanout.Proofs.Address
import Fanout.Proofs.Ascending

/-!
# What a node gets of an entity

The entity of a call goes into the query of the address or into the body, and
which of the two is decided by the method and by what the entity is. Here this
is followed to what the node receives: the body, and the query as it is found in
what is asked for and read as a form.

An object in a query comes back whole. Its names and values may hold any
characters, also those that separate them, since a form is read as it was
written. It comes back in the order of its keys, which is that of their bytes.

One combination is lost. A method that carries its entity in the query has no
place for an entity that is no object, and then the node receives what it would
have received without any entity.
-/

namespace Fanout

theorem Method.opensTunnel_of_usesQuery {m : Method} (h : m.usesQuery = true) :
    m.opensTunnel = false := by
  have hlisted := (usesQuery_iff m).1 h
  simp only [List.mem_cons, List.not_mem_nil, or_false] at hlisted
  rcases hlisted with rfl | rfl | rfl | rfl <;> decide

namespace Http

/-! ## The query or the body -/

namespace Carriage

variable {m : Method}

theorem ofEntity_of_body (h : m.usesQuery = false) (j : Json) :
    ofEntity m (some j) = .body j := by
  unfold ofEntity
  dsimp only
  rw [h]
  rfl

theorem ofEntity_of_obj (h : m.usesQuery = true)
    (members : List (String × Json)) :
    ofEntity m (some (.obj members)) = .query (pairs members) := by
  unfold ofEntity
  dsimp only
  rw [if_pos h]

theorem ofEntity_of_ne_obj (h : m.usesQuery = true) {j : Json}
    (hother : ∀ members, j ≠ .obj members) :
    ofEntity m (some j) = .nothing := by
  unfold ofEntity
  dsimp only
  rw [if_pos h]
  split
  · next members => exact absurd rfl (hother members)
  · rfl

theorem bodyBytes_of_query (h : m.usesQuery = true) (entity : Option Json) :
    (ofEntity m entity).bodyBytes = none := by
  unfold ofEntity
  split
  · rfl
  · rw [if_pos h]
    split <;> rfl

end Carriage

/-! ## The address of a call -/

namespace Url

theorem withForm_of_nil (u : Url) : u.withForm [] = u := rfl

/-- The pairs of a form come after those that the address has already. -/
theorem decode_withForm (pairs : List (String × String)) (u : Url) :
    Form.decode ((u.withForm pairs).query.getD []) =
      Form.decode (u.query.getD []) ++ pairs := by
  rw [withForm]
  split
  · next hnil =>
      rw [List.isEmpty_iff.1 hnil, List.append_nil]
  · cases u.query with
    | none => exact Form.decode_encode pairs
    | some held =>
        dsimp only [Option.getD_some]
        split
        · next hheld =>
            rw [List.isEmpty_iff.1 hheld]
            exact Form.decode_encode pairs
        · rw [Form.decode_append, Form.decode_encode]

theorem path_withForm (pairs : List (String × String)) (u : Url) :
    (u.withForm pairs).path = u.path := by
  rw [withForm]
  split <;> rfl

theorem scheme_withForm (pairs : List (String × String)) (u : Url) :
    (u.withForm pairs).scheme = u.scheme := by
  rw [withForm]
  split <;> rfl

theorem authority_withForm (pairs : List (String × String)) (u : Url) :
    (u.withForm pairs).authority = u.authority := by
  rw [withForm]
  split <;> rfl

end Url

section

variable {config : ClientConfig} {node : Node} {o : Outbound} {r : HttpRequest}

theorem exists_of_isOk (h : (request config node o).isOk = true) :
    ∃ r, request config node o = .ok r := by
  cases hmade : request config node o with
  | ok r => exact ⟨r, rfl⟩
  | error fault =>
      rw [hmade] at h
      cases h

/-- What goes into a request that can be made. -/
theorem request_eq_ok (h : request config node o = .ok r) :
    ∃ url, Url.ofText? (urlText config node o.uri) = some url ∧
      Url.isSpecial url.scheme = true ∧ r.method = o.method ∧
      r.url = url.withForm (Carriage.ofEntity o.method o.entity).formPairs ∧
      r.body = (Carriage.ofEntity o.method o.entity).bodyBytes ∧
      r.headers = requestHeaders o.headers r.body := by
  unfold request at h
  split at h
  · cases h
  · next url hread =>
      split at h
      · cases h
      · split at h
        · cases h
        · dsimp only at h
          split at h
          · cases h
          · next hmade =>
              cases h
              refine ⟨url, hread, ?_, rfl, rfl, rfl, rfl⟩
              rw [not_or, not_not] at hmade
              have hspecial := Url.isSpecial_of_isWeb hmade.1
              rwa [Url.scheme_withForm] at hspecial

/-- The query that the receiver finds. A tunnel is asked for without one. -/
theorem query?_of_request (h : request config node o = .ok r) :
    r.query? = if o.method.opensTunnel then none else r.url.query := by
  obtain ⟨url, hread, hspecial, hmethod, hurl, -⟩ := request_eq_ok h
  rw [HttpRequest.query?, HttpRequest.target, hmethod]
  split
  · rw [hurl, Url.authority_withForm,
      Text.cutFirst_eq_none.2 (Url.not_mem_authority hread hspecial)]
    rfl
  · refine Url.cutFirst_target ?_
    obtain ⟨⟨special, rest, -, htail⟩, -⟩ := Url.ofText?_spec hread
    have hpath := Url.not_mem_readTail special rest
    rw [htail] at hpath
    rw [hurl, Url.path_withForm]
    exact hpath

theorem ownQuery_eq {url : Url}
    (hread : Url.ofText? (urlText config node o.uri) = some url) :
    ownQuery config node o.uri = url.query := by
  rw [ownQuery, hread]
  rfl

/-! ## What the node receives -/

/-- The pairs that travel in the query come after those that the address has of
itself. -/
theorem decode_query (h : request config node o = .ok r)
    (hquery : o.method.usesQuery = true) :
      Form.decode (r.query?.getD []) =
        Form.decode ((ownQuery config node o.uri).getD []) ++
      (Carriage.ofEntity o.method o.entity).formPairs := by
  obtain ⟨url, hread, -, -, hurl, -⟩ := request_eq_ok h
  rw [query?_of_request h, Method.opensTunnel_of_usesQuery hquery,
    ownQuery_eq hread, hurl]
  exact Url.decode_withForm _ _

/-- Where nothing travels in the query, the address keeps the one it has. -/
theorem query?_of_no_pairs (h : request config node o = .ok r)
    (hnone : (Carriage.ofEntity o.method o.entity).formPairs = []) :
    r.query? =
      if o.method.opensTunnel then none else ownQuery config node o.uri := by
  obtain ⟨url, hread, -, -, hurl, -⟩ := request_eq_ok h
  rw [query?_of_request h, ownQuery_eq hread, hurl, hnone, Url.withForm_of_nil]

theorem contentLength_mem (headers : Headers) (body : Text.Bytes) :
    ("content-length", toString body.length) ∈
      requestHeaders headers (some body) :=
  List.mem_append_right _ (List.mem_singleton_self _)

/-- How an entity reaches the node to which a request is sent. If the method
does not use the query, the body is the text of the entity, whatever it is, and
is announced with its length, and the query stays as it was. If the method uses
the query there is no body, and the members of an object are what a reader of
the query finds in it. Anything but an object is then lost: the request that is
sent is the one that would be sent without an entity. -/
theorem entity_travels {j : Json} {accepted : Request}
    (huri : Request.new o.method o.uri = .ok accepted)
    (hentity : o.entity = some j) (h : request config node o = .ok r) :
    let own := ownQuery config node o.uri
    let inQuery : List Method := [.get, .head, .options, .delete]
    (IsPlain config node → own = none) ∧
    (o.method ∉ inQuery → r.body = some (Text.utf8 j.compact) ∧
      ("content-length", toString (Text.utf8 j.compact).length) ∈ r.headers ∧
      r.query? = if o.method.opensTunnel then none else own) ∧
    (o.method ∈ inQuery → r.body = none ∧
      (∀ members, j = .obj members → Form.decode (r.query?.getD []) =
        Form.decode (own.getD []) ++ Carriage.pairs members) ∧
      ((∀ members, j ≠ .obj members) → r.query? = own ∧
        request config node { o with entity := none } = .ok r)) := by
  intro own inQuery
  obtain ⟨url, -, -, -, -, hbody, hheaders⟩ := request_eq_ok h
  have husesQuery : o.method.usesQuery = true ↔ o.method ∈ inQuery :=
    o.method.usesQuery_iff
  refine ⟨fun hplain => ownQuery_eq_none hplain huri, fun hnot =>
    ?_, fun hin => ?_⟩
  · have hmethod := Bool.eq_false_of_not_eq_true (mt husesQuery.1 hnot)
    have hcarriage : Carriage.ofEntity o.method o.entity = .body j := by
      rw [hentity, Carriage.ofEntity_of_body hmethod]
    rw [hcarriage] at hbody
    refine ⟨hbody, ?_, query?_of_no_pairs h (by rw [hcarriage]; rfl)⟩
    rw [hheaders, hbody]
    exact contentLength_mem _ _
  · have hmethod := husesQuery.2 hin
    have htunnel := Method.opensTunnel_of_usesQuery hmethod
    refine ⟨?_, fun members hmembers => ?_, fun hother => ?_⟩
    · rw [hbody, Carriage.bodyBytes_of_query hmethod]
    · rw [decode_query h hmethod, hentity, hmembers,
        Carriage.ofEntity_of_obj hmethod]
      rfl
    · have hlost : Carriage.ofEntity o.method o.entity = .nothing := by
        rw [hentity, Carriage.ofEntity_of_ne_obj hmethod hother]
      refine ⟨?_, ?_⟩
      · rw [query?_of_no_pairs h (by rw [hlost]; rfl), htunnel]
        rfl
      · have hnone : Carriage.ofEntity o.method none = .nothing := rfl
        rw [← h]
        unfold request
        dsimp only
        rw [hlost, hnone]

/-- A list that goes out with `PUT` is the body. The same list with `DELETE` is
lost. -/
theorem entity_travels_list :
    let n : Node := ⟨"n1", "127.0.0.1", 8080⟩
    let j : Json := .arr [.str "not", .str "object"]
    let o : Method → Option Json → Outbound := fun method entity =>
      { id := "hid", method, uri := "/api/flow", entity, headers := [] }
    (∃ r, request {} n (o .put (some j)) = .ok r ∧
      r.body = some (Text.utf8 "[\"not\",\"object\"]") ∧ r.query? = none) ∧
    ∃ r, request {} n (o .delete (some j)) = .ok r ∧ r.body = none ∧
      r.query? = none ∧ request {} n (o .delete none) = .ok r := by
  intro n j o
  obtain ⟨r, hr⟩ :=
    exists_of_isOk (show (request {} n (o .put (some j))).isOk = true by
    decide +kernel)
  obtain ⟨s, hs⟩ :=
    exists_of_isOk (show (request {} n (o .delete (some j))).isOk = true by
    decide +kernel)
  have huri : ∀ method, Request.new method "/api/flow" =
      .ok { method, uri := "/api/flow" } :=
    fun method => by rw [Request.new, if_neg (by decide), if_neg (by decide)]
  obtain ⟨hown, hput, -⟩ := entity_travels (huri .put) rfl hr
  obtain ⟨-, -, hdelete⟩ := entity_travels (huri .delete) rfl hs
  obtain ⟨hbody, -, hquery⟩ := hput (show Method.put ∉ _ by decide)
  obtain ⟨hnone, -, hlost⟩ := hdelete (show Method.delete ∈ _ by decide)
  obtain ⟨hsame, hwithout⟩ := hlost nofun
  have hplain := hown (by decide)
  exact ⟨⟨r, hr, hbody, hquery.trans hplain⟩, s, hs, hnone, hsame.trans hplain,
    hwithout⟩

/-- A list that goes out with `DELETE` is neither the body nor in the query. -/
theorem entity_lost :
    let n : Node := ⟨"n1", "127.0.0.1", 8080⟩
    let o : Outbound :=
      { id := "hid", method := .delete, uri := "/api/flow"
        entity := some (.arr [.str "not", .str "object"]), headers := [] }
    (request {} n o).toOption.map (fun r => (r.body, r.query?)) =
      some (none, none) := by
  decide +kernel

/-- What an object stands for in a query is what a reader of the query finds
there, and nothing else: going through the keys in the order of their bytes,
nothing for a member that is null, a pair for each item of a member that is a
list, in their order, and otherwise one pair. A string is its own value and
anything else has its compact form. If there is none of all this, there is no
query.

An address that is not plain, with a question mark in its scheme or its host,
has a query before an object is added to it. That is kept, and stands in front
of what the object stands for. -/
theorem object_read_from_query {entries : List (String × Json)}
    {accepted : Request} (huri : Request.new o.method o.uri = .ok accepted)
    (hmethod : o.method ∈ [Method.get, .head, .options, .delete])
    (hentity : o.entity = some (.ofMembers entries))
    (h : request config node o = .ok r) :
    let members := ascendingBy entries
    let shown : Json → String := fun
      | .str s => s
      | j => j.compact
    let walk := members.flatMap fun
      | (_, .null) => []
      | (key, .arr items) => items.map fun item => (key, shown item)
      | (key, value) => [(key, shown value)]
    let own := ownQuery config node o.uri
    (members.map (·.1)).Pairwise (fun a b => Text.utf8 a < Text.utf8 b) ∧
    Form.decode (r.query?.getD []) = Form.decode (own.getD []) ++ walk ∧
    (IsPlain config node →
      Form.decode (r.query?.getD []) = walk ∧
      (r.query? = none ↔ walk = [])) := by
  intro members shown walk own
  have husesQuery := o.method.usesQuery_iff.2 hmethod
  have hwalk : Carriage.pairs members = walk := rfl
  have hpairs : (Carriage.ofEntity o.method o.entity).formPairs = walk := by
    rw [hentity, Json.ofMembers, Carriage.ofEntity_of_obj husesQuery]
    exact hwalk
  have hdecode : Form.decode (r.query?.getD []) =
      Form.decode (own.getD []) ++ walk := by
    rw [← hpairs]
    exact decode_query h husesQuery
  refine ⟨(isAscending_ascendingBy entries).imp Text.utf8_lt, hdecode,
    fun hplain => ?_⟩
  have hown : own = none := ownQuery_eq_none hplain huri
  refine ⟨?_, fun hnone => ?_, fun hnil => ?_⟩
  · rw [hdecode, hown]
    rfl
  · rw [hnone, hown] at hdecode
    exact hdecode.symm
  · rw [query?_of_no_pairs h (hpairs.trans hnil),
      Method.opensTunnel_of_usesQuery husesQuery]
    exact hown

/-- Separators, signs and letters outside ASCII in names and values, in an
address with a fragment. -/
theorem object_read_from_query_marks :
    let n : Node := ⟨"n1", "127.0.0.1", 8080⟩
    let o : Outbound :=
      { id := "hid", method := .get, uri := "/a b#c", headers := []
        entity := some (.ofMembers [("q", .null), ("k&=", .str "1+1 %=\u00e9"),
          ("a", .arr [.null, .str "?", .arr [.bool true]])]) }
    ∃ r, request {} n o = .ok r ∧ Form.decode (r.query?.getD []) =
      [("a", "null"), ("a", "?"), ("a", "[true]"),
        ("k&=", "1+1 %=\u00e9")] := by
  intro n o
  obtain ⟨r, hr⟩ :=
    exists_of_isOk (show (request {} n o).isOk = true by decide +kernel)
  have huri : Request.new .get "/a b#c" =
      .ok { method := .get, uri := "/a b#c" } := by
    rw [Request.new, if_neg (by decide), if_neg (by decide)]
  obtain ⟨-, -, hplain⟩ :=
    object_read_from_query huri (show Method.get ∈ _ by decide) rfl hr
  exact ⟨r, hr, (hplain (by decide)).1.trans (by decide +kernel)⟩

end

end Http

end Fanout
