import Fanout.ActingUser
import Mathlib.Data.List.Basic

/-!
# A chain names its users

The writer of a chain escapes the brackets of a name and nothing else, so a name
that ends in a backslash is written like the beginning of an escaped bracket.
Two things make up for that. Before a bracket that comes from a name there is
always a backslash, and behind it something of the same link, at least the
bracket that closes it. So a closing bracket closes its link just if the chain
ends with it or the next link begins: that is where `links` cuts, and
`links_escape` says that it never cuts inside a name.

Within a link a backslash before a bracket was put there by the writer, because
a bracket of the name never follows the bare backslash of a name: there are two
of them then. Dropping those gives the name back.
-/

namespace Fanout.ActingUser

/-- A name as it stands inside its link. -/
def escape (name : List Char) : List Char := name.flatMap escapeChar

/-- What stands in the links of a chain, from inside the first one on. -/
def links : List Char → List (List Char)
  | [] => [[]]
  | ['>'] => [[]]
  | '>' :: '<' :: rest => [] :: links rest
  | c :: rest => (links rest).modifyHead (c :: ·)

/-- Drops each backslash that stands before a bracket. -/
def unescape : List Char → List Char
  | [] => []
  | c :: rest =>
    if c = '\\' ∧ (rest.head? = some '<' ∨ rest.head? = some '>') then
      unescape rest
    else c :: unescape rest

/-- Reads a chain. -/
def ofChain? (text : String) : Option ActingUser :=
  match text.toList with
  | '<' :: rest =>
    match (links rest).map fun name => String.ofList (unescape name) with
    | identity :: proxies => some ⟨identity, proxies⟩
    | [] => none
  | _ => none

/-! ## Where links end -/

/-- What is written for a name does not begin with a bracket. -/
theorem head?_escape (name : List Char) :
    (escape name).head? ≠ some '<' ∧ (escape name).head? ≠ some '>' := by
  cases name with
  | nil => exact ⟨nofun, nofun⟩
  | cons c name =>
      rw [escape, List.flatMap_cons, escapeChar]
      split
      · exact ⟨by simp, by simp⟩
      · next hc =>
          rw [not_or] at hc
          simpa using hc

/-- A bracket is no end where something else than a link follows. -/
theorem links_cons {c : Char} {rest : List Char}
    (h : c = '>' → rest ≠ [] ∧ rest.head? ≠ some '<') :
    links (c :: rest) = (links rest).modifyHead (c :: ·) := by
  rw [links.eq_def]
  split
  · next heq => cases heq
  · next heq =>
      cases heq
      exact absurd rfl (h rfl).1
  · next heq =>
      cases heq
      exact absurd rfl (h rfl).2
  · next heq =>
      cases heq
      rfl

/-- No link ends inside a name. -/
theorem links_escape (name : List Char) {rest : List Char}
    (hrest : rest.head? = some '>') :
    links (escape name ++ rest) =
      (links rest).modifyHead (escape name ++ ·) := by
  induction name with
  | nil =>
      show links rest = _
      cases links rest <;> rfl
  | cons c name ih =>
      have hnext : escape name ++ rest ≠ [] ∧
          (escape name ++ rest).head? ≠ some '<' := by
        have hname := (head?_escape name).1
        cases hescape : escape name with
        | nil =>
            refine ⟨fun h => ?_, fun h => ?_⟩
            · rw [List.nil_append] at h
              rw [h] at hrest
              cases hrest
            · rw [List.nil_append, hrest] at h
              cases h
        | cons d more =>
            rw [hescape] at hname
            exact ⟨List.cons_ne_nil _ _, hname⟩
      have hlast : links (c :: (escape name ++ rest)) =
          (links rest).modifyHead (c :: escape name ++ ·) := by
        rw [links_cons fun _ => hnext, ih, List.modifyHead_modifyHead]
        rfl
      rw [escape, List.flatMap_cons, ← escape, escapeChar]
      split
      · show links ('\\' :: c :: (escape name ++ rest)) = _
        rw [links_cons fun h => absurd h (by decide), hlast,
          List.modifyHead_modifyHead]
        rfl
      · exact hlast

/-- The links of a chain hold the names, as they were written. -/
theorem links_flatMap (name : String) (names : List String) :
    links (escape name.toList ++ '>' :: names.flatMap link) =
      (name :: names).map fun name => escape name.toList := by
  induction names generalizing name with
  | nil =>
      rw [links_escape _ rfl]
      show [escape name.toList ++ []] = [escape name.toList]
      rw [List.append_nil]
  | cons next names ih =>
      have hnext : (next :: names).flatMap link =
          '<' :: (escape next.toList ++ '>' :: names.flatMap link) := by
        rw [List.flatMap_cons, link, List.append_assoc]
        rfl
      rw [links_escape _ rfl, hnext, links, ih]
      show (escape name.toList ++ []) :: _ = escape name.toList :: _
      rw [List.append_nil]

/-! ## What stands in a link -/

theorem unescape_escape (name : List Char) : unescape (escape name) = name := by
  induction name with
  | nil => rfl
  | cons c name ih =>
      have hbare : ∀ d rest, unescape rest = name →
          ¬ (d = '\\' ∧ (rest.head? = some '<' ∨ rest.head? = some '>')) →
          unescape (d :: rest) = d :: name := by
        intro d rest hrest hd
        rw [unescape, if_neg hd, hrest]
      rw [escape, List.flatMap_cons, ← escape, escapeChar]
      split
      · next hc =>
          have hslash : c ≠ '\\' := by rcases hc with rfl | rfl <;> decide
          show unescape ('\\' :: c :: escape name) = c :: name
          rw [unescape, if_pos ⟨rfl, hc.imp (congrArg some) (congrArg some)⟩]
          exact hbare c _ ih fun h => hslash h.1
      · obtain ⟨hopening, hclosing⟩ := head?_escape name
        exact hbare c _ ih fun h => h.2.elim hopening hclosing

theorem ofChain?_chain (user : ActingUser) :
    ofChain? user.chain = some user := by
  have hchain : user.chain.toList =
      '<' :: (escape user.identity.toList ++ '>' ::
        user.proxies.flatMap link) := by
    rw [chain, String.toList_ofList, List.flatMap_cons, link, List.append_assoc]
    rfl
  have hnames : ((user.identity :: user.proxies).map fun name =>
      escape name.toList).map (fun name => String.ofList (unescape name)) =
        user.identity :: user.proxies := by
    rw [List.map_map]
    refine List.map_id'' (fun name => ?_) _
    show String.ofList (unescape (escape name.toList)) = name
    rw [unescape_escape, String.ofList_toList]
  rw [ofChain?, hchain]
  simp only [links_flatMap, hnames]

/-- A chain can be read: it gives back the user and the proxies it was written
for, whatever characters their names hold. So two users with the same chain are
the same user, come through the same proxies in the same order. -/
theorem chain_unambiguous :
    (∀ user : ActingUser, ofChain? user.chain = some user) ∧
    ∀ user other : ActingUser, user.chain = other.chain ↔
      user.identity = other.identity ∧ user.proxies = other.proxies := by
  refine ⟨ofChain?_chain, fun user other =>
    ⟨fun h => ?_, fun ⟨hidentity, hproxies⟩ => ?_⟩⟩
  · have hsame : some user = some other := by
      rw [← ofChain?_chain user, ← ofChain?_chain other, h]
    cases hsame
    exact ⟨rfl, rfl⟩
  · rw [chain, chain, hidentity, hproxies]

/-- A name that ends in a backslash, and a proxy with a bracket in its name. -/
example : ofChain? "<a\\><b\\>>" = some ⟨"a\\", ["b>"]⟩ := by decide

end Fanout.ActingUser
