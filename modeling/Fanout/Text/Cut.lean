/-!
# Cutting a text at a separator

The readers of this library cut at single characters: an address at its first
`@` and its last `:`, a header flag at its first `:`, a list at every comma.
The three cuts below are the only ones. None of them loses a character other
than the separator itself, so a text can be put together again from its parts.
-/

namespace Fanout.Text

/-- What stands before and after the first `sep`. -/
def cutFirst (sep : Char) : List Char → Option (List Char × List Char)
  | [] => none
  | c :: rest =>
    if c = sep then some ([], rest)
    else (cutFirst sep rest).map fun parts => (c :: parts.1, parts.2)

/-- What stands before and after the last `sep`. -/
def cutLast (sep : Char) : List Char → Option (List Char × List Char)
  | [] => none
  | c :: rest =>
    match cutLast sep rest with
    | some (before, after) => some (c :: before, after)
    | none => if c = sep then some ([], rest) else none

/-- The pieces between the separators; a text without one is one piece. -/
def pieces (sep : Char) : List Char → List (List Char)
  | [] => [[]]
  | c :: rest =>
    if c = sep then [] :: pieces sep rest
    else
      match pieces sep rest with
      | [] => [[c]]
      | piece :: others => (c :: piece) :: others

theorem cutFirst_eq_some {sep : Char} {cs before after : List Char}
    (h : cutFirst sep cs = some (before, after)) :
    cs = before ++ sep :: after ∧ sep ∉ before := by
  induction cs generalizing before with
  | nil => simp [cutFirst] at h
  | cons c rest ih =>
    rw [cutFirst] at h
    split at h
    · next hc =>
      obtain ⟨rfl, rfl⟩ := by simpa using h
      simp [hc]
    · next hc =>
      obtain ⟨⟨b, a⟩, hcut, heq⟩ := Option.map_eq_some_iff.1 h
      obtain ⟨rfl, rfl⟩ := by simpa using heq
      obtain ⟨hcs, hmem⟩ := ih hcut
      refine ⟨by simp [hcs], ?_⟩
      simp only [List.mem_cons, not_or]
      exact ⟨fun heq => hc heq.symm, hmem⟩

theorem cutLast_eq_none {sep : Char} {cs : List Char} :
    cutLast sep cs = none ↔ sep ∉ cs := by
  induction cs with
  | nil => simp [cutLast]
  | cons c rest ih =>
    rw [cutLast]
    split
    · next before after hcut =>
      have hmem : sep ∈ rest := by
        by_cases hm : sep ∈ rest
        · exact hm
        · rw [ih.2 hm] at hcut
          simp at hcut
      simp [hmem]
    · next hcut =>
      split
      · next hc => simp [hc]
      · next hc => simpa [ih.1 hcut] using fun heq => hc heq.symm

theorem cutLast_eq_some {sep : Char} {cs before after : List Char}
    (h : cutLast sep cs = some (before, after)) :
    cs = before ++ sep :: after ∧ sep ∉ after := by
  induction cs generalizing before after with
  | nil => simp [cutLast] at h
  | cons c rest ih =>
    rw [cutLast] at h
    split at h
    · next b a hcut =>
      obtain ⟨rfl, rfl⟩ := by simpa using h
      obtain ⟨hrest, hmem⟩ := ih hcut
      exact ⟨by simp [hrest], hmem⟩
    · next hcut =>
      split at h
      · next hc =>
        obtain ⟨rfl, rfl⟩ := by simpa using h
        exact ⟨by simp [hc], cutLast_eq_none.1 hcut⟩
      · simp at h

/-- The pieces of a text, as texts. -/
def split (sep : Char) (s : String) : List String :=
  (pieces sep s.toList).map String.ofList

end Fanout.Text
