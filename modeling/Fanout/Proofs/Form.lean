import Fanout.Http.Percent
import Fanout.Proofs.Utf8

/-!
# A form is read as it was written

What separates the names and values of a form are two characters, and neither of
them ever comes from a name or a value: the encoder writes letters, digits, four
harmless marks, plus signs and percent signs, and nothing else. So a form can be
cut up again exactly where it was put together, and each piece can be looked at
by itself.

There a percent sign always stands before two digits that the encoder has
written, and a plus sign is always a space, since a plus sign in the text is
written with a percent sign. What comes out are the bytes of the text.
-/

namespace Fanout

/-! ## Pieces -/

namespace Text

theorem pieces_of_not_mem {sep : Char} {cs : List Char} (h : sep ∉ cs) :
    pieces sep cs = [cs] := by
  induction cs with
  | nil => rfl
  | cons c cs ih =>
      rw [List.mem_cons, not_or] at h
      rw [pieces, if_neg (Ne.symm h.1), ih h.2]

theorem pieces_ne_nil (sep : Char) (cs : List Char) : pieces sep cs ≠ [] := by
  induction cs with
  | nil => exact List.cons_ne_nil _ _
  | cons c cs ih =>
      rw [pieces]
      split
      · exact List.cons_ne_nil _ _
      · split <;> exact List.cons_ne_nil _ _

theorem pieces_append (sep : Char) (before after : List Char) :
    pieces sep (before ++ sep :: after) =
      pieces sep before ++ pieces sep after := by
  induction before with
  | nil =>
      show pieces sep (sep :: after) = [] :: pieces sep after
      rw [pieces, if_pos rfl]
  | cons c before ih =>
      rw [List.cons_append, pieces, pieces, ih]
      by_cases hc : c = sep
      · rw [if_pos hc, if_pos hc]
        rfl
      · rw [if_neg hc, if_neg hc]
        cases hpieces : pieces sep before with
        | nil => exact absurd hpieces (pieces_ne_nil sep before)
        | cons piece others => rfl

/-- Texts without the separator, put together with it, are the pieces again. -/
theorem pieces_intercalate {sep : Char} {parts : List (List Char)}
    (hne : parts ≠ []) (h : ∀ part ∈ parts, sep ∉ part) :
    pieces sep ([sep].intercalate parts) = parts := by
  induction parts with
  | nil => exact absurd rfl hne
  | cons part parts ih =>
      have hpart := pieces_of_not_mem (h part List.mem_cons_self)
      cases parts with
      | nil =>
          rw [List.intercalate_singleton]
          exact hpart
      | cons next parts =>
          rw [List.intercalate_cons_cons, List.append_assoc,
            List.singleton_append, pieces_append, hpart,
            ih (List.cons_ne_nil _ _) fun p hp =>
              h p (List.mem_cons_of_mem _ hp)]
          rfl

theorem cutFirst_append {sep : Char} {before : List Char} (h : sep ∉ before)
    (after : List Char) :
    cutFirst sep (before ++ sep :: after) = some (before, after) := by
  induction before with
  | nil => rw [List.nil_append, cutFirst, if_pos rfl]
  | cons c before ih =>
      rw [List.mem_cons, not_or] at h
      rw [List.cons_append, cutFirst, if_neg (Ne.symm h.1), ih h.2]
      rfl

theorem cutFirst_eq_none {sep : Char} {cs : List Char} :
    cutFirst sep cs = none ↔ sep ∉ cs := by
  refine ⟨fun hcut hmem => ?_, fun h => ?_⟩
  · obtain ⟨before, after, rfl, hbefore⟩ := List.eq_append_cons_of_mem hmem
    rw [cutFirst_append hbefore] at hcut
    cases hcut
  · cases hcut : cutFirst sep cs with
    | none => rfl
    | some parts =>
        obtain ⟨rfl, -⟩ := cutFirst_eq_some hcut
        exact absurd (List.mem_append_right _ List.mem_cons_self) h

/-- A number is written in digits. -/
theorem not_mem_toDigits {mark : Char} (hmark : mark.isDigit = false)
    (n : Nat) : mark ∉ Nat.toDigits 10 n := by
  intro hmem
  rw [Nat.isDigit_of_mem_toDigits (by decide) (by decide) hmem] at hmark
  cases hmark

end Text

namespace Http

open Text (Bytes)

/-! ## Percent signs -/

theorem hexDigit_spec : ∀ n < 16, Text.hexValue? (Text.hexDigit n) = some n ∧
    (Text.hexDigit n).isAlphanum = true := by
  decide

theorem percentDecode_percent (b : UInt8) (rest : List Char) :
    percentDecode (percent b ++ rest) = b :: percentDecode rest := by
  have hb : b.toNat < 256 := b.toNat_lt_size
  rw [percent, List.cons_append, List.cons_append, List.cons_append,
    List.nil_append, percentDecode, (hexDigit_spec _ (by omega)).1,
    (hexDigit_spec _ (by omega)).1]
  dsimp only
  rw [Nat.div_add_mod, UInt8.ofNat_toNat]

theorem utf8_singleton (c : Char) :
    Text.utf8 (String.singleton c) = String.utf8EncodeChar c := by
  rw [Text.utf8_eq, String.toList_singleton, List.flatMap_singleton]

theorem mem_percent {b : UInt8} {d : Char} (h : d ∈ percent b) :
    d = '%' ∨ d.isAlphanum = true := by
  have hb : b.toNat < 256 := b.toNat_lt_size
  rw [percent, List.mem_cons, List.mem_cons, List.mem_singleton] at h
  rcases h with rfl | rfl | rfl
  · exact Or.inl rfl
  · exact Or.inr (hexDigit_spec _ (by omega)).2
  · exact Or.inr (hexDigit_spec _ (by omega)).2

theorem mem_percentChar {c d : Char} (h : d ∈ percentChar c) :
    d = '%' ∨ d.isAlphanum = true := by
  obtain ⟨b, -, hd⟩ := List.mem_flatMap.1 h
  exact mem_percent hd

/-- What stands in an encoded text stands for itself or spells a byte. -/
theorem mem_percentEncode {keeps : Char → Bool} {cs : List Char} {d : Char}
    (h : d ∈ percentEncode keeps cs) :
    keeps d = true ∨ d = '%' ∨ d.isAlphanum = true := by
  obtain ⟨c, -, hd⟩ := List.mem_flatMap.1 h
  split at hd
  · next hkeeps => exact Or.inl (List.mem_singleton.1 hd ▸ hkeeps)
  · exact Or.inr (mem_percentChar hd)

theorem percentDecode_cons {c : Char} (h : c ≠ '%') (rest : List Char) :
    percentDecode (c :: rest) =
      String.utf8EncodeChar c ++ percentDecode rest := by
  rw [percentDecode]
  · rw [utf8_singleton]
  · exact fun _ _ _ hc => absurd hc h

/-! ## Names and values -/

namespace Form

/-- A character of a name or a value as it stands in a form. -/
def encodeChar (c : Char) : List Char :=
  if c = ' ' then ['+'] else if keepsInForm c then [c] else percentChar c

theorem encodePart_eq (s : String) :
    encodePart s = s.toList.flatMap encodeChar := rfl

/-- What stands in a form for a name or a value. -/
theorem mem_encodePart {s : String} {c : Char} (h : c ∈ encodePart s) :
    c = '+' ∨ c = '%' ∨ keepsInForm c = true := by
  obtain ⟨d, -, hc⟩ := List.mem_flatMap.1 h
  split at hc
  · exact Or.inl (List.mem_singleton.1 hc)
  · split at hc
    · next hkeeps => exact Or.inr (Or.inr (List.mem_singleton.1 hc ▸ hkeeps))
    · refine Or.inr ((mem_percentChar hc).imp_right fun halphanum => ?_)
      rw [keepsInForm, halphanum]
      rfl

theorem not_mem_encodePart {mark : Char} (hplus : mark ≠ '+')
    (hpercent : mark ≠ '%') (hmark : keepsInForm mark = false) (s : String) :
    mark ∉ encodePart s := by
  intro hmem
  rcases mem_encodePart hmem with h | h | h
  · exact hplus h
  · exact hpercent h
  · rw [hmark] at h
    cases h

/-- The marks between names and values never come from a name or a value. -/
theorem marks_not_mem (s : String) : '&' ∉ encodePart s ∧ '=' ∉ encodePart s :=
  ⟨not_mem_encodePart (by decide) (by decide) (by decide) s,
    not_mem_encodePart (by decide) (by decide) (by decide) s⟩

/-- A character as a part of a form is read: a plus sign is a space. -/
def spaced (c : Char) : Char := if c = '+' then ' ' else c

theorem spaced_of_ne {c : Char} (h : c ≠ '+') : spaced c = c := if_neg h

theorem map_spaced_percent (b : UInt8) :
    (percent b).map spaced = percent b := by
  refine (List.map_congr_left fun d hd => spaced_of_ne fun hplus => ?_).trans
    (List.map_id _)
  rw [hplus] at hd
  exact absurd (mem_percent hd) (by decide)

/-- What stands for a character is read as the bytes of that character. -/
theorem percentDecode_encodeChar (c : Char) (rest : List Char) :
    percentDecode ((encodeChar c).map spaced ++ rest) =
      String.utf8EncodeChar c ++ percentDecode rest := by
  have hbytes : ∀ bytes : Bytes,
      percentDecode ((bytes.flatMap percent).map spaced ++ rest) =
      bytes ++ percentDecode rest := by
    intro bytes
    induction bytes with
    | nil => rfl
    | cons b bytes ih =>
        rw [List.flatMap_cons, List.map_append, map_spaced_percent,
          List.append_assoc, percentDecode_percent, ih, List.cons_append]
  rw [encodeChar]
  split
  · next hspace =>
      rw [hspace]
      exact percentDecode_cons (by decide) rest
  · split
    · next hkeeps =>
        have hplus : c ≠ '+' := fun h => by
          rw [h] at hkeeps
          exact absurd hkeeps (by decide)
        have hpercent : c ≠ '%' := fun h => by
          rw [h] at hkeeps
          exact absurd hkeeps (by decide)
        rw [List.map_singleton, spaced_of_ne hplus]
        exact percentDecode_cons hpercent rest
    · rw [percentChar, utf8_singleton]
      exact hbytes _

/-- A name or a value is read as it was written. -/
theorem decodePart_encodePart (s : String) : decodePart (encodePart s) = s := by
  have hchars : ∀ cs : List Char,
      percentDecode ((cs.flatMap encodeChar).map spaced) =
      cs.flatMap String.utf8EncodeChar := by
    intro cs
    induction cs with
    | nil => rfl
    | cons c cs ih =>
        rw [List.flatMap_cons, List.map_append, percentDecode_encodeChar, ih,
          List.flatMap_cons]
  show Text.lossy (percentDecode ((encodePart s).map spaced)) = s
  rw [encodePart_eq, hchars, ← Text.utf8_eq, Text.lossy_utf8]

theorem decodePair_encodePair (pair : String × String) :
    decodePair (encodePair pair) = pair := by
  rw [decodePair, encodePair, Text.cutFirst_append (marks_not_mem pair.1).2]
  dsimp only
  rw [decodePart_encodePart, decodePart_encodePart]

/-! ## Forms -/

theorem not_mem_encodePair (pair : String × String) :
    '&' ∉ encodePair pair := by
  rw [encodePair, List.mem_append, List.mem_cons, not_or, not_or]
  exact ⟨(marks_not_mem pair.1).1, by decide, (marks_not_mem pair.2).1⟩

theorem encodePair_ne_nil (pair : String × String) : encodePair pair ≠ [] :=
  List.append_ne_nil_of_right_ne_nil _ (List.cons_ne_nil _ _)

/-- A form is read as the pairs that were written, in their order. -/
theorem decode_encode (pairs : List (String × String)) :
    decode (encode pairs) = pairs := by
  rcases eq_or_ne pairs [] with rfl | hne
  · rfl
  have hpieces : Text.pieces '&' (encode pairs) = pairs.map encodePair := by
    refine Text.pieces_intercalate (fun h => hne (List.map_eq_nil_iff.1 h))
      fun part hpart => ?_
    obtain ⟨pair, -, rfl⟩ := List.mem_map.1 hpart
    exact not_mem_encodePair pair
  have hall : (pairs.map encodePair).filter (fun piece => !piece.isEmpty) =
      pairs.map encodePair := by
    refine List.filter_eq_self.2 fun part hpart => ?_
    obtain ⟨pair, -, rfl⟩ := List.mem_map.1 hpart
    rw [Bool.not_eq_true', List.isEmpty_eq_false_iff]
    exact encodePair_ne_nil pair
  rw [decode, hpieces, hall, List.map_map]
  exact List.map_id'' decodePair_encodePair pairs

/-- Pairs that are added to a form come after those that it has. -/
theorem decode_append (held query : List Char) :
    decode (held ++ '&' :: query) = decode held ++ decode query := by
  rw [decode, Text.pieces_append, List.filter_append, List.map_append]
  rfl

end Form

end Http

end Fanout
