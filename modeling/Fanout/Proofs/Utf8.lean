import Fanout.Text.Utf8
import Mathlib.Data.String.Basic

/-!
# The bytes of a text

Two things are needed of the bytes that a text travels as. Read again they are
that text, and bytes compare as the texts do.

The reader takes one byte at a time and holds the bits that it has so far. What
it does with the bytes of one character is therefore followed byte by byte, in
each of the four lengths. The lead byte says how many continuations there are
and in which range the first of them lies. Three bytes could spell a surrogate
or something shorter, and four something too large, and these ranges keep the
reader from that; a character is none of it, so its bytes lie within them.

For the order only the first byte that differs matters. Characters of different
length differ in the lead byte. Those of the same length have the digits of
their numbers to base 64, the highest first.
-/

namespace Fanout.Text

/-! ## Bytes are read as the text they came from -/

theorem toList_loop (b : ByteArray) (i : Nat) (held : List UInt8) :
    ByteArray.toList.loop b i held = held.reverse ++ b.data.toList.drop i := by
  rw [ByteArray.toList.loop.eq_def]
  split
  · next hlt =>
      rw [toList_loop b (i + 1)]
      have hlt' : i < b.data.toList.length := hlt
      rw [List.drop_eq_getElem_cons hlt', List.reverse_cons, List.append_assoc,
        List.singleton_append]
      congr 2
      show b.data[i]! = _
      rw [getElem!_pos b.data i hlt, Array.getElem_toList]
  · next hge =>
      have hle : b.data.toList.length ≤ i := Nat.le_of_not_lt hge
      rw [List.drop_eq_nil_of_le hle, List.append_nil]
termination_by b.size - i

theorem utf8_eq (s : String) :
    utf8 s = s.toList.flatMap String.utf8EncodeChar := by
  rw [utf8, String.toUTF8_eq_toByteArray, ByteArray.toList, toList_loop,
    ← String.utf8Encode_toList]
  simp [List.utf8Encode]

theorem toNat_continuation {k : Nat} (hk : k < 64) :
    (UInt8.ofNat (k + 128)).toNat = k + 128 :=
  UInt8.toNat_ofNat_of_lt' (show k + 128 < 256 by omega)

/-- A continuation byte in the range that is expected adds its six bits, and the
last one gives the character. -/
theorem lossyFrom_last {bits k : Nat} {least most : UInt8} (hk : k < 64)
    (hleast : least.toNat ≤ k + 128) (hmost : k + 128 ≤ most.toNat)
    (rest : Bytes) :
      lossyFrom (.within bits least most 0) (UInt8.ofNat (k + 128) :: rest) =
      Char.ofNat (bits * 64 + k) :: lossyFrom .ground rest := by
  rw [← toNat_continuation hk] at hleast hmost
  rw [lossyFrom, readByte, if_pos ⟨hleast, hmost⟩, toNat_continuation hk,
    Nat.add_sub_cancel]
  rfl

theorem lossyFrom_more {bits more k : Nat} {least most : UInt8} (hk : k < 64)
    (hleast : least.toNat ≤ k + 128) (hmost : k + 128 ≤ most.toNat)
    (rest : Bytes) :
      lossyFrom (.within bits least most (more + 1))
        (UInt8.ofNat (k + 128) :: rest) =
      lossyFrom (.within (bits * 64 + k) 0x80 0xBF more) rest := by
  rw [← toNat_continuation hk] at hleast hmost
  rw [lossyFrom, readByte, if_pos ⟨hleast, hmost⟩, toNat_continuation hk,
    Nat.add_sub_cancel]
  rfl

theorem lossyFrom_lead {k bits more : Nat} {least most : UInt8} (hlow : 128 ≤ k)
    (hhigh : k < 256)
    (hl : lead? (UInt8.ofNat k) = some ⟨bits, least, most, more⟩)
    (rest : Bytes) :
    lossyFrom .ground (UInt8.ofNat k :: rest) =
      lossyFrom (.within bits least most more) rest := by
  have hnot : ¬ UInt8.ofNat k < 0x80 := by
    rw [UInt8.lt_iff_toNat_lt, UInt8.toNat_ofNat_of_lt' hhigh]
    exact Nat.not_lt.2 hlow
  rw [lossyFrom, readByte, startByte, if_neg hnot, hl]
  rfl

/-- The announcement of a lead byte, with its ranges read as numbers. -/
theorem lead?_ofNat {k : Nat} (hk : k < 256) :
    lead? (UInt8.ofNat k) =
      if 0xC2 ≤ k ∧ k ≤ 0xDF then some ⟨k - 0xC0, 0x80, 0xBF, 0⟩
      else if k = 0xE0 then some ⟨0, 0xA0, 0xBF, 1⟩
      else if k = 0xED then some ⟨13, 0x80, 0x9F, 1⟩
      else if 0xE1 ≤ k ∧ k ≤ 0xEF then some ⟨k - 0xE0, 0x80, 0xBF, 1⟩
      else if k = 0xF0 then some ⟨0, 0x90, 0xBF, 2⟩
      else if 0xF1 ≤ k ∧ k ≤ 0xF3 then some ⟨k - 0xF0, 0x80, 0xBF, 2⟩
      else if k = 0xF4 then some ⟨4, 0x80, 0x8F, 2⟩
      else none := by
  simp only [lead?, UInt8.le_iff_toNat_le, ← UInt8.toNat_inj,
    UInt8.toNat_ofNat_of_lt' hk]
  rfl

/-- The lead byte of a character of three bytes announces a range in which its
second byte lies. -/
theorem lead?_of_three {n : Nat} (hlow : 0x800 ≤ n) (hhigh : n ≤ 0xFFFF)
    (hscalar : n < 0xD800 ∨ 0xDFFF < n) :
    ∃ least most : UInt8, lead? (UInt8.ofNat (n / 4096 + 224)) =
      some ⟨n / 4096, least, most, 1⟩ ∧ least.toNat ≤ n / 64 % 64 + 128 ∧
        n / 64 % 64 + 128 ≤ most.toNat := by
  rw [lead?_ofNat (by omega), if_neg (by omega)]
  by_cases hfirst : n / 4096 = 0
  · rw [if_pos (by omega), hfirst]
    exact ⟨_, _, rfl, show 160 ≤ _ by omega, show _ ≤ 191 by omega⟩
  rw [if_neg (by omega)]
  by_cases hsurrogate : n / 4096 = 13
  · rw [if_pos (by omega), hsurrogate]
    exact ⟨_, _, rfl, show 128 ≤ _ by omega, show _ ≤ 159 by omega⟩
  rw [if_neg (by omega), if_pos (by omega), Nat.add_sub_cancel]
  exact ⟨_, _, rfl, show 128 ≤ _ by omega, show _ ≤ 191 by omega⟩

/-- The lead byte of a character of four bytes does so too. -/
theorem lead?_of_four {n : Nat} (hlow : 0x10000 ≤ n) (hhigh : n < 0x110000) :
    ∃ least most : UInt8,
      lead? (UInt8.ofNat (n / 262144 + 240)) =
        some ⟨n / 262144, least, most, 2⟩ ∧
      least.toNat ≤ n / 4096 % 64 + 128 ∧ n / 4096 % 64 + 128 ≤ most.toNat := by
  rw [lead?_ofNat (by omega), if_neg (by omega), if_neg (by omega),
    if_neg (by omega), if_neg (by omega)]
  by_cases hfirst : n / 262144 = 0
  · rw [if_pos (by omega), hfirst]
    exact ⟨_, _, rfl, show 144 ≤ _ by omega, show _ ≤ 191 by omega⟩
  rw [if_neg (by omega)]
  by_cases hlast : n / 262144 = 4
  · rw [if_neg (by omega), if_pos (by omega), hlast]
    exact ⟨_, _, rfl, show 128 ≤ _ by omega, show _ ≤ 143 by omega⟩
  rw [if_pos (by omega), Nat.add_sub_cancel]
  exact ⟨_, _, rfl, show 128 ≤ _ by omega, show _ ≤ 191 by omega⟩

/-- A well-formed sequence is read as its character, whatever follows it. -/
theorem lossyFrom_char (c : Char) (rest : Bytes) :
    lossyFrom .ground (String.utf8EncodeChar c ++ rest) =
      c :: lossyFrom .ground rest := by
  have hc : Char.ofNat c.val.toNat = c := Char.ofNat_toNat c
  have hscalar : c.val.toNat < 0xD800 ∨ 0xDFFF < c.val.toNat ∧
      c.val.toNat < 0x110000 := c.valid
  rw [String.utf8EncodeChar.eq_def]
  dsimp only
  generalize c.val.toNat = n at hc hscalar ⊢
  have hlast : ∀ bits k, k < 64 → bits * 64 + k = n →
      lossyFrom (.within bits 0x80 0xBF 0) (UInt8.ofNat (k + 128) :: rest) =
        c :: lossyFrom .ground rest := by
    intro bits k hk hn
    rw [lossyFrom_last hk (show 128 ≤ _ by omega) (show _ ≤ 191 by omega),
      hn, hc]
  by_cases h₁ : n ≤ 127
  · have hbyte : (UInt8.ofNat n).toNat = n :=
      UInt8.toNat_ofNat_of_lt' (show n < 256 by omega)
    have hascii : UInt8.ofNat n < 0x80 := by
      rw [UInt8.lt_iff_toNat_lt, hbyte]
      exact Nat.lt_succ_of_le h₁
    rw [if_pos h₁, List.singleton_append, lossyFrom, readByte, startByte,
      if_pos hascii, hbyte, hc]
    rfl
  rw [if_neg h₁]
  by_cases h₂ : n ≤ 2047
  · have hlead : lead? (UInt8.ofNat (n / 64 % 32 + 192)) =
        some ⟨n / 64, 0x80, 0xBF, 0⟩ := by
      rw [lead?_ofNat (by omega), if_pos (by omega), Nat.add_sub_cancel,
        Nat.mod_eq_of_lt (by omega)]
    rw [if_pos h₂, List.cons_append, lossyFrom_lead (by omega) (by omega) hlead]
    exact hlast _ _ (by omega) (by omega)
  rw [if_neg h₂]
  by_cases h₃ : n ≤ 65535
  · obtain ⟨least, most, hlead, hleast, hmost⟩ :=
      lead?_of_three (n := n) (by omega) h₃ (hscalar.imp_right And.left)
    rw [if_pos h₃, Nat.mod_eq_of_lt (show n / 4096 < 16 by omega),
      List.cons_append, lossyFrom_lead (by omega) (by omega) hlead,
      List.cons_append,
      lossyFrom_more (by omega) hleast hmost]
    exact hlast _ _ (by omega) (by omega)
  · obtain ⟨least, most, hlead, hleast, hmost⟩ :=
      lead?_of_four (n := n) (by omega) (by omega)
    rw [if_neg h₃, Nat.mod_eq_of_lt (show n / 262144 < 8 by omega),
      List.cons_append, lossyFrom_lead (by omega) (by omega) hlead,
      List.cons_append,
      lossyFrom_more (by omega) hleast hmost, List.cons_append,
      lossyFrom_more (by omega) (show 128 ≤ _ by omega) (show _ ≤ 191 by omega)]
    exact hlast _ _ (by omega) (by omega)

/-- The bytes of a text are read as that text. -/
theorem lossy_utf8 (s : String) : lossy (utf8 s) = s := by
  have hchars : ∀ cs : List Char,
      lossyFrom .ground (cs.flatMap String.utf8EncodeChar) = cs := by
    intro cs
    induction cs with
    | nil => rfl
    | cons c cs ih => rw [List.flatMap_cons, lossyFrom_char, ih]
  rw [lossy, utf8_eq, hchars, String.ofList_toList]

/-! ## Bytes are in the order of their texts -/

theorem lt_of_byte_lt {k m : Nat} (hm : m < 256) (h : k < m) (l l' : Bytes) :
    UInt8.ofNat k :: l < UInt8.ofNat m :: l' := by
  refine List.cons_lt_cons_iff.2 (Or.inl ?_)
  rw [UInt8.lt_iff_toNat_lt, UInt8.toNat_ofNat_of_lt' (Nat.lt_trans h hm),
    UInt8.toNat_ofNat_of_lt' hm]
  exact h

theorem lt_of_byte_eq {k m : Nat} {l l' : Bytes} (h : k = m) (hl : l < l') :
    UInt8.ofNat k :: l < UInt8.ofNat m :: l' := by
  rw [h]
  exact List.cons_lt_cons_self.2 hl

/-- The bytes of a character come before those of a greater one, whatever
follows them. -/
theorem utf8EncodeChar_lt {c d : Char} (h : c < d) (l l' : Bytes) :
    String.utf8EncodeChar c ++ l < String.utf8EncodeChar d ++ l' := by
  have hlt : c.val.toNat < d.val.toNat := h
  have hd : d.val.toNat < 0x110000 :=
    d.valid.elim (fun h => Nat.lt_trans h (by decide)) And.right
  rw [String.utf8EncodeChar.eq_def, String.utf8EncodeChar.eq_def]
  dsimp only
  generalize c.val.toNat = n at hlt ⊢
  generalize d.val.toNat = m at hlt hd ⊢
  by_cases hn₁ : n ≤ 127
  · rw [if_pos hn₁]
    split_ifs <;> exact lt_of_byte_lt (by omega) (by omega) _ _
  rw [if_neg hn₁, if_neg (show ¬ m ≤ 127 by omega)]
  by_cases hn₂ : n ≤ 2047
  · rw [if_pos hn₂]
    by_cases hm₂ : m ≤ 2047
    · rw [if_pos hm₂]
      rcases Nat.lt_or_ge (n / 64) (m / 64) with h₁ | h₁
      · exact lt_of_byte_lt (by omega) (by omega) _ _
      · exact lt_of_byte_eq (by omega) (lt_of_byte_lt (by omega) (by omega) _ _)
    · rw [if_neg hm₂]
      split_ifs <;> exact lt_of_byte_lt (by omega) (by omega) _ _
  rw [if_neg hn₂, if_neg (show ¬ m ≤ 2047 by omega)]
  by_cases hn₃ : n ≤ 65535
  · rw [if_pos hn₃]
    by_cases hm₃ : m ≤ 65535
    · rw [if_pos hm₃]
      rcases Nat.lt_or_ge (n / 4096) (m / 4096) with h₂ | h₂
      · exact lt_of_byte_lt (by omega) (by omega) _ _
      refine lt_of_byte_eq (by omega) ?_
      rcases Nat.lt_or_ge (n / 64) (m / 64) with h₁ | h₁
      · exact lt_of_byte_lt (by omega) (by omega) _ _
      · exact lt_of_byte_eq (by omega) (lt_of_byte_lt (by omega) (by omega) _ _)
    · rw [if_neg hm₃]
      exact lt_of_byte_lt (by omega) (by omega) _ _
  rw [if_neg hn₃, if_neg (show ¬ m ≤ 65535 by omega)]
  rcases Nat.lt_or_ge (n / 262144) (m / 262144) with h₃ | h₃
  · exact lt_of_byte_lt (by omega) (by omega) _ _
  refine lt_of_byte_eq (by omega) ?_
  rcases Nat.lt_or_ge (n / 4096) (m / 4096) with h₂ | h₂
  · exact lt_of_byte_lt (by omega) (by omega) _ _
  refine lt_of_byte_eq (by omega) ?_
  rcases Nat.lt_or_ge (n / 64) (m / 64) with h₁ | h₁
  · exact lt_of_byte_lt (by omega) (by omega) _ _
  · exact lt_of_byte_eq (by omega) (lt_of_byte_lt (by omega) (by omega) _ _)

/-- The bytes of a text come before those of a greater one. -/
theorem utf8_lt {s t : String} (h : compare s t = .lt) : utf8 s < utf8 t := by
  have hchars : ∀ cs ds : List Char, cs < ds →
      cs.flatMap String.utf8EncodeChar < ds.flatMap String.utf8EncodeChar := by
    intro cs
    induction cs with
    | nil =>
        intro ds hlt
        cases ds with
        | nil => exact absurd hlt (List.lt_irrefl _)
        | cons d ds =>
            obtain ⟨b, more, hd⟩ :=
              List.exists_cons_of_ne_nil (String.utf8EncodeChar_ne_nil (c := d))
            rw [List.flatMap_cons, hd]
            exact List.nil_lt_cons _ _
    | cons c cs ih =>
        intro ds hlt
        cases ds with
        | nil => exact absurd hlt (List.not_lt_nil _)
        | cons d ds =>
            rw [List.flatMap_cons, List.flatMap_cons]
            rcases List.cons_lt_cons_iff.1 hlt with hcd | ⟨rfl, hrest⟩
            · exact utf8EncodeChar_lt hcd _ _
            · exact List.append_left_lt (ih ds hrest)
  rw [utf8_eq, utf8_eq]
  exact hchars _ _ (String.lt_iff_toList_lt.1 (compareOfLessAndEq_eq_lt.1 h))

end Fanout.Text
