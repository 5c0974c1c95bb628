import Fanout.Configuration
import Fanout.Proofs.Form

/-!
# A node is read as it is written

The text of a node does not say where its parts end: a host may hold at signs
and colons, and blanks go wherever the reader trims. Still nothing is lost. An
identifier holds no at sign, so the first one ends it, and a port is digits, so
the last colon begins it. And the reader trims only what the writer does not
write: an identifier has no blank at its ends, an address begins with that of
the host and ends with a digit.

These are the conditions in `Plain`, and every node that the reader makes
fulfils them, also one whose address is its identifier.

A list is cut at its commas before anything is read, and then each item is on
its own.
-/

namespace Fanout

/-! ## Blanks -/

namespace Text

/-- A text with no blank at either end. -/
structure IsTrimmed (cs : List Char) : Prop where
  head : ∀ c ∈ cs.head?, isBlank c = false
  last : ∀ c ∈ cs.getLast?, isBlank c = false

theorem isTrimmed_append {before after : List Char} (hbefore : before ≠ [])
    (hafter : after ≠ []) (hhead : ∀ c ∈ before.head?, isBlank c = false)
    (hlast : ∀ c ∈ after.getLast?, isBlank c = false) :
    IsTrimmed (before ++ after) where
  head := by rwa [List.head?_append_of_ne_nil _ hbefore]
  last := by rwa [List.getLast?_append_of_ne_nil _ hafter]

theorem isBlank_of_head?_dropWhile {cs : List Char} {c : Char}
    (h : (cs.dropWhile isBlank).head? = some c) : isBlank c = false := by
  have hnot := List.head?_dropWhile_not isBlank cs
  rw [h] at hnot
  exact hnot

theorem isTrimmed_trimChars (cs : List Char) : IsTrimmed (trimChars cs) where
  head c hc := by
    rw [trimChars, List.head?_reverse] at hc
    obtain ⟨dropped, hdropped⟩ :=
      List.dropWhile_suffix (l := (cs.dropWhile isBlank).reverse) isBlank
    have hhead : (cs.dropWhile isBlank).head? = some c := by
      rw [← List.getLast?_reverse, ← hdropped, List.getLast?_append, hc]
      rfl
    exact isBlank_of_head?_dropWhile hhead
  last c hc := by
    rw [trimChars, List.getLast?_reverse] at hc
    exact isBlank_of_head?_dropWhile hc

theorem trimChars_subset (cs : List Char) : trimChars cs ⊆ cs := by
  intro c hc
  rw [trimChars, List.mem_reverse] at hc
  exact (List.dropWhile_sublist _).mem
    (List.mem_reverse.1 ((List.dropWhile_sublist _).mem hc))

theorem dropWhile_blank {before rest : List Char}
    (hbefore : ∀ c ∈ before, isBlank c = true)
    (hrest : ∀ c ∈ rest.head?, isBlank c = false) :
    (before ++ rest).dropWhile isBlank = rest := by
  rw [List.dropWhile_append_of_pos hbefore]
  cases rest with
  | nil => rfl
  | cons c rest => simp [hrest c rfl]

theorem trimChars_of_isBlank {cs : List Char} (h : ∀ c ∈ cs, isBlank c = true) :
    trimChars cs = [] := by
  have hnone : (cs ++ []).dropWhile isBlank = [] := dropWhile_blank h nofun
  rw [List.append_nil] at hnone
  rw [trimChars, hnone]
  rfl

/-- Blanks around a text are all that is dropped. -/
theorem trimChars_padded {before cs after : List Char} (hcs : IsTrimmed cs)
    (hbefore : ∀ c ∈ before, isBlank c = true)
    (hafter : ∀ c ∈ after, isBlank c = true) :
    trimChars (before ++ cs ++ after) = cs := by
  rcases eq_or_ne cs [] with rfl | hne
  · refine trimChars_of_isBlank fun c hc => ?_
    simp only [List.append_nil, List.mem_append] at hc
    exact hc.elim (hbefore c) (hafter c)
  · have hhead : ∀ c ∈ (cs ++ after).head?, isBlank c = false := by
      rw [List.head?_append_of_ne_nil _ hne]
      exact hcs.head
    rw [trimChars, List.append_assoc, dropWhile_blank hbefore hhead,
      List.reverse_append, dropWhile_blank (fun c hc =>
        hafter c (List.mem_reverse.1 hc)) (by simpa using hcs.last),
      List.reverse_reverse]

theorem trimChars_of_isTrimmed {cs : List Char}
    (h : IsTrimmed cs) : trimChars cs = cs := by
  have hpadded : trimChars ([] ++ cs ++ []) = cs :=
    trimChars_padded h nofun nofun
  rwa [List.nil_append, List.append_nil] at hpadded

end Text

/-! ## Ports -/

theorem isBlank_of_isDigit {c : Char} (h : c.isDigit = true) :
    Text.isBlank c = false := by
  have hbounds : 48 ≤ c.toNat ∧ c.toNat ≤ 57 := by
    simpa [Char.isDigit, UInt32.le_iff_toNat_le] using h
  simp only [Text.isBlank, Bool.or_eq_false_iff, Bool.and_eq_false_iff,
    decide_eq_false_iff_not, beq_eq_false_iff_ne]
  omega

/-- A number is read from its digits, and they carry no sign. -/
theorem readNat?_toDigits {n most : Nat} (h : n ≤ most) :
    readNat? most (Nat.toDigits 10 n) = some n := by
  have hdigits : ∀ c ∈ Nat.toDigits 10 n, c.isDigit = true := fun c hc =>
    Nat.isDigit_of_mem_toDigits (by decide) (by decide) hc
  have hread : readDigits? (Nat.toDigits 10 n) = some n := by
    rw [readDigits?, List.all_eq_true.2 hdigits,
      List.isEmpty_eq_false_iff.2 Nat.toDigits_ne_nil,
      digitsValue, Nat.ofDigitChars_ten_toDigits]
    rfl
  have hsign : ∀ rest, Nat.toDigits 10 n ≠ '+' :: rest := by
    intro rest hrest
    have hplus := hdigits '+' (by rw [hrest]; exact List.mem_cons_self)
    cases hplus
  unfold readNat?
  split
  · next rest hrest => exact absurd hrest (hsign rest)
  · simp [hread, h]

namespace Text

theorem cutLast_append {sep : Char} (before : List Char) {after : List Char}
    (h : sep ∉ after) :
    cutLast sep (before ++ sep :: after) = some (before, after) := by
  induction before with
  | nil => rw [List.nil_append, cutLast, cutLast_eq_none.2 h, if_pos rfl]
  | cons c before ih => rw [List.cons_append, cutLast, ih]

end Text

/-! ## One node -/

namespace Node

/-- A node whose text shows where its parts end. -/
structure Plain (n : Node) : Prop where
  id_ne_nil : n.id.toList ≠ []
  id_trimmed : Text.IsTrimmed n.id.toList
  at_not_mem : '@' ∉ n.id.toList
  host_ne_nil : n.host.toList ≠ []
  host_head : ∀ c ∈ n.host.toList.head?, Text.isBlank c = false

theorem toList_address (n : Node) :
    n.address.toList = n.host.toList ++ ':' ::
      Nat.toDigits 10 n.port.toNat := by
  have hport : (toString n.port.toNat).toList =
      Nat.toDigits 10 n.port.toNat := by
    rw [Nat.toString_eq_ofList_toDigits, String.toList_ofList]
  rw [address, String.toList_append, String.toList_append, List.append_assoc,
    hport]
  rfl

theorem toList_spec (n : Node) :
    n.spec.toList = n.id.toList ++ '@' :: n.address.toList := by
  rw [spec, String.toList_append, String.toList_append, List.append_assoc]
  rfl

/-- An address ends with a digit. -/
theorem isBlank_of_getLast?_address (n : Node) :
    ∀ c ∈ n.address.toList.getLast?, Text.isBlank c = false := by
  intro c hc
  rw [toList_address, List.getLast?_append_of_ne_nil _ (List.cons_ne_nil _ _),
    List.getLast?_cons_of_ne_nil Nat.toDigits_ne_nil] at hc
  exact isBlank_of_isDigit
    (Nat.isDigit_of_mem_toDigits (by decide) (by decide)
      (List.mem_of_getLast? hc))

theorem address_ne_nil (n : Node) : n.address.toList ≠ [] := by
  rw [toList_address]
  exact List.append_ne_nil_of_right_ne_nil _ (List.cons_ne_nil _ _)

theorem Plain.address_trimmed {n : Node} (h : n.Plain) :
    Text.IsTrimmed n.address.toList where
  head := by
    rw [toList_address, List.head?_append_of_ne_nil _ h.host_ne_nil]
    exact h.host_head
  last := n.isBlank_of_getLast?_address

theorem Plain.spec_trimmed {n : Node} (h : n.Plain) :
    Text.IsTrimmed n.spec.toList := by
  rw [toList_spec]
  refine Text.isTrimmed_append h.id_ne_nil (List.cons_ne_nil _ _)
    h.id_trimmed.head ?_
  rw [List.getLast?_cons_of_ne_nil n.address_ne_nil]
  exact n.isBlank_of_getLast?_address

/-- A plain node is read from its text. -/
theorem Plain.read_spec {n : Node} (h : n.Plain) :
    read n.spec.toList = .ok n := by
  have hcolon : ':' ∉ Nat.toDigits 10 n.port.toNat :=
    Text.not_mem_toDigits (by decide) _
  have hparts : identifierAndAddress n.spec.toList =
      (n.id.toList, n.address.toList) := by
    rw [identifierAndAddress, toList_spec, Text.cutFirst_append h.at_not_mem]
    dsimp only
    rw [Text.trimChars_of_isTrimmed h.id_trimmed,
      Text.trimChars_of_isTrimmed h.address_trimmed]
  have hport : n.port.toNat ≤ mostPort := Nat.le_sub_one_of_lt n.port.toNat_lt
  rw [read, Text.trimChars_of_isTrimmed h.spec_trimmed, hparts, toList_address]
  dsimp only
  rw [Text.cutLast_append _ hcolon]
  dsimp only
  rw [readNat?_toDigits hport]
  dsimp only
  rw [if_neg, String.ofList_toList, String.ofList_toList, UInt16.ofNat_toNat]
  simp [h.id_ne_nil, h.host_ne_nil]

theorem identifierAndAddress_trimmed {cs : List Char}
    (hcs : Text.IsTrimmed cs) :
      Text.IsTrimmed (identifierAndAddress cs).1 ∧
        Text.IsTrimmed (identifierAndAddress cs).2 ∧
      '@' ∉ (identifierAndAddress cs).1 := by
  unfold identifierAndAddress
  split
  · next before after hcut =>
      refine ⟨Text.isTrimmed_trimChars _, Text.isTrimmed_trimChars _,
        fun hmem => ?_⟩
      exact (Text.cutFirst_eq_some hcut).2 (Text.trimChars_subset _ hmem)
  · next hcut => exact ⟨hcs, hcs, Text.cutFirst_eq_none.1 hcut⟩

/-- Every node that is read is plain. -/
theorem plain_of_read {cs : List Char} {n : Node}
    (h : read cs = .ok n) : n.Plain := by
  unfold read at h
  dsimp only at h
  split at h
  · cases h
  · next host port hcut =>
      split at h
      · cases h
      · next p _ =>
          split at h
          · cases h
          · next hparts =>
              simp only [Bool.or_eq_true, List.isEmpty_iff, not_or] at hparts
              obtain ⟨hid, haddress, hat⟩ :=
                identifierAndAddress_trimmed (Text.isTrimmed_trimChars cs)
              obtain ⟨hjoined, -⟩ := Text.cutLast_eq_some hcut
              cases h
              refine ⟨?_, ?_, ?_, ?_, ?_⟩
              all_goals rw [String.toList_ofList]
              · exact hparts.1
              · exact hid
              · exact hat
              · exact hparts.2
              · have hhead := haddress.head
                rw [hjoined, List.head?_append_of_ne_nil _ hparts.2] at hhead
                exact hhead

theorem comma_not_mem_spec {n : Node}
    (h : ',' ∉ n.id.toList ∧ ',' ∉ n.host.toList) : ',' ∉ n.spec.toList := by
  rw [toList_spec, toList_address]
  simp only [List.mem_append, List.mem_cons, not_or]
  exact ⟨h.1, by decide, h.2, by decide, Text.not_mem_toDigits (by decide) _⟩

/-! ## Lists of nodes -/

/-- An item of a list: a node or nothing, with blanks around it. -/
structure Item where
  before : List Char := []
  node : Option Node := none
  after : List Char := []

namespace Item

def chars (item : Item) : List Char :=
  item.before ++ (item.node.map fun n => n.spec.toList).getD [] ++ item.after

/-- Whether an item can be told from its neighbours. -/
structure Fits (item : Item) : Prop where
  before : ∀ c ∈ item.before, Text.isBlank c = true
  after : ∀ c ∈ item.after, Text.isBlank c = true
  plain : ∀ n ∈ item.node, n.Plain
  comma : ∀ n ∈ item.node, ',' ∉ n.id.toList ∧ ',' ∉ n.host.toList

theorem Fits.comma_not_mem {item : Item}
    (h : item.Fits) : ',' ∉ item.chars := by
  have hblank : ∀ cs : List Char, (∀ c ∈ cs, Text.isBlank c = true) →
      ',' ∉ cs := by
    intro cs hcs hmem
    have hcomma := hcs _ hmem
    cases hcomma
  obtain ⟨before, node, after⟩ := item
  simp only [chars, List.mem_append, not_or]
  refine ⟨⟨hblank _ h.before, ?_⟩, hblank _ h.after⟩
  cases node with
  | none => exact List.not_mem_nil
  | some n => exact comma_not_mem_spec (h.comma n rfl)

theorem Fits.trimChars_chars {item : Item} (h : item.Fits) :
    Text.trimChars item.chars =
      (item.node.map fun n => n.spec.toList).getD [] := by
  refine Text.trimChars_padded ?_ h.before h.after
  obtain ⟨before, node, after⟩ := item
  cases node with
  | none => exact ⟨nofun, nofun⟩
  | some n => exact (h.plain n rfl).spec_trimmed

end Item

/-- The items of a list that are not blank, trimmed. -/
def wanted (parts : List (List Char)) : List (List Char) :=
  (parts.map Text.trimChars).filter fun item => !item.isEmpty

theorem wanted_append (before after : List (List Char)) :
    wanted (before ++ after) = wanted before ++ wanted after := by
  rw [wanted, List.map_append, List.filter_append, wanted, wanted]

theorem mapM_cons_ok {f : List Char → Except Fault Node} {item : List Char}
    {n : Node} {items : List (List Char)} {nodes : List Node}
    (hitem : f item = .ok n) (hitems : items.mapM f = .ok nodes) :
    (item :: items).mapM f = .ok (n :: nodes) := by
  rw [List.mapM_cons, hitem, hitems]
  rfl

/-- Items that fit are read as the nodes that they hold. -/
theorem mapM_read_wanted {items : List Item} (h : ∀ item ∈ items, item.Fits) :
    (wanted (items.map Item.chars)).mapM read =
      .ok (items.filterMap Item.node) := by
  induction items with
  | nil => rfl
  | cons item items ih =>
      have hitem := h item List.mem_cons_self
      have hrest := ih fun x hx => h x (List.mem_cons_of_mem _ hx)
      have htrim := hitem.trimChars_chars
      obtain ⟨before, node, after⟩ := item
      rw [wanted, List.map_cons, List.map_cons, htrim, List.filter_cons]
      cases node with
      | none => exact hrest
      | some n =>
          have hplain := hitem.plain n rfl
          have hne : (!n.spec.toList.isEmpty) = true := by simp [toList_spec]
          simp only [Option.map_some, Option.getD_some, if_pos hne]
          exact mapM_cons_ok hplain.read_spec hrest

/-- Everything is read if there is nothing to refuse. -/
theorem mapM_ok_iff {items : List (List Char)} :
    (∃ nodes, items.mapM read = .ok nodes) ↔
      ∀ item ∈ items, ∃ n, read item = .ok n := by
  induction items with
  | nil => exact ⟨fun _ => nofun, fun _ => ⟨[], rfl⟩⟩
  | cons item items ih =>
      rw [List.forall_mem_cons, ← ih]
      refine ⟨fun ⟨nodes, h⟩ => ?_, fun ⟨⟨n, hitem⟩, nodes, hitems⟩ =>
        ⟨n :: nodes, mapM_cons_ok hitem hitems⟩⟩
      rw [List.mapM_cons] at h
      cases hitem : read item with
      | error fault => rw [hitem] at h; cases h
      | ok n =>
          cases hitems : items.mapM read with
          | error fault => rw [hitem, hitems] at h; cases h
          | ok nodes => exact ⟨⟨n, rfl⟩, nodes, rfl⟩

/-- The first item that is refused is the fault of the list. -/
theorem mapM_error {before after : List (List Char)} {item : List Char}
    {fault : Fault} (hbefore : ∀ x ∈ before, ∃ n, read x = .ok n)
    (hitem : read item = .error fault) :
    (before ++ item :: after).mapM read = .error fault := by
  obtain ⟨nodes, hnodes⟩ := mapM_ok_iff.2 hbefore
  rw [List.mapM_append, hnodes, List.mapM_cons, hitem]
  rfl

theorem read_trimChars (cs : List Char) :
    read (Text.trimChars cs) = read cs := by
  rw [read, read, Text.trimChars_of_isTrimmed (Text.isTrimmed_trimChars cs)]

/-- What is wanted of some parts is read just if the parts that are not blank
are. -/
theorem forall_wanted {P : Except Fault Node → Prop}
    {parts : List (List Char)} : (∀ item ∈ wanted parts, P (read item)) ↔
      ∀ part ∈ parts, Text.trimChars part ≠ [] → P (read part) := by
  simp only [wanted, List.mem_filter, List.mem_map, Bool.not_eq_true',
    List.isEmpty_eq_false_iff]
  refine ⟨fun h part hpart hne => ?_, ?_⟩
  · rw [← read_trimChars]
    exact h _ ⟨⟨part, hpart, rfl⟩, hne⟩
  · rintro h _ ⟨⟨part, hpart, rfl⟩, hne⟩
    rw [read_trimChars]
    exact h part hpart hne

theorem listOfText_eq (text : String) :
    listOfText text = (wanted (Text.pieces ',' text.toList)).mapM read := rfl

theorem listOfText_items {items : List Item} (h : ∀ item ∈ items, item.Fits) :
    listOfText (String.ofList ([','].intercalate (items.map Item.chars))) =
      .ok (items.filterMap Item.node) := by
  rw [listOfText_eq, String.toList_ofList]
  rcases eq_or_ne items [] with rfl | hne
  · rfl
  · rw [Text.pieces_intercalate (by simpa using hne), mapM_read_wanted h]
    intro part hpart
    obtain ⟨item, hitem, rfl⟩ := List.mem_map.1 hpart
    exact (h item hitem).comma_not_mem

end Node

open Node (Item)

/-- Nodes are read as they are written. A node that was read from some text is
read again from its own, and so is every plain node, whatever its port. From the
list of the configuration exactly the nodes are read that were written there, in
their order, with any blanks and any empty items between the commas. And the
list is read just if each of its items is that is not blank; otherwise the fault
is that of the first one that is not. -/
theorem Settings.nodes_read_as_written :
    (∀ (text : String) (n : Node), Node.ofText text = .ok n →
      Node.ofText n.spec = .ok n) ∧
    (∀ n : Node, n.Plain → Node.ofText n.spec = .ok n) ∧
    ∀ (settings : Settings) (text : String),
      (settings.find? ["replix", "cluster", "nodes"]).bind Setting.text? =
        some text →
      (∀ items : List Item, (∀ item ∈ items, item.Fits) →
        text = String.ofList ([','].intercalate (items.map Item.chars)) →
        settings.clusterNodes = .ok (items.filterMap Item.node)) ∧
      ((∃ nodes, settings.clusterNodes = .ok nodes) ↔
        ∀ part ∈ Text.pieces ',' text.toList, Text.trimChars part ≠ [] →
          ∃ n, Node.ofText (String.ofList part) = .ok n) ∧
      ∀ before part after fault, Text.pieces ',' text.toList =
        before ++ part :: after →
          (∀ p ∈ before, Text.trimChars p ≠ [] →
            ∃ n, Node.ofText (String.ofList p) = .ok n) →
        Text.trimChars part ≠ [] →
          Node.ofText (String.ofList part) = .error fault →
        settings.clusterNodes = .error fault := by
  have hofList : ∀ cs, Node.ofText (String.ofList cs) = Node.read cs :=
    fun cs => by
    rw [Node.ofText, String.toList_ofList]
  refine ⟨fun text n h => (Node.plain_of_read h).read_spec, fun n h =>
    h.read_spec, ?_⟩
  intro settings text htext
  have hnodes : settings.clusterNodes = Node.listOfText text := by
    rw [clusterNodes, htext]
  simp only [hofList]
  refine ⟨fun items hfits hitems => ?_, ?_,
    fun before part after fault hparts hbefore hne hpart => ?_⟩
  · rw [hnodes, hitems, Node.listOfText_items hfits]
  · rw [hnodes, Node.listOfText_eq, Node.mapM_ok_iff]
    exact Node.forall_wanted (P := fun result => ∃ n, result = .ok n)
  · have hwanted : Node.wanted (part :: after) =
        Text.trimChars part :: Node.wanted after := by
      simp [Node.wanted, hne]
    rw [hnodes, Node.listOfText_eq, hparts, Node.wanted_append, hwanted]
    refine Node.mapM_error ?_ ((Node.read_trimChars part).trans hpart)
    exact (Node.forall_wanted (P := fun result => ∃ n, result = .ok n)).2
      hbefore

/-- A node with an at sign and colons in its host, which stands in a list
between an empty item and a blank one, and a list with an item that is no
node. -/
theorem Settings.nodes_read_as_written_padded :
    let settings (text : String) : Settings :=
      [("replix", .table [("cluster", .table [("nodes", .text text)])])]
    let read : Node := ⟨"a", "h : 1", 8⟩
    let n : Node := ⟨"n1", "fe80::1@eth0", 8080⟩
    let items : List Item :=
      [{}, { node := some n, after := ['\t'] }, { before := [' '] }]
    Node.ofText " a @ h : 1:+08 " = .ok read ∧
      Node.ofText read.spec = .ok read ∧
    n.Plain ∧ Node.ofText n.spec = .ok n ∧
    (∀ item ∈ items, item.Fits) ∧
    (settings ",n1@fe80::1@eth0:8080\t, ").clusterNodes = .ok [n] ∧
    (∀ p ∈ ["n1@h:1".toList, []], Text.trimChars p ≠ [] →
      ∃ m, Node.ofText (String.ofList p) = .ok m) ∧
    (settings "n1@h:1,,x").clusterNodes =
      .error (.illegalArgument "invalid node address: x") := by
  intro settings read n items
  have hread : Node.ofText " a @ h : 1:+08 " = .ok read := rfl
  have hplain : n.Plain := by
    refine ⟨by decide, ⟨?_, ?_⟩, by decide, by decide, ?_⟩
    all_goals simp [n, Text.isBlank]
  have hfits : ∀ item ∈ items, item.Fits := by
    have hblank : ∀ d : Char, Text.isBlank d = true →
        ∀ c ∈ [d], Text.isBlank c = true :=
      fun d hd => List.forall_mem_singleton.2 hd
    refine List.forall_mem_cons.2
      ⟨⟨nofun, nofun, nofun, nofun⟩, List.forall_mem_cons.2
      ⟨⟨nofun, hblank '\t' rfl, ?_, ?_⟩, List.forall_mem_singleton.2
        ⟨hblank ' ' rfl, nofun, nofun, nofun⟩⟩⟩
    · exact fun _ h => Option.some.inj h ▸ hplain
    · exact fun _ h => Option.some.inj h ▸ by decide
  have hok : ∀ p ∈ ["n1@h:1".toList, []], Text.trimChars p ≠ [] →
      ∃ m, Node.ofText (String.ofList p) = .ok m :=
    List.forall_mem_cons.2 ⟨fun _ => ⟨⟨"n1", "h", 1⟩, rfl⟩,
      List.forall_mem_singleton.2 fun hne => absurd rfl hne⟩
  obtain ⟨hagain, hspec, hlists⟩ := nodes_read_as_written
  refine ⟨hread, hagain _ read hread, hplain, hspec n hplain, hfits, ?_,
    hok, ?_⟩
  · exact (hlists (settings ",n1@fe80::1@eth0:8080\t, ") _ rfl).1 items
      hfits (by decide)
  · exact (hlists (settings "n1@h:1,,x") _ rfl).2.2 ["n1@h:1".toList, []] ['x']
      [] _ (by decide) hok (by decide) rfl

end Fanout
