import SessionPool.Proofs.Address.Entry

/-!
# Lists of addresses

A list is read entry by entry: joining two texts by a comma joins what they list, so no entry
changes what becomes of another. Addresses that can be written between commas are read back from a
list of their spellings whatever else stands in it, and what a list gives is always of this kind.
-/

namespace SessionPool.Address

variable {s t : String} {cs entry : List Char} {a : Address}

/-! ### Entries -/

theorem entries_comma (cs : List Char) : entries (',' :: cs) = [] :: entries cs := rfl

theorem entries_cons {c : Char} {word : List Char} {words : List (List Char)} (hc : c ≠ ',')
    (h : entries cs = word :: words) : entries (c :: cs) = (c :: word) :: words := by
  have hsplit : entries (c :: cs) = entries.split c (word :: words) := congrArg (entries.split c) h
  rw [hsplit, entries.split.eq_def, if_neg hc]

theorem entries_eq (cs : List Char) : entries cs = cs.splitOn ',' := by
  induction cs with
  | nil => rfl
  | cons c cs ih =>
    rw [List.splitOn_cons_eq_if_modifyHead]
    by_cases hc : c = ','
    · rw [if_pos (beq_iff_eq.2 hc), hc, entries_comma, ih]
    · rw [if_neg fun h => hc (beq_iff_eq.1 h)]
      obtain ⟨word, words, hwords⟩ := List.exists_cons_of_ne_nil (List.splitOn_ne_nil ',' cs)
      rw [entries_cons hc (ih.trans hwords), hwords, List.modifyHead_cons]

theorem comma_of_mem_entries (h : entry ∈ entries cs) : ',' ∉ entry := by
  induction cs generalizing entry with
  | nil =>
    rw [List.mem_singleton.1 h]
    exact List.not_mem_nil
  | cons c cs ih =>
    by_cases hc : c = ','
    · rw [hc, entries_comma] at h
      rcases List.mem_cons.1 h with rfl | hentry
      · exact List.not_mem_nil
      · exact ih hentry
    · obtain ⟨word, words, hwords⟩ :=
        List.exists_cons_of_ne_nil (entries_eq cs ▸ List.splitOn_ne_nil ',' cs)
      rw [entries_cons hc hwords] at h
      rw [hwords] at ih
      rcases List.mem_cons.1 h with rfl | hentry
      · exact List.not_mem_cons_of_ne_of_not_mem (Ne.symm hc) (ih List.mem_cons_self)
      · exact ih (List.mem_cons_of_mem word hentry)

theorem ofChars?_trim (cs : List Char) : ofChars? (Text.trim cs) = ofChars? cs := by
  rw [ofChars?, Text.trim_trim, ← ofChars?]

theorem parseList_eq (s : String) : parseList s = (s.toList.splitOn ',').filterMap ofChars? := by
  rw [parseList, entries_eq, List.filterMap_filter, List.filterMap_map]
  congr 1
  funext entry
  simp only [Function.comp_apply, Bool.not_eq_true', List.isEmpty_eq_false_iff, ne_eq, ite_not,
    ofChars?_trim]
  split
  · next hblank => rw [← ofChars?_trim, hblank]; rfl
  · rfl

/-! ### Joining lists -/

theorem parseList_append_comma (s t : String) :
    parseList (s ++ "," ++ t) = parseList s ++ parseList t := by
  have hcomma : ",".toList = [','] := rfl
  rw [parseList_eq, parseList_eq, parseList_eq, String.toList_append, String.toList_append, hcomma,
    List.append_assoc, List.singleton_append, List.splitOn_append_cons_self, List.filterMap_append]

theorem parseList_intercalate {ss : List String} (h : ∀ s ∈ ss, ',' ∉ s.toList) :
    parseList (",".intercalate ss) = ss.filterMap parse? := by
  by_cases hss : ss = []
  · rw [hss]
    rfl
  · have hcomma : ",".toList = [','] := rfl
    have hwords : ∀ word ∈ ss.map String.toList, ',' ∉ word := List.forall_mem_map.2 h
    have hne : ss.map String.toList ≠ [] := fun hmap => hss (List.map_eq_nil_iff.1 hmap)
    rw [parseList_eq, String.toList_intercalate, hcomma, List.splitOn_intercalate ',' hwords hne,
      List.filterMap_map]
    rfl

/-! ### Reading back what was listed -/

structure Listable (a : Address) : Prop extends a.Writable where
  comma_host : ',' ∉ a.host.toList

instance (a : Address) : Decidable a.Listable :=
  decidable_of_iff (a.Writable ∧ ',' ∉ a.host.toList)
    ⟨fun ⟨hwritable, hcomma⟩ => ⟨hwritable, hcomma⟩, fun h => ⟨h.toWritable, h.comma_host⟩⟩

/-- One entry of a list: the spelling of an address between blanks, or some text that is none. -/
inductive Item
  | address (front : String) (a : Address) (back : String)
  | other (text : String)

def Item.text : Item → String
  | .address front a back => front ++ a.render ++ back
  | .other text => text

def Item.address? : Item → Option Address
  | .address _ a _ => some a
  | .other _ => none

def Item.Fine : Item → Prop
  | .address front a back => Text.Blank front.toList ∧ a.Listable ∧ Text.Blank back.toList
  | .other text => ',' ∉ text.toList ∧ parse? text = none

instance : (item : Item) → Decidable item.Fine
  | .address front a back => inferInstanceAs
      (Decidable (Text.Blank front.toList ∧ a.Listable ∧ Text.Blank back.toList))
  | .other text => inferInstanceAs (Decidable (',' ∉ text.toList ∧ parse? text = none))

theorem comma_of_blank (h : Text.Blank cs) : ',' ∉ cs := fun hcomma =>
  absurd (h ',' hcomma) (by decide)

theorem Listable.comma_render (h : a.Listable) : ',' ∉ a.render.toList := by
  rw [toList_render]
  have hport : ',' ∉ Numeral.ofNat a.port.toNat := fun hcomma =>
    absurd (Numeral.isDigit_of_mem_ofNat hcomma) (by decide)
  exact List.not_mem_append h.comma_host (List.not_mem_cons_of_ne_of_not_mem (by decide) hport)

theorem parse?_pad (hfront : Text.Blank s.toList) (hback : Text.Blank t.toList) (entry : String) :
    parse? (s ++ entry ++ t) = parse? entry := by
  rw [parse?, String.toList_append, String.toList_append, ← ofChars?_trim,
    Text.trim_pad hfront hback, ofChars?_trim, ← parse?]

theorem Item.Fine.comma_text {item : Item} (h : item.Fine) : ',' ∉ item.text.toList := by
  cases item with
  | address front a back =>
    rw [text, String.toList_append, String.toList_append]
    exact List.not_mem_append
      (List.not_mem_append (comma_of_blank h.1) h.2.1.comma_render) (comma_of_blank h.2.2)
  | other text => exact h.1

theorem Item.Fine.parse?_text {item : Item} (h : item.Fine) : parse? item.text = item.address? := by
  cases item with
  | address front a back =>
    exact (parse?_pad h.1 h.2.2 a.render).trans (parse?_render.2 h.2.1.toWritable)
  | other text => exact h.2

theorem parseList_items {items : List Item} (h : ∀ item ∈ items, item.Fine) :
    parseList (",".intercalate (items.map Item.text)) = items.filterMap Item.address? := by
  rw [parseList_intercalate (List.forall_mem_map.2 fun item hitem => (h item hitem).comma_text),
    List.filterMap_map]
  exact List.filterMap_congr fun item hitem => (h item hitem).parse?_text

theorem listable_of_mem_parseList (h : a ∈ parseList s) : a.Listable := by
  rw [parseList_eq, ← entries_eq, List.mem_filterMap] at h
  obtain ⟨entry, hentry, hread⟩ := h
  obtain ⟨before, after, rfl, hd⟩ := ofChars?_eq_some.1 hread
  refine ⟨hd.writable, fun hcomma => comma_of_mem_entries hentry (List.mem_append_left _ ?_)⟩
  exact Text.mem_of_mem_trim (hd.host ▸ hcomma)

theorem parseList_render {as : List Address} (h : ∀ a ∈ as, a.Listable) :
    parseList (",".intercalate (as.map render)) = as := by
  rw [parseList_intercalate (List.forall_mem_map.2 fun a ha => (h a ha).comma_render),
    List.filterMap_map]
  exact (List.filterMap_congr fun a ha => parse?_render.2 (h a ha).toWritable).trans
    List.filterMap_some

/-- Lists decompose at their commas, give back the addresses written into them, and settle after one
reading. -/
theorem parseList_laws :
    (∀ s t, parseList (s ++ "," ++ t) = parseList s ++ parseList t) ∧
    (∀ items : List Item, (∀ item ∈ items, item.Fine) →
      parseList (",".intercalate (items.map Item.text)) = items.filterMap Item.address?) ∧
    ∀ s, parseList (",".intercalate ((parseList s).map render)) = parseList s :=
  ⟨parseList_append_comma, fun _ => parseList_items,
    fun _ => parseList_render fun _ => listable_of_mem_parseList⟩

theorem parseList_laws_mixed :
    parseList "db:6379 ,, db : 65536 ,\u3000a b:1,db:6379,\t" =
      [⟨"db", 6379⟩, ⟨"a b", 1⟩, ⟨"db", 6379⟩] := by
  have hfine : ∀ item ∈ [Item.address "" ⟨"db", 6379⟩ " ", .other "", .other " db : 65536 ",
      .address "\u3000" ⟨"a b", 1⟩ "", .address "" ⟨"db", 6379⟩ "", .other "\t"], item.Fine := by
    decide +kernel
  exact parseList_laws.2.1 _ hfine

end SessionPool.Address
