import SessionPool.Proofs.Json.Reading

/-!
# The compact text of a value

What a value is written as is one of its texts, so writing and reading undo each other.
-/

namespace SessionPool.Json

open Token

inductive Proper : Json → Prop
  | null : Proper null
  | bool (b : Bool) : Proper (bool b)
  | integer (i : Int) : Proper (integer i)
  | string (s : String) : Proper (string (some s))
  | array {items : List Json} (h : ∀ v ∈ items, Proper v) : Proper (array items)
  | object {members : List (JsonText × Json)} (hnames : ∀ m ∈ members, m.1.isSome = true)
      (h : ∀ m ∈ members, Proper m.2) : Proper (object members)

theorem written_escapeChar (c : Char) : Written c (escapeChar c) := by
  rw [escapeChar]
  split
  · next letter d hfind =>
    obtain rfl : d = c := by simpa using List.find?_some hfind
    exact .short (List.mem_cons_of_mem _ (List.mem_of_find?_eq_some hfind))
  · next hfind =>
    have hplain : ∀ e ∈ shortEscapes, e.2 ≠ c := by simpa using hfind
    split
    · next hcontrol =>
      -- Below 0x20 the first two of the four digits are zero.
      have hzero := Hex.lower (show 0 < 16 by decide)
      have hescape := Escape.digits hzero hzero
        (.lower (show c.toNat / 16 < 16 by omega)) (.lower (show c.toNat % 16 < 16 by omega))
      refine .escape ?_
      have hvalue : ((0 * 16 + 0) * 16 + c.toNat / 16) * 16 + c.toNat % 16 = c.toNat := by omega
      rwa [hvalue] at hescape
    · next hcontrol =>
      exact .plain (hplain ('"', '"') (by decide)).symm (hplain ('\\', '\\') (by decide)).symm
        (Nat.not_lt.1 hcontrol)

theorem writtenText_escape (text : List Char) : WrittenText text (text.flatMap escapeChar) := by
  induction text with
  | nil => exact .nil
  | cons c text ih =>
    rw [List.flatMap_cons]
    exact .cons (written_escapeChar c) ih

variable {t : Token} {ts : List Token} {c : Char} {cs rest : List Char}

theorem gap_nil : Gap [] := fun _ hc => absurd hc List.not_mem_nil

theorem spaced_token (ht : t.Spelled cs) (he : t.isNumber = true → Ends rest)
    (hr : Spaced ts rest) : Spaced (t :: ts) (cs ++ rest) :=
  .next gap_nil ht he hr

theorem ends_of_mark (h : Mark t c) : Ends (c :: rest) := by
  intro d hd
  cases hd
  cases h <;> decide

theorem spaced_mark (h : Mark t c) (hr : Spaced ts rest) : Spaced (t :: ts) (c :: rest) :=
  spaced_token (.mark h) (by cases h <;> nofun) hr

theorem spaced_text (s : String) (hr : Spaced ts rest) :
    Spaced (.string (some s) :: ts) (renderText (some s) ++ rest) :=
  spaced_token (.string (writtenText_escape s.toList)) nofun hr

theorem render_word {v : Json} (h : Word v cs) : tokens v = [.scalar v] ∧ render v = cs := by
  cases h <;> exact ⟨by rw [tokens], by rw [render]; rfl⟩

/-- The compact text of the value may stand before any text that a number does not run into. -/
def Prints (v : Json) : Prop :=
  ∀ ⦃ts : List Token⦄ ⦃rest : List Char⦄, Spaced ts rest → Ends rest →
    Spaced (tokens v ++ ts) (render v ++ rest)

theorem prints_word {v : Json} (h : Word v cs) : Prints v := by
  obtain ⟨htokens, hrender⟩ := render_word h
  intro ts rest hr he
  rw [htokens, hrender]
  exact spaced_token (.word h) (fun _ => he) hr

theorem spaced_items {items : List Json} (h : ∀ v ∈ items, Prints v) (hr : Spaced ts rest)
    (he : Ends rest) : Spaced (itemTokens items ++ ts) (renderItems items ++ rest) := by
  induction items with
  | nil => exact hr
  | cons v vs ih =>
    have hv := h v List.mem_cons_self
    have hvs := ih fun w hw => h w (List.mem_cons_of_mem v hw)
    cases vs with
    | nil => exact hv hr he
    | cons w vs =>
      rw [itemTokens, renderItems, List.append_assoc, List.append_assoc]
      · exact hv (spaced_mark .comma hvs) (ends_of_mark .comma)
      · exact List.cons_ne_nil _ _
      · exact List.cons_ne_nil _ _

theorem spaced_members {members : List (JsonText × Json)}
    (hnames : ∀ m ∈ members, m.1.isSome = true)
    (h : ∀ m ∈ members, Prints m.2) (hr : Spaced ts rest) (he : Ends rest) :
    Spaced (memberTokens members ++ ts) (renderMembers members ++ rest) := by
  induction members with
  | nil => exact hr
  | cons m ms ih =>
    obtain ⟨name, v⟩ := m
    obtain ⟨s, hs⟩ := Option.isSome_iff_exists.1 (hnames _ List.mem_cons_self)
    obtain rfl : name = some s := hs
    have hv := h _ List.mem_cons_self
    have hms := ih (fun m hm => hnames m (List.mem_cons_of_mem _ hm))
      fun m hm => h m (List.mem_cons_of_mem _ hm)
    cases ms with
    | nil =>
      rw [memberTokens, renderMembers, List.append_assoc]
      exact spaced_text s (spaced_mark .colon (hv hr he))
    | cons n ms =>
      have hrest := hv (spaced_mark .comma hms) (ends_of_mark .comma)
      rw [memberTokens, renderMembers]
      · simp only [List.cons_append, List.append_assoc]
        exact spaced_text s (spaced_mark .colon hrest)
      · exact List.cons_ne_nil _ _
      · exact List.cons_ne_nil _ _

theorem prints_of_proper {v : Json} (h : Proper v) : Prints v := by
  induction h with
  | null => exact prints_word .null
  | bool b =>
    cases b with
    | false => exact prints_word .false
    | true => exact prints_word .true
  | integer i =>
    intro ts rest hr he
    rw [tokens, render]
    exact spaced_token (.integer i) (fun _ => he) hr
  | string s =>
    intro ts rest hr he
    rw [tokens, render]
    exact spaced_text s hr
  | array h ih =>
    intro ts rest hr he
    have hitems := spaced_items ih (spaced_mark .closeArray hr) (ends_of_mark .closeArray)
    rw [tokens, render]
    simp only [List.cons_append, List.append_assoc]
    exact spaced_mark .openArray hitems
  | object hnames h ih =>
    intro ts rest hr he
    have hmembers :=
      spaced_members hnames ih (spaced_mark .closeObject hr) (ends_of_mark .closeObject)
    rw [tokens, render]
    simp only [List.cons_append, List.append_assoc]
    exact spaced_mark .openObject hmembers

theorem spells_render {v : Json} (h : Proper v) : Spells v (String.ofList v.render) := by
  have hends : Ends [] := nofun
  have hprints := prints_of_proper h (.done gap_nil) hends
  rwa [List.append_nil, List.append_nil, ← String.toList_ofList (l := v.render)] at hprints

theorem read_render {α : Type} {v : Json} (h : Proper v) (read : Json → Option α) :
    (parse? (String.ofList v.render)).bind read = read v := read_of_spells (spells_render h) read

end SessionPool.Json
