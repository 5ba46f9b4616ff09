import SessionPool.Address
import SessionPool.Proofs.Text.Numeral
import SessionPool.Proofs.Text.Trim

/-!
# What an address entry is

An entry is read as an address exactly when its one colon stands between a host and a port. The
spelling of an address is read back as this address exactly when its host can be written in an
entry, and the addresses that entries denote are of this kind.
-/

namespace SessionPool.Address

variable {s : String} {cs before after entry : List Char} {a : Address} {p : UInt16} {n : Nat}

structure SpellsPort (cs : List Char) (n : Nat) : Prop where
  digits : ∃ ds : List Char, (cs = ds ∨ cs = '+' :: ds) ∧
    (ds ≠ [] ∧ ∀ c ∈ ds, c.isDigit = true) ∧ n = Nat.ofDigitChars 10 ds 0
  lower : 1 ≤ n
  upper : n ≤ 65535

/-- The texts before and after a colon that make up an entry for the address. -/
structure Denotes (before after : List Char) (a : Address) : Prop where
  colon_before : ':' ∉ before
  colon_after : ':' ∉ after
  host : Text.trim before = a.host.toList
  host_ne : a.host ≠ ""
  port : SpellsPort (Text.trim after) a.port.toNat

structure Writable (a : Address) : Prop where
  host_ne : a.host ≠ ""
  trimmed : Text.trim a.host.toList = a.host.toList
  colon_host : ':' ∉ a.host.toList
  port_ne : a.port ≠ 0

instance (a : Address) : Decidable a.Writable :=
  decidable_of_iff (a.host ≠ "" ∧ Text.trim a.host.toList = a.host.toList ∧ ':' ∉ a.host.toList ∧
      a.port ≠ 0)
    ⟨fun ⟨hne, htrim, hcolon, hport⟩ => ⟨hne, htrim, hcolon, hport⟩,
      fun h => ⟨h.host_ne, h.trimmed, h.colon_host, h.port_ne⟩⟩

theorem port?_eq_some : port? cs = some p ↔ SpellsPort cs p.toNat := by
  have hread : (∃ n, Numeral.natural? cs = some n ∧ (0 < n ∧ n < UInt16.size) ∧
      UInt16.ofNat n = p) ↔ SpellsPort cs p.toNat := by
    constructor
    · rintro ⟨n, hn, ⟨hlower, hupper⟩, rfl⟩
      obtain ⟨ds, hsign, hds⟩ := Numeral.natural?_eq_some.1 hn
      have hvalue : (UInt16.ofNat n).toNat = n := UInt16.toNat_ofNat_of_lt' hupper
      rw [hvalue]
      exact ⟨⟨ds, hsign, Numeral.digits?_eq_some.1 hds⟩, hlower, Nat.le_of_lt_succ hupper⟩
    · rintro ⟨⟨ds, hsign, hds⟩, hlower, hupper⟩
      exact ⟨p.toNat, Numeral.natural?_eq_some.2 ⟨ds, hsign, Numeral.digits?_eq_some.2 hds⟩,
        ⟨hlower, Nat.lt_succ_of_le hupper⟩, UInt16.ofNat_toNat⟩
  rw [← hread, port?]
  cases Numeral.natural? cs with
  | none => exact ⟨nofun, fun ⟨_, h, _⟩ => nomatch h⟩
  | some n =>
    dsimp only
    split
    · next hrange =>
      exact ⟨fun h => ⟨n, rfl, hrange, Option.some.inj h⟩, fun ⟨_, h, _, hp⟩ => by
        rw [Option.some.inj h, hp]⟩
    · next hrange => exact ⟨nofun, fun ⟨_, h, hm, _⟩ => absurd (Option.some.inj h ▸ hm) hrange⟩

/-! ### The parts of an entry -/

theorem colon_not_blank : Text.isBlank ':' = false := by decide

theorem ofChars?_of_not_mem (h : ':' ∉ entry) : ofChars? entry = none := by
  have hall : ∀ c ∈ Text.trim entry, (c != ':') = true := fun c hc =>
    bne_iff_ne.2 fun hcolon => h (hcolon ▸ Text.mem_of_mem_trim hc)
  rw [ofChars?, List.dropWhile_eq_nil_iff.2 hall]

theorem ofChars?_append (h : ':' ∉ before) :
    ofChars? (before ++ ':' :: after) =
      if ':' ∈ after ∨ Text.trim before = [] then none
      else (port? (Text.trim after)).map fun port => ⟨String.ofList (Text.trim before), port⟩ := by
  have hall : ∀ c ∈ Text.trimStart before, (c != ':') = true := fun c hc =>
    bne_iff_ne.2 fun hcolon => h (hcolon ▸ List.dropWhile_subset Text.isBlank hc)
  have hdrop : (Text.trimStart before ++ ':' :: Text.trimEnd after).dropWhile (· != ':') =
      ':' :: Text.trimEnd after := by
    rw [List.dropWhile_append_of_pos hall]
    rfl
  have htake : (Text.trimStart before ++ ':' :: Text.trimEnd after).takeWhile (· != ':') =
      Text.trimStart before := by
    rw [List.takeWhile_append_of_pos hall]
    exact List.append_nil _
  rw [ofChars?, Text.trim_append_cons colon_not_blank, hdrop, htake]
  simp only [Text.trim_trimStart, Text.trim_trimEnd, Bool.or_eq_true, List.contains_iff_mem,
    List.isEmpty_iff, Text.mem_trimEnd_of_not_blank colon_not_blank]

theorem ofChars?_append_eq_some (h : ':' ∉ before) :
    ofChars? (before ++ ':' :: after) = some a ↔ Denotes before after a := by
  rw [ofChars?_append h]
  split
  · next hbad =>
    refine ⟨nofun, fun hd => ?_⟩
    rcases hbad with hafter | hblank
    · exact absurd hafter hd.colon_after
    · refine absurd ?_ hd.host_ne
      rw [← String.toList_inj, ← hd.host, hblank]
      rfl
  · next hgood =>
    rw [not_or] at hgood
    rw [Option.map_eq_some_iff]
    constructor
    · rintro ⟨port, hport, rfl⟩
      refine ⟨h, hgood.1, String.toList_ofList.symm, fun hhost => hgood.2 ?_, port?_eq_some.1 hport⟩
      exact String.ofList_eq_empty_iff.1 hhost
    · intro hd
      refine ⟨a.port, port?_eq_some.2 hd.port, ?_⟩
      rw [hd.host, String.ofList_toList]

theorem ofChars?_eq_some : ofChars? entry = some a ↔
    ∃ before after, entry = before ++ ':' :: after ∧ Denotes before after a := by
  constructor
  · intro h
    by_cases hcolon : ':' ∈ entry
    · obtain ⟨before, after, rfl, hbefore⟩ := List.eq_append_cons_of_mem hcolon
      exact ⟨before, after, rfl, (ofChars?_append_eq_some hbefore).1 h⟩
    · rw [ofChars?_of_not_mem hcolon] at h
      cases h
  · rintro ⟨before, after, rfl, hd⟩
    exact (ofChars?_append_eq_some hd.colon_before).2 hd

theorem Denotes.writable (h : Denotes before after a) : a.Writable where
  host_ne := h.host_ne
  trimmed := by rw [← h.host, Text.trim_trim]
  colon_host hcolon := h.colon_before (Text.mem_of_mem_trim (h.host ▸ hcolon))
  port_ne hport := absurd h.port.lower (by rw [hport]; decide)

/-! ### Writing and reading back -/

theorem toList_render (a : Address) :
    a.render.toList = a.host.toList ++ ':' :: Numeral.ofNat a.port.toNat := by
  have hcolon : ":".toList = [':'] := rfl
  rw [render, String.toList_append, String.toList_append, List.append_assoc, hcolon,
    List.singleton_append, Nat.repr, String.toList_ofList, Numeral.ofNat]

theorem colon_ofNat (n : Nat) : ':' ∉ Numeral.ofNat n := fun h =>
  absurd (Numeral.isDigit_of_mem_ofNat h) (by decide)

theorem spellsPort_ofNat (hlower : 1 ≤ n) (hupper : n ≤ 65535) : SpellsPort (Numeral.ofNat n) n :=
  ⟨⟨Numeral.ofNat n, .inl rfl, Numeral.digits?_eq_some.1 (Numeral.digits?_ofNat n)⟩, hlower, hupper⟩

theorem trim_ofNat (n : Nat) : Text.trim (Numeral.ofNat n) = Numeral.ofNat n :=
  Text.trim_of_not_blank fun _ hc => Text.isBlank_of_isDigit (Numeral.isDigit_of_mem_ofNat hc)

theorem Writable.denotes (h : a.Writable) :
    Denotes a.host.toList (Numeral.ofNat a.port.toNat) a where
  colon_before := h.colon_host
  colon_after := colon_ofNat a.port.toNat
  host := h.trimmed
  host_ne := h.host_ne
  port := by
    have hpos : a.port.toNat ≠ 0 := fun hzero => h.port_ne (UInt16.toNat_inj.1 hzero)
    rw [trim_ofNat]
    exact spellsPort_ofNat (Nat.one_le_iff_ne_zero.2 hpos) (Nat.le_of_lt_succ a.port.toNat_lt)

theorem parse?_render : parse? a.render = some a ↔ a.Writable := by
  rw [parse?, ofChars?_eq_some, toList_render]
  constructor
  · rintro ⟨before, after, hsplit, hd⟩
    exact hd.writable
  · exact fun h => ⟨_, _, rfl, h.denotes⟩

/-- The grammar of entries, and which addresses can be written as one. -/
theorem parse?_grammar :
    (∀ s a, parse? s = some a ↔ ∃ before after,
      s.toList = before ++ ':' :: after ∧ Denotes before after a) ∧
    (∀ a, parse? a.render = some a ↔ a.Writable) ∧
    ∀ s a, parse? s = some a → parse? a.render = some a := by
  refine ⟨fun s a => ofChars?_eq_some, fun a => parse?_render, fun s a h => ?_⟩
  obtain ⟨before, after, -, hd⟩ := ofChars?_eq_some.1 h
  exact parse?_render.2 hd.writable

theorem parse?_grammar_padded :
    parse? "\tredis b : +06379\u3000" = some ⟨"redis b", 6379⟩ ∧
      Address.render ⟨"redis b", 6379⟩ = "redis b:6379" ∧
      parse? (Address.render ⟨"redis b", 6379⟩) = some ⟨"redis b", 6379⟩ :=
  have hread : parse? "\tredis b : +06379\u3000" = some ⟨"redis b", 6379⟩ := by decide
  ⟨hread, by decide, parse?_grammar.2.2 _ _ hread⟩

end SessionPool.Address
