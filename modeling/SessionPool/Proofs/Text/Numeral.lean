import SessionPool.Text.Numeral

/-!
# Which texts are numerals

A numeral without a sign is a non-empty string of ASCII digits, and it stands for the number with
these digits; the spelling of a number reads back as this number.
-/

namespace SessionPool.Numeral

variable {n m d : Nat} {c : Char} {cs : List Char}

theorem digit?_eq_some : digit? c = some d ↔ c.isDigit = true ∧ d = c.toNat - '0'.toNat := by
  have hrange : ('0' ≤ c ∧ c ≤ '9') ↔ c.isDigit = true := by
    rw [Char.isDigit_iff_toNat, Char.le_def, Char.le_def, UInt32.le_iff_toNat_le,
      UInt32.le_iff_toNat_le]
    rfl
  rw [digit?]
  by_cases h : c.isDigit = true
  · rw [if_pos (hrange.2 h), Option.some_inj]
    exact ⟨fun hd => ⟨h, hd.symm⟩, fun hd => hd.2.symm⟩
  · rw [if_neg fun h' => h (hrange.1 h')]
    exact ⟨nofun, fun hd => absurd hd.1 h⟩

theorem extend?_eq_some :
    extend? n cs = some m ↔ (∀ c ∈ cs, c.isDigit = true) ∧ m = Nat.ofDigitChars 10 cs n := by
  induction cs generalizing n with
  | nil =>
    rw [extend?, Option.some_inj, Nat.ofDigitChars_nil]
    exact ⟨fun h => ⟨nofun, h.symm⟩, fun h => h.2.symm⟩
  | cons c cs ih =>
    rw [extend?, List.forall_mem_cons, Nat.ofDigitChars_cons]
    cases hd : digit? c with
    | none =>
      refine ⟨nofun, fun h => ?_⟩
      rw [digit?_eq_some.2 ⟨h.1.1, rfl⟩] at hd
      cases hd
    | some d =>
      obtain ⟨hc, rfl⟩ := digit?_eq_some.1 hd
      exact ih.trans ⟨fun h => ⟨⟨hc, h.1⟩, h.2⟩, fun h => ⟨h.1.2, h.2⟩⟩

theorem digits?_eq_some : digits? cs = some n ↔
    (cs ≠ [] ∧ ∀ c ∈ cs, c.isDigit = true) ∧ n = Nat.ofDigitChars 10 cs 0 := by
  cases cs with
  | nil => exact ⟨nofun, fun h => absurd rfl h.1.1⟩
  | cons c cs =>
    have hextend : digits? (c :: cs) = extend? 0 (c :: cs) := rfl
    rw [hextend, extend?_eq_some]
    exact ⟨fun h => ⟨⟨List.cons_ne_nil c cs, h.1⟩, h.2⟩, fun h => ⟨h.1.2, h.2⟩⟩

theorem digits?_cons_of_not_isDigit (h : c.isDigit = false) : digits? (c :: cs) = none := by
  cases hd : digits? (c :: cs) with
  | none => rfl
  | some n =>
    have hc := (digits?_eq_some.1 hd).1.2 c List.mem_cons_self
    rw [h] at hc
    cases hc

theorem natural?_eq_some : natural? cs = some n ↔
    ∃ ds, (cs = ds ∨ cs = '+' :: ds) ∧ digits? ds = some n := by
  unfold natural?
  split
  · next ds =>
    refine ⟨fun h => ⟨ds, .inr rfl, h⟩, ?_⟩
    rintro ⟨ds', rfl | hcs, h⟩
    · rw [digits?_cons_of_not_isDigit (by decide)] at h
      cases h
    · rwa [(List.cons.inj hcs).2]
  · next hplus =>
    refine ⟨fun h => ⟨cs, .inl rfl, h⟩, ?_⟩
    rintro ⟨ds, rfl | hcs, h⟩
    · exact h
    · exact absurd hcs (hplus ds)

theorem isDigit_of_mem_ofNat (h : c ∈ ofNat n) : c.isDigit = true :=
  Nat.isDigit_of_mem_toDigits (by decide) (by decide) h

theorem digits?_ofNat (n : Nat) : digits? (ofNat n) = some n :=
  digits?_eq_some.2 ⟨⟨Nat.toDigits_ne_nil, fun _ => isDigit_of_mem_ofNat⟩,
    (Nat.ofDigitChars_toDigits (by decide) (by decide)).symm⟩

end SessionPool.Numeral
