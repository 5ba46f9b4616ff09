import SessionPool.Proofs.Wire.Framing

/-!
# Room for a frame

The length of a frame is known before it is written: the widths of its numbers are counted and added
to the lengths of its words, in 64 bits. The writer of a number counts nothing; it fills a space of
twenty bytes from the right. Both agree on every number of 64 bits, so a frame takes the room that
was reserved for it, no more and no less.
-/

namespace SessionPool

namespace Frame

def headerRoom (n : Nat) : UInt64 := 1 + UInt64.ofNat (decimalWidth n) + UInt64.ofNat crlf.length

def room (words : List Bytes) : UInt64 :=
  words.foldr (fun w n =>
    headerRoom w.length + UInt64.ofNat w.length + UInt64.ofNat crlf.length + n) 0 +
    headerRoom words.length

/-- Writes the digits of `n` into a space of fixed width, from the right and in front of `start`;
gives the space and the first place that was written. Digits that do not fit give nothing. -/
def fill? {width : Nat} (n : Nat) (space : Vector UInt8 width) :
    (start : Nat) → start ≤ width → Option (Vector UInt8 width × Nat)
  | 0, _ => none
  | start + 1, h =>
    let space := space.set start (UInt8.ofNat ('0'.toNat + n % 10)) h
    if n / 10 = 0 then some (space, start) else fill? (n / 10) space start (Nat.le_of_succ_le h)

def headerWithin? (width : Nat) (marker : Char) (n : Nat) : Option Bytes :=
  (fill? n (Vector.replicate width 0) width (Nat.le_refl width)).map fun (space, start) =>
    UInt8.ofNat marker.toNat :: (space.toList.drop start ++ crlf)

end Frame

namespace Wire

open SessionPool.Frame

/-! ## Digits -/

structure IsCanonical (ds : Bytes) (n : Nat) : Prop where
  nonempty : ds ≠ []
  digits : ∀ b ∈ ds, IsDigit b
  value : decimal ds = n
  leading : ds.head? = some 0x30 → ds = [0x30]

variable {n : Nat}

theorem digits_eq_zero (h : (digits n).head? = some 0x30) : n = 0 := by
  induction n using Nat.strongRecOn with
  | ind n ih =>
    by_cases hn : n < 10
    · rw [digits_of_lt hn, List.head?_cons, Option.some_inj, ← UInt8.toNat_inj, toNat_digit] at h
      have hzero : (0x30 : UInt8).toNat = 0x30 := rfl
      omega
    · have hle : 10 ≤ n := by omega
      rw [digits_of_le hle, List.head?_append_of_ne_nil _ (digits_ne_nil _)] at h
      have hdiv := ih (n / 10) (by omega) h
      omega

theorem isCanonical_digits (n : Nat) : IsCanonical (digits n) n where
  nonempty := digits_ne_nil n
  digits _ := isDigit_of_mem_digits
  value := decimal_digits n
  leading h := by
    rw [digits_eq_zero h, digits_of_lt (by decide)]
    rfl

theorem decimalWidth_of_lt (h : n < 10) : decimalWidth n = 1 := by rw [decimalWidth, if_pos h]

theorem decimalWidth_of_le (h : 10 ≤ n) : decimalWidth n = decimalWidth (n / 10) + 1 := by
  rw [decimalWidth, if_neg (by omega)]

theorem length_digits (n : Nat) : (digits n).length = decimalWidth n := by
  induction n using Nat.strongRecOn with
  | ind n ih =>
    by_cases h : n < 10
    · rw [digits_of_lt h, decimalWidth_of_lt h, List.length_singleton]
    · have hle : 10 ≤ n := by omega
      rw [digits_of_le hle, decimalWidth_of_le hle, List.length_append, ih (n / 10) (by omega),
        List.length_singleton]

theorem decimalWidth_le (n : UInt64) : decimalWidth n.toNat ≤ 20 := by
  have hlt := n.toNat_lt
  rw [← length_digits]
  exact length_digits_le (by omega)

theorem fill?_eq {width start : Nat} (hstart : start ≤ width) (space : Vector UInt8 width)
    (hn : decimalWidth n ≤ start) : ∃ space', fill? n space start hstart =
      some (space', start - decimalWidth n) ∧
    space'.toList.drop (start - decimalWidth n) = digits n ++ space.toList.drop start := by
  -- by induction on the places in front of `start`: one of them is taken for each digit
  induction start generalizing n space with
  | zero =>
    rw [← length_digits, Nat.le_zero, List.length_eq_zero_iff] at hn
    exact absurd hn (digits_ne_nil n)
  | succ start ih =>
    have hwritten (b : UInt8) : (space.set start b hstart).toList.drop start =
        b :: space.toList.drop (start + 1) := by
      have hlen : start < (space.toList.set start b).length := by
        rwa [List.length_set, Vector.length_toList]
      rw [Vector.toList_set, List.drop_eq_getElem_cons hlen, List.getElem_set_self, List.drop_set,
        if_pos (Nat.lt_succ_self start)]
    rw [fill?]
    by_cases h : n < 10
    · rw [if_pos (by omega), decimalWidth_of_lt h, digits_of_lt h]
      exact ⟨_, rfl, hwritten _⟩
    · have hle : 10 ≤ n := by omega
      rw [decimalWidth_of_le hle] at hn ⊢
      obtain ⟨space', hfill, hdrop⟩ := ih (Nat.le_of_succ_le hstart)
        (space.set start (UInt8.ofNat ('0'.toNat + n % 10)) hstart) (Nat.le_of_succ_le_succ hn)
      rw [if_neg (by omega), Nat.add_sub_add_right]
      refine ⟨space', hfill, ?_⟩
      rw [hdrop, hwritten, digits_of_le hle, List.append_assoc]
      rfl

theorem headerWithin?_eq {width : Nat} (marker : Char) (hn : decimalWidth n ≤ width) :
    headerWithin? width marker n = some (header marker n) := by
  obtain ⟨space, hfill, hdrop⟩ := fill?_eq (Nat.le_refl width) (Vector.replicate width 0) hn
  have hend : (Vector.replicate width (0 : UInt8)).toList.drop width = [] :=
    List.drop_of_length_le (by simp)
  rw [headerWithin?, hfill, Option.map_some]
  simp only [hdrop, hend, List.append_nil, header, digitsOnto_eq]

/-! ## Lengths -/

theorem length_header (marker : Char) (n : Nat) : (header marker n).length = headerLength n := by
  rw [header, digitsOnto_eq, List.length_cons, List.length_append, length_digits, headerLength]
  omega

theorem length_bulk (w : Bytes) :
    (bulk w).length = headerLength w.length + w.length + crlf.length := by
  rw [bulk, List.length_append, List.length_append, length_header, Nat.add_assoc]

theorem length_ofWords (words : List Bytes) : (ofWords words).length = Frame.length words := by
  -- by induction on the words: each adds its bulk
  have hfold (m : Nat) : m + (words.flatMap bulk).length = words.foldr (fun w n =>
      headerLength w.length + w.length + crlf.length + n) m := by
    induction words with
    | nil => rfl
    | cons w words ih =>
      rw [List.flatMap_cons, List.length_append, length_bulk, List.foldr_cons, ← ih]
      omega
  rw [ofWords, List.length_append, length_header, hfold, Frame.length]

theorem headerRoom_eq (n : Nat) : headerRoom n = UInt64.ofNat (headerLength n) := by
  rw [headerRoom, headerLength, UInt64.ofNat_add, UInt64.ofNat_add]
  rfl

theorem room_eq (words : List Bytes) : room words = UInt64.ofNat (Frame.length words) := by
  have hfold (m : Nat) : words.foldr (fun w n => headerRoom w.length + UInt64.ofNat w.length +
      UInt64.ofNat crlf.length + n) 0 + UInt64.ofNat m = UInt64.ofNat (words.foldr (fun w n =>
      headerLength w.length + w.length + crlf.length + n) m) := by
    induction words with
    | nil => exact UInt64.zero_add _
    | cons w words ih =>
      rw [List.foldr_cons, UInt64.add_assoc, ih, headerRoom_eq, List.foldr_cons,
        ← UInt64.ofNat_add, ← UInt64.ofNat_add, ← UInt64.ofNat_add]
  rw [room, headerRoom_eq, hfold, Frame.length]

/-- Behind whatever a buffer holds, the frame of a command takes exactly the room that is counted
for it, also when it is counted in 64 bits, if these can hold it. The header of every number of 64
bits can be written in a space of twenty bytes, and is the marker, the one spelling of the number in
as many digits as are counted for it, and the end of the line. -/
theorem frame_fills_room (c : Command) (hc : c.frame.length < 2 ^ 64) :
    (∀ buffer, ∃ sent, c.appendTo buffer = buffer ++ sent ∧ sent.length = Frame.length c.words ∧
      sent.length = (room c.words).toNat) ∧
    ∀ (marker : Char) (n : UInt64), ∃ ds,
      header marker n.toNat = UInt8.ofNat marker.toNat :: (ds ++ crlf) ∧
      headerWithin? 20 marker n.toNat = some (header marker n.toNat) ∧
      IsCanonical ds n.toNat ∧ ds.length = decimalWidth n.toNat := by
  have hlength : c.frame.length = Frame.length c.words := length_ofWords c.words
  refine ⟨fun buffer => ⟨c.frame, rfl, hlength, ?_⟩,
    fun marker n => ⟨digits n.toNat, ?_, ?_, ?_, ?_⟩⟩
  · rw [room_eq, ← hlength, UInt64.toNat_ofNat', Nat.mod_eq_of_lt hc]
  · rw [header, digitsOnto_eq]
  · exact headerWithin?_eq marker (decimalWidth_le n)
  · exact isCanonical_digits n.toNat
  · exact length_digits n.toNat

theorem frame_fills_room_widest :
    let c : Command := ⟨[0x47, 0x45, 0x54], [[], [1, 2, 3, 4, 5, 6, 7, 8, 9, 10]]⟩
    let n : UInt64 := 18446744073709551615
    c.frame.length < 2 ^ 64 ∧
    (∃ sent, c.appendTo [0x0A] = [0x0A] ++ sent ∧ sent.length = 36 ∧ (room c.words).toNat = 36) ∧
    ∃ ds, header '$' n.toNat = 0x24 :: (ds ++ crlf) ∧
      headerWithin? 20 '$' n.toNat = some (header '$' n.toNat) ∧ ds.length = 20 := by
  intro c n
  have hlength : Frame.length c.words = 36 := by decide +kernel
  have hc : c.frame.length < 2 ^ 64 := by
    rw [Command.frame, length_ofWords, hlength]
    decide
  obtain ⟨hroom, hheader⟩ := frame_fills_room c hc
  obtain ⟨sent, happend, hsent, hcount⟩ := hroom [0x0A]
  obtain ⟨ds, hds, hwithin, -, hwidth⟩ := hheader '$' n
  have htwenty : decimalWidth n.toNat = 20 := by decide +kernel
  exact ⟨hc, ⟨sent, happend, hsent.trans hlength, hcount.symm.trans (hsent.trans hlength)⟩,
    ds, hds, hwithin, hwidth.trans htwenty⟩

end Wire

end SessionPool
