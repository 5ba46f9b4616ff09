import SessionPool.Proofs.Wire.Deliveries

/-!
# Bytes that end too early

Bytes that begin with no frame are either malformed, and then nothing that follows them makes a
difference, or they end inside a frame. Where they end decides the fault: where a line should begin,
inside a line, or inside a payload (`EndsAt`). A strict prefix of a frame is never malformed, so it
is always of the second kind (`read_truncated`). A stream that gives no reply does so for one of
these reasons, or because a read of it fails before a reply is complete (`Breaks`).
-/

namespace SessionPool.Wire

open Reply Reading

inductive Spot
  | frame
  | line
  | payload

def Spot.fault : Spot → Fault
  | frame => .protocol .closedByPeer
  | line => .protocol .unterminatedLine
  | payload => .io .truncated

/-- Bytes that end before a frame at some depth does, and where. -/
inductive EndsAt : Nat → Bytes → Spot → Prop
  | frame {d : Nat} : EndsAt d [] .frame
  | line {d : Nat} {p : Bytes} (hne : p ≠ []) (hf : lineFeed ∉ p) (hlt : p.length < maxLineLength) :
    EndsAt d p .line
  | payload {d : Nat} {line n p : Bytes} {count : Nat} (hl : IsLine line (0x24 :: n))
      (hn : SpellsInt64 n count) (hmax : count ≤ maxBulkLength) (hlt : p.length < count + 2) :
    EndsAt d (line ++ p) .payload
  | element {d : Nat} {line n ws p : Bytes} {count : Nat} {rs : List Reply} {spot : Spot}
      (hl : IsLine line (0x2A :: n)) (hn : SpellsInt64 n count) (hd : d + 1 ≤ maxDepth)
      (hws : AreFrames (d + 1) ws rs) (hlt : rs.length < count) (hp : EndsAt (d + 1) p spot) :
    EndsAt d (line ++ (ws ++ p)) spot

section malformed

variable {α β : Type} {s rest : Bytes} {v : Violation} {f : Fault}

/-- The bytes are read up to a violation, and so they are whatever follows them. -/
def Malformed (read : Bytes → Reading Bytes α) (s : Bytes) (v : Violation) : Prop :=
  ∃ rest, ∀ more, read (s ++ more) = (.error (.protocol v), rest ++ more)

theorem Malformed.first {read : Bytes → Reading Bytes α} (h : Malformed read s v)
    (next : α → Bytes → Reading Bytes β) : Malformed (fun s => (read s).andThen next) s v := by
  obtain ⟨rest, hread⟩ := h
  refine ⟨rest, fun more => ?_⟩
  simp only [hread]
  rfl

theorem Malformed.second {next : α → Bytes → Reading Bytes β} {a : α}
    (h : Malformed (next a) rest v) {read : Bytes → Reading Bytes α}
    (hread : ∀ more, read (s ++ more) = (.ok a, rest ++ more)) :
    Malformed (fun s => (read s).andThen next) s v := by
  obtain ⟨left, hnext⟩ := h
  refine ⟨left, fun more => ?_⟩
  simp only [hread]
  exact hnext more

theorem malformed_of_check {read : Bytes → Reading Bytes α} (r : Except Violation α) (left : Bytes)
    (hread : ∀ more, read (s ++ more) = check r (left ++ more)) (h : read s = (.error f, rest)) :
    ∃ v, f = .protocol v ∧ Malformed read s v := by
  have hnil := hread []
  rw [List.append_nil, h] at hnil
  cases r with
  | ok a => cases hnil
  | error v =>
    cases hnil
    exact ⟨v, rfl, left, hread⟩

theorem malformed_of_refused {x : Except Violation α} (h : x = .error v)
    (next : α → Bytes → Reading Bytes β) (s : Bytes) :
    Malformed (fun s => (check x s).andThen next) s v :=
  ⟨s, fun more => by rw [h]; rfl⟩

theorem Malformed.checked {x : Except Violation α} {a : α} (hx : x = .ok a)
    {next : α → Bytes → Reading Bytes β} (h : Malformed (next a) s v) :
    Malformed (fun s => (check x s).andThen next) s v :=
  h.second fun more => by rw [hx]; rfl

theorem andThen_eq_error {σ : Type} {r : Reading σ α} {next : α → σ → Reading σ β} {s : σ} :
    r.andThen next = (.error f, s) ↔
      r = (.error f, s) ∨ ∃ a s₁, r = (.ok a, s₁) ∧ next a s₁ = (.error f, s) := by
  obtain ⟨result, s₁⟩ := r
  cases result with
  | ok a =>
    refine ⟨fun h => .inr ⟨a, s₁, rfl, h⟩, ?_⟩
    rintro (h | ⟨a', s', heq, h⟩)
    · cases h
    · cases heq
      exact h
  | error f' =>
    refine ⟨fun h => .inl ?_, ?_⟩
    · cases h
      rfl
    · rintro (h | ⟨a', s', heq, -⟩)
      · cases h
        rfl
      · cases heq

theorem checked_eq_error {σ : Type} {x : Except Violation α} {next : α → σ → Reading σ β}
    {s s' : σ} : (check x s).andThen next = (.error f, s') ↔
      (∃ v, x = .error v ∧ f = .protocol v ∧ s = s') ∨
        ∃ a, x = .ok a ∧ next a s = (.error f, s') := by
  cases x with
  | ok a => simp [check, andThen]
  | error v => simp [check, violation, andThen, eq_comm]

end malformed

/-! ## Lines and payloads -/

section parts

variable {s p rest body : Bytes} {f : Fault}

theorem readLine_append (h : readLine s = (.ok body, rest)) (more : Bytes) :
    readLine (s ++ more) = (.ok body, rest ++ more) := by
  obtain ⟨line, rfl, hl⟩ := readLine_eq_ok.1 h
  exact readLine_eq_ok.2 ⟨line, List.append_assoc .., hl⟩

theorem not_ends_splitLine {limit : Nat} :
    ¬ Ends limit (splitLine limit s).1 ↔ lineFeed ∉ s ∧ s.length < limit := by
  induction s generalizing limit with
  | nil => rw [splitLine_nil, ends_nil, List.length_nil, Nat.pos_iff_ne_zero]; simp
  | cons b s ih =>
    cases limit with
    | zero => simp
    | succ limit =>
      by_cases hb : b = lineFeed
      · rw [hb, splitLine_lineFeed]
        simp [Ends]
      · rw [splitLine_cons hb, ends_cons hb, ih, List.mem_cons, List.length_cons,
          Nat.add_lt_add_iff_right, or_iff_right (Ne.symm hb)]

theorem readLine_of_unended (hf : lineFeed ∉ s) (hlt : s.length < maxLineLength) :
    readLine s =
      (.error (.protocol (if s = [] then .closedByPeer else .unterminatedLine)), []) := by
  obtain ⟨-, hs, -⟩ := splitLine_append_of_not_ends (not_ends_splitLine.2 ⟨hf, hlt⟩) []
  have hbody : lineBody s = .error (if s = [] then .closedByPeer else .unterminatedLine) := by
    unfold lineBody
    split
    · next h => rw [if_pos (List.reverse_eq_nil_iff.1 h)]
    · next h =>
      have hmem : lineFeed ∈ s.reverse := by rw [h]; exact List.mem_cons_self
      exact absurd (List.mem_reverse.1 hmem) hf
    · next h =>
      have hne : s ≠ [] := by
        rintro rfl
        cases h
      rw [if_neg fun hlong => absurd hlong.1 (Nat.ne_of_lt hlt), if_neg hne]
  have hread : readLine s = check (lineBody (splitLine maxLineLength s).1)
      (splitLine maxLineLength s).2 := rfl
  rw [hread, hs, hbody]
  rfl

theorem readLine_eq_error (h : readLine s = (.error f, rest)) :
    (∃ v, f = .protocol v ∧ Malformed readLine s v) ∨
      lineFeed ∉ s ∧ s.length < maxLineLength := by
  by_cases hends : Ends maxLineLength (splitLine maxLineLength s).1
  · refine .inl (malformed_of_check (lineBody (splitLine maxLineLength s).1)
      (splitLine maxLineLength s).2 (fun more => ?_) h)
    have hread : readLine (s ++ more) = check (lineBody (splitLine maxLineLength (s ++ more)).1)
        (splitLine maxLineLength (s ++ more)).2 := rfl
    rw [hread, splitLine_append_of_ends hends]
  · exact .inr (not_ends_splitLine.1 hends)

theorem readPayload_of_short {count : Nat} (hmax : count ≤ maxBulkLength)
    (hlt : s.length < count + 2) : readPayload count s = (.error (.io .truncated), []) := by
  have hread : ByteSource.readExactly (count + 2) s = (.error .truncated, []) := if_neg (by
    rw [List.length_take]
    omega)
  rw [readPayload, if_neg (Nat.not_lt.2 hmax), hread]

theorem readPayload_eq_error {count : Nat} (h : readPayload count s = (.error f, rest)) :
    (∃ v, f = .protocol v ∧ Malformed (readPayload count) s v) ∨
      count ≤ maxBulkLength ∧ s.length < count + 2 := by
  by_cases hmax : maxBulkLength < count
  · refine .inl ⟨.bulkTooLong, ?_, s, fun more => ?_⟩
    · rw [readPayload, if_pos hmax] at h
      cases h
      rfl
    · rw [readPayload, if_pos hmax]
      rfl
  rcases Nat.lt_or_ge s.length (count + 2) with hlt | hle
  · exact .inr ⟨Nat.le_of_not_lt hmax, hlt⟩
  refine .inl (malformed_of_check (payloadBody count (s.take (count + 2)))
    (s.drop (count + 2)) (fun more => ?_) h)
  have hexact : ByteSource.readExactly (count + 2) (s ++ more) =
      (.ok (s.take (count + 2)), s.drop (count + 2) ++ more) :=
    readExactly_eq_ok.2 ⟨List.length_take_of_le hle, by
      rw [← List.append_assoc, List.take_append_drop]⟩
  rw [readPayload, if_neg hmax, hexact]

end parts

/-! ## Elements and frames -/

def Fails (d : Nat) (read : Bytes → Reading Bytes Reply) : Prop :=
  ∀ s f rest, read s = (.error f, rest) →
    (∃ v, f = .protocol v ∧ Malformed read s v) ∨ ∃ spot, EndsAt d s spot ∧ f = spot.fault

def Stops (d : Nat) (read : Bytes → Reading Bytes Reply) : Prop :=
  ∀ s spot, EndsAt d s spot → read s = (.error spot.fault, [])

section items

variable {d count : Nat} {item : Bytes → Reading Bytes Reply} {acc : List Reply} {s rest : Bytes}
  {f : Fault}
  (hitem : ∀ s r rest, item s = (.ok r, rest) ↔ ∃ w, s = w ++ rest ∧ IsFrame d w r)

include hitem

theorem readItems_append {ws : Bytes} {rs : List Reply} (hws : AreFrames d ws rs) :
    readItems item acc (rs.length + count) (ws ++ s) =
      readItems item (rs.reverse ++ acc) count s := by
  induction rs generalizing acc ws with
  | nil =>
    cases hws
    rw [List.length_nil, Nat.zero_add]
    rfl
  | cons r rs ih =>
    cases hws with
    | @cons _ w ws _ _ hw hws =>
      have hread : item (w ++ ws ++ s) = (.ok r, ws ++ s) :=
        (hitem _ _ _).2 ⟨w, List.append_assoc .., hw⟩
      rw [List.length_cons, Nat.add_right_comm, readItems, hread]
      simp only
      rw [ih hws, List.reverse_cons, List.append_assoc, List.singleton_append]

theorem readItems_eq_error (hfails : Fails d item)
    (h : readItems item acc count s = (.error f, rest)) :
    (∃ v, f = .protocol v ∧ Malformed (readItems item acc count) s v) ∨
      ∃ ws rs p spot, s = ws ++ p ∧ AreFrames d ws rs ∧ rs.length < count ∧ EndsAt d p spot ∧
        f = spot.fault := by
  induction count generalizing acc s with
  | zero => cases h
  | succ count ih =>
    rw [readItems] at h
    split at h
    · next r s₁ hread =>
      obtain ⟨w, rfl, hw⟩ := (hitem _ _ _).1 hread
      rcases ih h with ⟨v, hf, left, hmore⟩ | ⟨ws, rs, p, spot, rfl, hws, hlt, hp, hf⟩
      · refine .inl ⟨v, hf, left, fun more => ?_⟩
        have hagain : item (w ++ s₁ ++ more) = (.ok r, s₁ ++ more) :=
          (hitem _ _ _).2 ⟨w, List.append_assoc .., hw⟩
        rw [readItems, hagain]
        exact hmore more
      · exact .inr ⟨w ++ ws, r :: rs, p, spot, (List.append_assoc ..).symm, .cons hw hws,
          Nat.succ_lt_succ hlt, hp, hf⟩
    · next f' s₁ hread =>
      cases h
      rcases hfails _ _ _ hread with ⟨v, hf, left, hmore⟩ | ⟨spot, hp, hf⟩
      · refine .inl ⟨v, hf, left, fun more => ?_⟩
        rw [readItems, hmore]
      · exact .inr ⟨[], [], s, spot, rfl, .nil, Nat.succ_pos count, hp, hf⟩

end items

section level

variable {d : Nat} {item? : Option (Bytes → Reading Bytes Reply)}

theorem readWith_fails (hitem : ReadsBelow d item?) (hfails : ∀ item ∈ item?, Fails (d + 1) item) :
    Fails d (readWith item?) := by
  intro s f rest h
  rw [readWith] at h
  rcases andThen_eq_error.1 h with hline | ⟨content, s₁, hline, hread⟩
  · rcases readLine_eq_error hline with ⟨v, hf, hbad⟩ | ⟨hfeed, hlt⟩
    · exact .inl ⟨v, hf, hbad.first _⟩
    · rw [readLine_of_unended hfeed hlt] at hline
      cases hline
      by_cases hs : s = []
      · exact .inr ⟨.frame, hs ▸ .frame, by rw [if_pos hs]; rfl⟩
      · exact .inr ⟨.line, .line hs hfeed hlt, by rw [if_neg hs]; rfl⟩
  -- behind the line, what is malformed is malformed as a whole
  have hbehind {next : Bytes → Bytes → Reading Bytes Reply} {v : Violation}
      (h : Malformed (next content) s₁ v) : Malformed (fun s => (readLine s).andThen next) s v :=
    h.second (readLine_append hline)
  obtain ⟨line, rfl, hl⟩ := readLine_eq_ok.1 hline
  cases content with
  | nil =>
    cases hread
    exact .inl ⟨.emptyLine, rfl, hbehind ⟨rest, fun _ => rfl⟩⟩
  | cons marker body =>
    simp only at hread
    split at hread
    · cases hread
    · cases hread
    · next hmarker =>
      obtain rfl : marker = 0x3A := char_injective hmarker
      rcases checked_eq_error.1 hread with ⟨v, hx, hf, -⟩ | ⟨n, -, hreply⟩
      · exact .inl ⟨v, hf, hbehind (malformed_of_refused hx _ s₁)⟩
      · cases hreply
    · next hmarker =>
      obtain rfl : marker = 0x24 := char_injective hmarker
      rcases checked_eq_error.1 hread with ⟨v, hx, hf, -⟩ | ⟨n?, hx, hreply⟩
      · exact .inl ⟨v, hf, hbehind (malformed_of_refused hx _ s₁)⟩
      cases n? with
      | none => cases hreply
      | some count =>
        rcases andThen_eq_error.1 hreply with hdata | ⟨data, s₂, -, hbulk⟩
        · rcases readPayload_eq_error hdata with ⟨v, hf, hbad⟩ | ⟨hmax, hlt⟩
          · exact .inl ⟨v, hf, hbehind (.checked hx (hbad.first _))⟩
          · rw [readPayload_of_short hmax hlt] at hdata
            cases hdata
            exact .inr ⟨.payload, .payload hl ((announcedLength_eq_ok _).1 hx) hmax hlt, rfl⟩
        · cases hbulk
    · next hmarker =>
      obtain rfl : marker = 0x2A := char_injective hmarker
      rcases checked_eq_error.1 hread with ⟨v, hx, hf, -⟩ | ⟨n?, hx, hreply⟩
      · exact .inl ⟨v, hf, hbehind (malformed_of_refused hx _ s₁)⟩
      cases n? with
      | none => cases hreply
      | some count =>
        cases item? with
        | none =>
          cases hreply
          exact .inl ⟨.nestedTooDeeply, rfl, hbehind (.checked hx ⟨rest, fun _ => rfl⟩)⟩
        | some item =>
          obtain ⟨hd, hitem⟩ := hitem
          rcases andThen_eq_error.1 hreply with hitems | ⟨items, s₂, -, harray⟩
          · rcases readItems_eq_error hitem (hfails item rfl) hitems with
              ⟨v, hf, hbad⟩ | ⟨ws, rs, p, spot, rfl, hws, hlt, hp, hf⟩
            · exact .inl ⟨v, hf, hbehind (.checked hx (hbad.first _))⟩
            · exact .inr ⟨spot, .element hl ((announcedLength_eq_ok _).1 hx) hd hws hlt hp, hf⟩
          · cases harray
    · cases hread
      exact .inl ⟨.unknownType, rfl, hbehind ⟨rest, fun _ => by simp only [violation]⟩⟩

end level

theorem readWith_stops {d : Nat} {item? : Option (Bytes → Reading Bytes Reply)}
    (hitem : ReadsBelow d item?) (hstops : ∀ item ∈ item?, Stops (d + 1) item) :
    Stops d (readWith item?) := by
  intro s spot h
  rw [readWith]
  cases h with
  | frame => rw [readLine_of_unended List.not_mem_nil (by decide)]; rfl
  | line hne hf hlt => rw [readLine_of_unended hf hlt, if_neg hne]; rfl
  | @payload _ line n p count hl hn hmax hlt =>
    refine andThen_eq_error.2 (.inr ⟨_, p, readLine_eq_ok.2 ⟨line, rfl, hl⟩, ?_⟩)
    refine checked_eq_error.2 (.inr ⟨some count, (announcedLength_eq_ok _).2 hn, ?_⟩)
    exact andThen_eq_error.2 (.inl (readPayload_of_short hmax hlt))
  | @element _ line n ws p count rs _ hl hn hd hws hlt hp =>
    refine andThen_eq_error.2 (.inr ⟨_, ws ++ p, readLine_eq_ok.2 ⟨line, rfl, hl⟩, ?_⟩)
    refine checked_eq_error.2 (.inr ⟨some count, (announcedLength_eq_ok _).2 hn, ?_⟩)
    cases item? with
    | none => exact absurd hd (not_le.2 hitem)
    | some item =>
      refine andThen_eq_error.2 (.inl ?_)
      obtain ⟨left, rfl⟩ := Nat.exists_eq_add_of_lt hlt
      rw [Nat.add_assoc, readItems_append hitem.2 hws, readItems, hstops item rfl _ _ hp]

theorem readNested_levels {does : Nat → (Bytes → Reading Bytes Reply) → Prop}
    (step : ∀ d item?, ReadsBelow d item? → (∀ item ∈ item?, does (d + 1) item) →
      does d (readWith item?))
    {levels d : Nat} (hd : levels + d = maxDepth) : does d (readNested levels) := by
  induction levels generalizing d with
  | zero =>
    have hbelow : ReadsBelow d none := by
      rw [ReadsBelow]
      omega
    exact step d none hbelow fun item h => by cases h
  | succ levels ih =>
    have hnested : levels + (d + 1) = maxDepth := by omega
    have hbelow : ReadsBelow d (some (readNested levels)) :=
      ⟨by omega, fun s r rest => readNested_eq_ok hnested⟩
    refine step d _ hbelow fun item h => ?_
    cases h
    exact ih hnested

theorem read_fails : Fails 0 Reply.read :=
  readNested_levels (fun _ _ => readWith_fails) (Nat.add_zero maxDepth)

theorem read_stops : Stops 0 Reply.read :=
  readNested_levels (fun _ _ => readWith_stops) (Nat.add_zero maxDepth)

/-! ## Prefixes of frames -/

theorem endsAt_of_prefix {w p : Bytes} {r : Reply} (hw : IsFrame 0 w r) (hp : p <+: w)
    (hne : p ≠ w) : ∃ spot, EndsAt 0 p spot := by
  obtain ⟨more, rfl⟩ := hp
  have hwhole : Reply.read (p ++ more) = (.ok r, []) :=
    read_eq_ok.2 ⟨p ++ more, (List.append_nil _).symm, hw⟩
  cases hread : Reply.read p with
  | mk result rest =>
    cases result with
    | ok r' =>
      obtain ⟨w', rfl, hw'⟩ := read_eq_ok.1 hread
      rw [read_eq_ok.2 ⟨w', List.append_assoc .., hw'⟩] at hwhole
      obtain ⟨rfl, rfl⟩ := List.append_eq_nil_iff.1 (congrArg Prod.snd hwhole)
      exact absurd (List.append_nil _).symm hne
    | error f =>
      rcases read_fails p f rest hread with
        ⟨v, -, left, hmore⟩ | hspot
      · exact absurd (hwhole.symm.trans (hmore more)) nofun
      · exact hspot.imp fun _ h => h.1

/-- A strict prefix of bytes that are read as one reply ends at a spot inside a frame, and bytes
that end at a spot are read up to the fault of this spot. Nothing else than to end inside a payload,
which was announced within the limit, makes input fail on bytes that are there as a whole. -/
theorem read_truncated :
    (∀ (w : Bytes) (r : Reply), Reply.read w = (.ok r, []) → ∀ p, p <+: w → p ≠ w →
      ∃ spot, EndsAt 0 p spot ∧ Reply.read p = (.error spot.fault, [])) ∧
    (∀ p spot, EndsAt 0 p spot → Reply.read p = (.error spot.fault, [])) ∧
    ∀ s fault rest, Reply.read s = (.error (.io fault), rest) ↔
      EndsAt 0 s .payload ∧ fault = .truncated ∧ rest = [] := by
  refine ⟨fun w r hw p hp hne => ?_, read_stops, fun s fault rest => ⟨fun h => ?_, ?_⟩⟩
  · obtain ⟨w', hw', hframe⟩ := read_eq_ok.1 hw
    rw [List.append_nil] at hw'
    obtain ⟨spot, hspot⟩ := endsAt_of_prefix (hw' ▸ hframe) hp hne
    exact ⟨spot, hspot, read_stops p spot hspot⟩
  · rcases read_fails s _ rest h with
      ⟨v, hf, -⟩ | ⟨spot, hspot, hf⟩
    · cases hf
    · rw [read_stops s spot hspot] at h
      cases spot <;> cases h
      exact ⟨hspot, rfl, rfl⟩
  · rintro ⟨hspot, rfl, rfl⟩
    exact read_stops s .payload hspot

theorem read_truncated_nested :
    let w : Bytes := [0x2A, 0x32, 0x0D, 0x0A, 0x24, 0x34, 0x0D, 0x0A, 0x3A, 0x31, 0x0D, 0x0A, 0x0D,
      0x0A, 0x2A, 0x31, 0x0D, 0x0A, 0x2B, 0x0D, 0x0A]
    Reply.read w = (.ok (.array [.bulk (some [0x3A, 0x31, 0x0D, 0x0A]), .array [.status []]]), []) ∧
    (∀ k < w.length, ∃ spot, EndsAt 0 (w.take k) spot ∧
      Reply.read (w.take k) = (.error spot.fault, [])) ∧
    EndsAt 0 (w.take 12) .payload := by
  intro w
  have hw : Reply.read w =
      (.ok (.array [.bulk (some [0x3A, 0x31, 0x0D, 0x0A]), .array [.status []]]), []) := rfl
  obtain ⟨hcut, -, hio⟩ := read_truncated
  refine ⟨hw, fun k hk => hcut w _ hw _ (List.take_prefix k w) fun h => ?_, ?_⟩
  · have hlen := congrArg List.length h
    rw [List.length_take] at hlen
    omega
  · exact ((hio _ .truncated []).1 rfl).1

/-! ## Replies that do not come -/

inductive Breaks (s : Stream) : Fault → Prop
  | malformed {v : Violation} (h : Malformed Reply.read s.front v) : Breaks s (.protocol v)
  | failed {fault : IoFault} (hstop : s.stop? = some fault) (h : TooShort s.front) :
    Breaks s (.io fault)
  | ended {spot : Spot} (hstop : s.stop? = none) (h : EndsAt 0 s.front spot) : Breaks s spot.fault

theorem read_of_ended {s : Stream} (h : s.stop? = none) :
    Reply.read s = (Reply.read s.front).map id Stream.ofBytes := by
  obtain ⟨front, rfl⟩ := exists_ofBytes h
  exact read_view exact_ofBytes front

theorem not_malformed_of_tooShort {bs : Bytes} {v : Violation} (h : TooShort bs) :
    ¬ Malformed Reply.read bs v := by
  rintro ⟨left, hmore⟩
  have hlt := h [0] (by simp)
  rw [hmore] at hlt
  simp at hlt

theorem Breaks.read_stream {s : Stream} {f : Fault} (h : Breaks s f) :
    (Reply.read s).1 = .error f := by
  cases h with
  | @malformed v h =>
    cases hstop : s.stop? with
    | none =>
      obtain ⟨left, hmore⟩ := h
      have hread := hmore []
      rw [List.append_nil] at hread
      rw [read_of_ended hstop, hread]
      rfl
    | some fault =>
      cases Demand.cut hstop Demand.fair_reply with
      | @decided result rest hstream hbytes hgoes =>
        obtain ⟨left, hmore⟩ := h
        have hsame := (Demand.run_reply _).symm.trans (hbytes [])
        rw [hmore] at hsame
        rw [← Demand.run_reply, hstream]
        exact (congrArg Prod.fst hsame).symm
      | starved hstream hbytes =>
        refine absurd h (not_malformed_of_tooShort fun more hne => ?_)
        rw [← Demand.run_reply]
        exact hbytes more hne
  | @failed fault hstop h =>
    cases Demand.cut hstop Demand.fair_reply with
    | @decided result rest hstream hbytes hgoes =>
      have hlt := h [0] (by simp)
      rw [← Demand.run_reply, hbytes] at hlt
      simp at hlt
    | starved hstream hbytes => rwa [Demand.run_reply] at hstream
  | ended hstop h =>
    rw [read_of_ended hstop, read_stops _ _ h]
    rfl

theorem breaks_of_read_stream {s : Stream} {f : Fault} (h : (Reply.read s).1 = .error f) :
    Breaks s f := by
  cases hstop : s.stop? with
  | none =>
    rw [read_of_ended hstop] at h
    rcases read_fails s.front f _ (Prod.ext h rfl) with
      ⟨v, rfl, hbad⟩ | ⟨spot, hspot, rfl⟩
    · exact .malformed hbad
    · exact .ended hstop hspot
  | some fault =>
    cases Demand.cut hstop Demand.fair_reply with
    | @decided result rest hstream hbytes hgoes =>
      rw [Demand.run_reply] at hstream
      rw [hstream] at h
      obtain rfl : result = .error f := h
      have hbytes (more : Bytes) : Reply.read (s.front ++ more) = (.error f, rest ++ more) :=
        (Demand.run_reply _).symm.trans (hbytes more)
      obtain ⟨v, rfl⟩ : ∃ v, f = .protocol v := by
        have hgoes := hgoes f rfl
        cases f <;> first | exact ⟨_, rfl⟩ | cases hgoes
      exact .malformed ⟨rest, hbytes⟩
    | starved hstream hbytes =>
      rw [Demand.run_reply, h] at hstream
      cases hstream
      refine .failed hstop fun more hmore => ?_
      rw [← Demand.run_reply]
      exact hbytes more hmore

end SessionPool.Wire
