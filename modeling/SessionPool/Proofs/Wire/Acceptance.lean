import SessionPool.Proofs.Wire.Grammar

/-!
# Which bytes are accepted as a reply

The reader gives a reply exactly if the bytes begin with a frame of it, and leaves what is behind
the frame. There is one lemma for each part that is read, always of the form "reading succeeds so
exactly if the bytes begin so"; the recursion over the depth puts them together.
-/

namespace SessionPool.Wire

open Reply Reading

section parts

variable {σ α β : Type}

theorem andThen_eq_ok {r : Reading σ α} {next : α → σ → Reading σ β} {b : β} {s : σ} :
    r.andThen next = (.ok b, s) ↔ ∃ a s₁, r = (.ok a, s₁) ∧ next a s₁ = (.ok b, s) := by
  obtain ⟨result, s₁⟩ := r
  cases result with
  | ok a =>
    refine ⟨fun h => ⟨a, s₁, rfl, h⟩, ?_⟩
    rintro ⟨a', s', heq, h⟩
    cases heq
    exact h
  | error f =>
    refine ⟨nofun, ?_⟩
    rintro ⟨a', s', heq, -⟩
    cases heq

theorem check_eq_ok {r : Except Violation α} {a : α} {s s' : σ} :
    check r s = (.ok a, s') ↔ r = .ok a ∧ s = s' := by
  cases r with
  | ok a' => simp [check]
  | error v => simp [check, violation]

theorem checked_eq_ok {x : Except Violation α} {next : α → σ → Reading σ β} {b : β} {s s' : σ} :
    (check x s).andThen next = (.ok b, s') ↔ ∃ a, x = .ok a ∧ next a s = (.ok b, s') := by
  rw [andThen_eq_ok]
  constructor
  · rintro ⟨a, s₁, hcheck, h⟩
    obtain ⟨hx, rfl⟩ := check_eq_ok.1 hcheck
    exact ⟨a, hx, h⟩
  · rintro ⟨a, hx, h⟩
    exact ⟨a, s, check_eq_ok.2 ⟨hx, rfl⟩, h⟩

end parts

/-! ## Lines -/

theorem lineOnto_sound {acc line rest : Bytes} {limit : Nat} {bs : Bytes}
    (h : lineOnto acc limit bs = (line, rest)) :
    ∃ read, line = acc.reverse ++ read ∧ bs = read ++ rest ∧ read.length ≤ limit ∧
      lineFeed ∉ read.dropLast := by
  induction bs generalizing acc limit with
  | nil =>
    have hnil : lineOnto acc limit [] = (acc.reverse, []) := by cases limit <;> rfl
    rw [hnil] at h
    cases h
    exact ⟨[], by simp⟩
  | cons b bs ih =>
    cases limit with
    | zero =>
      cases h
      exact ⟨[], by simp⟩
    | succ limit =>
      rw [lineOnto] at h
      by_cases hb : b = lineFeed
      · rw [if_pos hb] at h
        cases h
        exact ⟨[b], by simp⟩
      · rw [if_neg hb] at h
        obtain ⟨read, hline, hbs, hlen, hfeed⟩ := ih h
        refine ⟨b :: read, ?_, ?_, Nat.succ_le_succ hlen, ?_⟩
        · rw [hline, List.reverse_cons, List.append_assoc, List.singleton_append]
        · rw [hbs, List.cons_append]
        · cases read with
          | nil => exact List.not_mem_nil
          | cons c read => exact List.not_mem_cons_of_ne_of_not_mem (Ne.symm hb) hfeed

theorem lineOnto_line {acc : Bytes} {limit : Nat} {body rest : Bytes} (hf : lineFeed ∉ body)
    (hlen : body.length < limit) :
    lineOnto acc limit (body ++ lineFeed :: rest) =
      (acc.reverse ++ (body ++ [lineFeed]), rest) := by
  induction body generalizing acc limit with
  | nil =>
    cases limit with
    | zero => cases hlen
    | succ limit => simp [lineOnto]
  | cons b body ih =>
    cases limit with
    | zero => cases hlen
    | succ limit =>
      rw [List.mem_cons, not_or] at hf
      rw [List.cons_append, lineOnto, if_neg (Ne.symm hf.1), ih hf.2 (Nat.lt_of_succ_lt_succ hlen)]
      simp

theorem lineBody_eq_ok {line body : Bytes} : lineBody line = .ok body ↔ line = body ++ crlf := by
  constructor
  · intro h
    unfold lineBody at h
    split at h
    · cases h
    · next rev heq =>
      cases h
      rw [← List.reverse_inj, heq]
      simp [crlf]
    · split at h <;> cases h
  · rintro rfl
    have hrev : (body ++ crlf).reverse = 0x0A :: 0x0D :: body.reverse := by simp [crlf]
    rw [lineBody, hrev]
    simp

theorem readLine_eq_ok {s body rest : Bytes} :
    readLine s = (.ok body, rest) ↔ ∃ line, s = line ++ rest ∧ IsLine line body := by
  have hread : readLine s = check (lineBody (splitLine maxLineLength s).1)
      (splitLine maxLineLength s).2 := rfl
  rw [hread, check_eq_ok, lineBody_eq_ok]
  constructor
  · rintro ⟨hline, hrest⟩
    obtain ⟨line, hacc, hs, hlen, hfeed⟩ := lineOnto_sound
      (show lineOnto [] maxLineLength s = (body ++ crlf, rest) from Prod.ext hline hrest)
    rw [List.reverse_nil, List.nil_append] at hacc
    subst hacc
    refine ⟨body ++ crlf, hs, rfl, fun hmem => hfeed ?_, hlen⟩
    rw [crlf, List.dropLast_append_of_ne_nil (List.cons_ne_nil _ _)]
    exact List.mem_append_left _ hmem
  · rintro ⟨line, rfl, rfl, hsingle, hshort⟩
    have hbytes : body ++ crlf ++ rest = (body ++ [0x0D]) ++ lineFeed :: rest := by
      simp [crlf, lineFeed]
    have hfeed : lineFeed ∉ body ++ [0x0D] := by simpa [lineFeed] using hsingle
    have hlen : (body ++ [0x0D]).length < maxLineLength := by
      rw [List.length_append] at hshort ⊢
      exact hshort
    have hsplit : splitLine maxLineLength (body ++ crlf ++ rest) = (body ++ crlf, rest) := by
      rw [splitLine, hbytes, lineOnto_line hfeed hlen]
      simp [crlf, lineFeed]
    rw [hsplit]
    exact ⟨rfl, rfl⟩

/-! ## Payloads -/

theorem payloadBody_eq_ok {count : Nat} {data body : Bytes} (hlen : data.length = count + 2) :
    payloadBody count data = .ok body ↔ body.length = count ∧ data = body ++ crlf := by
  rw [payloadBody]
  constructor
  · intro h
    split at h
    · next hdrop =>
      cases h
      refine ⟨?_, ?_⟩
      · rw [List.length_take, hlen]
        omega
      · rw [crlf, ← hdrop, List.take_append_drop]
    · cases h
  · rintro ⟨rfl, rfl⟩
    rw [List.drop_left, List.take_left]
    rfl

theorem readExactly_eq_ok {count : Nat} {s data rest : Bytes} :
    ByteSource.readExactly count s = (.ok data, rest) ↔ data.length = count ∧ s = data ++ rest := by
  change (if (s.take count).length = count then
    (Except.ok (s.take count), s.drop count) else (.error IoFault.truncated, [])) = _ ↔ _
  constructor
  · intro h
    split at h
    · next hlen =>
      cases h
      exact ⟨hlen, (List.take_append_drop count s).symm⟩
    · cases h
  · rintro ⟨rfl, rfl⟩
    rw [List.take_left, List.drop_left, if_pos rfl]

theorem readPayload_eq_ok {count : Nat} {s data rest : Bytes} :
    readPayload count s = (.ok data, rest) ↔
      count ≤ maxBulkLength ∧ data.length = count ∧ s = data ++ crlf ++ rest := by
  rw [readPayload]
  by_cases hmax : maxBulkLength < count
  · rw [if_pos hmax]
    exact ⟨nofun, fun h => absurd h.1 (not_le.2 hmax)⟩
  · rw [if_neg hmax]
    constructor
    · intro h
      split at h
      · next body s₁ hread =>
        obtain ⟨hlen, rfl⟩ := readExactly_eq_ok.1 hread
        obtain ⟨hbody, rfl⟩ := check_eq_ok.1 h
        obtain ⟨hdata, rfl⟩ := (payloadBody_eq_ok hlen).1 hbody
        exact ⟨not_lt.1 hmax, hdata, rfl⟩
      · cases h
    · rintro ⟨-, rfl, rfl⟩
      have hlen : (data ++ crlf).length = data.length + 2 := List.length_append
      rw [readExactly_eq_ok.2 ⟨hlen, rfl⟩]
      exact check_eq_ok.2 ⟨(payloadBody_eq_ok hlen).2 ⟨rfl, rfl⟩, rfl⟩

/-! ## Elements -/

theorem readItems_eq_ok {d : Nat} {item : Bytes → Reading Bytes Reply}
    (hitem : ∀ s r rest, item s = (.ok r, rest) ↔ ∃ w, s = w ++ rest ∧ IsFrame d w r)
    {acc items : List Reply} {count : Nat} {s rest : Bytes} :
    readItems item acc count s = (.ok items, rest) ↔
      ∃ ws rs, s = ws ++ rest ∧ items = acc.reverse ++ rs ∧ rs.length = count ∧
        AreFrames d ws rs := by
  induction count generalizing acc s with
  | zero =>
    constructor
    · intro h
      cases h
      exact ⟨[], [], rfl, (List.append_nil _).symm, rfl, .nil⟩
    · rintro ⟨ws, rs, rfl, rfl, hlen, hframes⟩
      obtain rfl := List.length_eq_zero_iff.1 hlen
      cases hframes
      simp [readItems]
  | succ count ih =>
    constructor
    · intro h
      rw [readItems] at h
      split at h
      · next r s₁ hread =>
        obtain ⟨w, rfl, hw⟩ := (hitem _ _ _).1 hread
        obtain ⟨ws, rs, rfl, rfl, rfl, hws⟩ := ih.1 h
        refine ⟨w ++ ws, r :: rs, (List.append_assoc ..).symm, ?_, rfl, .cons hw hws⟩
        simp
      · cases h
    · rintro ⟨ws, rs, rfl, rfl, hlen, hframes⟩
      cases hframes with
      | nil => cases hlen
      | @cons _ w ws r rs hw hws =>
        have hread : item (w ++ ws ++ rest) = (.ok r, ws ++ rest) :=
          (hitem _ _ _).2 ⟨w, List.append_assoc .., hw⟩
        rw [readItems, hread]
        refine ih.2 ⟨ws, rs, rfl, ?_, Nat.succ_injective hlen, hws⟩
        simp

/-! ## Frames -/

/-- The reader of elements at depth `d`: it reads the frames one level deeper, and where it is
missing the limit is reached. -/
def ReadsBelow (d : Nat) : Option (Bytes → Reading Bytes Reply) → Prop
  | none => maxDepth < d + 1
  | some item => d + 1 ≤ maxDepth ∧
    ∀ s r rest, item s = (.ok r, rest) ↔ ∃ w, s = w ++ rest ∧ IsFrame (d + 1) w r

section level

variable {d : Nat} {item? : Option (Bytes → Reading Bytes Reply)} {s rest : Bytes} {r : Reply}

theorem readWith_sound (hitem : ReadsBelow d item?) (h : readWith item? s = (.ok r, rest)) :
    ∃ w, s = w ++ rest ∧ IsFrame d w r := by
  rw [readWith] at h
  obtain ⟨content, s₁, hline, hread⟩ := andThen_eq_ok.1 h
  obtain ⟨line, rfl, hl⟩ := readLine_eq_ok.1 hline
  cases content with
  | nil => cases hread
  | cons marker body =>
    simp only at hread
    split at hread
    · next hmarker =>
      obtain rfl : marker = 0x2B := char_injective hmarker
      cases hread
      exact ⟨line, rfl, .status hl⟩
    · next hmarker =>
      obtain rfl : marker = 0x2D := char_injective hmarker
      cases hread
      exact ⟨line, rfl, .error hl⟩
    · next hmarker =>
      obtain rfl : marker = 0x3A := char_injective hmarker
      obtain ⟨i, hn, hreply⟩ := checked_eq_ok.1 hread
      cases hreply
      exact ⟨line, rfl, .integer hl (announcedInteger_eq_ok.1 hn)⟩
    · next hmarker =>
      obtain rfl : marker = 0x24 := char_injective hmarker
      obtain ⟨n?, hn, hreply⟩ := checked_eq_ok.1 hread
      have hspelled := (announcedLength_eq_ok n?).1 hn
      cases n? with
      | none =>
        cases hreply
        exact ⟨line, rfl, .nilBulk hl hspelled⟩
      | some count =>
        obtain ⟨data, s₂, hdata, hbulk⟩ := andThen_eq_ok.1 hreply
        obtain ⟨hmax, rfl, rfl⟩ := readPayload_eq_ok.1 hdata
        cases hbulk
        exact ⟨line ++ (data ++ crlf), (List.append_assoc ..).symm, .bulk hl hspelled hmax⟩
    · next hmarker =>
      obtain rfl : marker = 0x2A := char_injective hmarker
      obtain ⟨n?, hn, hreply⟩ := checked_eq_ok.1 hread
      have hspelled := (announcedLength_eq_ok n?).1 hn
      cases n? with
      | none =>
        cases hreply
        exact ⟨line, rfl, .nilArray hl hspelled⟩
      | some count =>
        cases item? with
        | none => cases hreply
        | some item =>
          obtain ⟨hd, hitem⟩ := hitem
          obtain ⟨items, s₂, hitems, harray⟩ := andThen_eq_ok.1 hreply
          obtain ⟨ws, rs, rfl, rfl, rfl, hframes⟩ := (readItems_eq_ok hitem).1 hitems
          cases harray
          exact ⟨line ++ ws, (List.append_assoc ..).symm, .array hl hspelled hd hframes⟩
    · cases hread

theorem readWith_complete {w : Bytes} (hitem : ReadsBelow d item?) (hw : IsFrame d w r) :
    readWith item? (w ++ rest) = (.ok r, rest) := by
  rw [readWith, andThen_eq_ok]
  cases hw with
  | status hl => exact ⟨_, _, readLine_eq_ok.2 ⟨w, rfl, hl⟩, rfl⟩
  | error hl => exact ⟨_, _, readLine_eq_ok.2 ⟨w, rfl, hl⟩, rfl⟩
  | integer hl hn =>
    refine ⟨_, _, readLine_eq_ok.2 ⟨w, rfl, hl⟩, ?_⟩
    exact checked_eq_ok.2 ⟨_, announcedInteger_eq_ok.2 hn, rfl⟩
  | @bulk _ line n data hl hn hmax =>
    refine ⟨_, _, readLine_eq_ok.2 ⟨line, List.append_assoc .., hl⟩, ?_⟩
    refine checked_eq_ok.2 ⟨_, (announcedLength_eq_ok (some data.length)).2 hn, ?_⟩
    exact andThen_eq_ok.2 ⟨_, _, readPayload_eq_ok.2 ⟨hmax, rfl, rfl⟩, rfl⟩
  | nilBulk hl hn =>
    refine ⟨_, _, readLine_eq_ok.2 ⟨w, rfl, hl⟩, ?_⟩
    exact checked_eq_ok.2 ⟨_, (announcedLength_eq_ok none).2 hn, rfl⟩
  | nilArray hl hn =>
    refine ⟨_, _, readLine_eq_ok.2 ⟨w, rfl, hl⟩, ?_⟩
    exact checked_eq_ok.2 ⟨_, (announcedLength_eq_ok none).2 hn, rfl⟩
  | @array _ line n ws items hl hn hd hi =>
    refine ⟨_, _, readLine_eq_ok.2 ⟨line, List.append_assoc .., hl⟩, ?_⟩
    refine checked_eq_ok.2 ⟨_, (announcedLength_eq_ok (some items.length)).2 hn, ?_⟩
    cases item? with
    | none => exact absurd hd (not_le.2 hitem)
    | some item =>
      refine andThen_eq_ok.2 ⟨items, rest, ?_, rfl⟩
      exact (readItems_eq_ok hitem.2).2 ⟨ws, items, rfl, rfl, rfl, hi⟩

end level

theorem readNested_eq_ok {levels d : Nat} (hd : levels + d = maxDepth) {s rest : Bytes}
    {r : Reply} : readNested levels s = (.ok r, rest) ↔ ∃ w, s = w ++ rest ∧ IsFrame d w r := by
  -- by recursion on the levels that are left; those and the depth make up the limit
  induction levels generalizing d s rest r with
  | zero =>
    have hbelow : ReadsBelow d none := by
      rw [ReadsBelow]
      omega
    refine ⟨readWith_sound hbelow, ?_⟩
    rintro ⟨w, rfl, hw⟩
    exact readWith_complete hbelow hw
  | succ levels ih =>
    have hnested : levels + (d + 1) = maxDepth := by omega
    have hbelow : ReadsBelow d (some (readNested levels)) := ⟨by omega, fun s r rest => ih hnested⟩
    refine ⟨readWith_sound hbelow, ?_⟩
    rintro ⟨w, rfl, hw⟩
    exact readWith_complete hbelow hw

theorem read_eq_ok {s rest : Bytes} {r : Reply} :
    Reply.read s = (.ok r, rest) ↔ ∃ w, s = w ++ rest ∧ IsFrame 0 w r :=
  readNested_eq_ok (Nat.add_zero maxDepth)

/-- Reading gives a reply exactly if the bytes begin with a frame of it, and leaves what is behind
that frame; no two frames begin the same bytes. -/
theorem read_accepts (s : Bytes) :
    (∀ r rest, Reply.read s = (.ok r, rest) ↔ ∃ w, s = w ++ rest ∧ IsFrame 0 w r) ∧
    ∀ w w' rest rest' r r', s = w ++ rest → IsFrame 0 w r → s = w' ++ rest' → IsFrame 0 w' r' →
      w = w' ∧ rest = rest' ∧ r = r' := by
  have haccepts : ∀ r rest, Reply.read s = (.ok r, rest) ↔ ∃ w, s = w ++ rest ∧ IsFrame 0 w r :=
    fun r rest => readNested_eq_ok rfl
  refine ⟨haccepts, fun w w' rest rest' r r' hs hw hs' hw' => ?_⟩
  have hread := (haccepts r rest).2 ⟨w, hs, hw⟩
  rw [(haccepts r' rest').2 ⟨w', hs', hw'⟩] at hread
  cases hread
  exact ⟨List.append_cancel_right (hs.symm.trans hs'), rfl, rfl⟩

end SessionPool.Wire
