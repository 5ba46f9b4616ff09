import Mathlib.Data.List.Basic
import SessionPool.Proofs.Wire.Acceptance

/-!
# Frames of commands read back

The header of a frame spells its number as the reader wants it, so the frame of a command is a frame
of the reply grammar: an array of its words. Reading the frames of some commands one after the other
therefore gives back the words of each and stops where the last frame ends, whatever the words hold.
-/

namespace SessionPool

namespace Command

structure Fits (c : Command) : Prop where
  count : c.size < 2 ^ 63
  short : ∀ w ∈ c.words, w.length ≤ maxBulkLength

def echo (c : Command) : Reply := .array (c.words.map fun w => .bulk (some w))

theorem echo_injective : Function.Injective echo := by
  intro c c' h
  have hword : Function.Injective fun w : Bytes => Reply.bulk (some w) := by
    intro w w' hw
    cases hw
    rfl
  have hwords : c.words = c'.words := by
    apply List.map_injective_iff.2 hword
    injection h
  obtain ⟨name, args⟩ := c
  obtain ⟨name', args'⟩ := c'
  cases hwords
  rfl

end Command

namespace Wire

open Reply

/-! ## Numbers in headers -/

def digits (n : Nat) : Bytes := Frame.digitsOnto n []

theorem digitsOnto_of_lt {n : Nat} (h : n < 10) (acc : Bytes) :
    Frame.digitsOnto n acc = UInt8.ofNat (0x30 + n % 10) :: acc := by
  rw [Frame.digitsOnto, if_pos (by omega)]
  rfl

theorem digitsOnto_of_le {n : Nat} (h : 10 ≤ n) (acc : Bytes) :
    Frame.digitsOnto n acc = Frame.digitsOnto (n / 10) (UInt8.ofNat (0x30 + n % 10) :: acc) := by
  rw [Frame.digitsOnto, if_neg (by omega)]
  rfl

theorem digitsOnto_eq (n : Nat) (acc : Bytes) : Frame.digitsOnto n acc = digits n ++ acc := by
  induction n using Nat.strongRecOn generalizing acc with
  | ind n ih =>
    unfold digits
    by_cases h : n < 10
    · rw [digitsOnto_of_lt h, digitsOnto_of_lt h]
      rfl
    · have hle : 10 ≤ n := by omega
      rw [digitsOnto_of_le hle, digitsOnto_of_le hle, ih (n / 10) (by omega),
        ih (n / 10) (by omega)]
      simp

theorem digits_of_lt {n : Nat} (h : n < 10) : digits n = [UInt8.ofNat (0x30 + n % 10)] :=
  digitsOnto_of_lt h []

theorem digits_of_le {n : Nat} (h : 10 ≤ n) :
    digits n = digits (n / 10) ++ [UInt8.ofNat (0x30 + n % 10)] := by
  rw [digits, digitsOnto_of_le h, digitsOnto_eq]

theorem toNat_digit (n : Nat) : (UInt8.ofNat (0x30 + n % 10)).toNat = 0x30 + n % 10 := by
  rw [UInt8.toNat_ofNat']
  omega

theorem isDigit_digit (n : Nat) : IsDigit (UInt8.ofNat (0x30 + n % 10)) := by
  have h48 : (0x30 : UInt8).toNat = 48 := rfl
  have h57 : (0x39 : UInt8).toNat = 57 := rfl
  rw [IsDigit, UInt8.le_iff_toNat_le, UInt8.le_iff_toNat_le, toNat_digit]
  omega

theorem decimal_concat (ds : Bytes) (b : UInt8) :
    decimal (ds ++ [b]) = (b.toNat - 0x30) + 10 * decimal ds := by
  rw [decimal, List.reverse_append, List.reverse_singleton, List.singleton_append, List.map_cons,
    Nat.ofDigits_cons, decimal]

theorem digits_ne_nil (n : Nat) : digits n ≠ [] := by
  by_cases h : n < 10
  · simp [digits_of_lt h]
  · have hle : 10 ≤ n := by omega
    simp [digits_of_le hle]

theorem isDigit_of_mem_digits {n : Nat} {b : UInt8} (hb : b ∈ digits n) : IsDigit b := by
  induction n using Nat.strongRecOn with
  | ind n ih =>
    by_cases h : n < 10
    · rw [digits_of_lt h, List.mem_singleton] at hb
      rw [hb]
      exact isDigit_digit n
    · have hle : 10 ≤ n := by omega
      rw [digits_of_le hle, List.mem_append, List.mem_singleton] at hb
      rcases hb with hb | rfl
      · exact ih (n / 10) (by omega) hb
      · exact isDigit_digit n

theorem decimal_digits (n : Nat) : decimal (digits n) = n := by
  induction n using Nat.strongRecOn with
  | ind n ih =>
    by_cases h : n < 10
    · rw [digits_of_lt h, ← List.nil_append [_], decimal_concat, toNat_digit]
      have hnil : decimal [] = 0 := rfl
      omega
    · have hle : 10 ≤ n := by omega
      rw [digits_of_le hle, decimal_concat, ih (n / 10) (by omega), toNat_digit]
      omega

theorem length_digits_le {n k : Nat} (h : n < 10 ^ (k + 1)) : (digits n).length ≤ k + 1 := by
  induction k generalizing n with
  | zero =>
    rw [digits_of_lt (by omega)]
    simp
  | succ k ih =>
    by_cases hlt : n < 10
    · rw [digits_of_lt hlt]
      simp
    · have hle : 10 ≤ n := by omega
      have hdiv : n / 10 < 10 ^ (k + 1) := by
        rw [pow_succ] at h
        omega
      have hlen := ih hdiv
      rw [digits_of_le hle, List.length_append, List.length_singleton]
      omega

theorem spellsInt64_digits {n : Nat} (h : n < 2 ^ 63) : SpellsInt64 (digits n) n where
  spells := by
    have hs : Spells (digits n) (decimal (digits n)) :=
      .unsigned (digits_ne_nil n) fun b hb => isDigit_of_mem_digits hb
    rwa [decimal_digits] at hs
  lower := by omega
  upper := by omega

theorem isLine_header (marker : Char) {n : Nat} (hm : UInt8.ofNat marker.toNat ≠ lineFeed)
    (hn : n < 2 ^ 63) :
    IsLine (Frame.header marker n) (UInt8.ofNat marker.toNat :: digits n) where
  ended := by rw [Frame.header, digitsOnto_eq, List.cons_append]
  single := by
    intro hmem
    rcases List.mem_cons.1 hmem with heq | hmem
    · exact hm heq.symm
    · have hdigit := isDigit_of_mem_digits hmem
      revert hdigit
      unfold IsDigit lineFeed
      decide
  short := by
    have hwidth : (digits n).length ≤ 18 + 1 := length_digits_le (by omega)
    rw [Frame.header, digitsOnto_eq, List.length_cons, List.length_append]
    have hcrlf : crlf.length = 2 := rfl
    have hmax : maxLineLength = 65536 := rfl
    omega

/-! ## Frames -/

theorem isFrame_bulk (d : Nat) {data : Bytes} (h : data.length ≤ maxBulkLength) :
    IsFrame d (Frame.bulk data) (.bulk (some data)) := by
  have hmax : maxBulkLength = 536870912 := rfl
  have hlen : data.length < 2 ^ 63 := by omega
  exact .bulk (isLine_header '$' (by decide) hlen) (spellsInt64_digits hlen) h

theorem areFrames_bulks (d : Nat) {words : List Bytes} (h : ∀ w ∈ words, w.length ≤ maxBulkLength) :
    AreFrames d (words.flatMap Frame.bulk) (words.map fun w => .bulk (some w)) := by
  induction words with
  | nil => exact .nil
  | cons w words ih =>
    rw [List.forall_mem_cons] at h
    rw [List.flatMap_cons, List.map_cons]
    exact .cons (isFrame_bulk d h.1) (ih h.2)

theorem isFrame_frame {c : Command} (h : c.Fits) : IsFrame 0 c.frame c.echo := by
  have hcount : SpellsInt64 (digits c.words.length)
      (c.words.map fun w => Reply.bulk (some w)).length := by
    rw [List.length_map]
    exact spellsInt64_digits h.count
  exact .array (isLine_header '*' (by decide) h.count) hcount (by decide)
    (areFrames_bulks 1 h.short)

theorem read_frame {c : Command} (h : c.Fits) (rest : Bytes) :
    Reply.read (c.frame ++ rest) = (.ok c.echo, rest) :=
  read_eq_ok.2 ⟨c.frame, rfl, isFrame_frame h⟩

/-! ## Many frames -/

theorem foldl_appendTo (cs : List Command) (buffer : Bytes) :
    cs.foldl (fun buffer c => c.appendTo buffer) buffer = buffer ++ cs.flatMap Command.frame := by
  induction cs generalizing buffer with
  | nil => simp
  | cons c cs ih => rw [List.foldl_cons, ih, Command.appendTo, List.flatMap_cons, List.append_assoc]

theorem readMany_frames {cs : List Command} (h : ∀ c ∈ cs, c.Fits) (resume : Bool)
    (acc : List (Except Fault Reply)) (rest : Bytes) :
    readMany resume acc cs.length (cs.flatMap Command.frame ++ rest) =
      (acc.reverse ++ cs.map fun c => .ok c.echo, rest) := by
  induction cs generalizing acc with
  | nil => simp [readMany]
  | cons c cs ih =>
    rw [List.forall_mem_cons] at h
    have hread := read_frame h.1 (cs.flatMap Command.frame ++ rest)
    rw [List.flatMap_cons, List.append_assoc, List.length_cons, readMany, hread]
    simp [ih h.2]

theorem frames_cancel {cs cs' : List Command} (h : ∀ c ∈ cs, c.Fits) (h' : ∀ c ∈ cs', c.Fits)
    (hlen : cs.length = cs'.length) {rest rest' : Bytes}
    (heq : cs.flatMap Command.frame ++ rest = cs'.flatMap Command.frame ++ rest') :
    cs = cs' ∧ rest = rest' := by
  have hread := readMany_frames h false [] rest
  rw [heq, hlen, readMany_frames h' false [] rest', Prod.mk.injEq] at hread
  refine ⟨?_, hread.2.symm⟩
  have hecho : Function.Injective fun c : Command => (Except.ok c.echo : Except Fault Reply) := by
    intro c c' hc
    injection hc with hc
    exact Command.echo_injective hc
  exact (List.map_injective_iff.2 hecho (List.append_cancel_left hread.1)).symm

theorem frame_ne_nil (c : Command) : c.frame ≠ [] := by
  simp [Command.frame, Frame.ofWords, Frame.header]

theorem frames_injective {cs cs' : List Command} (h : ∀ c ∈ cs, c.Fits) (h' : ∀ c ∈ cs', c.Fits)
    (heq : cs.flatMap Command.frame = cs'.flatMap Command.frame) : cs = cs' := by
  wlog hle : cs.length ≤ cs'.length generalizing cs cs'
  · exact (this h' h heq.symm (by omega)).symm
  -- behind as many frames of the longer list nothing may follow
  have hsplit : cs.flatMap Command.frame ++ [] =
      (cs'.take cs.length).flatMap Command.frame ++ (cs'.drop cs.length).flatMap Command.frame := by
    rw [← List.flatMap_append, List.take_append_drop, List.append_nil, heq]
  obtain ⟨htake, hdrop⟩ := frames_cancel h (fun c hc => h' c (List.mem_of_mem_take hc))
    (by rw [List.length_take]; omega) hsplit
  have hnil : cs'.drop cs.length = [] := by
    cases hd : cs'.drop cs.length with
    | nil => rfl
    | cons c rest =>
      rw [hd, List.flatMap_cons] at hdrop
      exact absurd (List.append_eq_nil_iff.1 hdrop.symm).1 (frame_ne_nil c)
  rw [← List.take_append_drop cs.length cs', hnil, List.append_nil]
  exact htake

/-- Appended to a buffer, the frames of some commands stand behind what was there, and reading once
for each command gives back its words and leaves what follows the last frame. So no other commands
have the same bytes, even if more bytes follow. -/
theorem frames_decode (cs : List Command) (hcs : ∀ c ∈ cs, c.Fits) :
    (∀ buffer suffix resume, ∃ sent,
      cs.foldl (fun buffer c => c.appendTo buffer) buffer = buffer ++ sent ∧
      readMany resume [] cs.length (sent ++ suffix) = (cs.map fun c => .ok c.echo, suffix)) ∧
    (∀ cs' : List Command, (∀ c ∈ cs', c.Fits) → ∀ buffer,
      cs.foldl (fun buffer c => c.appendTo buffer) buffer =
        cs'.foldl (fun buffer c => c.appendTo buffer) buffer → cs = cs') ∧
    ∀ c ∈ cs, ∀ c' : Command, c'.Fits → ∀ suffix suffix',
      c.frame ++ suffix = c'.frame ++ suffix' → c.words = c'.words ∧ suffix = suffix' := by
  refine ⟨fun buffer suffix resume => ?_, fun cs' hcs' buffer heq => ?_, ?_⟩
  · exact ⟨_, foldl_appendTo cs buffer, readMany_frames hcs resume [] suffix⟩
  · rw [foldl_appendTo, foldl_appendTo] at heq
    exact frames_injective hcs hcs' (List.append_cancel_left heq)
  · intro c hc c' hc' suffix suffix' heq
    have hone : ∀ c : Command, [c].flatMap Command.frame = c.frame := List.flatMap_singleton _
    have hfits : ∀ d : Command, d.Fits → ∀ e ∈ [d], e.Fits := by
      intro d hd e he
      rwa [List.mem_singleton.1 he]
    obtain ⟨hsame, hrest⟩ := frames_cancel (hfits c (hcs c hc)) (hfits c' hc') rfl
      (by rw [hone, hone]; exact heq)
    cases hsame
    exact ⟨rfl, hrest⟩

theorem frames_decode_frame_in_word :
    let c : Command := ⟨[0x45], [[0x2A, 0x31, 0x0D, 0x0A, 0x24, 0x30, 0x0D, 0x0A, 0x0D, 0x0A], []]⟩
    (∀ d ∈ [c, ⟨[], []⟩], d.Fits) ∧ ∃ sent,
      [c, ⟨[], []⟩].foldl (fun buffer c => c.appendTo buffer) [0x0A] = [0x0A] ++ sent ∧
      readMany false [] 2 (sent ++ [0x2B]) =
        ([.ok c.echo, .ok (Command.echo ⟨[], []⟩)], [0x2B]) := by
  intro c
  have hfits : ∀ d ∈ [c, ⟨[], []⟩], d.Fits := by
    intro d hd
    simp only [List.mem_cons, List.not_mem_nil, or_false] at hd
    rcases hd with rfl | rfl
    · exact ⟨by decide, by decide⟩
    · exact ⟨by decide, by decide⟩
  exact ⟨hfits, (frames_decode [c, ⟨[], []⟩] hfits).1 [0x0A] [0x2B] false⟩

end Wire

end SessionPool
