import SessionPool.Proofs.Wire.Demand
import SessionPool.Session.Network

/-!
# What a source still has to give

Seen by a reader a source is a stream: bytes, and behind them the end of the data or a failed read,
which may be followed by more bytes. How the bytes are divided into deliveries, and which reads were
tried again, is not part of it. A view of one kind of source as another is exact if it gives the
same answers and goes on to views of the same sources; then every demand sees no difference
(`run_view`). Feeds and bytes have exact views as streams, and a link reads as its feed does.
-/

namespace SessionPool

namespace Wire

open Reply Reading

/-! ## Lines -/

/-- A line that does not need more bytes: it is as long as it may be, or it ended. -/
def Ends (limit : Nat) (line : Bytes) : Prop := line.length = limit ∨ line.getLast? = some lineFeed

instance (limit : Nat) (line : Bytes) : Decidable (Ends limit line) :=
  inferInstanceAs (Decidable (_ ∨ _))

section line

variable {limit : Nat} {b : UInt8} {bs : Bytes}

@[simp] theorem ends_nil : Ends limit [] ↔ limit = 0 := by simp [Ends, eq_comm]

theorem ends_cons (hb : b ≠ lineFeed) : Ends (limit + 1) (b :: bs) ↔ Ends limit bs := by
  cases bs <;> simp [Ends, hb, eq_comm]

theorem lineOnto_eq (acc : Bytes) (limit : Nat) (bs : Bytes) :
    lineOnto acc limit bs = (acc.reverse ++ (splitLine limit bs).1, (splitLine limit bs).2) := by
  induction bs generalizing acc limit with
  | nil => cases limit <;> simp [splitLine, lineOnto]
  | cons b bs ih =>
    cases limit with
    | zero => simp [splitLine, lineOnto]
    | succ limit =>
      simp only [splitLine, lineOnto]
      split
      · simp
      · rw [ih (b :: acc), ih [b]]
        simp

@[simp] theorem splitLine_zero (bs : Bytes) : splitLine 0 bs = ([], bs) := by cases bs <;> rfl

@[simp] theorem splitLine_nil (limit : Nat) : splitLine limit [] = ([], []) := by
  cases limit <;> rfl

theorem splitLine_lineFeed (limit : Nat) (bs : Bytes) :
    splitLine (limit + 1) (lineFeed :: bs) = ([lineFeed], bs) := by simp [splitLine, lineOnto]

theorem splitLine_cons (hb : b ≠ lineFeed) :
    splitLine (limit + 1) (b :: bs) = (b :: (splitLine limit bs).1, (splitLine limit bs).2) := by
  rw [splitLine, lineOnto, if_neg hb, lineOnto_eq]
  rfl

theorem splitLine_append_of_ends {xs : Bytes} (h : Ends limit (splitLine limit xs).1) (ys : Bytes) :
    splitLine limit (xs ++ ys) = ((splitLine limit xs).1, (splitLine limit xs).2 ++ ys) := by
  induction xs generalizing limit with
  | nil =>
    rw [splitLine_nil] at h
    obtain rfl := ends_nil.1 h
    rw [splitLine_zero, splitLine_zero, List.nil_append]
  | cons b xs ih =>
    cases limit with
    | zero => rw [splitLine_zero, splitLine_zero]
    | succ limit =>
      by_cases hb : b = lineFeed
      · rw [hb, List.cons_append, splitLine_lineFeed, splitLine_lineFeed]
      · rw [splitLine_cons hb, ends_cons hb] at h
        rw [List.cons_append, splitLine_cons hb, splitLine_cons hb, ih h]

theorem splitLine_append_of_not_ends {xs : Bytes} (h : ¬ Ends limit (splitLine limit xs).1)
    (ys : Bytes) : xs.length < limit ∧ splitLine limit xs = (xs, []) ∧
      splitLine limit (xs ++ ys) =
        (xs ++ (splitLine (limit - xs.length) ys).1, (splitLine (limit - xs.length) ys).2) := by
  induction xs generalizing limit with
  | nil =>
    rw [splitLine_nil, ends_nil] at h
    exact ⟨Nat.pos_of_ne_zero h, splitLine_nil limit, rfl⟩
  | cons b xs ih =>
    cases limit with
    | zero => exact absurd (.inl rfl) h
    | succ limit =>
      by_cases hb : b = lineFeed
      · rw [hb, splitLine_lineFeed] at h
        exact absurd (.inr rfl) h
      · rw [splitLine_cons hb, ends_cons hb] at h
        obtain ⟨hlt, hxs, hys⟩ := ih h
        rw [List.cons_append, splitLine_cons hb, splitLine_cons hb, hxs, hys, List.length_cons,
          Nat.add_sub_add_right]
        exact ⟨Nat.succ_lt_succ hlt, rfl, rfl⟩

theorem ends_append {xs ys : Bytes} (hlt : xs.length < limit) (hxs : xs.getLast? ≠ some lineFeed) :
    Ends limit (xs ++ ys) ↔ Ends (limit - xs.length) ys := by
  have hlen : (xs ++ ys).length = limit ↔ ys.length = limit - xs.length := by
    rw [List.length_append]
    omega
  have hlast : (xs ++ ys).getLast? = some lineFeed ↔ ys.getLast? = some lineFeed := by
    rw [List.getLast?_append]
    cases ys.getLast? <;> simp [hxs]
  rw [Ends, Ends, hlen, hlast]

end line

/-! ## Streams -/

/-- Bytes up to the first failed read, then failed reads, each with the bytes up to the next one,
and behind everything the end of the data or a failure. -/
structure Stream where
  front : Bytes
  stops : List (IoFault × Bytes) := []
  behind : Option IoFault := none
  deriving DecidableEq

namespace Stream

variable {limit count : Nat} {xs : Bytes}

def halt (atEnd : Except IoFault Bytes) (s : Stream) : Except IoFault Bytes × Stream :=
  match s.stops, s.behind with
  | (fault, next) :: stops, behind => (.error fault, ⟨next, stops, behind⟩)
  | [], some fault => (.error fault, ⟨[], [], some fault⟩)
  | [], none => (atEnd, ⟨[], [], none⟩)

instance : ByteSource Stream where
  readLine limit s :=
    let (line, rest) := splitLine limit s.front
    if Ends limit line then (.ok line, { s with front := rest }) else s.halt (.ok line)
  readExactly count s :=
    if count ≤ s.front.length then
      (.ok (s.front.take count), { s with front := s.front.drop count })
    else s.halt (.error .truncated)

def prepend (data : Bytes) (s : Stream) : Stream := { s with front := data ++ s.front }

def ofBytes (data : Bytes) : Stream := { front := data }

def ofDeliveries (behind : Option IoFault) : List Delivery → Stream
  | [] => { front := [], behind }
  | .bytes data :: ds => (ofDeliveries behind ds).prepend data
  | .failure fault :: ds =>
    let s := ofDeliveries behind ds
    if fault.kind = .interrupted then s
    else { front := [], stops := (fault, s.front) :: s.stops, behind := s.behind }

def stop? (s : Stream) : Option IoFault := (s.stops.head?.map Prod.fst).or s.behind

@[simp] theorem prepend_nil (s : Stream) : s.prepend [] = s := rfl

theorem prepend_append (xs ys : Bytes) (s : Stream) :
    s.prepend (xs ++ ys) = (s.prepend ys).prepend xs := by
  simp [prepend]

@[simp] theorem halt_prepend (data : Bytes) (atEnd : Except IoFault Bytes) (s : Stream) :
    (s.prepend data).halt atEnd = s.halt atEnd := rfl

theorem map_halt (f : Bytes → Bytes) (atEnd : Except IoFault Bytes) (s : Stream) :
    (s.halt atEnd).map (Except.map f) id = s.halt (atEnd.map f) := by
  obtain ⟨front, stops, behind⟩ := s
  cases stops with
  | cons stop stops => rfl
  | nil => cases behind <;> rfl

theorem halt_of_stop {s : Stream} {fault : IoFault} (h : s.stop? = some fault)
    (atEnd : Except IoFault Bytes) : ∃ s', s.halt atEnd = (.error fault, s') := by
  obtain ⟨front, stops, behind⟩ := s
  cases stops with
  | cons stop stops =>
    cases h
    exact ⟨_, rfl⟩
  | nil =>
    cases behind with
    | none => cases h
    | some f =>
      cases h
      exact ⟨_, rfl⟩

theorem readLine_of_ends {s : Stream} (h : Ends limit (splitLine limit s.front).1) :
    ByteSource.readLine limit s =
      (.ok (splitLine limit s.front).1, { s with front := (splitLine limit s.front).2 }) := if_pos h

theorem readLine_of_not_ends {s : Stream}
    (h : ¬ Ends limit (splitLine limit s.front).1) :
    ByteSource.readLine limit s = s.halt (.ok (splitLine limit s.front).1) := if_neg h

theorem readExactly_of_le {s : Stream} (h : count ≤ s.front.length) :
    ByteSource.readExactly count s =
      (.ok (s.front.take count), { s with front := s.front.drop count }) := if_pos h

theorem readExactly_of_lt {s : Stream} (h : s.front.length < count) :
    ByteSource.readExactly count s = s.halt (.error .truncated) := if_neg (Nat.not_le.2 h)

theorem readLine_prepend_of_ends (h : Ends limit (splitLine limit xs).1)
    (s : Stream) : ByteSource.readLine limit (s.prepend xs) =
      (.ok (splitLine limit xs).1, s.prepend (splitLine limit xs).2) := by
  have hsplit := splitLine_append_of_ends h s.front
  rw [readLine_of_ends (s := s.prepend xs) (by rw [prepend, hsplit]; exact h), prepend, hsplit]
  rfl

theorem readLine_prepend_of_not_ends (h : ¬ Ends limit (splitLine limit xs).1)
    (s : Stream) : ByteSource.readLine limit (s.prepend xs) =
      (ByteSource.readLine (limit - xs.length) s).map (Except.map (xs ++ ·)) id := by
  obtain ⟨hlt, hxs, hsplit⟩ := splitLine_append_of_not_ends h s.front
  rw [hxs] at h
  have hends : Ends limit (splitLine limit (xs ++ s.front)).1 ↔
      Ends (limit - xs.length) (splitLine (limit - xs.length) s.front).1 := by
    rw [hsplit]
    exact ends_append hlt fun h₀ => h (.inr h₀)
  by_cases hs : Ends (limit - xs.length) (splitLine (limit - xs.length) s.front).1
  · rw [readLine_of_ends hs, readLine_of_ends (s := s.prepend xs) (hends.2 hs), prepend, hsplit]
    rfl
  · rw [readLine_of_not_ends hs, map_halt, readLine_of_not_ends (s := s.prepend xs) (mt hends.1 hs),
      halt_prepend, prepend, hsplit]
    rfl

theorem readExactly_prepend_of_le (h : count ≤ xs.length) (s : Stream) :
    ByteSource.readExactly count (s.prepend xs) =
      (.ok (xs.take count), s.prepend (xs.drop count)) := by
  have hlen : (s.prepend xs).front.length = xs.length + s.front.length := List.length_append
  rw [readExactly_of_le (by omega), prepend, List.take_append_of_le_length h,
    List.drop_append_of_le_length h]
  rfl

theorem readExactly_prepend_of_lt (h : xs.length < count) (s : Stream) :
    ByteSource.readExactly count (s.prepend xs) =
      (ByteSource.readExactly (count - xs.length) s).map (Except.map (xs ++ ·)) id := by
  have hlen : (s.prepend xs).front.length = xs.length + s.front.length := List.length_append
  by_cases hs : count - xs.length ≤ s.front.length
  · have htake : (xs ++ s.front).take count = xs ++ s.front.take (count - xs.length) := by
      rw [List.take_append, List.take_of_length_le (Nat.le_of_lt h)]
    have hdrop : (xs ++ s.front).drop count = s.front.drop (count - xs.length) := by
      rw [List.drop_append, List.drop_of_length_le (Nat.le_of_lt h), List.nil_append]
    rw [readExactly_of_le hs, readExactly_of_le (by omega), prepend, htake, hdrop]
    rfl
  · rw [readExactly_of_lt (Nat.lt_of_not_le hs), map_halt, readExactly_of_lt (by omega),
      halt_prepend]
    rfl

end Stream

end Wire

open Wire

def Feed.stream (f : Feed) : Stream := (Stream.ofDeliveries f.behind f.upcoming).prepend f.buffer

namespace Wire

open Reply

/-! ## Exact views -/

/-- The view of a source answers as the source does, and stays its view. -/
structure Exact {σ τ : Type} [ByteSource σ] [ByteSource τ] (view : σ → τ) : Prop where
  readLine : ∀ limit s,
    ByteSource.readLine limit (view s) = (ByteSource.readLine limit s).map id view
  readExactly : ∀ count s,
    ByteSource.readExactly count (view s) = (ByteSource.readExactly count s).map id view

section view

variable {σ τ α : Type} [ByteSource σ] [ByteSource τ] {view : σ → τ} (h : Exact view)

include h

theorem run_view (d : Demand α) (s : σ) : d.run (view s) = (d.run s).map id view := by
  induction d generalizing s with
  | done result => rfl
  | line next ih =>
    rw [Demand.run, Demand.run, h.readLine]
    cases ByteSource.readLine maxLineLength s with
    | mk result s' =>
      cases result with
      | ok data => exact ih data s'
      | error fault => rfl
  | exactly count next ih =>
    rw [Demand.run, Demand.run, h.readExactly]
    cases ByteSource.readExactly count s with
    | mk result s' =>
      cases result with
      | ok data => exact ih data s'
      | error fault => rfl

theorem read_view (s : σ) : Reply.read (view s) = (Reply.read s).map id view := by
  rw [← Demand.run_reply, ← Demand.run_reply, run_view h]

theorem readMany_view (resume : Bool) (acc : List (Except Fault Reply)) (count : Nat) (s : σ) :
    readMany resume acc count (view s) = (readMany resume acc count s).map id view := by
  induction count generalizing acc s with
  | zero => rfl
  | succ count ih =>
    rw [readMany, readMany, read_view h]
    cases Reply.read s with
    | mk result s' =>
      cases result with
      | ok r => exact ih _ s'
      | error f =>
        simp only [Prod.map_apply, id]
        split
        · exact ih _ s'
        · rfl

end view

theorem exact_ofBytes : Exact Stream.ofBytes where
  readLine limit bs := by
    by_cases h : Ends limit (splitLine limit bs).1
    · exact Stream.readLine_of_ends h
    · obtain ⟨-, hsplit, -⟩ := splitLine_append_of_not_ends h []
      refine (Stream.readLine_of_not_ends h).trans ?_
      change Stream.halt (.ok (splitLine limit bs).1) (.ofBytes bs) =
        (.ok (splitLine limit bs).1, Stream.ofBytes (splitLine limit bs).2)
      rw [hsplit]
      rfl
  readExactly count bs := by
    change _ = Prod.map id Stream.ofBytes (if (bs.take count).length = count then
      (Except.ok (bs.take count), bs.drop count) else (.error IoFault.truncated, []))
    by_cases h : count ≤ bs.length
    · rw [if_pos (List.length_take_of_le h)]
      exact Stream.readExactly_of_le h
    · rw [if_neg (by rw [List.length_take]; omega)]
      exact Stream.readExactly_of_lt (Nat.lt_of_not_le h)

section feed

variable {behind : Option IoFault} {acc buffer : Bytes} {limit count : Nat}

theorem lineFrom_of_ends (h : Ends limit (splitLine limit buffer).1) (ds : List Delivery) :
    Feed.lineFrom behind limit acc buffer ds =
      (.ok (acc.reverse ++ (splitLine limit buffer).1),
        ⟨(splitLine limit buffer).2, ds, behind⟩) := by
  cases ds <;> (simp only [Feed.lineFrom]; rw [if_pos (show _ ∨ _ from h)]; simp)

theorem exactlyFrom_of_le (h : count ≤ buffer.length) (ds : List Delivery) :
    Feed.exactlyFrom behind count acc buffer ds =
      (.ok (acc.reverse ++ buffer.take count), ⟨buffer.drop count, ds, behind⟩) := by
  cases ds <;> (simp only [Feed.exactlyFrom]; rw [if_pos (List.length_take_of_le h)]; simp)

theorem map_prefix (xs acc : Bytes) (r : Except IoFault Bytes × Stream) :
    r.map (Except.map ((xs.reverse ++ acc).reverse ++ ·)) id =
      (r.map (Except.map (xs ++ ·)) id).map (Except.map (acc.reverse ++ ·)) id := by
  obtain ⟨result, s⟩ := r
  cases result <;> simp [Except.map]

theorem lineFrom_stream (ds : List Delivery) (limit : Nat) (acc buffer : Bytes) :
    (Feed.lineFrom behind limit acc buffer ds).map id Feed.stream =
      (ByteSource.readLine limit ((Stream.ofDeliveries behind ds).prepend buffer)).map
        (Except.map (acc.reverse ++ ·)) id := by
  induction ds generalizing limit acc buffer with
  | nil =>
    by_cases h : Ends limit (splitLine limit buffer).1
    · rw [lineFrom_of_ends h, Stream.readLine_prepend_of_ends h]
      rfl
    · obtain ⟨-, hline, -⟩ := splitLine_append_of_not_ends h []
      simp only [Feed.lineFrom]
      rw [if_neg (show ¬ (_ ∨ _) from h), Stream.ofDeliveries, Stream.prepend, List.append_nil,
        Stream.readLine_of_not_ends h, Stream.map_halt, hline]
      cases behind with
      | none => simp [Stream.halt, Except.map, Feed.stream, Stream.ofDeliveries]
      | some fault => rfl
  | cons d ds ih =>
    by_cases h : Ends limit (splitLine limit buffer).1
    · rw [lineFrom_of_ends h, Stream.readLine_prepend_of_ends h]
      rfl
    obtain ⟨hlt, hline, -⟩ := splitLine_append_of_not_ends h []
    rw [Stream.readLine_prepend_of_not_ends h, ← map_prefix]
    cases d with
    | bytes data =>
      simp only [Feed.lineFrom]
      rw [if_neg (show ¬ (_ ∨ _) from h), hline, ih]
      rfl
    | failure fault =>
      simp only [Feed.lineFrom]
      rw [if_neg (show ¬ (_ ∨ _) from h), hline]
      by_cases hk : fault.kind = .interrupted
      · rw [if_pos hk, ih, Stream.ofDeliveries, if_pos hk, Stream.prepend_nil]
      · have hempty : ¬ Ends (limit - buffer.length) (splitLine (limit - buffer.length) []).1 := by
          rw [splitLine_nil, ends_nil]
          omega
        rw [if_neg hk, Stream.ofDeliveries, if_neg hk, Stream.readLine_of_not_ends hempty]
        rfl

theorem exactlyFrom_stream (ds : List Delivery) (count : Nat) (acc buffer : Bytes) :
    (Feed.exactlyFrom behind count acc buffer ds).map id Feed.stream =
      (ByteSource.readExactly count ((Stream.ofDeliveries behind ds).prepend buffer)).map
        (Except.map (acc.reverse ++ ·)) id := by
  induction ds generalizing count acc buffer with
  | nil =>
    by_cases h : count ≤ buffer.length
    · rw [exactlyFrom_of_le h, Stream.readExactly_prepend_of_le h]
      rfl
    · have hlen : (buffer.take count).length ≠ count := by
        rw [List.length_take]
        omega
      simp only [Feed.exactlyFrom]
      rw [if_neg hlen, Stream.ofDeliveries, Stream.prepend, List.append_nil,
        Stream.readExactly_of_lt (Nat.lt_of_not_le h), Stream.map_halt]
      cases behind <;> rfl
  | cons d ds ih =>
    by_cases h : count ≤ buffer.length
    · rw [exactlyFrom_of_le h, Stream.readExactly_prepend_of_le h]
      rfl
    have hlt := Nat.lt_of_not_le h
    have htake : buffer.take count = buffer := List.take_of_length_le (Nat.le_of_lt hlt)
    rw [Stream.readExactly_prepend_of_lt hlt, ← map_prefix]
    cases d with
    | bytes data =>
      simp only [Feed.exactlyFrom]
      rw [htake, if_neg (Nat.ne_of_lt hlt), ih]
      rfl
    | failure fault =>
      simp only [Feed.exactlyFrom]
      rw [htake, if_neg (Nat.ne_of_lt hlt)]
      by_cases hk : fault.kind = .interrupted
      · rw [if_pos hk, ih, Stream.ofDeliveries, if_pos hk, Stream.prepend_nil]
      · have hempty : ([] : Bytes).length < count - buffer.length := Nat.sub_pos_of_lt hlt
        rw [if_neg hk, Stream.ofDeliveries, if_neg hk, Stream.readExactly_of_lt hempty]
        rfl

end feed

theorem exact_stream : Exact Feed.stream :=
  have hmap (r : Except IoFault Bytes × Stream) :
      r = r.map (Except.map (([] : Bytes).reverse ++ ·)) id := by
    obtain ⟨result, s⟩ := r
    cases result <;> rfl
  { readLine := fun limit f => (hmap _).trans (lineFrom_stream f.upcoming limit [] f.buffer).symm
    readExactly := fun count f =>
      (hmap _).trans (exactlyFrom_stream f.upcoming count [] f.buffer).symm }

theorem exact_link (l : Link) : Exact fun incoming : Feed => { l with incoming } where
  readLine _ _ := rfl
  readExactly _ _ := rfl

end Wire

end SessionPool
