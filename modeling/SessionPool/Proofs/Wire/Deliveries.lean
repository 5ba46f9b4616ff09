import SessionPool.Proofs.Wire.Stream
import SessionPool.Proofs.Wire.Acceptance

/-!
# Deliveries make no difference

Replies depend on the bytes alone and not on how they are delivered. Where a read fails behind some
bytes, all that these bytes decide stays as it was, and what needs one more byte is that failure
(`deliveries_decode`). The second is a fact about one demand (`cut`): with every request it either
stays within the bytes or takes all of them.
-/

namespace SessionPool

namespace Wire

open Reply

/-! ## Demands that end well -/

namespace Demand

variable {α β : Type}

/-- Behind a line that is there, the reader gives up only where it can go on. -/
def Fair : Demand α → Prop
  | done result => ∀ f, result = .error f → isRecoverable f = true
  | line next => ∀ data, data ≠ [] → (next data).Fair
  | exactly _ next => ∀ data, (next data).Fair

theorem Fair.ok (a : α) : (done (.ok a)).Fair := fun _ h => nomatch h

theorem Fair.violation {v : Violation} (hv : v ≠ .closedByPeer) :
    (done (.error (.protocol v)) : Demand α).Fair := by
  intro f hf
  cases hf
  cases v <;> first | rfl | exact absurd rfl hv

theorem Fair.bind {d : Demand α} (hd : d.Fair) {f : α → Demand β} (hf : ∀ a, (f a).Fair) :
    (d.bind f).Fair := by
  induction d with
  | done result =>
    cases result with
    | ok a => exact hf a
    | error e =>
      intro e' he
      cases he
      exact hd e rfl
  | line next ih => exact fun data hdata => ih data (hd data hdata)
  | exactly count next ih => exact fun data => ih data (hd data)

theorem fair_reply : reply.Fair :=
  Closed.reply {
    ok := .ok
    violation := .violation
    line := fun _ hnext => hnext
    exactly := fun _ hnext => hnext
    bind := fun hd hf => hd.bind hf }

/-! ## Where the bytes end -/

theorem suffix_splitLine (limit : Nat) (bs : Bytes) : (splitLine limit bs).2 <:+ bs := by
  induction bs generalizing limit with
  | nil => simp only [splitLine_nil, List.suffix_refl]
  | cons b bs ih =>
    cases limit with
    | zero => simp only [splitLine_zero, List.suffix_refl]
    | succ limit =>
      by_cases hb : b = lineFeed
      · rw [hb, splitLine_lineFeed]
        exact List.suffix_cons _ _
      · rw [splitLine_cons hb]
        exact (ih limit).trans (List.suffix_cons _ _)

theorem splitLine_shorter {limit : Nat} {bs : Bytes} (hl : 0 < limit) (hbs : bs ≠ []) :
    (splitLine limit bs).2.length < bs.length := by
  obtain ⟨b, bs, rfl⟩ := List.exists_cons_of_ne_nil hbs
  obtain ⟨limit, rfl⟩ := Nat.exists_eq_add_of_lt hl
  rw [Nat.zero_add]
  by_cases hb : b = lineFeed
  · rw [hb, splitLine_lineFeed]
    exact Nat.lt_succ_self _
  · rw [splitLine_cons hb]
    exact Nat.lt_succ_of_le (suffix_splitLine limit bs).length_le

section bytes

variable {count : Nat} {next : Bytes → Demand α} {bs : Bytes}

theorem run_line : (line next).run bs =
    (next (splitLine maxLineLength bs).1).run (splitLine maxLineLength bs).2 := rfl

theorem readExactly_of_le (h : count ≤ bs.length) :
    ByteSource.readExactly count bs = (.ok (bs.take count), bs.drop count) :=
  if_pos (List.length_take_of_le h)

theorem readExactly_of_lt (h : bs.length < count) :
    ByteSource.readExactly count bs = (.error .truncated, []) := if_neg (by
  rw [List.length_take]
  omega)

theorem run_exactly_of_le (h : count ≤ bs.length) :
    (exactly count next).run bs = (next (bs.take count)).run (bs.drop count) := by
  rw [run, readExactly_of_le h]

theorem run_exactly_of_lt (h : bs.length < count) :
    (exactly count next).run bs = (.error (.io .truncated), []) := by
  rw [run, readExactly_of_lt h]

end bytes

theorem suffix_run (d : Demand α) (bs : Bytes) : (d.run bs).2 <:+ bs := by
  induction d generalizing bs with
  | done result => exact List.suffix_refl _
  | line next ih => exact (ih _ _).trans (suffix_splitLine _ bs)
  | exactly count next ih =>
    rcases Nat.lt_or_ge bs.length count with h | h
    · rw [run_exactly_of_lt h]
      exact List.nil_suffix
    · rw [run_exactly_of_le h]
      exact (ih _ _).trans (List.drop_suffix _ _)

variable {s : Stream} {fault : IoFault}

/-- What becomes of a demand when reads fail behind the front of a stream: the front decides, and
whatever follows it is left; or it is not enough, and of whatever follows it something is taken. -/
inductive Cut (s : Stream) (fault : IoFault) (d : Demand α) : Prop
  | decided {result : Except Fault α} {rest : Bytes}
      (hstream : d.run s = (result, { s with front := rest }))
      (hbytes : ∀ more, d.run (s.front ++ more) = (result, rest ++ more))
      (hgoes : ∀ f, result = .error f → isRecoverable f = true)
  | starved (hstream : (d.run s).1 = .error (.io fault))
      (hbytes : ∀ more, more ≠ [] → (d.run (s.front ++ more)).2.length < more.length)

theorem Cut.next {d d' : Demand α} {rest : Bytes} (h : Cut { s with front := rest } fault d')
    (hstream : d.run s = d'.run { s with front := rest })
    (hbytes : ∀ more, d.run (s.front ++ more) = d'.run (rest ++ more)) : Cut s fault d := by
  cases h with
  | decided hs hb hg =>
    exact .decided (hstream.trans hs) (fun more => (hbytes more).trans (hb more)) hg
  | starved hs hb =>
    refine .starved (by rw [hstream, hs]) fun more hmore => ?_
    rw [hbytes]
    exact hb more hmore

theorem cut (h : s.stop? = some fault) {d : Demand α} (hd : d.Fair) : Cut s fault d := by
  induction d generalizing s with
  | done result => exact .decided rfl (fun _ => rfl) hd
  | line next ih =>
    by_cases hends : Ends maxLineLength (splitLine maxLineLength s.front).1
    · have hline : (splitLine maxLineLength s.front).1 ≠ [] := by
        intro hnil
        rw [hnil, ends_nil] at hends
        exact absurd hends (by decide)
      refine (ih (splitLine maxLineLength s.front).1
        (s := { s with front := (splitLine maxLineLength s.front).2 }) h (hd _ hline)).next ?_
        fun more => ?_
      · rw [run, Stream.readLine_of_ends hends]
      · rw [run_line, splitLine_append_of_ends hends]
    · refine .starved ?_ fun more hmore => ?_
      · obtain ⟨s', hs'⟩ := Stream.halt_of_stop h (.ok (splitLine maxLineLength s.front).1)
        rw [run, Stream.readLine_of_not_ends hends, hs']
      · obtain ⟨hlt, -, hmoreLine⟩ := splitLine_append_of_not_ends hends more
        rw [run_line, hmoreLine]
        exact Nat.lt_of_le_of_lt (suffix_run _ _).length_le
          (splitLine_shorter (Nat.sub_pos_of_lt hlt) hmore)
  | exactly count next ih =>
    rcases Nat.lt_or_ge s.front.length count with hlt | hle
    · refine .starved ?_ fun more hmore => ?_
      · obtain ⟨s', hs'⟩ := Stream.halt_of_stop h (.error .truncated)
        rw [run, Stream.readExactly_of_lt hlt, hs']
      · have hpos : 0 < more.length := List.length_pos_iff.2 hmore
        rcases Nat.lt_or_ge (s.front ++ more).length count with hall | hall
        · rw [run_exactly_of_lt hall]
          exact hpos
        · rw [run_exactly_of_le hall]
          refine Nat.lt_of_le_of_lt (suffix_run _ _).length_le ?_
          rw [List.length_drop, List.length_append]
          omega
    · refine (ih (s.front.take count) (s := { s with front := s.front.drop count }) h
        (hd _)).next ?_ fun more => ?_
      · rw [run, Stream.readExactly_of_le hle]
      · rw [run_exactly_of_le (by rw [List.length_append]; omega),
          List.take_append_of_le_length hle, List.drop_append_of_le_length hle]

end Demand

theorem exists_ofBytes {s : Stream} (h : s.stop? = none) : ∃ front, s = Stream.ofBytes front := by
  obtain ⟨front, _ | ⟨stop, stops⟩, _ | fault⟩ := s <;> first | exact ⟨front, rfl⟩ | cases h

theorem read_stream_eq_ok {s t : Stream} {r : Reply} : Reply.read s = (.ok r, t) ↔
    ∃ w rest, s.front = w ++ rest ∧ IsFrame 0 w r ∧ t = { s with front := rest } := by
  cases hstop : s.stop? with
  | none =>
    obtain ⟨front, rfl⟩ := exists_ofBytes hstop
    rw [read_view exact_ofBytes]
    constructor
    · intro h
      cases hread : Reply.read front with
      | mk result rest =>
        rw [hread] at h
        cases h
        obtain ⟨w, hw, hwr⟩ := read_eq_ok.1 hread
        exact ⟨w, rest, hw, hwr, rfl⟩
    · rintro ⟨w, rest, hw, hwr, rfl⟩
      have hread : Reply.read front = (.ok r, rest) := read_eq_ok.2 ⟨w, hw, hwr⟩
      rw [hread]
      rfl
  | some fault =>
    cases Demand.cut hstop Demand.fair_reply with
    | @decided result rest hstream hbytes hgoes =>
      rw [Demand.run_reply] at hstream
      have hall : Reply.read s.front = (result, rest) := by
        have h := hbytes []
        rwa [Demand.run_reply, List.append_nil, List.append_nil] at h
      rw [hstream]
      constructor
      · intro h
        cases h
        obtain ⟨w, hw, hwr⟩ := read_eq_ok.1 hall
        exact ⟨w, rest, hw, hwr, rfl⟩
      · rintro ⟨w, rest', hw, hwr, rfl⟩
        cases hall.symm.trans (read_eq_ok.2 ⟨w, hw, hwr⟩)
        rfl
    | starved hstream hbytes =>
      rw [Demand.run_reply] at hstream
      constructor
      · intro h
        rw [h] at hstream
        cases hstream
      · -- a frame in the front would leave all that follows it
        rintro ⟨w, rest, hw, hwr, rfl⟩
        have hlt := hbytes [0] (by simp)
        rw [Demand.run_reply, read_eq_ok.2 ⟨w, by rw [hw, List.append_assoc], hwr⟩] at hlt
        simp at hlt

/-! ## Many replies -/

section many

variable {σ : Type} [ByteSource σ] {s s' : σ} {resume : Bool} {count : Nat}

theorem readMany_onto (acc : List (Except Fault Reply)) (count : Nat) (s : σ) :
    readMany resume acc count s = (readMany resume [] count s).map (acc.reverse ++ ·) id := by
  induction count generalizing acc s with
  | zero => simp [readMany]
  | succ count ih =>
    rw [readMany, readMany]
    cases Reply.read s with
    | mk result s' =>
      cases result with
      | ok r =>
        simp only
        rw [ih (.ok r :: acc), ih [.ok r], Prod.map_map]
        simp only [List.reverse_cons, List.append_assoc]
        rfl
      | error f =>
        simp only
        split
        · rw [ih (.error f :: acc), ih [.error f], Prod.map_map]
          simp only [List.reverse_cons, List.append_assoc]
          rfl
        · simp

theorem readMany_goes {result : Except Fault Reply} (h : Reply.read s = (result, s'))
    (hgoes : ∀ f, result = .error f → isRecoverable f = true) :
    readMany true [] (count + 1) s = (readMany true [] count s').map (result :: ·) id := by
  rw [readMany, h]
  cases result with
  | ok r => exact readMany_onto [.ok r] count s'
  | error f =>
    simp only [hgoes f rfl, Bool.and_self, if_true]
    exact readMany_onto [.error f] count s'

theorem readMany_ends {fault : IoFault} (h : (Reply.read s).1 = .error (.io fault)) :
    (readMany resume [] (count + 1) s).1 = [.error (.io fault)] := by
  rw [readMany]
  cases hread : Reply.read s with
  | mk result s' =>
    rw [hread] at h
    cases h
    simp [isRecoverable]

end many

def Decides (front : Bytes) (results : List (Except Fault Reply)) (rest : Bytes) : Prop :=
  ∀ more, readMany true [] results.length (front ++ more) = (results, rest ++ more)

def TooShort (rest : Bytes) : Prop :=
  ∀ more, more ≠ [] → (Reply.read (rest ++ more)).2.length < more.length

theorem readMany_cut {s : Stream} {fault : IoFault} (h : s.stop? = some fault) (count : Nat) :
    ∃ decided rest, Decides s.front decided rest ∧
      (decided.length = count ∧ (readMany true [] count s).1 = decided ∨
        decided.length < count ∧ (readMany true [] count s).1 = decided ++ [.error (.io fault)] ∧
          TooShort rest) := by
  -- by recursion on the number of replies: each of them is decided by the front, or is the last
  induction count generalizing s with
  | zero => exact ⟨[], s.front, fun _ => rfl, .inl ⟨rfl, rfl⟩⟩
  | succ count ih =>
    cases Demand.cut h Demand.fair_reply with
    | @decided result rest hstream hbytes hgoes =>
      rw [Demand.run_reply] at hstream
      obtain ⟨decided, rest', hdecides, hcount⟩ := ih (s := { s with front := rest }) h
      have hmore : (readMany true [] (count + 1) s).1 =
          result :: (readMany true [] count { s with front := rest }).1 := by
        rw [readMany_goes hstream hgoes]
        rfl
      refine ⟨result :: decided, rest', fun more => ?_, ?_⟩
      · rw [List.length_cons, readMany_goes ((Demand.run_reply _).symm.trans (hbytes more)) hgoes,
          hdecides]
        rfl
      · rw [hmore]
        rcases hcount with ⟨hlen, heq⟩ | ⟨hlt, heq, hshort⟩
        · exact .inl ⟨congrArg Nat.succ hlen, by rw [heq]⟩
        · exact .inr ⟨Nat.succ_lt_succ hlt, by rw [heq]; rfl, hshort⟩
    | starved hstream hbytes =>
      rw [Demand.run_reply] at hstream
      refine ⟨[], s.front, fun _ => rfl, .inr ⟨Nat.succ_pos count, readMany_ends hstream, ?_⟩⟩
      intro more hmore
      rw [← Demand.run_reply]
      exact hbytes more hmore

end Wire

/-! ## Feeds -/

namespace Delivery

def data : Delivery → Bytes
  | bytes data => data
  | failure _ => []

def Passes : Delivery → Prop
  | bytes _ => True
  | failure fault => fault.kind = .interrupted

instance (d : Delivery) : Decidable d.Passes :=
  match d with
  | bytes _ => .isTrue trivial
  | failure fault => inferInstanceAs (Decidable (fault.kind = .interrupted))

def sent (ds : List Delivery) : Bytes := ds.flatMap data

end Delivery

namespace Wire

open Reply Delivery

theorem flatten_pieces (capacity : Nat) (data : Bytes) : (pieces capacity data).flatten = data := by
  suffices h : ∀ (done : List Bytes) (room : Nat) (piece : Bytes),
      (piecesOnto capacity done room piece data).flatten =
        done.reverse.flatten ++ piece.reverse ++ data by
    exact h [] capacity []
  induction data with
  | nil => simp [piecesOnto]
  | cons b bs ih =>
    intro done room piece
    cases room <;> simp [piecesOnto, ih]

theorem stream_append {behind : Option IoFault} {ds : List Delivery}
    (h : (Stream.ofDeliveries behind ds).stops = []) (behind' : Option IoFault)
    (es : List Delivery) : Stream.ofDeliveries behind' (ds ++ es) =
      (Stream.ofDeliveries behind' es).prepend (Stream.ofDeliveries behind ds).front := by
  induction ds with
  | nil => rfl
  | cons d ds ih =>
    cases d with
    | bytes data =>
      rw [List.cons_append, Stream.ofDeliveries, ih h, ← Stream.prepend_append]
      rfl
    | failure fault =>
      rw [Stream.ofDeliveries] at h
      rw [List.cons_append, Stream.ofDeliveries, Stream.ofDeliveries]
      split at h
      · next hk => rw [if_pos hk, if_pos hk, ih h]
      · cases h

theorem stream_passing {ds : List Delivery} (h : ∀ d ∈ ds, d.Passes) (behind : Option IoFault) :
    Stream.ofDeliveries behind ds = { front := sent ds, behind } := by
  induction ds with
  | nil => rfl
  | cons d ds ih =>
    rw [List.forall_mem_cons] at h
    cases d with
    | bytes data =>
      rw [Stream.ofDeliveries, ih h.2]
      rfl
    | failure fault =>
      rw [Stream.ofDeliveries, if_pos (show fault.kind = .interrupted from h.1), ih h.2]
      rfl

theorem stream_append_passing {ds : List Delivery} (h : ∀ d ∈ ds, d.Passes)
    (behind : Option IoFault) (es : List Delivery) :
    Stream.ofDeliveries behind (ds ++ es) = (Stream.ofDeliveries behind es).prepend (sent ds) := by
  have hds := stream_passing h behind
  rw [stream_append (by rw [hds]) behind es, hds]

theorem stream_ofDeliveries (capacity : Nat) (ds : List Delivery) :
    (Feed.ofDeliveries capacity ds).stream = Stream.ofDeliveries none ds := by
  rw [Feed.stream, Feed.ofDeliveries, Stream.prepend_nil]
  induction ds with
  | nil => rfl
  | cons d ds ih =>
    cases d with
    | bytes data =>
      have hsent : sent ((pieces capacity data).map .bytes) = data := by
        rw [sent, List.flatMap_map]
        exact List.flatMap_id.trans (flatten_pieces capacity data)
      have hpasses : ∀ d ∈ (pieces capacity data).map Delivery.bytes, d.Passes := by
        simp [Passes]
      rw [List.flatMap_cons, stream_append_passing hpasses, hsent, ih]
      rfl
    | failure fault =>
      rw [List.flatMap_cons, List.singleton_append, Stream.ofDeliveries, ih]
      rfl

/-- Bytes in any deliveries, through a buffer of any capacity and with any number of interrupted
reads, give the results that they give at once, and leave the same behind them. If another failure
comes between them, those in front of it decide the first results and all the results are these, up
to one that would take bytes from behind the failure: that is the failure. -/
theorem deliveries_decode (capacity : Nat) (ds : List Delivery) (hds : ∀ d ∈ ds, d.Passes)
    (count : Nat) :
    (readMany true [] count (Feed.ofDeliveries capacity ds)).map id Feed.stream =
      (readMany true [] count (sent ds)).map id Stream.ofBytes ∧
    ∀ (fault : IoFault) (later : List Delivery), fault.kind ≠ .interrupted →
      let cut := (readMany true [] count
        (Feed.ofDeliveries capacity (ds ++ .failure fault :: later))).1
      ∃ decided rest, Decides (sent ds) decided rest ∧
        (decided.length = count ∧ cut = decided ∨
          decided.length < count ∧ cut = decided ++ [.error (.io fault)] ∧ TooShort rest) := by
  constructor
  · have hstream : (Feed.ofDeliveries capacity ds).stream = Stream.ofBytes (sent ds) := by
      rw [stream_ofDeliveries, stream_passing hds]
      rfl
    rw [← readMany_view exact_stream, hstream, readMany_view exact_ofBytes]
  · intro fault later hfault cut
    have hstream : (Feed.ofDeliveries capacity (ds ++ .failure fault :: later)).stream =
        (Stream.ofDeliveries none (.failure fault :: later)).prepend (sent ds) := by
      rw [stream_ofDeliveries, stream_append_passing hds]
    have hcut : cut = (readMany true [] count
        ((Stream.ofDeliveries none (.failure fault :: later)).prepend (sent ds))).1 := by
      rw [← hstream, readMany_view exact_stream]
      rfl
    rw [Stream.ofDeliveries, if_neg hfault] at hcut
    rw [hcut]
    obtain ⟨decided, rest, hdecides, hresults⟩ := readMany_cut (s := Stream.prepend (sent ds)
      ⟨[], (fault, (Stream.ofDeliveries none later).front) ::
        (Stream.ofDeliveries none later).stops, (Stream.ofDeliveries none later).behind⟩) rfl count
    refine ⟨decided, rest, ?_, hresults⟩
    rwa [Stream.prepend, List.append_nil] at hdecides

theorem deliveries_decode_split_line :
    let ds : List Delivery := [.bytes [0x2B, 0x4F], .failure ⟨.interrupted, ""⟩,
      .bytes [0x4B, 0x0D], .bytes [0x0A, 0x3A, 0x0D, 0x0A, 0x3A, 0x37]]
    let first : List (Except Fault Reply) :=
      [.ok (.status [0x4F, 0x4B]), .error (.protocol .invalidInteger)]
    (∀ d ∈ ds, d.Passes) ∧ IoFault.reset.kind ≠ .interrupted ∧
    (readMany true [] 3 (Feed.ofDeliveries 1 ds)).1 =
      first ++ [.error (.protocol .unterminatedLine)] ∧
    (readMany true [] 3 (Feed.ofDeliveries 1 (ds ++ [.failure .reset]))).1 =
      first ++ [.error (.io .reset)] ∧
    ∃ rest, Decides (sent ds) first rest ∧ TooShort rest := by
  intro ds first
  have hds : ∀ d ∈ ds, d.Passes := by decide
  have hreset : IoFault.reset.kind ≠ .interrupted := by decide
  have hbytes : readMany true [] 3 (sent ds) =
      (first ++ [.error (.protocol .unterminatedLine)], []) := rfl
  have hlast : (readMany true [] 3 (Feed.ofDeliveries 1 (ds ++ [.failure .reset]))).1 =
      first ++ [.error (.io .reset)] := rfl
  obtain ⟨hwhole, hcut⟩ := deliveries_decode 1 ds hds 3
  refine ⟨hds, hreset, (congrArg Prod.fst hwhole).trans (congrArg Prod.fst hbytes), hlast, ?_⟩
  obtain ⟨decided, rest, hdecides, ⟨-, heq⟩ | ⟨-, heq, hshort⟩⟩ := hcut .reset [] hreset
  · -- the end of the data gives another third result than the reset
    have hthree := hdecides []
    rw [← heq, hlast] at hthree
    exact absurd (congrArg Prod.fst (hbytes.symm.trans hthree)) (by simp)
  · rw [hlast] at heq
    exact ⟨rest, (List.append_cancel_right heq) ▸ hdecides, hshort⟩

end Wire

end SessionPool
