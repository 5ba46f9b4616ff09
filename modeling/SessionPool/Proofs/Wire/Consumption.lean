import Mathlib.Logic.Function.Iterate
import SessionPool.Proofs.Wire.Deliveries

/-!
# Reading costs no more than the bytes that came

Announced numbers may be huge, but every request to the source takes a byte or ends the reading, and
every node of a reply was paid for by the three bytes that its line has at least. So neither the
requests nor the reply are larger than the bytes that were taken. Every reading takes something, and
whoever reads on comes to the end.
-/

namespace SessionPool

namespace Reply

mutual

def total (f : Reply → Nat) : Reply → Nat
  | array items => f (array items) + totalOf f items
  | r => f r

def totalOf (f : Reply → Nat) : List Reply → Nat
  | [] => 0
  | r :: rs => total f r + totalOf f rs

end

def dataLength : Reply → Nat
  | status data => data.length
  | error data => data.length
  | bulk (some data) => data.length
  | _ => 0

end Reply

namespace Wire

open Reply

/-! ## Replies and their frames -/

theorem IsLine.length {line body : Bytes} (h : IsLine line body) :
    line.length = body.length + 2 := by
  rw [h.ended, List.length_append]
  rfl

mutual

theorem total_le {d : Nat} {w : Bytes} (r : Reply) (h : IsFrame d w r) :
    3 * r.total (fun _ => 1) + r.total dataLength ≤ w.length := by
  -- by recursion on the reply, as are its elements
  cases h with
  | status hl | error hl | integer hl hn | nilBulk hl hn | nilArray hl hn =>
    simp only [total, dataLength, hl.length, List.length_cons]
    omega
  | bulk hl hn hmax =>
    simp only [total, dataLength, hl.length, List.length_append, List.length_cons]
    omega
  | @array _ _ _ _ items hl hn hd hi =>
    have hitems := totalOf_le items hi
    simp only [total, dataLength, hl.length, List.length_append, List.length_cons]
    omega

theorem totalOf_le {d : Nat} {ws : Bytes} (rs : List Reply) (h : AreFrames d ws rs) :
    3 * totalOf (fun _ => 1) rs + totalOf dataLength rs ≤ ws.length := by
  cases h with
  | nil => exact Nat.le_refl 0
  | @cons _ _ _ r rs hw hws =>
    have hfirst := total_le r hw
    have hrest := totalOf_le rs hws
    rw [List.length_append, totalOf, totalOf]
    omega

end

/-! ## Requests -/

structure Counted (σ : Type) where
  source : σ
  requests : Nat

instance {σ : Type} [ByteSource σ] : ByteSource (Counted σ) where
  readLine limit s := (ByteSource.readLine limit s.source).map id (Counted.mk · (s.requests + 1))
  readExactly count s :=
    (ByteSource.readExactly count s.source).map id (Counted.mk · (s.requests + 1))

theorem exact_source {σ : Type} [ByteSource σ] : Exact fun s : Counted σ => s.source where
  readLine _ _ := rfl
  readExactly _ _ := rfl

namespace Demand

variable {α β : Type}

/-- Nothing is asked of a source behind its end, and nothing is asked for that takes no byte. -/
def Frugal : Demand α → Prop
  | done _ => True
  | line next => (∃ f, next [] = done (.error f)) ∧ ∀ data, (next data).Frugal
  | exactly count next => 0 < count ∧ ∀ data, (next data).Frugal

theorem Frugal.bind {d : Demand α} (hd : d.Frugal) {f : α → Demand β} (hf : ∀ a, (f a).Frugal) :
    (d.bind f).Frugal := by
  induction d with
  | done result =>
    cases result with
    | ok a => exact hf a
    | error e => trivial
  | line next ih =>
    obtain ⟨⟨e, he⟩, hnext⟩ := hd
    exact ⟨⟨e, congrArg (·.bind f) he⟩, fun data => ih data (hnext data)⟩
  | exactly count next ih => exact ⟨hd.1, fun data => ih data (hd.2 data)⟩

theorem frugal_reply : reply.Frugal :=
  Closed.reply {
    ok := fun _ => trivial
    violation := fun _ => trivial
    line := fun {_ next} hnil hnext => by
      refine ⟨⟨_, hnil⟩, fun data => ?_⟩
      cases data with
      | nil =>
        rw [hnil]
        trivial
      | cons b data => exact hnext _ (List.cons_ne_nil b data)
    exactly := fun hcount hnext => ⟨hcount, hnext⟩
    bind := fun hd hf => hd.bind hf }

theorem Frugal.requests_le {d : Demand α} (hd : d.Frugal) (bs : Bytes) (n : Nat) :
    (d.run (Counted.mk bs n)).2.requests + (d.run bs).2.length ≤ n + bs.length + 1 := by
  -- by induction on the requests: each but the last takes a byte
  induction d generalizing bs n with
  | done result => exact Nat.le_succ _
  | line next ih =>
    have hcounted : (line next).run (Counted.mk bs n) = (next (splitLine maxLineLength bs).1).run
        ⟨(splitLine maxLineLength bs).2, n + 1⟩ := rfl
    rw [hcounted, run_line]
    by_cases hbs : bs = []
    · obtain ⟨f, hf⟩ := hd.1
      rw [hbs, splitLine_nil, hf]
      exact Nat.le_refl _
    · have hrest :=
        ih _ (hd.2 (splitLine maxLineLength bs).1) (splitLine maxLineLength bs).2 (n + 1)
      have hlt : (splitLine maxLineLength bs).2.length < bs.length :=
        splitLine_shorter (by decide) hbs
      omega
  | exactly count next ih =>
    obtain ⟨hcount, hnext⟩ := hd
    rcases Nat.lt_or_ge bs.length count with hlt | hle
    · have hread : ByteSource.readExactly count (Counted.mk bs n) =
          (.error .truncated, ⟨[], n + 1⟩) :=
        congrArg (Prod.map id (Counted.mk · (n + 1))) (readExactly_of_lt hlt)
      rw [run_exactly_of_lt hlt, run, hread, List.length_nil]
      dsimp only
      omega
    · have hread : ByteSource.readExactly count (Counted.mk bs n) =
          (.ok (bs.take count), ⟨bs.drop count, n + 1⟩) :=
        congrArg (Prod.map id (Counted.mk · (n + 1))) (readExactly_of_le hle)
      have hrest := ih _ (hnext (bs.take count)) (bs.drop count) (n + 1)
      rw [run_exactly_of_le hle, run, hread]
      rw [List.length_drop] at hrest
      dsimp only
      omega

theorem splitLine_ne_nil {limit : Nat} {bs : Bytes} (hl : 0 < limit) (hbs : bs ≠ []) :
    (splitLine limit bs).1 ≠ [] := by
  obtain ⟨b, bs, rfl⟩ := List.exists_cons_of_ne_nil hbs
  obtain ⟨limit, rfl⟩ := Nat.exists_eq_add_of_lt hl
  rw [Nat.zero_add]
  by_cases hb : b = lineFeed
  · rw [hb, splitLine_lineFeed]
    exact List.cons_ne_nil _ _
  · rw [splitLine_cons hb]
    exact List.cons_ne_nil _ _

theorem Fair.exhausted {d : Demand α} (hd : d.Fair) {bs rest : Bytes} {f : Fault}
    (h : d.run bs = (.error f, rest)) (hf : isRecoverable f = false) : rest = [] := by
  induction d generalizing bs with
  | done result =>
    cases h
    rw [hd f rfl] at hf
    cases hf
  | line next ih =>
    by_cases hbs : bs = []
    · have hsuffix := suffix_run (line next) bs
      rw [h, hbs] at hsuffix
      exact List.suffix_nil.1 hsuffix
    · exact ih _ (hd _ (splitLine_ne_nil (by decide) hbs)) h
  | exactly count next ih =>
    rcases Nat.lt_or_ge bs.length count with hlt | hle
    · rw [run_exactly_of_lt hlt] at h
      cases h
      rfl
    · rw [run_exactly_of_le hle] at h
      exact ih _ (hd _) h

end Demand

/-! ## Reading on -/

theorem read_nil : Reply.read ([] : Bytes) = (.error (.protocol .closedByPeer), []) := rfl

theorem read_shorter {s : Bytes} (h : s ≠ []) : (Reply.read s).2.length < s.length := by
  obtain ⟨next, hnext⟩ : ∃ next, Demand.reply = .line next := ⟨_, rfl⟩
  rw [← Demand.run_reply, hnext, Demand.run_line]
  exact Nat.lt_of_le_of_lt (Demand.suffix_run _ _).length_le
    (Demand.splitLine_shorter (by decide) h)

theorem iterate_read {count : Nat} {s : Bytes} (h : s.length ≤ count) :
    (fun s : Bytes => (Reply.read s).2)^[count] s = [] := by
  induction count generalizing s with
  | zero => exact List.length_eq_zero_iff.1 (Nat.le_zero.1 h)
  | succ count ih =>
    rw [Function.iterate_succ_apply]
    apply ih
    by_cases hs : s = []
    · rw [hs, read_nil]
      exact Nat.zero_le count
    · have hlt := read_shorter hs
      omega

theorem readMany_exhausts {count : Nat} {s : Bytes} (h : s.length < count) : ∃ results f,
    readMany true [] count s = (results ++ [.error f], []) ∧ results.length ≤ s.length ∧
      isRecoverable f = false := by
  -- by induction on the readings that are allowed: each leaves less than the one before
  induction count generalizing s with
  | zero => exact absurd h (Nat.not_lt_zero _)
  | succ count ih =>
    cases hread : Reply.read s with
    | mk result rest =>
      by_cases hgoes : ∀ f, result = .error f → isRecoverable f = true
      · have hs : s ≠ [] := by
          rintro rfl
          rw [read_nil] at hread
          cases hread
          exact absurd (hgoes _ rfl) (by decide)
        have hlt := read_shorter hs
        rw [hread] at hlt
        dsimp only at hlt
        obtain ⟨results, f, hmany, hlen, hf⟩ := ih (s := rest) (by omega)
        refine ⟨result :: results, f, ?_, Nat.lt_of_le_of_lt hlen hlt, hf⟩
        rw [readMany_goes hread hgoes, hmany]
        rfl
      · -- the reading ends here, and a fault that ends it leaves nothing
        obtain ⟨f, hresult⟩ := not_forall.1 hgoes
        obtain ⟨rfl, hf⟩ := Classical.not_imp.1 hresult
        rw [Bool.not_eq_true] at hf
        have hrest : rest = [] := Demand.fair_reply.exhausted ((Demand.run_reply s).trans hread) hf
        refine ⟨[], f, ?_, Nat.zero_le _, hf⟩
        rw [readMany, hread, hrest]
        simp [hf]

/-- Whatever the bytes announce, reading them asks for lines and payloads at most once more than it
takes bytes, and takes a byte if there is one; the replies in a reply, three bytes for each, and
their data are no more than the bytes that were taken. So after as many readings as there are bytes
nothing is left, and a reader that goes on where it can ends with one more reading at most. -/
theorem read_bounded (s : Bytes) :
    (∃ result rest requests, Reply.read s = (result, rest) ∧
      Reply.read (Counted.mk s 0) = (result, ⟨rest, requests⟩) ∧
      requests + rest.length ≤ s.length + 1 ∧ rest <:+ s ∧ (s ≠ [] → rest.length < s.length) ∧
      ∀ r, result = .ok r →
        3 * r.total (fun _ => 1) + r.total dataLength + rest.length ≤ s.length) ∧
    (∀ count, s.length ≤ count → (fun s : Bytes => (Reply.read s).2)^[count] s = []) ∧
    ∀ count, s.length < count → ∃ results f,
      readMany true [] count s = (results ++ [.error f], []) ∧ results.length ≤ s.length ∧
        isRecoverable f = false := by
  refine ⟨⟨(Reply.read s).1, (Reply.read s).2, (Reply.read (Counted.mk s 0)).2.requests, rfl,
    ?_, ?_, ?_, read_shorter, fun r hr => ?_⟩, fun _ => iterate_read,
    fun _ => readMany_exhausts⟩
  · have hsource : Reply.read s = (Reply.read (Counted.mk s 0)).map id Counted.source :=
      read_view exact_source (Counted.mk s 0)
    rw [hsource]
    rfl
  · have hrequests := Demand.frugal_reply.requests_le s 0
    rw [Demand.run_reply, Demand.run_reply] at hrequests
    omega
  · rw [← Demand.run_reply]
    exact Demand.suffix_run _ _
  · obtain ⟨w, hs, hw⟩ := read_eq_ok.1 (Prod.ext hr rfl : Reply.read s = (.ok r, (Reply.read s).2))
    have hlength := congrArg List.length hs
    have htotal := total_le r hw
    rw [List.length_append] at hlength
    omega

/-- An array that announces the greatest length and ends behind its first element. -/
example :
    let s := asciiBytes "*9223372036854775807\r\n:1\r\n".toList
    (Reply.read (Counted.mk s 0)).2.requests = 3 ∧ (Reply.read s).2 = [] := by decide +kernel

end Wire

end SessionPool
