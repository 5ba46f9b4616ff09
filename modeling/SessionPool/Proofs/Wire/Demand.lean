import SessionPool.Wire.Decode

/-!
# What a reader asks for

Reading a reply is a sequence of requests to the source, for a line or for so many bytes, in which
every request depends only on the answers before it. A demand is such a sequence with all its
continuations. `run_reply` says that reading from any source is running one and the same demand on
it, so what is true of every demand is true of reading, whatever the source. `Closed.reply` says
what has to be shown of a property for this demand to have it.
-/

namespace SessionPool.Wire

open Reply Reading

inductive Demand (α : Type)
  | done (result : Except Fault α)
  | line (next : Bytes → Demand α)
  | exactly (count : Nat) (next : Bytes → Demand α)

namespace Demand

variable {α β : Type}

def run {σ : Type} [ByteSource σ] : Demand α → σ → Reading σ α
  | done result, s => (result, s)
  | line next, s =>
    match ByteSource.readLine maxLineLength s with
    | (.ok data, s) => (next data).run s
    | (.error fault, s) => (.error (.io fault), s)
  | exactly count next, s =>
    match ByteSource.readExactly count s with
    | (.ok data, s) => (next data).run s
    | (.error fault, s) => (.error (.io fault), s)

def check (r : Except Violation α) : Demand α :=
  match r with
  | .ok a => done (.ok a)
  | .error v => done (.error (.protocol v))

def bind : Demand α → (α → Demand β) → Demand β
  | done (.ok a), f => f a
  | done (.error e), _ => done (.error e)
  | line next, f => line fun data => (next data).bind f
  | exactly count next, f => exactly count fun data => (next data).bind f

def lineOfReply : Demand Bytes := line fun data => check (lineBody data)

def payload (count : Nat) : Demand Bytes :=
  if maxBulkLength < count then done (.error (.protocol .bulkTooLong))
  else exactly (count + 2) fun data => check (payloadBody count data)

def items (item : Demand Reply) (acc : List Reply) : Nat → Demand (List Reply)
  | 0 => done (.ok acc.reverse)
  | count + 1 => item.bind fun r => items item (r :: acc) count

def behindLine (item? : Option (Demand Reply)) : Bytes → Demand Reply
  | [] => done (.error (.protocol .emptyLine))
  | marker :: body =>
    match Char.ofNat marker.toNat with
    | '+' => done (.ok (.status body))
    | '-' => done (.ok (.error body))
    | ':' => (check (announcedInteger body)).bind fun n => done (.ok (.integer n))
    | '$' =>
      (check (announcedLength body)).bind fun
        | none => done (.ok (.bulk none))
        | some count => (payload count).bind fun data => done (.ok (.bulk data))
    | '*' =>
      (check (announcedLength body)).bind fun
        | none => done (.ok (.bulk none))
        | some count =>
          match item? with
          | none => done (.error (.protocol .nestedTooDeeply))
          | some item => (items item [] count).bind fun rs => done (.ok (.array rs))
    | _ => done (.error (.protocol .unknownType))

def nested : (levels : Nat) → Demand Reply
  | 0 => lineOfReply.bind (behindLine none)
  | levels + 1 => lineOfReply.bind (behindLine (some (nested levels)))

def reply : Demand Reply := nested maxDepth

section run

variable {σ : Type} [ByteSource σ] (s : σ)

theorem run_check (r : Except Violation α) : (check r : Demand α).run s = Reading.check r s := by
  cases r <;> rfl

theorem run_bind (d : Demand α) (f : α → Demand β) (s : σ) :
    (d.bind f).run s = (d.run s).andThen fun a s => (f a).run s := by
  induction d generalizing s with
  | done result => cases result <;> rfl
  | line next ih =>
    simp only [bind, run]
    split
    · exact ih _ _
    · rfl
  | exactly count next ih =>
    simp only [bind, run]
    split
    · exact ih _ _
    · rfl

theorem run_lineOfReply : lineOfReply.run s = readLine s := by
  rw [lineOfReply, run, readLine]
  cases ByteSource.readLine maxLineLength s with
  | mk result s' =>
    cases result with
    | ok data => exact run_check s' _
    | error fault => rfl

theorem run_payload (count : Nat) : (payload count).run s = readPayload count s := by
  rw [payload, readPayload]
  split
  · rfl
  · rw [run]
    cases ByteSource.readExactly (count + 2) s with
    | mk result s' =>
      cases result with
      | ok data => exact run_check s' _
      | error fault => rfl

theorem run_items {item : Demand Reply} {next : σ → Reading σ Reply}
    (hitem : ∀ s, item.run s = next s)
    (acc : List Reply) (count : Nat) (s : σ) :
    (items item acc count).run s = readItems next acc count s := by
  induction count generalizing acc s with
  | zero => rfl
  | succ count ih =>
    rw [items, run_bind, hitem, readItems]
    cases next s with
    | mk result s' =>
      cases result with
      | ok r => exact ih (r :: acc) s'
      | error f => rfl

inductive Matches (σ : Type) [ByteSource σ] :
    Option (Demand Reply) → Option (σ → Reading σ Reply) → Prop
  | none : Matches σ none none
  | some {item : Demand Reply} {next : σ → Reading σ Reply} (h : ∀ s, item.run s = next s) :
    Matches σ (some item) (some next)

theorem run_behindLine {item? : Option (Demand Reply)} {next? : Option (σ → Reading σ Reply)}
    (h : Matches σ item? next?) :
    (lineOfReply.bind (behindLine item?)).run s = readWith next? s := by
  rw [run_bind, run_lineOfReply, readWith]
  congr 1
  funext line s
  cases line with
  | nil => rfl
  | cons marker body =>
    simp only [behindLine]
    generalize Char.ofNat marker.toNat = c
    split
    · rfl
    · rfl
    · rw [run_bind, run_check]
      rfl
    · rw [run_bind, run_check]
      congr 1
      funext n? s
      cases n? with
      | none => rfl
      | some count =>
        simp only [run_bind, run_payload]
        rfl
    · rw [run_bind, run_check]
      congr 1
      funext n? s
      cases n? with
      | none => rfl
      | some count =>
        cases h with
        | none => rfl
        | some h =>
          simp only [run_bind, run_items h]
          rfl
    · -- the other side comes to its last case too
      simp only [violation]
      rfl

theorem run_nested (levels : Nat) : (nested levels).run s = readNested levels s := by
  induction levels generalizing s with
  | zero => exact run_behindLine s .none
  | succ levels ih => exact run_behindLine s (.some ih)

theorem run_reply : reply.run s = Reply.read s := run_nested s maxDepth

end run

/-! ## Properties of the reader's demand -/

section closed

theorem lineBody_ne_closed {data : Bytes} (h : data ≠ []) :
    lineBody data ≠ .error .closedByPeer := by
  rw [lineBody]
  split
  · next hrev => exact absurd (List.reverse_eq_nil_iff.1 hrev) h
  · simp
  · split <;> simp

theorem announcedInteger_ne_closed (body : Bytes) :
    announcedInteger body ≠ .error .closedByPeer := by
  rw [announcedInteger]
  split <;> simp

theorem announcedLength_ne_closed (body : Bytes) :
    announcedLength body ≠ .error .closedByPeer := by
  rw [announcedLength]
  split <;> try simp
  next v hv => exact fun h => announcedInteger_ne_closed body (by rw [hv, h])

/-- A property of demands that goes over from the parts of the reader's demand to the whole. Only a
line that is empty says that the peer has closed. -/
structure Closed (P : {α : Type} → Demand α → Prop) : Prop where
  ok : ∀ {α} (a : α), P (done (.ok a))
  violation : ∀ {α} {v : Violation}, v ≠ .closedByPeer → P (done (.error (.protocol v)) : Demand α)
  line : ∀ {α} {next : Bytes → Demand α}, next [] = done (.error (.protocol .closedByPeer)) →
    (∀ data, data ≠ [] → P (next data)) → P (line next)
  exactly : ∀ {α} {count} {next : Bytes → Demand α}, 0 < count → (∀ data, P (next data)) →
    P (exactly count next)
  bind : ∀ {α β} {d : Demand α} {f : α → Demand β}, P d → (∀ a, P (f a)) → P (d.bind f)

variable {P : {α : Type} → Demand α → Prop} (h : Closed P)

include h

theorem Closed.check {r : Except Violation α} (hr : r ≠ .error .closedByPeer) : P (check r) := by
  cases r with
  | ok a => exact h.ok a
  | error v => exact h.violation fun hv => hr (by rw [hv])

theorem Closed.lineOfReply : P lineOfReply :=
  h.line rfl fun _ hdata => h.check (lineBody_ne_closed hdata)

theorem Closed.payload (count : Nat) : P (payload count) := by
  rw [Demand.payload]
  split
  · exact h.violation (by decide)
  · refine h.exactly (Nat.succ_pos _) fun data => h.check ?_
    rw [payloadBody]
    split <;> simp

theorem Closed.items {item : Demand Reply} (hitem : P item) (acc : List Reply) (count : Nat) :
    P (items item acc count) := by
  induction count generalizing acc with
  | zero => exact h.ok _
  | succ count ih => exact h.bind hitem fun r => ih (r :: acc)

theorem Closed.behindLine {item? : Option (Demand Reply)} (hitem : ∀ item ∈ item?, P item)
    (data : Bytes) : P (behindLine item? data) := by
  cases data with
  | nil => exact h.violation (by decide)
  | cons marker body =>
    rw [Demand.behindLine]
    split
    · exact h.ok _
    · exact h.ok _
    · exact h.bind (h.check (announcedInteger_ne_closed body)) fun n => h.ok _
    · refine h.bind (h.check (announcedLength_ne_closed body)) fun n? => ?_
      cases n? with
      | none => exact h.ok _
      | some count => exact h.bind (h.payload count) fun data => h.ok _
    · refine h.bind (h.check (announcedLength_ne_closed body)) fun n? => ?_
      cases n? with
      | none => exact h.ok _
      | some count =>
        cases item? with
        | none => exact h.violation (by decide)
        | some item => exact h.bind (h.items (hitem item rfl) [] count) fun rs => h.ok _
    · exact h.violation (by decide)

theorem Closed.nested (levels : Nat) : P (nested levels) := by
  induction levels with
  | zero => exact h.bind h.lineOfReply (h.behindLine fun _ hitem => nomatch hitem)
  | succ levels ih =>
    refine h.bind h.lineOfReply (h.behindLine fun item hitem => ?_)
    cases hitem
    exact ih

theorem Closed.reply : P reply := h.nested maxDepth

end closed

end Demand

end SessionPool.Wire
