import SessionPool.Proofs.Pool.Usage

/-!
# Operations that stop at a fault of their own

The strict operations are those of the pool with every decrement guarded: where a counter would fall
below zero, or a branch is taken that is there only in case the books of the pool do not agree, a
strict operation gives nothing. On a pool that shows what it holds they all give what the operations
themselves give.
-/

namespace SessionPool.Strict

def guarded {α : Type} (c : Prop) [Decidable c] (a : α) : Option α := if c then some a else none

theorem guarded_eq {α : Type} {c : Prop} [Decidable c] (hc : c) (a : α) : guarded c a = some a :=
  if_pos hc

def unlink (l : IdleList) (slot : Nat) : Option (Option (IdleEntry × IdleList)) :=
  guarded (l.contains slot = true → 1 ≤ l.size) (l.unlink? slot)

def popFront (l : IdleList) : Option (Option (IdleEntry × IdleList)) :=
  match l.head with
  | some slot => unlink l slot
  | none => some none

def popBack (l : IdleList) : Option (Option (IdleEntry × IdleList)) :=
  match l.tail with
  | some slot => unlink l slot
  | none => some none

def pushFront (l : IdleList) (e : IdleEntry) : Option IdleList :=
  guarded (l.contains e.slot = true → 1 ≤ l.size) (l.pushFront e)

def takeBack (test : IdleEntry → Bool) (acc : List Nat) :
    (count : Nat) → IdleList → Option (List Nat × IdleList)
  | 0, l => some (acc.reverse, l)
  | count + 1, l =>
    match l.peekBack? with
    | none => some (acc.reverse, l)
    | some e =>
      if test e then do
        match ← popBack l with
        | some (e, l) => takeBack test (e.slot :: acc) count l
        | none => some (acc.reverse, l)
      else some (acc.reverse, l)

def takeFront (test : IdleEntry → Bool) (acc : List Nat) :
    (count : Nat) → IdleList → Option (Option IdleEntry × List Nat × IdleList)
  | 0, l => some (none, acc.reverse, l)
  | count + 1, l => do
    match ← popFront l with
    | none => some (none, acc.reverse, l)
    | some (e, l) =>
      if test e then takeFront test (e.slot :: acc) count l else some (some e, acc.reverse, l)

variable {κ : Type}

def release {α : Type} (a : Arena α) (slot : Nat) : Option (Option α × Arena α) :=
  match a.block slot with
  | .vacant => some (a.release slot)
  | _ => guarded (1 ≤ a.inUse) (a.release slot)

def destroy (slot : Nat) (p : Pool κ) : Option (List (Member κ) × Pool κ) := do
  let (parked, arena) ← release p.arena slot
  guarded (1 ≤ p.active) (parked.toList, { p with arena, active := p.active - 1 })

def destroyAll : List Nat → Pool κ → Option (List (Member κ) × Pool κ)
  | [], p => some ([], p)
  | slot :: slots, p => do
    let (first, p) ← destroy slot p
    let (others, p) ← destroyAll slots p
    some (first ++ others, p)

def scanIdle (now : Nat) (p : Pool κ) : Option (Option IdleEntry × List Nat × Pool κ) := do
  let (stale, idle) ← takeBack (Pool.timedOut p.options now) [] p.idle.size p.idle
  let (chosen, old, idle) ← takeFront (Pool.tooOld p.options now) [] idle.size idle
  let retired := stale ++ old
  let popped := retired.length + chosen.toList.length
  guarded (popped ≤ p.idleCount)
    (chosen, retired, { p with idle, idleCount := p.idleCount - popped })

def beginGet (now : Nat) (p : Pool κ) : Option (Outcome κ (Attempt κ)) :=
  if p.closed then some ⟨.refused (.poolClosed p.name), [], p⟩
  else do
    let (chosen, retired, p) ← scanIdle now p
    let (tornDown, p) ← destroyAll retired p
    match chosen with
    | none => some ⟨p.reserve.1, tornDown, p.reserve.2⟩
    | some e => do
      let (parked, arena) ← p.arena.take? e.slot
      some ⟨.reused ⟨e.slot, parked.id, e.createdAt, parked.session⟩, tornDown, { p with arena }⟩

def finishGet (slot : Nat) (handshake : Except Fault κ) (now : Nat) (p : Pool κ) :
    Option (Outcome κ (Except Fault (Leased κ))) :=
  match handshake with
  | .ok session => some (p.finishGet slot (.ok session) now)
  | .error cause => do
    let (tornDown, p) ← destroy slot p
    some ⟨.error (.handshake p.name cause), tornDown, { p with failures := p.failures + 1 }⟩

def enter (e : IdleEntry) (p : Pool κ) : Option (Pool κ) := do
  let idle ← pushFront p.idle e
  some { p with idle, idleCount := p.idleCount + 1 }

def evict (p : Pool κ) : Option (List (Member κ) × Pool κ) :=
  if p.options.idleLimit.any fun limit => limit < p.idle.size then do
    match ← popBack p.idle with
    | some (e, idle) => do
      let p ← guarded (1 ≤ p.idleCount) { p with idle, idleCount := p.idleCount - 1 }
      destroy e.slot p
    | none => some ([], p)
  else some ([], p)

def giveBack [Transport κ] (leased : Leased κ) (discarded : Bool) (now : Nat) (p : Pool κ) :
    Option (Outcome κ Unit) :=
  if p.keeps discarded leased.session then do
    let arena ← p.arena.park? leased.slot leased.member
    let p ← enter ⟨leased.slot, leased.createdAt, now⟩ { p with arena }
    let (tornDown, p) ← evict p
    some ⟨(), tornDown, p⟩
  else do
    let (tornDown, p) ← destroy leased.slot p
    some ⟨(), tornDown ++ [leased.member], p⟩

def close (p : Pool κ) : Option (Outcome κ Unit) :=
  if p.closed then some ⟨(), [], p⟩
  else do
    let (_, drained, idle) ← takeFront (fun _ => true) [] p.idle.size p.idle
    let p ← guarded (drained.length ≤ p.idleCount)
      { p with closed := true, idle, idleCount := p.idleCount - drained.length }
    let (tornDown, p) ← destroyAll drained p
    some ⟨(), tornDown, p⟩

def get (u : Usage κ) : Option (Usage κ) := (beginGet u.now u.pool).map fun done => u.begin done

def drop [Transport κ] (u : Usage κ) (i : Nat) : Option (Usage κ) :=
  match u.leases[i]? with
  | some l => (giveBack l.leased l.discarded u.now u.pool).map fun done => (u.giveUp i).take done
  | none => some u

def step [Transport κ] (u : Usage κ) : Usage.Action κ → Option (Usage κ)
  | .get => get u
  | .finish slot result =>
    if slot ∈ u.opening then
      (finishGet slot result u.now u.pool).map fun done => u.finish slot done
    else some u
  | .drop i => drop u i
  | .reassign i => (drop u i).bind get
  | .close => (close u.pool).map fun done => u.take done
  | .execute i c => some (u.step (.execute i c))
  | .discard i => some (u.step (.discard i))
  | .setClock now => some (u.step (.setClock now))

section list

variable {l : IdleList} {es : List IdleEntry}

theorem unlink_eq (h : l.Holds es) (slot : Nat) : unlink l slot = some (l.unlink? slot) := by
  refine guarded_eq (fun hc => ?_) _
  rw [h.size]
  have hs := (h.contains_iff slot).1 hc
  rw [← List.length_map IdleEntry.slot]
  exact List.length_pos_of_mem hs

theorem popFront_eq (h : l.Holds es) : popFront l = some l.popFront? := by
  rw [popFront, IdleList.popFront?]
  cases l.head with
  | none => rfl
  | some slot => exact unlink_eq h slot

theorem popBack_eq (h : l.Holds es) : popBack l = some l.popBack? := by
  rw [popBack, IdleList.popBack?]
  cases l.tail with
  | none => rfl
  | some slot => exact unlink_eq h slot

theorem pushFront_eq (h : l.Holds es) (e : IdleEntry) : pushFront l e = some (l.pushFront e) := by
  refine guarded_eq (fun hc => ?_) _
  rw [h.size, ← List.length_map IdleEntry.slot]
  exact List.length_pos_of_mem ((h.contains_iff e.slot).1 hc)

theorem takeBack_eq (h : l.Holds es) (test : IdleEntry → Bool) (acc : List Nat) (count : Nat) :
    takeBack test acc count l = some (l.takeBack test acc count) := by
  induction count generalizing l es acc with
  | zero => rfl
  | succ count ih =>
    rcases List.eq_nil_or_concat es with rfl | ⟨init, e, rfl⟩
    · simp only [takeBack, IdleList.takeBack, h.peekBack_nil]
    · rw [List.concat_eq_append] at h
      by_cases ht : test e = true
      · obtain ⟨l', hl', h'⟩ := h.popBack_concat
        simp only [takeBack, IdleList.takeBack, h.peekBack_concat, if_pos ht, popBack_eq h, hl']
        exact ih h' (e.slot :: acc)
      · simp only [takeBack, IdleList.takeBack, h.peekBack_concat, if_neg ht]

theorem takeFront_eq (h : l.Holds es) (test : IdleEntry → Bool) (acc : List Nat) (count : Nat) :
    takeFront test acc count l = some (l.takeFront test acc count) := by
  induction count generalizing l es acc with
  | zero => rfl
  | succ count ih =>
    cases es with
    | nil =>
      simp only [takeFront, IdleList.takeFront, popFront_eq h, h.popFront_nil]
      rfl
    | cons e es =>
      obtain ⟨l', hl', h'⟩ := h.popFront_cons
      simp only [takeFront, IdleList.takeFront, popFront_eq h, hl']
      by_cases ht : test e = true
      · rw [if_pos ht]
        simp only [Option.bind_eq_bind, Option.bind_some, if_pos ht]
        exact ih h' (e.slot :: acc)
      · rw [if_neg ht]
        simp only [Option.bind_eq_bind, Option.bind_some, if_neg ht]

end list

section pool

variable {p : Pool κ} {idle loose : List (Resting κ)} {reserved : List Nat}

theorem release_eq {α : Type} {a : Arena α} (h : 1 ≤ a.inUse) (slot : Nat) :
    release a slot = some (a.release slot) := by
  unfold release
  split
  · rfl
  · exact guarded_eq h _

theorem destroy_eq (h : p.Shows idle loose reserved) (hpos : 1 ≤ loose.length + reserved.length)
    (slot : Nat) : destroy slot p = some (p.destroy slot) := by
  have hin := h.keeps.inUse
  have hact := h.active
  rw [List.length_map, List.length_append] at hin
  rw [destroy, release_eq (by omega)]
  exact guarded_eq (by omega) _

theorem destroyAll_eq {retired : List (Resting κ)} (h : p.Shows idle (retired ++ loose) reserved) :
    destroyAll (retired.map Resting.slot) p = some (p.destroyAll (retired.map Resting.slot)) := by
  induction retired generalizing p with
  | nil => rfl
  | cons x retired ih =>
    have hd := destroy_eq h (by simp; omega) x.slot
    obtain ⟨p₁, hp₁, h₁, -⟩ := h.destroy_loose
    rw [hp₁] at hd
    simp only [List.map_cons, destroyAll, Pool.destroyAll, hd, hp₁, Option.bind_eq_bind,
      Option.bind_some, ih h₁]

theorem scanIdle_eq (h : p.Shows idle [] reserved) (now : Nat) :
    scanIdle now p = some (p.scanIdle now) := by
  obtain ⟨l₁, hl₁, h₁⟩ := Pool.takeBack_resting h.listed (Pool.timedOut p.options now)
  obtain ⟨l₂, hl₂, h₂⟩ := Pool.takeFront_resting h₁ (Pool.tooOld p.options now)
  have hback := takeBack_eq h.listed (Pool.timedOut p.options now) [] p.idle.size
  have hfront := takeFront_eq h₁ (Pool.tooOld p.options now) [] l₁.size
  rw [hl₁] at hback
  rw [hl₂] at hfront
  simp only [scanIdle, Pool.scanIdle, hback, hfront, hl₁, hl₂, Option.bind_eq_bind,
    Option.bind_some]
  refine guarded_eq ?_ _
  have hlen := (Pool.retired_append_usable_perm p.options now idle).length_eq
  rw [h.idleCount, ← hlen, Pool.retired, Pool.usable]
  simp only [List.length_append, List.length_map, Option.toList_map]
  refine Nat.add_le_add_left ?_ _
  change ((idle.rdropWhile (Pool.stale p.options now)).dropWhile
    (Pool.aged p.options now)).head?.toList.length ≤ _
  cases (idle.rdropWhile (Pool.stale p.options now)).dropWhile (Pool.aged p.options now) <;> simp

theorem beginGet_eq (h : p.Shows idle [] reserved) (now : Nat) :
    beginGet now p = some (p.beginGet now) := by
  cases ho : p.closed with
  | true => rw [beginGet, Pool.beginGet, if_pos ho, if_pos ho]
  | false =>
    obtain ⟨p₁, hscan, -, h₁⟩ := h.scanIdle now
    obtain ⟨p₂, hdestroy, h₂, -⟩ := h₁.destroyAll
    have hscan' := scanIdle_eq h now
    have hdestroy' := destroyAll_eq h₁
    rw [hscan] at hscan'
    rw [hdestroy] at hdestroy'
    simp only [beginGet, Pool.beginGet, ho, Bool.false_eq_true, if_false, hscan, hscan', hdestroy,
      hdestroy', Option.bind_eq_bind, Option.bind_some]
    cases hu : (Pool.usable p.options now idle).head? with
    | none => rfl
    | some x =>
      rw [hu] at h₂
      obtain ⟨arena, ha, -⟩ := h₂.keeps_loose.take
      have hslot : p₂.arena.take? x.entry.slot = some (x.member, arena) := ha
      simp only [Option.map_some, hslot, Option.bind_some]

theorem finishGet_eq {slot : Nat} (h : p.Shows idle [] (slot :: reserved))
    (handshake : Except Fault κ) (now : Nat) :
    finishGet slot handshake now p = some (p.finishGet slot handshake now) := by
  cases handshake with
  | ok session => rfl
  | error cause =>
    simp only [finishGet, Pool.finishGet, destroy_eq h (by simp) slot, Option.bind_eq_bind,
      Option.bind_some]

theorem evict_eq (h : p.Shows idle [] reserved) : evict p = some p.evict := by
  rw [evict, Pool.evict]
  split
  · rcases List.eq_nil_or_concat idle with rfl | ⟨init, x, rfl⟩
    · simp only [popBack_eq h.listed, h.listed.popBack_nil, Option.bind_eq_bind, Option.bind_some]
    · rw [List.concat_eq_append] at h
      obtain ⟨l', hpop, h₁⟩ := h.pop_last
      have hcount : 1 ≤ p.idleCount := by rw [h.idleCount]; simp
      simp only [popBack_eq h.listed, hpop, guarded_eq hcount, Option.bind_eq_bind,
        Option.bind_some]
      exact destroy_eq h₁ (by simp) x.slot
  · rfl

theorem giveBack_eq [Transport κ] {l : Leased κ} (h : p.Shows idle [] (l.slot :: reserved))
    (discarded : Bool) (now : Nat) :
    giveBack l discarded now p = some (p.giveBack l discarded now) := by
  cases hk : p.keeps discarded l.session with
  | false =>
    simp only [giveBack, Pool.giveBack, hk, Bool.false_eq_true, if_false,
      destroy_eq h (by simp) l.slot, Option.bind_eq_bind, Option.bind_some]
  | true =>
    obtain ⟨arena, ha, h₁⟩ := h.enter now
    have he : enter ⟨l.slot, l.createdAt, now⟩ { p with arena } =
        some ({ p with arena }.enter ⟨l.slot, l.createdAt, now⟩) := by
      simp only [enter, pushFront_eq h.listed, Option.bind_eq_bind, Option.bind_some]
      rfl
    simp only [giveBack, Pool.giveBack, hk, if_true, ha, he, evict_eq h₁, Option.bind_eq_bind,
      Option.bind_some]

theorem close_eq (h : p.Shows idle [] reserved) : close p = some p.close := by
  cases ho : p.closed with
  | true => rw [close, Pool.close, if_pos ho, if_pos ho]
  | false =>
    obtain ⟨l', hl', h₁⟩ := h.drain
    have htake := takeFront_eq h.listed (fun _ => true) [] p.idle.size
    rw [hl'] at htake
    have hcount : (idle.map Resting.slot).length ≤ p.idleCount := by
      rw [h.idleCount, List.length_map]
    rw [← List.length_map Resting.slot] at h₁
    simp only [close, Pool.close, ho, Bool.false_eq_true, if_false, htake, hl', guarded_eq hcount,
      destroyAll_eq h₁, Option.bind_eq_bind, Option.bind_some]

end pool

variable {u : Usage κ}

theorem get_eq [Transport κ] (h : u.Owned) : get u = some (u.step .get) := by
  rw [get, beginGet_eq h]
  rfl

theorem drop_eq [Transport κ] (h : u.Owned) (i : Nat) : drop u i = some (u.step (.drop i)) := by
  cases hl : u.leases[i]? with
  | none => simp only [drop, Usage.step, hl]
  | some l =>
    simp only [drop, Usage.step, hl]
    rw [giveBack_eq (h.perm (.refl _) (Usage.taken_perm_of_lease hl))]
    rfl

/-- No decrement falls short and no branch for disagreeing books is taken. -/
theorem step_eq [Transport κ] (h : u.Owned) (a : Usage.Action κ) : step u a = some (u.step a) := by
  cases a with
  | get => exact get_eq h
  | finish slot result =>
    by_cases hs : slot ∈ u.opening
    · simp only [step, Usage.step, if_pos hs]
      rw [finishGet_eq (h.perm (.refl _) (Usage.taken_perm_of_opening hs))]
      rfl
    · simp only [step, Usage.step, if_neg hs]
  | execute i c => rfl
  | discard i => rfl
  | drop i => exact drop_eq h i
  | reassign i =>
    rw [Usage.step_reassign, step, drop_eq h i, Option.bind_some, get_eq (h.step _)]
  | close =>
    rw [step, close_eq h]
    rfl
  | setClock now => rfl

end SessionPool.Strict
