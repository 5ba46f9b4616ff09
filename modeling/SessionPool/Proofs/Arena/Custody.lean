import Mathlib.Data.List.Induction
import SessionPool.Proofs.Arena.Blocks

/-!
# Who has the blocks of an arena

Slots are plain numbers, so anybody may use an arena with any of them. Its history alone tells which
slots are handed out, which value lies in each, and which slots wait to be handed out again and in
which order; and an arena that began empty agrees with its history, however it was used. So no block
is handed out twice or lost, and every parked value comes back at most once.
-/

namespace SessionPool

namespace Block

variable {α : Type}

def isVacant : Block α → Bool
  | vacant => true
  | _ => false

def value? : Block α → Option α
  | parked value => some value
  | _ => none

theorem isVacant_iff {b : Block α} : b.isVacant = true ↔ b = .vacant := by
  cases b <;> simp [isVacant]

end Block

namespace Arena

variable {α : Type}

inductive Use (α : Type)
  | acquire
  | park (slot : Nat) (value : α)
  | take (slot : Nat)
  | release (slot : Nat)

inductive Event (α : Type)
  | acquired (slot : Nat)
  | exhausted
  | parked (slot : Nat) (value : α)
  | refused (slot : Nat) (value : α)
  | taken (slot : Nat) (value : Option α)
  | released (slot : Nat) (value : Option α)
  deriving DecidableEq

def use (a : Arena α) : Use α → Event α × Arena α
  | .acquire =>
    match a.acquire? with
    | some (slot, a) => (.acquired slot, a)
    | none => (.exhausted, a)
  | .park slot value =>
    match a.park? slot value with
    | some a => (.parked slot value, a)
    | none => (.refused slot value, a)
  | .take slot =>
    match a.take? slot with
    | some (value, a) => (.taken slot (some value), a)
    | none => (.taken slot none, a)
  | .release slot =>
    let (value, a) := a.release slot
    (.released slot value, a)

def fresh : Option Nat → Arena α
  | some n => bounded n
  | none => empty

def run (a : Arena α) (us : List (Use α)) : List (Event α) × Arena α :=
  us.foldl (fun s u => ((s.2.use u).1 :: s.1, (s.2.use u).2)) ([], a)

/-! ## What a history tells -/

def handedOut (slot : Nat) : List (Event α) → Bool
  | [] => false
  | .acquired s :: past => s == slot || handedOut slot past
  | .released s _ :: past => s != slot && handedOut slot past
  | _ :: past => handedOut slot past

def stored? (slot : Nat) : List (Event α) → Option α
  | [] => none
  | .parked s value :: past => if s = slot then some value else stored? slot past
  | .taken s _ :: past | .released s _ :: past => if s = slot then none else stored? slot past
  | _ :: past => stored? slot past

/-- The slots that came back and were not handed out since, the one that came back last first. -/
def returned : List (Event α) → List Nat
  | [] => []
  | .acquired s :: past => (returned past).erase s
  | .released s _ :: past => if handedOut s past then s :: returned past else returned past
  | _ :: past => returned past

def Event.parked? : Event α → Option α
  | parked _ value => some value
  | _ => none

def Event.handedBack? : Event α → Option α
  | taken _ value => value
  | released _ value => value
  | _ => none

/-! ## One use -/

variable {a : Arena α} {past : List (Event α)}

theorem acquire?_of_free {s : Nat} {free : List Nat} (hfree : a.free = s :: free) :
    a.acquire? = some (s, { a.setBlock s .reserved with free, inUse := a.inUse + 1 }) := by
  simp only [acquire?, hfree]

theorem acquire?_of_room (hfree : a.free = []) (hroom : a.isFull = false) :
    a.acquire? = some (a.capacity,
      { a with blocks := a.blocks.push .reserved, inUse := a.inUse + 1 }) := by
  simp only [acquire?, hfree, hroom]
  rfl

theorem acquire?_of_full (hfree : a.free = []) (hfull : a.isFull = true) : a.acquire? = none := by
  simp only [acquire?, hfree, hfull, if_true]

theorem exists_others (a : Arena α) {s : Nat} (hs : s < a.capacity) : ∃ others : List α,
    a.parkedValues.Perm ((a.block s).value?.toList ++ others) ∧
      ∀ b, (a.setBlock s b).parkedValues.Perm (b.value?.toList ++ others) := by
  have hvalues : ∀ a : Arena α, a.parkedValues = a.blocks.toList.filterMap Block.value? :=
    fun a => rfl
  have hcons : ∀ (b : Block α) (bs : List (Block α)),
      (b :: bs).filterMap Block.value? = b.value?.toList ++ bs.filterMap Block.value? := by
    intro b bs
    cases b <;> rfl
  have hlen : s < a.blocks.toList.length := hs
  have hblock : a.block s = a.blocks.toList[s] := by
    rw [Array.getElem_toList, block, Array.getElem?_eq_getElem hs]
    rfl
  refine ⟨(a.blocks.toList.eraseIdx s).filterMap Block.value?, ?_, fun b => ?_⟩
  · rw [hvalues, hblock, ← hcons]
    exact (List.getElem_cons_eraseIdx_perm hlen).symm.filterMap _
  · rw [hvalues, setBlock, Array.toList_setIfInBounds, ← hcons]
    exact (List.set_perm_cons_eraseIdx hlen b).filterMap _

/-- The history agrees with the arena. -/
structure Tells (past : List (Event α)) (a : Arena α) : Prop where
  sound : a.Sound
  bounded : ∀ n, a.bound = some n → a.capacity ≤ n
  handedOut : ∀ s, handedOut s past = !(a.block s).isVacant
  stored : ∀ s, stored? s past = (a.block s).value?
  returned : returned past = a.free
  values : (past.filterMap Event.parked?).Perm (past.filterMap Event.handedBack? ++ a.parkedValues)

theorem tells_fresh (bound : Option Nat) : Tells [] (fresh bound : Arena α) := by
  have hfresh : (fresh bound : Arena α) = ⟨#[], [], 0, bound⟩ := by cases bound <;> rfl
  rw [hfresh]
  refine ⟨sound_fresh bound, fun n _ => Nat.zero_le n, fun s => ?_, fun s => ?_, rfl, .refl _⟩
  · simp [Arena.handedOut, block, Block.isVacant]
  · simp [stored?, block, Block.value?]

theorem Tells.block_ne_vacant_iff (h : Tells past a) (s : Nat) :
    a.block s ≠ .vacant ↔ Arena.handedOut s past = true := by
  rw [h.handedOut, Bool.not_eq_true', ← Bool.not_eq_true, Block.isVacant_iff]

theorem Tells.block_eq_parked_iff (h : Tells past a) (s : Nat) (value : α) :
    a.block s = .parked value ↔ stored? s past = some value := by
  rw [h.stored]
  cases a.block s <;> simp [Block.value?]

theorem Tells.moved {a' : Arena α} (h : Tells past a) (e : Event α) {others : List α}
    (hold : a.parkedValues.Perm (e.handedBack?.toList ++ others))
    (hnew : a'.parkedValues.Perm (e.parked?.toList ++ others)) :
    ((e :: past).filterMap Event.parked?).Perm
      ((e :: past).filterMap Event.handedBack? ++ a'.parkedValues) := by
  have hcons : ∀ f : Event α → Option α,
      (e :: past).filterMap f = (f e).toList ++ past.filterMap f := by
    intro f
    cases hf : f e <;> simp [hf]
  have hparted := (h.values.trans (hold.append_left _)).append_left e.parked?.toList
  rw [hcons, hcons]
  refine hparted.trans ?_
  rw [← List.append_assoc (past.filterMap Event.handedBack?)]
  exact (List.perm_append_comm_assoc ..).trans (List.perm_append_comm.append hnew.symm)

theorem Tells.next {a' : Arena α} {s : Nat} {b : Block α} {others : List α} (h : Tells past a)
    (e : Event α) (sound : a'.Sound) (bounded : ∀ n, a'.bound = some n → a'.capacity ≤ n)
    (hblock : ∀ t, a'.block t = if s = t then b else a.block t)
    (hout : ∀ t, Arena.handedOut t (e :: past) =
      if s = t then !b.isVacant else Arena.handedOut t past)
    (hstored : ∀ t, stored? t (e :: past) = if s = t then b.value? else stored? t past)
    (hreturned : Arena.returned (e :: past) = a'.free)
    (hold : a.parkedValues.Perm (e.handedBack?.toList ++ others))
    (hnew : a'.parkedValues.Perm (e.parked?.toList ++ others)) : Tells (e :: past) a' where
  sound := sound
  bounded := bounded
  handedOut t := by
    rw [hout, hblock, h.handedOut]
    split <;> rfl
  stored t := by
    rw [hstored, hblock, h.stored]
    split <;> rfl
  returned := hreturned
  values := h.moved e hold hnew

theorem Tells.bounded_setBlock (h : Tells past a) (s : Nat) (b : Block α) (n : Nat)
    (hn : (a.setBlock s b).bound = some n) : (a.setBlock s b).capacity ≤ n := by
  rw [capacity, size_blocks_setBlock]
  exact h.bounded n hn

theorem Tells.acquired {a' : Arena α} {s : Nat} (h : Tells past a) (ht : a.Taken a' s)
    (hbounded : ∀ n, a'.bound = some n → a'.capacity ≤ n) (hfree : a'.free = a.free.erase s)
    (hvalues : a'.parkedValues.Perm a.parkedValues) : Tells (.acquired s :: past) a' := by
  refine h.next (.acquired s) ht.sound hbounded ht.block (fun t => ?_) (fun t => ?_) ?_ (.refl _)
    hvalues
  · by_cases hst : s = t <;> simp [Arena.handedOut, hst, Block.isVacant]
  · have hnone : stored? s past = none := by rw [h.stored, ht.vacant]; rfl
    by_cases hst : s = t
    · subst hst
      simpa [stored?, Block.value?] using hnone
    · simp [stored?, hst]
  · rw [Arena.returned, h.returned, hfree]

theorem Tells.acquire (h : Tells past a) :
    Tells ((a.use .acquire).1 :: past) (a.use .acquire).2 := by
  cases hfree : a.free with
  | cons s free =>
    have ht := h.sound.reuse hfree
    obtain ⟨others, hold, hnew⟩ := a.exists_others ((h.sound.mem_free s).1 (by simp [hfree])).1
    rw [ht.vacant] at hold
    rw [use, acquire?_of_free hfree]
    refine h.acquired ht (h.bounded_setBlock s .reserved) ?_ ((hnew .reserved).trans hold.symm)
    rw [hfree, List.erase_cons_head]
  | nil =>
    cases hfull : a.isFull with
    | false =>
      rw [use, acquire?_of_room hfree hfull]
      refine h.acquired (h.sound.grow hfree) (fun n hn => ?_) ?_ ?_
      · have hn : a.bound = some n := hn
        rw [isFull, hn, decide_eq_false_iff_not, Nat.not_le] at hfull
        change (a.blocks.push .reserved).size ≤ n
        rw [Array.size_push]
        exact hfull
      · rw [hfree]
        rfl
      · rw [parkedValues, Array.toList_push, List.filterMap_append]
        simp [parkedValues]
    | true =>
      rw [use, acquire?_of_full hfree hfull]
      exact ⟨h.sound, h.bounded, h.handedOut, h.stored, h.returned, h.values⟩

theorem Tells.written {s : Nat} {b : Block α} (h : Tells past a) (e : Event α)
    (hs : a.block s ≠ .vacant) (hb : b ≠ .vacant)
    (hout : ∀ t, Arena.handedOut t (e :: past) = Arena.handedOut t past)
    (hstored : ∀ t, stored? t (e :: past) = if s = t then b.value? else stored? t past)
    (hreturned : Arena.returned (e :: past) = Arena.returned past)
    (hback : e.handedBack? = (a.block s).value?) (hparked : e.parked? = b.value?) :
    Tells (e :: past) (a.setBlock s b) := by
  have hlt := lt_capacity_of_block_ne_vacant hs
  obtain ⟨others, hold, hnew⟩ := a.exists_others hlt
  refine h.next e (h.sound.setBlock hs hb) (h.bounded_setBlock s b)
    (fun t => block_setBlock a s t b hlt) (fun t => ?_) hstored (hreturned.trans h.returned)
    (hback ▸ hold) (hparked ▸ hnew b)
  rw [hout]
  split
  · next hst =>
    subst hst
    rw [(h.block_ne_vacant_iff s).1 hs, eq_comm, Bool.not_eq_true', ← Bool.not_eq_true,
      Block.isVacant_iff]
    exact hb
  · rfl

theorem Tells.park (h : Tells past a) (s : Nat) (value : α) :
    Tells ((a.use (.park s value)).1 :: past) (a.use (.park s value)).2 := by
  cases hb : a.block s with
  | vacant | parked =>
    simp only [use, park?, hb]
    exact ⟨h.sound, h.bounded, h.handedOut, h.stored, h.returned, h.values⟩
  | reserved =>
    simp only [use, park?, hb]
    refine h.written (.parked s value) ?_ ?_ (fun _ => rfl) (fun _ => rfl) rfl ?_ rfl
    · simp [hb]
    · simp
    · rw [hb]
      rfl

theorem Tells.take (h : Tells past a) (s : Nat) :
    Tells ((a.use (.take s)).1 :: past) (a.use (.take s)).2 := by
  have hkept : (a.block s).value? = none → Tells (.taken s none :: past) a := by
    intro hnone
    refine ⟨h.sound, h.bounded, h.handedOut, fun t => ?_, h.returned, h.values⟩
    rw [stored?]
    split
    · next hst => rw [← hst, hnone]
    · exact h.stored t
  cases hb : a.block s with
  | vacant | reserved =>
    simp only [use, take?, hb]
    refine hkept ?_
    rw [hb]
    rfl
  | parked value =>
    simp only [use, take?, hb]
    refine h.written (.taken s (some value)) ?_ ?_ (fun _ => rfl) (fun _ => rfl) rfl ?_ rfl
    · simp [hb]
    · simp
    · rw [hb]
      rfl

theorem Tells.vacated (h : Tells past a) {s : Nat} (hs : a.block s ≠ .vacant) :
    Tells (.released s (a.block s).value? :: past) (a.vacate s) := by
  have hlt := lt_capacity_of_block_ne_vacant hs
  obtain ⟨others, hold, hnew⟩ := a.exists_others hlt
  refine h.next (.released s (a.block s).value?) (h.sound.vacate hs) (h.bounded_setBlock s .vacant)
    (block_vacate a hlt) (fun t => ?_) (fun t => rfl) ?_ hold (hnew .vacant)
  · by_cases hst : s = t <;> simp [Arena.handedOut, hst, Block.isVacant]
  · rw [Arena.returned, if_pos ((h.block_ne_vacant_iff s).1 hs), h.returned]
    rfl

theorem Tells.release (h : Tells past a) (s : Nat) :
    Tells ((a.use (.release s)).1 :: past) (a.use (.release s)).2 := by
  cases hb : a.block s with
  | vacant =>
    have hout : Arena.handedOut s past = false := by rw [h.handedOut, hb]; rfl
    have hnone : stored? s past = none := by rw [h.stored, hb]; rfl
    simp only [use, Arena.release, hb]
    refine ⟨h.sound, h.bounded, fun t => ?_, fun t => ?_, ?_, h.values⟩
    · rw [Arena.handedOut, ← h.handedOut]
      by_cases hst : s = t
      · subst hst
        simp [hout]
      · simp [hst]
    · rw [stored?, ← h.stored]
      split
      · next hst => rw [← hst, hnone]
      · rfl
    · rw [Arena.returned, hout]
      exact h.returned
  | reserved | parked =>
    have hv := h.vacated (s := s) (by simp [hb])
    rw [hb] at hv
    simp only [use, Arena.release, hb]
    exact hv

theorem Tells.use (h : Tells past a) (u : Use α) : Tells ((a.use u).1 :: past) (a.use u).2 := by
  cases u with
  | acquire => exact h.acquire
  | park s value => exact h.park s value
  | take s => exact h.take s
  | release s => exact h.release s

theorem bound_use (a : Arena α) (u : Use α) : (a.use u).2.bound = a.bound := by
  cases u with
  | acquire =>
    cases hfree : a.free with
    | cons s free =>
      rw [Arena.use, acquire?_of_free hfree]
      rfl
    | nil =>
      cases hfull : a.isFull with
      | false => rw [Arena.use, acquire?_of_room hfree hfull]
      | true => rw [Arena.use, acquire?_of_full hfree hfull]
  | park s value =>
    simp only [Arena.use, park?]
    cases a.block s <;> rfl
  | take s =>
    simp only [Arena.use, take?]
    cases a.block s <;> rfl
  | release s =>
    simp only [Arena.use, Arena.release]
    cases a.block s <;> rfl

theorem Tells.run (h : Tells [] a) (us : List (Use α)) :
    Tells (a.run us).1 (a.run us).2 ∧ (a.run us).2.bound = a.bound := by
  induction us using List.reverseRecOn with
  | nil => exact ⟨h, rfl⟩
  | append_singleton us u ih =>
    rw [Arena.run, List.foldl_append]
    exact ⟨ih.1.use u, (bound_use _ u).trans ih.2⟩

/-! ## The law -/

/-- What is found in an arena with some history: who has which block and value, and what each use
would come to. -/
structure Custody (bound : Option Nat) (past : List (Event α)) (a : Arena α) : Prop where
  free : a.free.Nodup ∧ ∀ s, s ∈ a.free ↔ s < a.capacity ∧ a.block s = .vacant
  size : a.size = a.blocks.toList.countP (fun b => !b.isVacant) ∧
    a.size + a.free.length = a.capacity ∧ ∀ n, bound = some n → a.capacity ≤ n
  inUse : ∀ s, a.block s ≠ .vacant ↔ handedOut s past = true
  holds : ∀ s value, a.block s = .parked value ↔ stored? s past = some value
  values : (past.filterMap Event.parked?).Perm
    (past.filterMap Event.handedBack? ++ a.parkedValues)
  acquired : ∀ s, (a.use .acquire).1 = .acquired s → handedOut s past = false ∧
    ∀ t, (a.use .acquire).2.block t = if s = t then .reserved else a.block t
  recycles : ∀ s rest, returned past = s :: rest → (a.use .acquire).1 = .acquired s
  grows : returned past = [] → bound ≠ some a.capacity → (a.use .acquire).1 = .acquired a.capacity
  exhausted : returned past = [] → bound = some a.capacity → a.use .acquire = (.exhausted, a)
  parks : ∀ s value, handedOut s past = true → stored? s past = none →
    a.use (.park s value) = (.parked s value, a.setBlock s (.parked value))
  refuses : ∀ s value, handedOut s past = false ∨ stored? s past ≠ none →
    a.use (.park s value) = (.refused s value, a)
  takes : ∀ s value, stored? s past = some value →
    a.use (.take s) = (.taken s (some value), a.setBlock s .reserved)
  takesNothing : ∀ s, stored? s past = none → a.use (.take s) = (.taken s none, a)
  releases : ∀ s, handedOut s past = true →
    a.use (.release s) = (.released s (stored? s past), a.vacate s)
  releasesNothing : ∀ s, handedOut s past = false →
    a.use (.release s) = (.released s none, a)

theorem toList_blocks (a : Arena α) : a.blocks.toList = (List.range a.capacity).map a.block := by
  refine List.ext_getElem (by simp [capacity]) fun i hi _ => ?_
  have hlt : i < a.blocks.size := hi
  simp [block, hlt]

theorem Sound.size_eq (h : a.Sound) : a.size = a.blocks.toList.countP fun b => !b.isVacant := by
  have hfree : a.free.length = (List.range a.capacity).countP fun s => (a.block s).isVacant := by
    rw [List.countP_eq_length_filter]
    refine List.Perm.length_eq ((List.perm_ext_iff_of_nodup h.free_nodup ?_).2 fun s => ?_)
    · exact List.nodup_range.filter _
    · rw [h.mem_free, List.mem_filter, List.mem_range, Block.isVacant_iff]
  have hall := List.length_eq_countP_add_countP (l := List.range a.capacity)
    fun s => (a.block s).isVacant
  have hsum := h.inUse
  rw [toList_blocks, List.countP_map]
  rw [List.length_range] at hall
  simp only [Function.comp_def, size]
  simp only [Bool.not_eq_true, Bool.decide_eq_false] at hall
  omega

theorem Tells.isFull_iff (h : Tells past a) : a.isFull = true ↔ a.bound = some a.capacity := by
  rw [isFull]
  cases hn : a.bound with
  | none => simp
  | some n =>
    have hle := h.bounded n hn
    rw [decide_eq_true_eq, Option.some_inj]
    exact ⟨fun hge => Nat.le_antisymm hge hle, Nat.le_of_eq⟩

theorem Sound.use_acquire (h : a.Sound) {s : Nat} (hs : (a.use .acquire).1 = .acquired s) :
    a.Taken (a.use .acquire).2 s := by
  rw [Arena.use] at hs ⊢
  cases hq : a.acquire? with
  | none =>
    rw [hq] at hs
    cases hs
  | some got =>
    obtain ⟨slot, a'⟩ := got
    rw [hq] at hs
    cases hs
    exact h.acquire hq

theorem Tells.custody (h : Tells past a) : Custody a.bound past a := by
  have hvacant : ∀ s, Arena.handedOut s past = false ↔ a.block s = .vacant := fun s => by
    rw [← Bool.not_eq_true, ← h.block_ne_vacant_iff, not_not]
  have hnot : ∀ s, stored? s past = none → ∀ value, a.block s ≠ .parked value := by
    intro s hnone value hb
    rw [h.block_eq_parked_iff, hnone] at hb
    cases hb
  exact
    { free := ⟨h.sound.free_nodup, h.sound.mem_free⟩
      size := ⟨h.sound.size_eq, h.sound.inUse, h.bounded⟩
      inUse := h.block_ne_vacant_iff
      holds := h.block_eq_parked_iff
      values := h.values
      acquired := fun s hs => by
        have ht := h.sound.use_acquire hs
        exact ⟨(hvacant s).2 ht.vacant, ht.block⟩
      recycles := fun s rest hs => by
        rw [h.returned] at hs
        rw [Arena.use, acquire?_of_free hs]
      grows := fun hnil hbound => by
        rw [h.returned] at hnil
        have hroom : a.isFull = false := by
          rw [← Bool.not_eq_true, h.isFull_iff]
          exact hbound
        rw [Arena.use, acquire?_of_room hnil hroom]
      exhausted := fun hnil hbound => by
        rw [h.returned] at hnil
        rw [Arena.use, acquire?_of_full hnil (h.isFull_iff.2 hbound)]
      parks := fun s value hout hnone => by
        have hne := (h.block_ne_vacant_iff s).2 hout
        cases hb : a.block s with
        | vacant => exact absurd hb hne
        | reserved => simp only [Arena.use, park?, hb]
        | parked v => exact absurd hb (hnot s hnone v)
      refuses := fun s value hs => by
        cases hb : a.block s with
        | vacant | parked => simp only [Arena.use, park?, hb]
        | reserved =>
          rw [h.stored, hb, hvacant, hb] at hs
          simp [Block.value?] at hs
      takes := fun s value hs => by
        rw [← h.block_eq_parked_iff] at hs
        simp only [Arena.use, take?, hs]
      takesNothing := fun s hnone => by
        cases hb : a.block s with
        | vacant | reserved => simp only [Arena.use, take?, hb]
        | parked v => exact absurd hb (hnot s hnone v)
      releases := fun s hout => by
        have hne := (h.block_ne_vacant_iff s).2 hout
        rw [h.stored]
        cases hb : a.block s with
        | vacant => exact absurd hb hne
        | reserved | parked => simp only [Arena.use, Arena.release, hb, Block.value?]
      releasesNothing := fun s hout => by
        rw [hvacant] at hout
        simp only [Arena.use, Arena.release, hout] }

/-- Whatever slots are used, an arena that began empty does what its history tells. -/
theorem run_custody (bound : Option Nat) (us : List (Use α)) :
    Custody bound ((fresh bound : Arena α).run us).1 ((fresh bound : Arena α).run us).2 := by
  obtain ⟨h, hbound⟩ := (tells_fresh bound).run us
  have hfresh : (fresh bound : Arena α).bound = bound := by cases bound <;> rfl
  rw [hfresh] at hbound
  have hc := h.custody
  rwa [hbound] at hc

/-- A slot that was released twice is handed out once, and a value that was parked comes back once.
-/
example :
    ((bounded 2 : Arena Nat).run [.acquire, .acquire, .release 0, .release 0, .release 7, .acquire,
      .park 0 5, .park 0 6, .take 1, .release 0, .take 0, .acquire, .acquire]).1.reverse =
    [.acquired 0, .acquired 1, .released 0 none, .released 0 none, .released 7 none, .acquired 0,
      .parked 0 5, .refused 0 6, .taken 1 none, .released 0 (some 5), .taken 0 none, .acquired 0,
      .exhausted] := by
  decide +kernel

end Arena

end SessionPool
