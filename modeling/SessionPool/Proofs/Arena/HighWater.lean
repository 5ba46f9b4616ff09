import Mathlib.Order.Bounds.Basic
import SessionPool.Proofs.Arena.Custody

/-!
# How many blocks an arena makes

A new block is made only where every other one is in use. So the blocks there are, used or not, are
as many as were in use at the busiest time so far.
-/

namespace SessionPool.Arena

variable {α : Type} {a : Arena α} {past : List (Event α)}

theorem Sound.size_le (h : a.Sound) : a.size ≤ a.capacity := by
  have hsum := h.inUse
  simp only [size]
  omega

theorem capacity_release (a : Arena α) (s : Nat) : (a.release s).2.capacity = a.capacity := by
  rw [release]
  cases a.block s with
  | vacant => rfl
  | reserved | parked value => exact size_blocks_setBlock a s .vacant

theorem capacity_take? {a' : Arena α} {s : Nat} {value : α} (h : a.take? s = some (value, a')) :
    a'.capacity = a.capacity := by
  rw [take?] at h
  cases hb : a.block s with
  | vacant | reserved =>
    rw [hb] at h
    cases h
  | parked v =>
    rw [hb] at h
    cases h
    exact size_blocks_setBlock a s .reserved

theorem capacity_park? {a' : Arena α} {s : Nat} {value : α} (h : a.park? s value = some a') :
    a'.capacity = a.capacity := by
  rw [park?] at h
  cases hb : a.block s with
  | vacant | parked v =>
    rw [hb] at h
    cases h
  | reserved =>
    rw [hb] at h
    cases h
    exact size_blocks_setBlock a s (.parked value)

/-- No block was made, unless now every block is in use. -/
def Extends (a a' : Arena α) : Prop :=
  a'.capacity = a.capacity ∨ a.capacity ≤ a'.capacity ∧ a'.free = []

theorem extends_acquire? {a' : Arena α} {s : Nat} (h : a.acquire? = some (s, a')) :
    a.Extends a' := by
  cases hfree : a.free with
  | cons t free =>
    rw [acquire?_of_free hfree] at h
    cases h
    exact .inl (size_blocks_setBlock a s .reserved)
  | nil =>
    cases hfull : a.isFull with
    | true =>
      rw [acquire?_of_full hfree hfull] at h
      cases h
    | false =>
      rw [acquire?_of_room hfree hfull] at h
      cases h
      refine .inr ⟨?_, hfree⟩
      simp [capacity]

theorem extends_use (a : Arena α) (u : Use α) : a.Extends (a.use u).2 := by
  cases u with
  | acquire =>
    rw [use]
    cases h : a.acquire? with
    | none => exact .inl rfl
    | some got => exact extends_acquire? h
  | park s value =>
    rw [use]
    cases h : a.park? s value with
    | none => exact .inl rfl
    | some a' => exact .inl (capacity_park? h)
  | take s =>
    rw [use]
    cases h : a.take? s with
    | none => exact .inl rfl
    | some got => exact .inl (capacity_take? h)
  | release s => exact .inl (capacity_release a s)

theorem Extends.le {a' : Arena α} (h : a.Extends a') : a.capacity ≤ a'.capacity := by
  obtain h | h := h
  · exact h.ge
  · exact h.1

theorem Extends.capacity_eq {a' : Arena α} (h : a.Extends a') (hs : a'.Sound) :
    a'.capacity = a.capacity ∨ a'.capacity = a'.size := by
  obtain h | h := h
  · exact .inl h
  · have hsum := hs.inUse
    rw [h.2] at hsum
    exact .inr hsum.symm

theorem run_concat (a : Arena α) (us : List (Use α)) (u : Use α) :
    a.run (us ++ [u]) = (((a.run us).2.use u).1 :: (a.run us).1, ((a.run us).2.use u).2) := by
  rw [run, List.foldl_append]
  rfl

theorem capacity_le_run (a : Arena α) (us vs : List (Use α)) :
    (a.run us).2.capacity ≤ (a.run (us ++ vs)).2.capacity := by
  induction vs using List.reverseRecOn with
  | nil => rw [List.append_nil]
  | append_singleton vs v ih =>
    rw [← List.append_assoc, run_concat]
    exact ih.trans (extends_use _ v).le

theorem isGreatest_capacity (bound : Option Nat) (us : List (Use α)) :
    IsGreatest {n | ∃ vs, vs <+: us ∧ ((fresh bound : Arena α).run vs).2.size = n}
      ((fresh bound : Arena α).run us).2.capacity := by
  have hsound : ∀ vs, ((fresh bound : Arena α).run vs).2.Sound := fun vs =>
    ((tells_fresh bound).run vs).1.sound
  constructor
  · induction us using List.reverseRecOn with
    | nil =>
      refine ⟨[], List.prefix_rfl, ?_⟩
      cases bound <;> rfl
    | append_singleton us u ih =>
      have hs := hsound (us ++ [u])
      rw [run_concat] at hs ⊢
      obtain heq | heq := (extends_use _ u).capacity_eq hs
      · obtain ⟨vs, hvs, hsize⟩ := ih
        exact ⟨vs, hvs.trans (List.prefix_append us [u]), hsize.trans heq.symm⟩
      · refine ⟨us ++ [u], List.prefix_rfl, ?_⟩
        rw [run_concat]
        exact heq.symm
  · rintro n ⟨vs, ⟨ws, rfl⟩, rfl⟩
    exact (hsound vs).size_le.trans (capacity_le_run _ vs ws)

theorem Tells.exhausted_iff (h : Tells past a) :
    (a.use .acquire).1 = .exhausted ↔ a.bound = some a.size := by
  have hsum : a.size + a.free.length = a.capacity := h.sound.inUse
  cases hfree : a.free with
  | cons s free =>
    rw [hfree, List.length_cons] at hsum
    rw [Arena.use, acquire?_of_free hfree]
    refine ⟨fun hq => ?_, fun hn => ?_⟩
    · cases hq
    · have hle := h.bounded _ hn
      omega
  | nil =>
    rw [hfree, List.length_nil, Nat.add_zero] at hsum
    rw [hsum, ← h.isFull_iff]
    cases hfull : a.isFull with
    | true =>
      rw [Arena.use, acquire?_of_full hfree hfull]
      exact ⟨fun _ => rfl, fun _ => rfl⟩
    | false =>
      rw [Arena.use, acquire?_of_room hfree hfull]
      refine ⟨fun hq => ?_, fun hq => ?_⟩ <;> cases hq

theorem use_of_exhausted (h : (a.use .acquire).1 = .exhausted) : (a.use .acquire).2 = a := by
  rw [use] at h ⊢
  cases hq : a.acquire? with
  | none => rfl
  | some got =>
    rw [hq] at h
    cases h

theorem lt_capacity_of_acquired (bound : Option Nat) (us : List (Use α)) {s : Nat}
    (h : .acquired s ∈ ((fresh bound : Arena α).run us).1) :
    s < ((fresh bound : Arena α).run us).2.capacity := by
  induction us using List.reverseRecOn with
  | nil => cases h
  | append_singleton us u ih =>
    have ht := ((tells_fresh (α := α) bound).run (us ++ [u])).1
    rw [run_concat] at h ht ⊢
    obtain hu | hold := List.mem_cons.1 h
    · refine lt_capacity_of_block_ne_vacant ((ht.block_ne_vacant_iff s).2 ?_)
      rw [← hu, handedOut, beq_self_eq_true, Bool.true_or]
    · exact (ih hold).trans_le (extends_use _ u).le

end SessionPool.Arena
