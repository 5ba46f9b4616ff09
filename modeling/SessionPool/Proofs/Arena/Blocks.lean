import Mathlib.Data.List.Perm.Subperm
import SessionPool.Arena

/-!
# The blocks of an arena

In a sound arena the stack holds every vacant block once and nothing else, and the count is that of
the other blocks. Each operation keeps this and changes the block of its own slot only.
-/

namespace SessionPool.Arena

variable {α : Type}

structure Sound (a : Arena α) : Prop where
  free_nodup : a.free.Nodup
  mem_free : ∀ s, s ∈ a.free ↔ s < a.capacity ∧ a.block s = .vacant
  inUse : a.inUse + a.free.length = a.capacity

theorem sound_fresh (bound : Option Nat) : (⟨#[], [], 0, bound⟩ : Arena α).Sound :=
  ⟨List.nodup_nil, fun s => by simp [capacity], rfl⟩

theorem block_of_lt_capacity {a : Arena α} {s : Nat} (h : ¬ s < a.capacity) :
    a.block s = .vacant := by
  by_contra hb
  exact h (lt_capacity_of_block_ne_vacant hb)

theorem Sound.free_length_lt {a : Arena α} (h : a.Sound) {s : Nat} (hs : a.block s ≠ .vacant) :
    a.free.length < a.capacity := by
  have hlt := lt_capacity_of_block_ne_vacant hs
  have hsub : (s :: a.free) ⊆ List.range a.capacity := by
    intro t ht
    rcases List.mem_cons.1 ht with rfl | ht
    · exact List.mem_range.2 hlt
    · exact List.mem_range.2 ((h.mem_free t).1 ht).1
  have hnd : (s :: a.free).Nodup :=
    List.nodup_cons.2 ⟨fun hm => hs ((h.mem_free s).1 hm).2, h.free_nodup⟩
  have hle := (hnd.subperm hsub).length_le
  rw [List.length_cons, List.length_range] at hle
  exact hle

theorem Sound.inUse_pos {a : Arena α} (h : a.Sound) {s : Nat} (hs : a.block s ≠ .vacant) :
    0 < a.inUse := by
  have hlt := h.free_length_lt hs
  have heq := h.inUse
  omega

theorem Sound.setBlock {a : Arena α} (h : a.Sound) {s : Nat} {b : Block α}
    (hs : a.block s ≠ .vacant) (hb : b ≠ .vacant) : (a.setBlock s b).Sound := by
  refine ⟨h.free_nodup, fun t => ?_, ?_⟩
  · rw [block_setBlock a s t b (lt_capacity_of_block_ne_vacant hs), capacity, size_blocks_setBlock]
    refine (h.mem_free t).trans (and_congr_right fun _ => ?_)
    split
    · rename_i hst
      subst hst
      exact ⟨fun hv => absurd hv hs, fun hv => absurd hv hb⟩
    · rfl
  · rw [capacity, size_blocks_setBlock]
    exact h.inUse

theorem block_vacate (a : Arena α) {s : Nat} (hs : s < a.capacity) (t : Nat) :
    (a.vacate s).block t = if s = t then .vacant else a.block t :=
  block_setBlock a s t .vacant hs

theorem Sound.vacate {a : Arena α} (h : a.Sound) {s : Nat} (hs : a.block s ≠ .vacant) :
    (a.vacate s).Sound := by
  have hlt := lt_capacity_of_block_ne_vacant hs
  have hcap : (a.vacate s).capacity = a.capacity := size_blocks_setBlock a s .vacant
  refine ⟨List.nodup_cons.2 ⟨fun hm => hs ((h.mem_free s).1 hm).2, h.free_nodup⟩, fun t => ?_, ?_⟩
  · rw [block_vacate a hlt, hcap]
    change t ∈ s :: a.free ↔ _
    rw [List.mem_cons, h.mem_free t]
    by_cases hst : s = t
    · subst hst
      simp [hlt]
    · simp [hst, Ne.symm hst]
  · have hpos := h.inUse_pos hs
    have heq := h.inUse
    rw [hcap]
    change a.inUse - 1 + (a.free.length + 1) = a.capacity
    omega

structure Taken (a a' : Arena α) (s : Nat) : Prop where
  sound : a'.Sound
  vacant : a.block s = .vacant
  inUse : a'.inUse = a.inUse + 1
  block : ∀ t, a'.block t = if s = t then .reserved else a.block t

theorem Sound.reuse {a : Arena α} (h : a.Sound) {s : Nat} {free : List Nat}
    (hfree : a.free = s :: free) :
    a.Taken { a.setBlock s .reserved with free, inUse := a.inUse + 1 } s := by
  obtain ⟨hlt, hvac⟩ := (h.mem_free s).1 (by rw [hfree]; exact List.mem_cons_self)
  have hnd := h.free_nodup
  rw [hfree] at hnd
  obtain ⟨hnot, hnd⟩ := List.nodup_cons.1 hnd
  have hblock : ∀ t, (a.setBlock s .reserved).block t = if s = t then .reserved else a.block t :=
    fun t => block_setBlock a s t _ hlt
  refine ⟨⟨hnd, fun t => ?_, ?_⟩, hvac, rfl, hblock⟩
  · change t ∈ free ↔ t < (a.setBlock s .reserved).blocks.size ∧
      (a.setBlock s .reserved).block t = .vacant
    rw [size_blocks_setBlock, hblock]
    have hm := h.mem_free t
    rw [hfree, List.mem_cons] at hm
    by_cases hst : s = t
    · subst hst
      simp [hnot]
    · rw [if_neg hst]
      exact ⟨fun ht => hm.1 (.inr ht), fun ht => (hm.2 ht).resolve_left (Ne.symm hst)⟩
  · have heq := h.inUse
    rw [hfree, List.length_cons] at heq
    change a.inUse + 1 + free.length = (a.setBlock s .reserved).blocks.size
    rw [size_blocks_setBlock]
    change _ = a.capacity
    omega

theorem Sound.grow {a : Arena α} (h : a.Sound) (hfree : a.free = []) :
    a.Taken { a with blocks := a.blocks.push .reserved, inUse := a.inUse + 1 } a.blocks.size := by
  have hblock : ∀ t,
      Arena.block { a with blocks := a.blocks.push .reserved, inUse := a.inUse + 1 } t =
        if a.blocks.size = t then .reserved else a.block t := by
    intro t
    simp only [Arena.block, Array.getElem?_push]
    by_cases hst : a.blocks.size = t
    · subst hst
      simp
    · rw [if_neg (Ne.symm hst), if_neg hst]
  refine ⟨⟨h.free_nodup, fun t => ?_, ?_⟩, block_of_lt_capacity (Nat.lt_irrefl _), rfl, hblock⟩
  · have hm := h.mem_free t
    rw [hfree] at hm
    change t ∈ a.free ↔ t < (a.blocks.push .reserved).size ∧ _
    rw [hblock, hfree, Array.size_push]
    by_cases hst : a.blocks.size = t
    · simp [hst]
    · rw [if_neg hst]
      refine ⟨fun ht => absurd ht List.not_mem_nil, fun ht => hm.2 ⟨?_, ht.2⟩⟩
      change t < a.blocks.size
      omega
  · have heq := h.inUse
    rw [hfree] at heq
    change a.inUse + 1 + a.free.length = (a.blocks.push .reserved).size
    rw [hfree, Array.size_push]
    change _ = a.capacity + 1
    simp only [List.length_nil] at heq ⊢
    omega

theorem Sound.acquire {a a' : Arena α} (h : a.Sound) {s : Nat} (hq : a.acquire? = some (s, a')) :
    a.Taken a' s := by
  unfold acquire? at hq
  split at hq
  · next slot free hfree =>
    obtain ⟨rfl, rfl⟩ := Prod.mk.inj (Option.some.inj hq)
    exact h.reuse hfree
  · next hfree =>
    split at hq
    · cases hq
    · obtain ⟨rfl, rfl⟩ := Prod.mk.inj (Option.some.inj hq)
      exact h.grow hfree

/-- Just these values are parked, each in its slot, and just these slots are reserved. -/
structure Keeps (a : Arena α) (stored : List (Nat × α)) (reserved : List Nat) : Prop where
  sound : a.Sound
  parked : ∀ x ∈ stored, a.block x.1 = .parked x.2
  held : ∀ s ∈ reserved, a.block s = .reserved
  vacant : ∀ s, s ∉ stored.map Prod.fst ++ reserved → a.block s = .vacant
  nodup : (stored.map Prod.fst ++ reserved).Nodup
  inUse : a.inUse = stored.length + reserved.length

structure Around (a : Arena α) (slot : Nat) (stored : List (Nat × α)) (reserved : List Nat) :
    Prop where
  parked : ∀ x ∈ stored, a.block x.1 = .parked x.2
  held : ∀ s ∈ reserved, a.block s = .reserved
  vacant : ∀ s, s ≠ slot → s ∉ stored.map Prod.fst ++ reserved → a.block s = .vacant
  nodup : (slot :: (stored.map Prod.fst ++ reserved)).Nodup

variable {a a' : Arena α} {slot : Nat} {v : α} {stored : List (Nat × α)} {reserved : List Nat}

theorem keeps_fresh (bound : Option Nat) : (⟨#[], [], 0, bound⟩ : Arena α).Keeps [] [] :=
  ⟨sound_fresh bound, by simp, by simp, fun s _ => by simp [block], by simp, rfl⟩

theorem Keeps.perm {stored' : List (Nat × α)} {reserved' : List Nat} (h : a.Keeps stored reserved)
    (hs : stored.Perm stored') (hr : reserved.Perm reserved') : a.Keeps stored' reserved' where
  sound := h.sound
  parked x hx := h.parked x (hs.mem_iff.2 hx)
  held s hx := h.held s (hr.mem_iff.2 hx)
  vacant s hx := h.vacant s fun hm => hx (((hs.map _).append hr).mem_iff.1 hm)
  nodup := ((hs.map _).append hr).nodup_iff.1 h.nodup
  inUse := by rw [h.inUse, hs.length_eq, hr.length_eq]

theorem Keeps.block_ne_vacant_iff (h : a.Keeps stored reserved) (s : Nat) :
    a.block s ≠ .vacant ↔ s ∈ stored.map Prod.fst ++ reserved := by
  constructor
  · intro hb
    by_contra hs
    exact hb (h.vacant s hs)
  · intro hs
    rcases List.mem_append.1 hs with hs | hs
    · obtain ⟨x, hx, rfl⟩ := List.mem_map.1 hs
      simp [h.parked x hx]
    · simp [h.held s hs]

theorem Keeps.around_parked (h : a.Keeps ((slot, v) :: stored) reserved) :
    a.Around slot stored reserved where
  parked x hx := h.parked x (List.mem_cons_of_mem _ hx)
  held := h.held
  vacant s hs hm := h.vacant s (by simpa [hs] using hm)
  nodup := h.nodup

theorem Keeps.around_reserved (h : a.Keeps stored (slot :: reserved)) :
    a.Around slot stored reserved where
  parked := h.parked
  held s hs := h.held s (List.mem_cons_of_mem _ hs)
  vacant s hs hm := h.vacant s (by simpa [hs] using hm)
  nodup := List.perm_middle.nodup_iff.1 h.nodup

theorem Keeps.around_vacant (h : a.Keeps stored reserved) (hs : a.block slot = .vacant) :
    a.Around slot stored reserved where
  parked := h.parked
  held := h.held
  vacant s _ hm := h.vacant s hm
  nodup := List.nodup_cons.2 ⟨fun hm => (h.block_ne_vacant_iff slot).2 hm hs, h.nodup⟩

theorem Around.congr (h : a.Around slot stored reserved)
    (same : ∀ s, slot ≠ s → a'.block s = a.block s) : a'.Around slot stored reserved := by
  have hslot := (List.nodup_cons.1 h.nodup).1
  refine ⟨fun x hx => ?_, fun s hs => ?_, fun s hs hm => ?_, h.nodup⟩
  · have hne : slot ≠ x.1 := by
      rintro rfl
      exact hslot (List.mem_append_left _ (List.mem_map_of_mem hx))
    rw [same _ hne, h.parked x hx]
  · have hne : slot ≠ s := by
      rintro rfl
      exact hslot (List.mem_append_right _ hs)
    rw [same _ hne, h.held s hs]
  · rw [same _ (Ne.symm hs), h.vacant s hs hm]

theorem Around.keeps_parked (h : a.Around slot stored reserved) (sound : a.Sound)
    (hv : a.block slot = .parked v) (inUse : a.inUse = stored.length + reserved.length + 1) :
    a.Keeps ((slot, v) :: stored) reserved where
  sound := sound
  parked x hx := by
    rcases List.mem_cons.1 hx with rfl | hx
    · exact hv
    · exact h.parked x hx
  held := h.held
  vacant s hs := h.vacant s (by rintro rfl; simp at hs) fun hm => hs (List.mem_cons_of_mem _ hm)
  nodup := h.nodup
  inUse := by rw [inUse, List.length_cons]; omega

theorem Around.keeps_reserved (h : a.Around slot stored reserved) (sound : a.Sound)
    (hv : a.block slot = .reserved) (inUse : a.inUse = stored.length + reserved.length + 1) :
    a.Keeps stored (slot :: reserved) where
  sound := sound
  parked := h.parked
  held s hs := by
    rcases List.mem_cons.1 hs with rfl | hs
    · exact hv
    · exact h.held s hs
  vacant s hs := by
    rw [List.perm_middle.mem_iff, List.mem_cons, not_or] at hs
    exact h.vacant s hs.1 hs.2
  nodup := List.perm_middle.nodup_iff.2 h.nodup
  inUse := by rw [inUse, List.length_cons]; omega

theorem Around.keeps_vacant (h : a.Around slot stored reserved) (sound : a.Sound)
    (hv : a.block slot = .vacant) (inUse : a.inUse = stored.length + reserved.length) :
    a.Keeps stored reserved where
  sound := sound
  parked := h.parked
  held := h.held
  vacant s hm := by
    by_cases hs : s = slot
    · rw [hs, hv]
    · exact h.vacant s hs hm
  nodup := (List.nodup_cons.1 h.nodup).2
  inUse := inUse

theorem Around.vacate (h : a.Around slot stored reserved) (sound : a.Sound)
    (hs : a.block slot ≠ .vacant) (inUse : a.inUse = stored.length + reserved.length + 1) :
    (a.vacate slot).Keeps stored reserved := by
  have hblock := block_vacate a (lt_capacity_of_block_ne_vacant hs)
  refine (h.congr fun s hne => ?_).keeps_vacant (sound.vacate hs) ?_ ?_
  · rw [hblock, if_neg hne]
  · rw [hblock, if_pos rfl]
  · change a.inUse - 1 = _
    omega

theorem Keeps.release_parked (h : a.Keeps ((slot, v) :: stored) reserved) :
    ∃ a', a.release slot = (some v, a') ∧ a'.Keeps stored reserved := by
  have hx : a.block slot = .parked v := h.parked _ List.mem_cons_self
  refine ⟨a.vacate slot, by simp only [release, hx],
    h.around_parked.vacate h.sound (by simp [hx]) ?_⟩
  rw [h.inUse, List.length_cons]
  omega

theorem Keeps.release_reserved (h : a.Keeps stored (slot :: reserved)) :
    ∃ a', a.release slot = (none, a') ∧ a'.Keeps stored reserved := by
  have hx : a.block slot = .reserved := h.held _ List.mem_cons_self
  refine ⟨a.vacate slot, by simp only [release, hx],
    h.around_reserved.vacate h.sound (by simp [hx]) ?_⟩
  rw [h.inUse, List.length_cons]
  omega

theorem Keeps.take (h : a.Keeps ((slot, v) :: stored) reserved) :
    ∃ a', a.take? slot = some (v, a') ∧ a'.Keeps stored (slot :: reserved) := by
  have hx : a.block slot = .parked v := h.parked _ List.mem_cons_self
  have hne : a.block slot ≠ .vacant := by simp [hx]
  have hblock := fun t => block_setBlock a slot t .reserved (lt_capacity_of_block_ne_vacant hne)
  refine ⟨a.setBlock slot .reserved, by simp only [take?, hx], ?_⟩
  refine (h.around_parked.congr fun s hs => ?_).keeps_reserved
    (h.sound.setBlock hne (by simp)) ?_ ?_
  · rw [hblock, if_neg hs]
  · rw [hblock, if_pos rfl]
  · change a.inUse = _
    rw [h.inUse, List.length_cons]
    omega

theorem Keeps.park (h : a.Keeps stored (slot :: reserved)) (v : α) :
    ∃ a', a.park? slot v = some a' ∧ a'.Keeps ((slot, v) :: stored) reserved := by
  have hx : a.block slot = .reserved := h.held _ List.mem_cons_self
  have hne : a.block slot ≠ .vacant := by simp [hx]
  have hblock := fun t => block_setBlock a slot t (.parked v) (lt_capacity_of_block_ne_vacant hne)
  refine ⟨a.setBlock slot (.parked v), by simp only [park?, hx], ?_⟩
  refine (h.around_reserved.congr fun s hs => ?_).keeps_parked
    (h.sound.setBlock hne (by simp)) ?_ ?_
  · rw [hblock, if_neg hs]
  · rw [hblock, if_pos rfl]
  · change a.inUse = _
    rw [h.inUse, List.length_cons]
    omega

theorem Keeps.acquire (h : a.Keeps stored reserved) (hq : a.acquire? = some (slot, a')) :
    a'.Keeps stored (slot :: reserved) := by
  obtain ⟨hsound, hvac, hin, hblock⟩ := h.sound.acquire hq
  refine ((h.around_vacant hvac).congr fun s hs => ?_).keeps_reserved hsound ?_ ?_
  · rw [hblock, if_neg hs]
  · rw [hblock, if_pos rfl]
  · rw [hin, h.inUse]

end SessionPool.Arena
