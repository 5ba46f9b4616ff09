import SessionPool.Proofs.Pool.Strict

/-!
# Every slot has one owner

Whatever is done with a pool, each block in use belongs to one idle entry, one lease or one
handshake, the counters count them, and no operation ever finds its books in disagreement.
-/

namespace SessionPool.Usage

variable {κ : Type} {u : Usage κ}

theorem Owned.entries (h : u.Owned) :
    u.pool.idle.entries.map IdleEntry.slot = u.pool.resting.map Resting.slot := by
  rw [h.listed.entries, List.map_map]
  rfl

theorem Owned.stored (h : u.Owned) :
    ((u.pool.resting ++ []).map Resting.stored).map Prod.fst =
      u.pool.idle.entries.map IdleEntry.slot := by
  rw [h.entries, List.append_nil, List.map_map]
  rfl

theorem Owned.block_ne_vacant_iff (h : u.Owned) (s : Nat) :
    u.pool.arena.block s ≠ .vacant ↔ s ∈ u.pool.idle.entries.map IdleEntry.slot ++ u.taken := by
  rw [← h.stored]
  exact h.keeps.block_ne_vacant_iff s

theorem Owned.nodup (h : u.Owned) :
    (u.pool.idle.entries.map IdleEntry.slot ++ u.taken).Nodup := by
  rw [← h.stored]
  exact h.keeps.nodup

theorem Owned.slots_nodup (h : u.Owned) : (u.pool.resting.map Resting.slot ++ u.taken).Nodup := by
  rw [← h.entries]
  exact h.nodup

theorem Owned.idleCount (h : u.Owned) : u.pool.idleCount = u.pool.resting.length :=
  Pool.Shows.idleCount h

theorem Owned.block_idle (h : u.Owned) {s : Nat}
    (hs : s ∈ u.pool.idle.entries.map IdleEntry.slot) : ∃ m, u.pool.arena.block s = .parked m := by
  rw [← h.stored] at hs
  obtain ⟨x, hx, rfl⟩ := List.mem_map.1 hs
  exact ⟨x.2, h.keeps.parked x hx⟩

theorem Owned.block_parked (h : u.Owned) {x : Resting κ} (hx : x ∈ u.pool.resting) :
    u.pool.arena.block x.slot = .parked x.member :=
  h.keeps.parked x.stored (List.mem_map_of_mem (List.mem_append_left _ hx))

theorem Owned.block_reserved (h : u.Owned) {s : Nat} (hs : s ∈ u.taken) :
    u.pool.arena.block s = .reserved := h.keeps.held s hs

theorem Owned.block_vacant (h : u.Owned) {s : Nat} (hidle : s ∉ u.pool.resting.map Resting.slot)
    (hs : s ∉ u.taken) : u.pool.arena.block s = .vacant := by
  by_contra hblock
  have howner := (h.block_ne_vacant_iff s).1 hblock
  rw [h.entries, List.mem_append] at howner
  exact howner.elim hidle hs

theorem Owned.block_congr {v : Usage κ} (h : u.Owned) (hv : v.Owned) {s : Nat}
    (hidle : ∀ x : Resting κ, x.slot = s → (x ∈ v.pool.resting ↔ x ∈ u.pool.resting))
    (ht : s ∈ v.taken ↔ s ∈ u.taken) : v.pool.arena.block s = u.pool.arena.block s := by
  by_cases hx : ∃ x ∈ u.pool.resting, x.slot = s
  · obtain ⟨x, hx, rfl⟩ := hx
    rw [h.block_parked hx, hv.block_parked ((hidle x rfl).2 hx)]
  · by_cases hs : s ∈ u.taken
    · rw [h.block_reserved hs, hv.block_reserved (ht.2 hs)]
    · have hvacant : ∀ w : Usage κ, (∀ x : Resting κ, x.slot = s →
          (x ∈ w.pool.resting ↔ x ∈ u.pool.resting)) → s ∉ w.pool.resting.map Resting.slot := by
        intro w hw hmem
        obtain ⟨x, hxw, hxs⟩ := List.mem_map.1 hmem
        exact hx ⟨x, (hw x hxs).1 hxw, hxs⟩
      rw [h.block_vacant (hvacant u fun _ _ => .rfl) hs,
        hv.block_vacant (hvacant v hidle) fun hsv => hs (ht.1 hsv)]

theorem Owned.active (h : u.Owned) :
    u.pool.active = u.pool.idle.entries.length + u.leases.length + u.opening.length := by
  have hact := Pool.Shows.active h
  have hlen := congrArg List.length h.entries
  simp only [List.length_map, List.length_nil, taken_length] at hact hlen
  omega

theorem Owned.counters (h : u.Owned) :
    u.pool.arena.size = u.pool.active ∧ u.pool.idleCount = u.pool.idle.entries.length ∧
      u.pool.idle.size = u.pool.idle.entries.length ∧
      u.pool.stats.inUse = u.leases.length + u.opening.length := by
  have hact := h.active
  have hin := h.keeps.inUse
  have hidle := Pool.Shows.idleCount h
  have hsize := h.listed.size
  have hlen := congrArg List.length h.entries
  simp only [List.length_map, List.append_nil, taken_length] at hin hsize hlen
  refine ⟨?_, by omega, by omega, ?_⟩
  · rw [Arena.size]
    omega
  · rw [Pool.stats]
    dsimp only
    omega

/-- The blocks in use are split among the idle list, the leases and the handshakes in progress, the
counters say how many there are of each, and every action finds it so. -/
theorem run_ownership [Transport κ] (name : String) (options : PoolOptions) (bound : Option Nat)
    (as : List (Action κ)) :
    let u := (start name options bound).run as
    let idle := u.pool.idle.entries.map IdleEntry.slot
    let leased := u.leases.map fun l => l.leased.slot
    (idle ++ (leased ++ u.opening)).Nodup ∧
    (∀ s, u.pool.arena.block s ≠ .vacant ↔ s ∈ idle ++ (leased ++ u.opening)) ∧
    (∀ s, u.pool.idle.contains s = true ↔ s ∈ idle) ∧
    (∀ s ∈ idle, ∃ m, u.pool.arena.block s = .parked m) ∧
    (∀ s ∈ leased, u.pool.arena.block s = .reserved) ∧
    (∀ s ∈ u.opening, u.pool.arena.block s = .reserved) ∧
    u.pool.active = idle.length + u.leases.length + u.opening.length ∧
    u.pool.arena.size = u.pool.active ∧
    u.pool.idleCount = idle.length ∧ u.pool.idle.size = idle.length ∧
    u.pool.stats.inUse = u.leases.length + u.opening.length ∧
    ∀ a, Strict.step u a = some (u.step a) := by
  intro u idle leased
  have h : u.Owned := (owned_start name options bound).run as
  obtain ⟨harena, hcount, hsize, hin⟩ := h.counters
  have hlen : idle.length = u.pool.idle.entries.length := List.length_map _
  refine ⟨h.nodup, h.block_ne_vacant_iff, fun s => ?_, fun s hs => h.block_idle hs, fun s hs => ?_,
    fun s hs => ?_, ?_, harena, ?_, ?_, hin, Strict.step_eq h⟩
  · rw [h.listed.contains_iff, ← h.listed.entries]
  · exact h.keeps.held s (List.mem_append_left _ hs)
  · exact h.keeps.held s (List.mem_append_right _ hs)
  · rw [hlen, h.active]
  · rw [hlen, hcount]
  · rw [hlen, hsize]

end SessionPool.Usage
