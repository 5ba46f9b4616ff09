import SessionPool.Proofs.Arena.HighWater
import SessionPool.Proofs.Pool.Memory
import SessionPool.Scenario.Basic

/-!
# The blocks that a pool needs

Every block in use belongs to a session of the pool or to one being opened. Since blocks are made
only where all others are in use, a pool with a limit on its sessions never has more blocks than
that, however many sessions come and go.
-/

namespace SessionPool

namespace Pool

variable {κ : Type}

theorem capacity_destroy (slot : Nat) (p : Pool κ) :
    (p.destroy slot).2.arena.capacity = p.arena.capacity := Arena.capacity_release p.arena slot

theorem capacity_destroyAll (slots : List Nat) (p : Pool κ) :
    (p.destroyAll slots).2.arena.capacity = p.arena.capacity := by
  induction slots generalizing p with
  | nil => rfl
  | cons slot slots ih => exact (ih (p.destroy slot).2).trans (capacity_destroy slot p)

theorem extends_reserve (p : Pool κ) : p.arena.Extends p.reserve.2.arena := by
  rw [reserve]
  cases p.limitReached? with
  | some limit => exact .inl rfl
  | none =>
    cases ha : p.arena.acquire? with
    | none => exact .inl rfl
    | some got => exact Arena.extends_acquire? ha

theorem extends_beginGet (now : Nat) (p : Pool κ) :
    p.arena.Extends (p.beginGet now).pool.arena := by
  have hreserve : ∀ {q : Pool κ}, q.arena.capacity = p.arena.capacity →
      p.arena.Extends q.reserve.2.arena := by
    intro q hq
    have hext := q.extends_reserve
    rwa [Arena.Extends, hq] at hext
  rw [beginGet]
  split
  · exact .inl rfl
  · have hcap : ((p.scanIdle now).2.2.destroyAll (p.scanIdle now).2.1).2.arena.capacity =
        p.arena.capacity := capacity_destroyAll _ _
    generalize hd : (p.scanIdle now).2.2.destroyAll (p.scanIdle now).2.1 = done at hcap
    simp only [hd]
    cases (p.scanIdle now).1 with
    | none => exact hreserve hcap
    | some e =>
      simp only []
      cases ha : done.2.arena.take? e.slot with
      | some got => exact .inl ((Arena.capacity_take? ha).trans hcap)
      | none => exact hreserve ((capacity_destroy e.slot done.2).trans hcap)

theorem capacity_finishGet (slot : Nat) (handshake : Except Fault κ) (now : Nat) (p : Pool κ) :
    (p.finishGet slot handshake now).pool.arena.capacity = p.arena.capacity := by
  cases handshake with
  | ok session => rfl
  | error cause => exact capacity_destroy slot p

theorem capacity_evict (p : Pool κ) : p.evict.2.arena.capacity = p.arena.capacity := by
  rw [evict]
  split
  · cases p.idle.popBack? with
    | none => rfl
    | some got => exact capacity_destroy got.1.slot _
  · rfl

theorem capacity_giveBack [Transport κ] (l : Leased κ) (discarded : Bool) (now : Nat) (p : Pool κ) :
    (p.giveBack l discarded now).pool.arena.capacity = p.arena.capacity := by
  rw [giveBack]
  split
  · cases ha : p.arena.park? l.slot l.member with
    | none => rfl
    | some arena => exact (capacity_evict _).trans (Arena.capacity_park? ha)
  · exact capacity_destroy l.slot p

theorem capacity_close (p : Pool κ) : p.close.pool.arena.capacity = p.arena.capacity := by
  rw [close]
  split
  · rfl
  · exact capacity_destroyAll _ _

end Pool

namespace Usage

variable {κ : Type} {u : Usage κ}

theorem pool_begin (done : Outcome κ (Attempt κ)) (u : Usage κ) :
    (u.begin done).pool = done.pool := by
  rw [begin]
  split <;> rfl

theorem pool_finish (slot : Nat) (done : Outcome κ (Except Fault (Leased κ))) (u : Usage κ) :
    (u.finish slot done).pool = done.pool := by
  rw [finish]
  split <;> rfl

theorem extends_get [Transport κ] (u : Usage κ) :
    u.pool.arena.Extends (u.step .get).pool.arena := by
  rw [step, pool_begin]
  exact Pool.extends_beginGet u.now u.pool

theorem capacity_drop [Transport κ] (u : Usage κ) (i : Nat) :
    (u.step (.drop i)).pool.arena.capacity = u.pool.arena.capacity := by
  rw [step]
  cases u.leases[i]? with
  | none => rfl
  | some l => exact Pool.capacity_giveBack l.leased l.discarded u.now u.pool

theorem extends_step [Transport κ] (u : Usage κ) (a : Action κ) :
    u.pool.arena.Extends (u.step a).pool.arena := by
  cases a with
  | get => exact u.extends_get
  | finish slot result =>
    rw [step]
    split
    · rw [pool_finish]
      exact .inl (Pool.capacity_finishGet slot result u.now u.pool)
    · exact .inl rfl
  | execute i c =>
    rw [step]
    cases u.leases[i]? <;> exact .inl rfl
  | discard i =>
    rw [step]
    cases u.leases[i]? <;> exact .inl rfl
  | drop i => exact .inl (u.capacity_drop i)
  | reassign i =>
    have hext := (u.step (.drop i)).extends_get
    rw [Arena.Extends, capacity_drop] at hext
    rw [step_reassign]
    exact hext
  | close => exact .inl (Pool.capacity_close u.pool)
  | setClock now => exact .inl rfl

theorem Owned.capacity_le_step [Transport κ] {name : String} {options : PoolOptions} {limit : Nat}
    (h : u.Owned) (hb : u.Bounded name options) (hl : options.activeLimit = some limit)
    (hle : u.pool.arena.capacity ≤ limit) (a : Action κ) :
    (u.step a).pool.arena.capacity ≤ limit := by
  have h' := h.step a
  have hactive : (u.step a).pool.active ≤ limit := h'.amount ▸ (hb.step h a).bounded limit hl
  have hsize : (u.step a).pool.arena.size = (u.step a).pool.active := by
    have hin := Arena.Keeps.inUse (Pool.Shows.keeps h')
    have hact := Pool.Shows.active h'
    simp only [List.length_map, List.length_append, List.length_nil] at hin hact
    exact hin.trans hact.symm
  obtain heq | heq := (u.extends_step a).capacity_eq (Pool.Shows.keeps h').sound
  · exact heq.trans_le hle
  · exact (heq.trans hsize).trans_le hactive

theorem Owned.capacity_le_play [Transport κ] {name : String} {options : PoolOptions} {limit : Nat}
    (h : u.Owned) (hb : u.Bounded name options) (hl : options.activeLimit = some limit)
    (hle : u.pool.arena.capacity ≤ limit) (ts : List (Turn κ)) :
    (u.play ts).pool.arena.capacity ≤ limit := by
  induction ts generalizing u with
  | nil => exact hle
  | cons t ts ih =>
    cases t with
    | act a => exact ih (h.step a) (hb.step h a) (h.capacity_le_step hb hl hle a)
    | memory blocks =>
      exact ih (h.within blocks) ⟨hb.sameName, hb.sameOptions, hb.bounded⟩ hle

/-- An arena has as many blocks as were in use at its busiest time, and fails only where all the
blocks it may have are in use; so the blocks of a pool stay within the limit on its sessions. -/
theorem blocks_high_water :
    (∀ {α : Type} (bound : Option Nat) (us : List (Arena.Use α)),
      let past := ((Arena.fresh bound : Arena α).run us).1
      let a := ((Arena.fresh bound : Arena α).run us).2
      (∀ vs, a.capacity ≤ ((Arena.fresh bound : Arena α).run (us ++ vs)).2.capacity) ∧
      IsGreatest {n | ∃ vs, vs <+: us ∧ ((Arena.fresh bound : Arena α).run vs).2.size = n}
        a.capacity ∧
      ((a.use .acquire).1 = .exhausted ↔ bound = some a.size) ∧
      ((a.use .acquire).1 = .exhausted → (a.use .acquire).2 = a) ∧
      ∀ s, .acquired s ∈ past → s < a.capacity) ∧
    ∀ {κ : Type} [Transport κ] (name : String) (options : PoolOptions) (limit : UInt64)
      (bound : Option Nat) (ts : List (Turn κ)), options.maxActive = some limit →
      ((start name options bound).play ts).pool.arena.capacity ≤ limit.toNat := by
  constructor
  · intro α bound us past a
    obtain ⟨h, hbound⟩ := (Arena.tells_fresh (α := α) bound).run us
    have hfresh : (Arena.fresh bound : Arena α).bound = bound := by cases bound <;> rfl
    have hex := h.exhausted_iff
    rw [hbound, hfresh] at hex
    exact ⟨Arena.capacity_le_run _ us, Arena.isGreatest_capacity bound us, hex,
      Arena.use_of_exhausted, fun s hs => Arena.lt_capacity_of_acquired bound us hs⟩
  · intro κ _ name options limit bound ts hl
    have hlimit : options.activeLimit = some limit.toNat := by
      rw [PoolOptions.activeLimit, hl]
      rfl
    exact (owned_start name options bound).capacity_le_play
      (bounded_start name options bound) hlimit
      (Nat.zero_le _) ts

theorem blocks_high_water_one :
    let options : PoolOptions := { maxActive := some 1 }
    let ts : List (Turn Scenario.Stub) :=
      [.act .get, .act (.finish 0 (.ok ⟨1, false⟩)), .act (.drop 0),
      .act .get, .act (.finish 0 (.error .allocation)), .act .get, .act (.finish 0 (.ok ⟨2, true⟩)),
      .act (.discard 0), .act (.reassign 0), .act (.finish 0 (.ok ⟨3, true⟩))]
    options.maxActive = some 1 ∧
      ((start "cache" options none).play ts).opened.map Leased.id = [1, 2, 3] ∧
      ((start "cache" options none).play ts).pool.arena.capacity ≤ 1 := by
  intro options ts
  exact ⟨rfl, by decide +kernel, blocks_high_water.2 "cache" options 1 none ts rfl⟩

end Usage

end SessionPool
