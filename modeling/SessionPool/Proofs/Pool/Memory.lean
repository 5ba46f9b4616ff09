import SessionPool.Proofs.Pool.Capacity
import SessionPool.Proofs.Pool.Teardown

/-!
# When memory runs short

How many blocks there is memory for may change at any time: an arena that could not grow may grow
later, and the other way round. The books of a pool do not depend on it, so the laws of its
histories hold of those histories too in which memory comes and goes.
-/

namespace SessionPool

namespace Pool

variable {κ : Type} {p : Pool κ}

def within (blocks : Option Nat) (p : Pool κ) : Pool κ :=
  { p with arena := { p.arena with bound := blocks } }

theorem Shows.within {idle loose : List (Resting κ)} {reserved : List Nat}
    (h : p.Shows idle loose reserved) (blocks : Option Nat) :
    (p.within blocks).Shows idle loose reserved where
  listed := h.listed
  keeps :=
    { sound := ⟨h.keeps.sound.free_nodup, h.keeps.sound.mem_free, h.keeps.sound.inUse⟩
      parked := h.keeps.parked
      held := h.keeps.held
      vacant := h.keeps.vacant
      nodup := h.keeps.nodup
      inUse := h.keeps.inUse }
  active := h.active
  idleCount := h.idleCount

end Pool

namespace Usage

variable {κ : Type} {u : Usage κ}

def within (blocks : Option Nat) (u : Usage κ) : Usage κ := { u with pool := u.pool.within blocks }

/-- The pool is used, or there is more or less memory from now on. -/
inductive Turn (κ : Type)
  | act (a : Action κ)
  | memory (blocks : Option Nat)

def turn [Transport κ] (u : Usage κ) : Turn κ → Usage κ
  | .act a => u.step a
  | .memory blocks => u.within blocks

def play [Transport κ] (u : Usage κ) (ts : List (Turn κ)) : Usage κ := ts.foldl turn u

theorem Owned.within (h : u.Owned) (blocks : Option Nat) : (u.within blocks).Owned :=
  Pool.Shows.within h blocks

theorem Settled.within (h : u.Settled) (blocks : Option Nat) : (u.within blocks).Settled where
  accounted := ⟨h.accounted.accounts, h.accounted.numbers, h.accounted.nextId⟩
  recency := h.recency
  drained := h.drained

theorem Bounded.within {name : String} {options : PoolOptions} (h : u.Bounded name options)
    (blocks : Option Nat) : (u.within blocks).Bounded name options :=
  ⟨h.sameName, h.sameOptions, h.bounded⟩

variable [Transport κ]

theorem Owned.turn (h : u.Owned) (t : Turn κ) : (u.turn t).Owned := by
  cases t with
  | act a => exact h.step a
  | memory blocks => exact h.within blocks

theorem Owned.play (h : u.Owned) (ts : List (Turn κ)) : (u.play ts).Owned := by
  induction ts generalizing u with
  | nil => exact h
  | cons t ts ih => exact ih (h.turn t)

theorem Owned.play_keeps {P : Usage κ → Prop}
    (change : ∀ {u u' : Usage κ} {a : Action κ}, u.Owned → P u → u.Change a u' → P u')
    (memory : ∀ {u : Usage κ} (blocks : Option Nat), P u → P (u.within blocks))
    (h : u.Owned) (hp : P u) (ts : List (Turn κ)) : P (u.play ts) := by
  induction ts generalizing u with
  | nil => exact hp
  | cons t ts ih =>
    cases t with
    | act a => exact ih (h.step a) (h.step_keeps change hp a)
    | memory blocks => exact ih (h.within blocks) (memory blocks hp)

theorem Settled.play (hs : u.Settled) (h : u.Owned) (ts : List (Turn κ)) : (u.play ts).Settled :=
  h.play_keeps (fun _ hs hc => hs.change hc) (fun blocks hs => hs.within blocks) hs ts

theorem Bounded.play {name : String} {options : PoolOptions} (hb : u.Bounded name options)
    (h : u.Owned) (ts : List (Turn κ)) : (u.play ts).Bounded name options :=
  h.play_keeps (fun _ hb hc => hb.change hc) (fun blocks hb => hb.within blocks) hb ts

theorem play_settled (name : String) (options : PoolOptions) (ts : List (Turn κ)) :
    ((start name options none).play ts).Settled :=
  (settled_start name options none).play (owned_start name options none) ts

theorem play_bounded (name : String) (options : PoolOptions) (ts : List (Turn κ)) :
    ((start name options none).play ts).Bounded name options :=
  (bounded_start name options none).play (owned_start name options none) ts

end Usage

end SessionPool
