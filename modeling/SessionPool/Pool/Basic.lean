import SessionPool.Arena
import SessionPool.IdleList
import SessionPool.Session.Transport
import SessionPool.Settings.PoolOptions

/-!
# Pools

A pool keeps sessions of one kind. A session of the pool is idle, and then parked in the arena and
entered on the idle list; or it is leased, and then only its block is reserved. A block is reserved
also for every handshake in progress. What an operation tears down is part of its result, in the
order in which it happens.
-/

namespace SessionPool

structure Member (κ : Type) where
  id : Nat
  session : κ

/-- A session outside the arena, the slot that is reserved for it, and when its handshake ended. -/
structure Leased (κ : Type) where
  slot : Nat
  id : Nat
  createdAt : Nat
  session : κ

def Leased.member {κ : Type} (l : Leased κ) : Member κ := ⟨l.id, l.session⟩

/-- Its `active` counts the sessions being opened too, `failures` the attempts to open one that came
to nothing; `nextId` is the number of the next session. -/
structure Pool (κ : Type) where
  name : String
  options : PoolOptions
  idle : IdleList := .empty
  arena : Arena (Member κ) := .empty
  active : Nat := 0
  idleCount : Nat := 0
  failures : Nat := 0
  nextId : Nat := 1
  closed : Bool := false

/-- What an operation on a pool gives: an answer, the sessions that were torn down, the first one
first, and the pool after it. -/
structure Outcome (κ α : Type) where
  answer : α
  tornDown : List (Member κ)
  pool : Pool κ

structure PoolStats where
  active : Nat := 0
  idle : Nat := 0
  inUse : Nat := 0
  deriving DecidableEq, Inhabited

namespace PoolStats

instance : Add PoolStats where
  add a b := ⟨a.active + b.active, a.idle + b.idle, a.inUse + b.inUse⟩

instance : Zero PoolStats where
  zero := {}

def total (items : List PoolStats) : PoolStats := items.foldl (· + ·) 0

end PoolStats

namespace Pool

variable {κ : Type}

def new (name : String) (options : PoolOptions) : Pool κ := { name, options }

instance : Inhabited (Pool κ) := ⟨new "" {}⟩

def stats (p : Pool κ) : PoolStats := ⟨p.active, p.idleCount, p.active - p.idleCount⟩

def destroy (slot : Nat) (p : Pool κ) : List (Member κ) × Pool κ :=
  let (parked, arena) := p.arena.release slot
  (parked.toList, { p with arena, active := p.active - 1 })

def destroyAll : List Nat → Pool κ → List (Member κ) × Pool κ
  | [], p => ([], p)
  | slot :: slots, p =>
    let (first, p) := p.destroy slot
    let (others, p) := p.destroyAll slots
    (first ++ others, p)

end Pool

end SessionPool
