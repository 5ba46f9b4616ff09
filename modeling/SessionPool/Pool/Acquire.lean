import SessionPool.Pool.Basic

/-!
# Getting a session from a pool

The idle session returned last is handed out if it is within its limits; sessions found beyond them
are torn down. Only when none is left is a new one opened, within the capacity of the pool. A
handshake takes its time, and the pool may be used meanwhile: so getting has two halves, and between
them a block is reserved and a unit of capacity is taken.
-/

namespace SessionPool

/-- What a get comes to at once: a fault, a session, or a handshake that has to be run, for which a
block is reserved. -/
inductive Attempt (κ : Type) where
  | refused (fault : Fault)
  | reused (session : Leased κ)
  | opening (slot : Nat)

namespace Pool

variable {κ : Type}

def timedOut (o : PoolOptions) (now : Nat) (e : IdleEntry) : Bool :=
  o.idleTimeout.any fun limit => limit.expired e.idleSince now

def tooOld (o : PoolOptions) (now : Nat) (e : IdleEntry) : Bool :=
  o.maxLifetime.any fun limit => limit.expired e.createdAt now

def scanIdle (now : Nat) (p : Pool κ) : Option IdleEntry × List Nat × Pool κ :=
  let (stale, idle) := p.idle.takeBack (timedOut p.options now) [] p.idle.size
  let (chosen, old, idle) := idle.takeFront (tooOld p.options now) [] idle.size
  let retired := stale ++ old
  (chosen, retired,
    { p with idle, idleCount := p.idleCount - (retired.length + chosen.toList.length) })

def limitReached? (p : Pool κ) : Option Nat := p.options.activeLimit.filter (· ≤ p.active)

def reserve (p : Pool κ) : Attempt κ × Pool κ :=
  match p.limitReached? with
  | some limit => (.refused (.overload p.name limit), p)
  | none =>
    match p.arena.acquire? with
    | some (slot, arena) => (.opening slot, { p with arena, active := p.active + 1 })
    | none => (.refused .allocation, { p with failures := p.failures + 1 })

def beginGet (now : Nat) (p : Pool κ) : Outcome κ (Attempt κ) :=
  if p.closed then ⟨.refused (.poolClosed p.name), [], p⟩
  else
    let (chosen, retired, p) := p.scanIdle now
    let (tornDown, p) := p.destroyAll retired
    match chosen with
    | none =>
      let (attempt, p) := p.reserve
      ⟨attempt, tornDown, p⟩
    | some e =>
      match p.arena.take? e.slot with
      | some (parked, arena) =>
        ⟨.reused ⟨e.slot, parked.id, e.createdAt, parked.session⟩, tornDown, { p with arena }⟩
      | none =>
        let (more, p) := p.destroy e.slot
        let (attempt, p) := p.reserve
        ⟨attempt, tornDown ++ more, p⟩

/-- The second half, after the handshake for the reserved block: a session gets the next number, a
fault gives everything back that was taken for it. -/
def finishGet (slot : Nat) (handshake : Except Fault κ) (now : Nat) (p : Pool κ) :
    Outcome κ (Except Fault (Leased κ)) :=
  match handshake with
  | .ok session => ⟨.ok ⟨slot, p.nextId, now, session⟩, [], { p with nextId := p.nextId + 1 }⟩
  | .error cause =>
    let (tornDown, p) := p.destroy slot
    ⟨.error (.handshake p.name cause), tornDown, { p with failures := p.failures + 1 }⟩

end Pool

end SessionPool
