import SessionPool.Pool.Acquire

/-!
# Giving a session back, and closing a pool

A session that can be used again becomes the first idle one; if then too many are idle, the one
returned longest ago is torn down. Whatever is discarded, unhealthy, or given back to a closed pool
is torn down at once. Nothing can close the pool within one action, so that it is open is looked at
once, before the session is parked.
-/

namespace SessionPool.Pool

variable {κ : Type}

def keeps [Transport κ] (p : Pool κ) (discarded : Bool) (session : κ) : Bool :=
  !discarded && Transport.isHealthy session && !p.closed && p.options.idleLimit != some 0

def enter (e : IdleEntry) (p : Pool κ) : Pool κ :=
  { p with idle := p.idle.pushFront e, idleCount := p.idleCount + 1 }

def evict (p : Pool κ) : List (Member κ) × Pool κ :=
  if p.options.idleLimit.any fun limit => limit < p.idle.size then
    match p.idle.popBack? with
    | some (e, idle) => { p with idle, idleCount := p.idleCount - 1 }.destroy e.slot
    | none => ([], p)
  else ([], p)

def giveBack [Transport κ] (leased : Leased κ) (discarded : Bool) (now : Nat) (p : Pool κ) :
    Outcome κ Unit :=
  if p.keeps discarded leased.session then
    match p.arena.park? leased.slot leased.member with
    | some arena =>
      let p := { p with arena }.enter ⟨leased.slot, leased.createdAt, now⟩
      let (tornDown, p) := p.evict
      ⟨(), tornDown, p⟩
    | none => ⟨(), [leased.member], { p with active := p.active - 1 }⟩
  else
    let (tornDown, p) := p.destroy leased.slot
    ⟨(), tornDown ++ [leased.member], p⟩

def close (p : Pool κ) : Outcome κ Unit :=
  if p.closed then ⟨(), [], p⟩
  else
    let (_, drained, idle) := p.idle.takeFront (fun _ => true) [] p.idle.size
    let p := { p with closed := true, idle, idleCount := p.idleCount - drained.length }
    let (tornDown, p) := p.destroyAll drained
    ⟨(), tornDown, p⟩

end SessionPool.Pool
