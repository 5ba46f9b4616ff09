import SessionPool.Pool.Return
import SessionPool.Text.Quoted

/-!
# Leases

A lease is the sole right to use one session of a pool. It counts the commands issued through it,
and its holder may mark the session to be torn down when it is given back.
-/

namespace SessionPool

structure Lease (κ : Type) where
  leased : Leased κ
  operations : Nat
  discarded : Bool

namespace Lease

variable {κ : Type}

def ofLeased (leased : Leased κ) : Lease κ := ⟨leased, 0, false⟩

def execute [Transport κ] (c : Command) (l : Lease κ) : Except Fault Reply × Lease κ :=
  let (reply, session) := Transport.execute c l.leased.session
  (reply, { l with leased := { l.leased with session }, operations := l.operations + 1 })

def discard (l : Lease κ) : Lease κ := { l with discarded := true }

def release [Transport κ] (now : Nat) (l : Lease κ) (p : Pool κ) : Outcome κ Unit :=
  p.giveBack l.leased l.discarded now

/-- Gives a held lease back, and only then begins to get another session of the same pool; so the
place of the old one is free for it. -/
def beginReassign [Transport κ] (held : Option (Lease κ)) (now : Nat) (p : Pool κ) :
    Outcome κ (Attempt κ) :=
  match held with
  | some l =>
    let returned := l.release now p
    let begun := returned.pool.beginGet now
    { begun with tornDown := returned.tornDown ++ begun.tornDown }
  | none => p.beginGet now

def describe (name : String) (l : Lease κ) : String :=
  "PooledConnection \x7b pool: " ++ Text.quoted name ++ ", id: " ++ l.leased.id.repr ++
    ", slot: " ++ l.leased.slot.repr ++ ", operations: " ++ l.operations.repr ++ ", discard: " ++
    (if l.discarded then "true" else "false") ++ " \x7d"

end Lease

end SessionPool
