import SessionPool.Lease
import SessionPool.Router.Table

/-!
# Routers

A router sends each request for a session to the pool of the server and partition it is for. It is
configured with at most one routing table at a time; a table that was taken down, or never took
effect, is kept for the leases on its pools, which find their way back by the number of the table
and the key of the pool.
-/

namespace SessionPool

structure Place where
  table : Nat
  key : PoolKey
  deriving DecidableEq, Inhabited

/-- A router with all its tables, present and past; the installed one routes requests. -/
structure Router (κ : Type) where
  replicaLimit : Nat := maxReplicas
  tables : Array (RoutingTable κ) := #[]
  installed : Option Nat := none

structure Routed (κ α : Type) where
  answer : α
  tornDown : List (Place × Member κ)
  router : Router κ

namespace Router

variable {κ : Type}

instance : Inhabited (Router κ) := ⟨{}⟩

def table? (r : Router κ) : Option (RoutingTable κ) := r.installed.bind fun i => r.tables[i]?

def isConfigured (r : Router κ) : Bool := r.installed.isSome

def replicaCount (r : Router κ) : Nat := r.table?.elim 0 fun t => t.replicas.length

def poolCount (r : Router κ) : Nat := r.table?.elim 0 fun t => t.pools.length

def stats (r : Router κ) (role : Role) : PoolStats := r.table?.elim 0 fun t => t.stats role

def pool? (r : Router κ) (place : Place) : Option (Pool κ) :=
  (r.tables[place.table]?).bind fun t => t.pool? place.key

def setPool (r : Router κ) (place : Place) (p : Pool κ) : Router κ :=
  { r with tables := r.tables.modify place.table fun t => t.setPool place.key p }

/-- Applies an operation to the pool at a place; `absent` answers where there is none. -/
def onPool {α : Type} (r : Router κ) (place : Place) (absent : α) (op : Pool κ → Outcome κ α) :
    Routed κ α :=
  match r.pool? place with
  | some p =>
    let done := op p
    ⟨done.answer, done.tornDown.map (place, ·), r.setPool place done.pool⟩
  | none => ⟨absent, [], r⟩

def claim (i : Nat) (key : PoolKey) (r : Router κ) : Except Fault (Place × Router κ) :=
  match r.tables[i]? with
  | some t =>
    if t.closed then .error .notConfigured
    else .ok (⟨i, key⟩, { r with tables := r.tables.modify i fun t => t.withPool key })
  | none => .error .notConfigured

def route (partition : Nat) (role : Role) (replica : Option Nat) (draw : Nat) (r : Router κ) :
    Except Fault (Place × Router κ) :=
  if maxPartitions ≤ partition then .error (.invalidPartition partition maxPartitions)
  else match r.installed, r.table? with
    | some i, some t => r.claim i (t.resolve partition role replica draw)
    | _, _ => .error .notConfigured

def target? (r : Router κ) (place : Place) : Option Target :=
  (r.tables[place.table]?).map fun t => t.target place.key

def poolName (r : Router κ) (place : Place) : String := (r.pool? place).elim "" Pool.name

def beginGet (place : Place) (now : Nat) (r : Router κ) : Routed κ (Attempt κ) :=
  r.onPool place (.refused .notConfigured) fun p => p.beginGet now

def finishGet (place : Place) (slot : Nat) (handshake : Except Fault κ) (now : Nat) (r : Router κ) :
    Routed κ (Except Fault (Leased κ)) :=
  r.onPool place (.error .notConfigured) fun p => p.finishGet slot handshake now

def release [Transport κ] (place : Place) (l : Lease κ) (now : Nat) (r : Router κ) :
    Routed κ Unit :=
  r.onPool place () fun p => l.release now p

end Router

end SessionPool
