import SessionPool.Pool.Return
import SessionPool.Session.Target

/-!
# Routing tables

A routing table holds where the servers are, how to open sessions to them, and the pools made so
far: one for each partition of each server, made when it is first asked for. A table that was taken
down makes no more.
-/

namespace SessionPool

structure PoolKey where
  partition : Nat
  role : Role
  replica : Nat
  deriving DecidableEq, Inhabited

namespace PoolKey

def ofMaster (partition : Nat) : PoolKey := ⟨partition, .master, 0⟩

def ofReplica (partition replica : Nat) : PoolKey := ⟨partition, .replica, replica⟩

end PoolKey

structure RoutingTable (κ : Type) where
  master : Address
  replicas : List Address
  credential : Option String
  timeout : Duration
  options : PoolOptions
  pools : List (PoolKey × Pool κ) := []
  closed : Bool := false

namespace RoutingTable

variable {κ : Type}

def endpoint (t : RoutingTable κ) (key : PoolKey) : Address :=
  match key.role with
  | .master => t.master
  | .replica => (t.replicas[key.replica]?).getD t.master

def poolName (t : RoutingTable κ) (key : PoolKey) : String :=
  key.role.name ++ "/" ++ (t.endpoint key).render ++ "/db" ++ key.partition.repr

def target (t : RoutingTable κ) (key : PoolKey) : Target :=
  (((Target.ofEndpoint (t.endpoint key)).withCredential t.credential).withTimeout
    t.timeout).withPartition key.partition

/-- The key that serves a request. Without replicas the master does; a replica is taken by its
position where there is one at it, and otherwise by `draw`, which may be any number. -/
def resolve (t : RoutingTable κ) (partition : Nat) (role : Role) (replica : Option Nat)
    (draw : Nat) : PoolKey :=
  let count := t.replicas.length
  if role = .master ∨ count = 0 then .ofMaster partition
  else match replica.filter (· < count) with
    | some index => .ofReplica partition index
    | none => .ofReplica partition (draw % count)

def pool? (t : RoutingTable κ) (key : PoolKey) : Option (Pool κ) :=
  (t.pools.find? fun entry => entry.1 = key).map (·.2)

def setPool (t : RoutingTable κ) (key : PoolKey) (p : Pool κ) : RoutingTable κ :=
  { t with pools := t.pools.map fun entry => if entry.1 = key then (key, p) else entry }

def withPool (t : RoutingTable κ) (key : PoolKey) : RoutingTable κ :=
  match t.pool? key with
  | some _ => t
  | none => { t with pools := t.pools ++ [(key, .new (t.poolName key) t.options)] }

def stats (t : RoutingTable κ) (role : Role) : PoolStats :=
  .total ((t.pools.filter fun entry => entry.1.role = role).map fun entry => entry.2.stats)

def closePools : List (PoolKey × Pool κ) → List (PoolKey × Member κ) × List (PoolKey × Pool κ)
  | [] => ([], [])
  | (key, p) :: rest =>
    let closed := p.close
    let (tornDown, rest) := closePools rest
    (closed.tornDown.map (key, ·) ++ tornDown, (key, closed.pool) :: rest)

def close (t : RoutingTable κ) : List (PoolKey × Member κ) × RoutingTable κ :=
  let (tornDown, pools) := closePools t.pools
  (tornDown, { t with pools, closed := true })

end RoutingTable

end SessionPool
