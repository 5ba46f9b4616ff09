import SessionPool.Lease
import SessionPool.Session.Target

/-!
# Scenarios

A scenario rehearses a pool or a router without a network: handshakes follow plans, the clock moves
when a step says so, and every connect and every teardown is logged. While a handshake is under way
its plan may run further steps, whose handshakes take the plans after it.
-/

namespace SessionPool.Scenario

structure Stub where
  serial : Nat
  healthy : Bool
  deriving DecidableEq, Inhabited

namespace Stub

def status (text : String) : Reply := .status (asciiBytes text.toList)

def execute (c : Command) (s : Stub) : Except Fault Reply × Stub :=
  let named (name : String) : Bool := c.name == asciiBytes name.toList
  if named "BREAK" then
    (.error (.protocol (.described "connection reset")), { s with healthy := false })
  else if named "SICK" then (.ok (status "SICK"), { s with healthy := false })
  else if named "HEAL" then (.ok (status "OK"), { s with healthy := true })
  else if named "FAIL" then (.ok (.error (asciiBytes "ERR no such key".toList)), s)
  else if named "OOPS" then (.error (.command "ERR oops"), s)
  else if named "ECHO" then (.ok (.array (c.args.map fun data => .bulk (some data))), s)
  else (.ok (status "OK"), s)

instance : Transport Stub where
  isHealthy s := s.healthy
  execute := execute

end Stub

/-- What one handshake does: runs steps, takes time, and ends with a fault or a session. -/
structure Plan (σ : Type) where
  nested : List σ := []
  takes : Int := 0
  fault : Option Fault := none
  healthy : Bool := true

instance {σ : Type} : Inhabited (Plan σ) := ⟨{}⟩

structure LeaseView (κ : Type) where
  id : Nat
  operations : Nat
  createdAt : Nat
  poolName : String
  description : String
  session : κ

structure PoolView where
  stats : PoolStats
  failures : Nat
  closed : Bool

inductive Answer (κ : Type) where
  | lease (view : LeaseView κ)
  | fault (f : Fault)
  | reply (r : Except Fault Reply) (operations : Nat) (healthy : Bool)
  | clock (now : Nat)
  | counters (view : Option PoolView)
  | spread (leased : Nat) (pools : List String) (faults : List Fault)
  | configured
  | marked
  | released
  | nothing
  | noLease
  | noPool
  | noManager

inductive Event (κ : Type) where
  | nested (answer : Answer κ)
  | target (t : Target)
  | connected (serial : Nat)
  | connectFailed
  | closed (session : κ)

structure Stage (σ κ : Type) where
  now : Nat := 0
  plans : List (Plan σ) := []
  connected : Nat := 0
  log : List (Event κ) := []

namespace Stage

variable {σ κ : Type}

def note (e : Event κ) (s : Stage σ κ) : Stage σ κ := { s with log := e :: s.log }

def noteClosed (sessions : List κ) (s : Stage σ κ) : Stage σ κ :=
  { s with log := sessions.foldl (fun log session => .closed session :: log) s.log }

def advance (ns : Int) (s : Stage σ κ) : Stage σ κ := { s with now := (s.now + ns).toNat }

/-- Takes the next plan; behind the last one every handshake just succeeds. -/
def nextPlan (s : Stage σ κ) : Plan σ × Stage σ κ :=
  match s.plans with
  | plan :: plans => (plan, { s with plans })
  | [] => ({}, s)

theorem now_nextPlan (s : Stage σ κ) : s.nextPlan.2.now = s.now := by
  rw [nextPlan]
  split <;> rfl

def connect (plan : Plan σ) (s : Stage σ Stub) : Except Fault Stub × Stage σ Stub :=
  let s := s.advance plan.takes
  match plan.fault with
  | some f => (.error f, s.note .connectFailed)
  | none =>
    let serial := s.connected + 1
    (.ok ⟨serial, plan.healthy⟩, { s with connected := serial }.note (.connected serial))

def events (s : Stage σ κ) : List (Event κ) × Stage σ κ := (s.log.reverse, { s with log := [] })

end Stage

abbrev Named (α : Type) := List (String × α)

namespace Named

variable {α : Type}

def get? (name : String) (l : Named α) : Option α :=
  (l.find? fun entry => entry.1 == name).map (·.2)

def erase (name : String) (l : Named α) : Named α := l.filter fun entry => entry.1 != name

def insert (name : String) (a : α) : Named α → Named α
  | [] => [(name, a)]
  | entry :: rest =>
    if name < entry.1 then (name, a) :: entry :: rest
    else if entry.1 == name then (name, a) :: rest
    else entry :: insert name a rest

end Named

def viewLease {κ : Type} (name : String) (l : Lease κ) : LeaseView κ where
  id := l.leased.id
  operations := l.operations
  createdAt := l.leased.createdAt
  poolName := name
  description := l.describe name
  session := l.leased.session

end SessionPool.Scenario
