import SessionPool.Router.Basic

/-!
# Configuring a router

A configuration is checked and drawn up as a table; the table may be warmed up with one session;
then it is installed. The warm-up takes its time, and the router may be used meanwhile: so
configuring too has two halves. If the router was configured in between, the table is taken down
again and nothing else changes. Flushing takes the installed table down.
-/

namespace SessionPool

namespace RoutingTable

def ofConfig {κ : Type} (c : RouterConfig) (replicaLimit : Nat) : Except Fault (RoutingTable κ) :=
  match Address.parseList c.master with
  | [master] =>
    let replicas := Address.parseList c.replicas
    if replicaLimit < replicas.length then
      .error (.tooManyReplicas replicas.length replicaLimit)
    else
      .ok { master, replicas, credential := c.login?, timeout := c.timeout, options := c.pool }
  | masters => .error (.invalidMaster masters.length)

end RoutingTable

namespace Router

variable {κ : Type}

/-- Draws a table up without installing it; gives its number. -/
def draft (c : RouterConfig) (r : Router κ) : Except Fault (Nat × Router κ) :=
  if r.isConfigured then .error .alreadyConfigured
  else match RoutingTable.ofConfig c r.replicaLimit with
    | .ok t => .ok (r.tables.size, { r with tables := r.tables.push t })
    | .error f => .error f

def closeTable (i : Nat) (r : Router κ) : List (Place × Member κ) × Router κ :=
  match r.tables[i]? with
  | some t =>
    let (tornDown, t) := t.close
    (tornDown.map fun (key, m) => (⟨i, key⟩, m), { r with tables := r.tables.setIfInBounds i t })
  | none => ([], r)

/-- Makes a drawn-up table the one that routes requests, unless there is one by now. -/
def install (i : Nat) (r : Router κ) : Routed κ (Except Fault Unit) :=
  if r.isConfigured then
    let (tornDown, r) := r.closeTable i
    ⟨.error .alreadyConfigured, tornDown, r⟩
  else ⟨.ok (), [], { r with installed := some i }⟩

/-- What a call to configure comes to at once: its result, or a handshake that has to be run at a
place, for which a block is reserved. -/
inductive Configuring where
  | refused (fault : Fault)
  | installed
  | warming (place : Place) (slot : Nat)

def installNow (i : Nat) (r : Router κ) : Routed κ Configuring :=
  let done := r.install i
  ⟨match done.answer with
    | .ok () => .installed
    | .error f => .refused f, done.tornDown, done.router⟩

def beginWarmUp [Transport κ] (i : Nat) (now : Nat) (r : Router κ) : Routed κ Configuring :=
  match r.claim i (.ofMaster defaultPartition) with
  | .error f => ⟨.refused f, [], r⟩
  | .ok (place, r) =>
    let begun := r.beginGet place now
    match begun.answer with
    | .refused f => ⟨.refused f, begun.tornDown, begun.router⟩
    | .opening slot => ⟨.warming place slot, begun.tornDown, begun.router⟩
    | .reused leased =>
      let returned := begun.router.release place (.ofLeased leased) now
      let done := returned.router.installNow i
      { done with tornDown := begun.tornDown ++ returned.tornDown ++ done.tornDown }

def beginConfigure [Transport κ] (c : RouterConfig) (now : Nat) (r : Router κ) :
    Routed κ Configuring :=
  match r.draft c with
  | .error f => ⟨.refused f, [], r⟩
  | .ok (i, r) => if c.warmUp then r.beginWarmUp i now else r.installNow i

def finishConfigure [Transport κ] (place : Place) (slot : Nat) (handshake : Except Fault κ)
    (now : Nat) (r : Router κ) : Routed κ (Except Fault Unit) :=
  let finished := r.finishGet place slot handshake now
  match finished.answer with
  | .error f => ⟨.error f, finished.tornDown, finished.router⟩
  | .ok leased =>
    let returned := finished.router.release place (.ofLeased leased) now
    let done := returned.router.install place.table
    { done with tornDown := finished.tornDown ++ returned.tornDown ++ done.tornDown }

def flush (r : Router κ) : List (Place × Member κ) × Router κ :=
  match r.installed with
  | some i => ({ r with installed := none } : Router κ).closeTable i
  | none => ([], r)

def masterOnly (master : String) (credential : Option String) (timeout : Duration)
    (options : PoolOptions) : RouterConfig :=
  { ((RouterConfig.ofMaster master).withTimeout timeout).withPool options with credential }

end Router

end SessionPool
