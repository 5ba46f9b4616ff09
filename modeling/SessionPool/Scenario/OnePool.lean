import SessionPool.Scenario.Basic

/-!
# Scenarios of one pool

The steps use one pool of stubs through a handle and leases under names. The pool lives as long as
the handle, a lease or a handshake refers to it; when the last of them goes, its parked sessions are
torn down by ascending slot.
-/

namespace SessionPool.Scenario.OnePool

inductive Step where
  | get (name : String)
  | reassign (name : String)
  | execute (name : String) (c : Command)
  | discard (name : String)
  | info (name : String)
  | release (name : String)
  | close
  | dropPool
  | advance (ns : Int)
  | stats

structure World where
  pool : Pool Stub
  present : Bool := true
  underWay : Nat := 0
  leases : Named (Lease Stub) := []
  stage : Stage Step Stub := {}

namespace World

def note (e : Event Stub) (w : World) : World := { w with stage := w.stage.note e }

def take {α : Type} (done : Outcome Stub α) (w : World) : α × World :=
  (done.answer,
    { w with pool := done.pool, stage := w.stage.noteClosed (done.tornDown.map Member.session) })

def settle (w : World) : World :=
  if !w.present && w.leases.isEmpty && w.underWay == 0 then
    { w with
      pool := { w.pool with arena := .empty }
      stage := w.stage.noteClosed (w.pool.arena.parkedValues.map Member.session) }
  else w

def giveBack (l : Lease Stub) (w : World) : World := (w.take (l.release w.stage.now w.pool)).2

def drop (name : String) (w : World) : World :=
  match w.leases.get? name with
  | some l => ({ w with leases := w.leases.erase name }.giveBack l).settle
  | none => w

def store (name : String) (l : Lease Stub) (w : World) : World :=
  let before := w.leases.get? name
  let w := { w with leases := w.leases.insert name l }
  match before with
  | some l => w.giveBack l
  | none => w

def shown (l : Lease Stub) (w : World) : Answer Stub := .lease (viewLease w.pool.name l)

def view? (w : World) : Option PoolView :=
  if w.present then some ⟨w.pool.stats, w.pool.failures, w.pool.closed⟩ else none

def handshake (run : List Step → World → World) (w : World) : Except Fault Stub × World :=
  let (plan, stage) := w.stage.nextPlan
  let w := run plan.nested { w with stage, underWay := w.underWay + 1 }
  let (session, stage) := w.stage.connect plan
  (session, { w with stage, underWay := w.underWay - 1 })

def acquire (run : List Step → World → World) (begun : Outcome Stub (Attempt Stub)) (w : World) :
    Except Fault (Lease Stub) × World :=
  let (attempt, w) := w.take begun
  match attempt with
  | .refused f => (.error f, w)
  | .reused leased => (.ok (.ofLeased leased), w)
  | .opening slot =>
    let (session, w) := w.handshake run
    let (leased, w) := w.take (w.pool.finishGet slot session w.stage.now)
    (leased.map .ofLeased, w)

def acquireAs (run : List Step → World → World) (name : String)
    (begun : Outcome Stub (Attempt Stub)) (w : World) : Answer Stub × World :=
  match w.acquire run begun with
  | (.ok l, w) => (w.shown l, w.store name l)
  | (.error f, w) => (.fault f, w.settle)

def withLease (name : String) (w : World) (use : Lease Stub → Answer Stub × World) :
    Answer Stub × World :=
  match w.leases.get? name with
  | some l => use l
  | none => (.noLease, w)

def step (run : List Step → World → World) (s : Step) (w : World) : Answer Stub × World :=
  match s with
  | .get name =>
    if w.present then w.acquireAs run name (w.pool.beginGet w.stage.now) else (.noPool, w)
  | .reassign name =>
    if w.present then
      { w with leases := w.leases.erase name }.acquireAs run name
        (Lease.beginReassign (w.leases.get? name) w.stage.now w.pool)
    else (.noPool, w)
  | .execute name c =>
    w.withLease name fun l =>
      let (reply, l) := l.execute c
      (.reply reply l.operations l.leased.session.healthy,
        { w with leases := w.leases.insert name l })
  | .discard name =>
    w.withLease name fun l => (.marked, { w with leases := w.leases.insert name l.discard })
  | .info name => w.withLease name fun l => (w.shown l, w)
  | .release name => w.withLease name fun _ => (.released, w.drop name)
  | .close =>
    if w.present then
      let (_, w) := w.take w.pool.close
      (.nothing, w)
    else (.nothing, w)
  | .dropPool => (.nothing, { w with present := false }.settle)
  | .advance ns =>
    let stage := w.stage.advance ns
    (.clock stage.now, { w with stage })
  | .stats => (.counters w.view?, w)

/-- Runs the steps nested in a handshake, at most `depth` handshakes one inside the other, and logs
their answers. -/
def runNested : (depth : Nat) → List Step → World → World
  | 0, _, w => w
  | depth + 1, steps, w =>
    steps.foldl (fun w s =>
      let (answer, w) := w.step (runNested depth) s
      w.note (.nested answer)) w

/-- Runs one step with all that is nested in it. Every handshake inside another takes a plan, so
there are no more of them than plans. -/
def perform (s : Step) (w : World) : Answer Stub × World :=
  w.step (runNested w.stage.plans.length) s

def finish (w : World) : World :=
  let w := if w.present then { w with present := false }.settle else w
  w.leases.foldl (fun w entry => w.drop entry.1) w

end World

structure Record where
  answer : Answer Stub
  state : Option PoolView
  events : List (Event Stub)

def run (acc : List Record) (w : World) : List Step → List Record × World
  | [] => (acc.reverse, w)
  | s :: steps =>
    let (answer, w) := w.perform s
    let (events, stage) := w.stage.events
    run (⟨answer, w.view?, events⟩ :: acc) { w with stage } steps

def rehearse (name : String) (options : PoolOptions) (plans : List (Plan Step))
    (steps : List Step) : List Record × List (Event Stub) :=
  let (records, w) := run [] { pool := .new name options, stage := { plans } } steps
  (records, w.finish.stage.events.1)

end SessionPool.Scenario.OnePool
