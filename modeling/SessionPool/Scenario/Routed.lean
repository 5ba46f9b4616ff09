import SessionPool.Router.Configure
import SessionPool.Scenario.Basic
import SessionPool.Session.Basic

/-!
# Scenarios of a router

The steps use one router through a handle, and leases under names. The router lives as long as the
handle or a handshake refers to it, and is flushed when the last of them goes. The sessions may be
stubs, whose handshakes follow plans and may run further steps, or real sessions over a network.
-/

namespace SessionPool.Scenario.Routed

structure Request where
  partition : Nat
  role : Role
  replica : Option Nat

inductive Step where
  | configure (config : RouterConfig)
  | get (name : String) (request : Request)
  | reassign (name : String) (request : Request)
  | execute (name : String) (c : Command)
  | discard (name : String)
  | info (name : String)
  | release (name : String)
  | advance (ns : Int)
  | spread (count : Nat) (request : Request)
  | flush
  | dropRouter

def Step.isTeardown : Step → Bool
  | .flush | .dropRouter => true
  | _ => false

structure View where
  configured : Bool
  replicas : Nat
  pools : Nat
  master : PoolStats
  replica : PoolStats

structure Held (κ : Type) where
  place : Place
  lease : Lease κ

structure World (κ : Type) where
  router : Router κ
  present : Bool := true
  underWay : Nat := 0
  leases : Named (Held κ) := []
  stage : Stage Step κ := {}

/-- How sessions are opened, by a function whose first argument runs the steps nested in a
handshake, and in which order a teardown that stands alone shows them. -/
structure Setting (κ : Type) where
  connect : (List Step → World κ → World κ) → Target → World κ → Except Fault κ × World κ
  rank : κ → Nat

def Setting.byRank {κ : Type} (setting : Setting κ) (events : List (Event κ)) : List (Event κ) :=
  let rank : Event κ → Nat
    | .closed session => setting.rank session
    | _ => 0
  events.mergeSort fun a b => rank a ≤ rank b

namespace World

variable {κ : Type}

def note (e : Event κ) (w : World κ) : World κ := { w with stage := w.stage.note e }

def sessionsOf (tornDown : List (Place × Member κ)) : List κ := tornDown.map fun t => t.2.session

def take {α : Type} (done : Routed κ α) (w : World κ) : α × World κ :=
  (done.answer,
    { w with router := done.router, stage := w.stage.noteClosed (sessionsOf done.tornDown) })

def flush (w : World κ) : World κ :=
  let (tornDown, router) := w.router.flush
  { w with router, stage := w.stage.noteClosed (sessionsOf tornDown) }

def settle (w : World κ) : World κ := if !w.present && w.underWay == 0 then w.flush else w

def shown (h : Held κ) (w : World κ) : Answer κ :=
  .lease (viewLease (w.router.poolName h.place) h.lease)

def view? (w : World κ) : Option View :=
  if w.present then
    some ⟨w.router.isConfigured, w.router.replicaCount, w.router.poolCount, w.router.stats .master,
      w.router.stats .replica⟩
  else none

def shakeHands (setting : Setting κ) (run : List Step → World κ → World κ) (place : Place)
    (w : World κ) : Except Fault κ × World κ :=
  match w.router.target? place with
  | some target =>
    let (session, w) := setting.connect run target { w with underWay := w.underWay + 1 }
    (session, { w with underWay := w.underWay - 1 })
  | none => (.error .notConfigured, w)

def acquireAt (setting : Setting κ) (run : List Step → World κ → World κ) (place : Place)
    (w : World κ) : Except Fault (Held κ) × World κ :=
  let (attempt, w) := w.take (w.router.beginGet place w.stage.now)
  match attempt with
  | .refused f => (.error f, w)
  | .reused leased => (.ok ⟨place, .ofLeased leased⟩, w)
  | .opening slot =>
    let (session, w) := w.shakeHands setting run place
    let (leased, w) := w.take (w.router.finishGet place slot session w.stage.now)
    (leased.map fun leased => ⟨place, .ofLeased leased⟩, w)

def acquire (setting : Setting κ) (run : List Step → World κ → World κ) (q : Request) (draw : Nat)
    (w : World κ) : Except Fault (Held κ) × World κ :=
  match w.router.route q.partition q.role q.replica draw with
  | .ok (place, router) => acquireAt setting run place { w with router }
  | .error f => (.error f, w)

section

variable [Transport κ]

def giveBack (h : Held κ) (w : World κ) : World κ :=
  (w.take (w.router.release h.place h.lease w.stage.now)).2

def drop (name : String) (w : World κ) : World κ :=
  match w.leases.get? name with
  | some h => { w with leases := w.leases.erase name }.giveBack h
  | none => w

def store (name : String) (h : Held κ) (w : World κ) : World κ :=
  let before := w.leases.get? name
  let w := { w with leases := w.leases.insert name h }
  match before with
  | some h => w.giveBack h
  | none => w

def acquireAs (setting : Setting κ) (run : List Step → World κ → World κ) (name : String)
    (q : Request) (w : World κ) : Answer κ × World κ :=
  match w.acquire setting run q 0 with
  | (.ok h, w) => (w.shown h, w.store name h)
  | (.error f, w) => (.fault f, w)

def configure (setting : Setting κ) (run : List Step → World κ → World κ) (c : RouterConfig)
    (w : World κ) : Except Fault Unit × World κ :=
  let (begun, w) := w.take (w.router.beginConfigure c w.stage.now)
  match begun with
  | .refused f => (.error f, w)
  | .installed => (.ok (), w)
  | .warming place slot =>
    let (session, w) := w.shakeHands setting run place
    w.take (w.router.finishConfigure place slot session w.stage.now)

def acquireMany (setting : Setting κ) (run : List Step → World κ → World κ) (q : Request) :
    (count : Nat) → World κ → List (Except Fault (Held κ)) × World κ
  | 0, w => ([], w)
  | count + 1, w =>
    let (got, w) := w.acquire setting run q count
    let (others, w) := w.acquireMany setting run q count
    (got :: others, w)

def spread (setting : Setting κ) (run : List Step → World κ → World κ) (count : Nat) (q : Request)
    (w : World κ) : Answer κ × World κ :=
  let log := w.stage.log
  let (results, w) := w.acquireMany setting run q count
  let held := results.filterMap fun
    | .ok h => some h
    | .error _ => none
  let faults := results.filterMap fun
    | .ok _ => none
    | .error f => some f
  let pools := (held.map fun h => w.router.poolName h.place).eraseDups.mergeSort fun a b =>
    decide (a ≤ b)
  let w := held.foldl (fun w h => w.giveBack { h with lease := h.lease.discard }) w
  (.spread held.length pools faults, { w with stage := { w.stage with log } })

def withLease (name : String) (w : World κ) (use : Held κ → Answer κ × World κ) :
    Answer κ × World κ :=
  match w.leases.get? name with
  | some h => use h
  | none => (.noLease, w)

def step (setting : Setting κ) (run : List Step → World κ → World κ) (s : Step) (w : World κ) :
    Answer κ × World κ :=
  let needRouter (go : Unit → Answer κ × World κ) :=
    if w.present then
      let (answer, w) := go ()
      (answer, w.settle)
    else (.noManager, w)
  match s with
  | .configure c =>
    needRouter fun _ =>
      match w.configure setting run c with
      | (.ok (), w) => (.configured, w)
      | (.error f, w) => (.fault f, w)
  | .get name q => needRouter fun _ => w.acquireAs setting run name q
  | .reassign name q => needRouter fun _ => (w.drop name).acquireAs setting run name q
  | .execute name c =>
    w.withLease name fun h =>
      let (reply, lease) := h.lease.execute c
      (.reply reply lease.operations (Transport.isHealthy lease.leased.session),
        { w with leases := w.leases.insert name { h with lease } })
  | .discard name =>
    w.withLease name fun h =>
      let h := { h with lease := h.lease.discard }
      (w.shown h, { w with leases := w.leases.insert name h })
  | .info name => w.withLease name fun h => (w.shown h, w)
  | .release name => w.withLease name fun _ => (.released, w.drop name)
  | .advance ns =>
    let stage := w.stage.advance ns
    (.clock stage.now, { w with stage })
  | .spread count q => needRouter fun _ => w.spread setting run count q
  | .flush => needRouter fun _ => (.nothing, w.flush)
  | .dropRouter => (.nothing, { w with present := false }.settle)

def runNested (setting : Setting κ) : (depth : Nat) → List Step → World κ → World κ
  | 0, _, w => w
  | depth + 1, steps, w =>
    steps.foldl (fun w s =>
      let (answer, w) := w.step setting (runNested setting depth) s
      w.note (.nested answer)) w

/-- Runs one step with all that is nested in it. Every handshake inside another takes a plan, so
there are no more of them than plans. -/
def perform (setting : Setting κ) (s : Step) (w : World κ) : Answer κ × World κ :=
  w.step setting (runNested setting w.stage.plans.length) s

def finish (setting : Setting κ) (w : World κ) : List (Event κ) :=
  let w := w.leases.foldl (fun w entry => w.drop entry.1) w
  setting.byRank { w with present := false }.settle.stage.events.1

end

end World

structure Record (κ : Type) where
  answer : Answer κ
  state : Option View
  events : List (Event κ)

def run {κ : Type} [Transport κ] (setting : Setting κ) (acc : List (Record κ)) (w : World κ) :
    List Step → List (Record κ) × World κ
  | [] => (acc.reverse, w)
  | s :: steps =>
    let (answer, w) := w.perform setting s
    let (events, stage) := w.stage.events
    let events := if s.isTeardown then setting.byRank events else events
    run setting (⟨answer, w.view?, events⟩ :: acc) { w with stage } steps

/-- Handshakes of stubs: every connect is logged with its target; a refused host fails at once and
takes no plan. -/
def stubs (refused : List String) : Setting Stub where
  connect runSteps target w :=
    let w := w.note (.target target)
    if refused.contains target.endpoint.host then
      (.error (.io ⟨.connectionRefused, "connection refused"⟩), w)
    else
      let (plan, stage) := w.stage.nextPlan
      let w := runSteps plan.nested { w with stage }
      let (session, stage) := w.stage.connect plan
      (session, { w with stage })
  rank s := s.serial

def sessions (network : Network) : Setting Session where
  connect _ target w := (Session.establish network target, w)
  rank _ := 0

def rehearse {κ : Type} [Transport κ] (setting : Setting κ) (replicaLimit : Nat)
    (plans : List (Plan Step)) (steps : List Step) : List (Record κ) × List (Event κ) :=
  let (records, w) := run setting [] { router := { replicaLimit }, stage := { plans } } steps
  (records, w.finish setting)

end SessionPool.Scenario.Routed
