import SessionPool.Proofs.Pool.Usage
import SessionPool.Proofs.Router.Tables

/-!
# A router in use

A traffic is a router together with everything outside it: the clock, the outstanding leases, the
handshakes in progress, and a record of what happened so far. An action may come at any time, also
while a handshake is in progress. Seen at one place a traffic is the usage of one pool, and whatever
is done with the router does there what some actions on that pool do; so the laws of one pool hold
at every place, also of tables that were taken down.
-/

namespace SessionPool

/-- A request for a session, and the table that was installed when it came. -/
structure Call where
  partition : Nat
  role : Role
  replica : Option Nat
  installed : Option Nat
  deriving DecidableEq

/-- What a session is opened with at a place, and the request that waits for it; for a warm-up no
request does. -/
structure Handshake where
  place : Place
  slot : Nat
  target : Option Target
  call : Option Call
  deriving DecidableEq

def Handshake.isAt (place : Place) (slot : Nat) (h : Handshake) : Bool :=
  h.place = place ∧ h.slot = slot

theorem Handshake.eq_of_isAt {place : Place} {slot : Nat} {h : Handshake}
    (hat : h.isAt place slot = true) : h.place = place ∧ h.slot = slot := of_decide_eq_true hat

structure Grant (κ : Type) where
  call : Call
  place : Place
  leased : Leased κ

/-- `configs` are the settings that each table was drawn up from, `granted` the sessions that
requests were answered with; the others are as in `Usage`, with their places. -/
structure Traffic (κ : Type) where
  router : Router κ
  now : Nat := 0
  leases : List (Place × Lease κ) := []
  opening : List Handshake := []
  configs : List RouterConfig := []
  granted : List (Grant κ) := []
  opened : List (Place × Leased κ) := []
  tornDown : List (Place × Member κ) := []
  returns : List (Place × Nat) := []

namespace Traffic

variable {κ : Type}

def start (replicaLimit : Nat) : Traffic κ := { router := { replicaLimit } }

/-- What can be done with a router. Reassigning a lease is dropping it and getting another. -/
inductive Action (κ : Type)
  | configure (c : RouterConfig)
  | get (partition : Nat) (role : Role) (replica : Option Nat) (draw : Nat)
  | finish (place : Place) (slot : Nat) (result : Handshake → Except Fault κ)
  | execute (i : Nat) (c : Command)
  | discard (i : Nat)
  | drop (i : Nat)
  | flush
  | setClock (now : Nat)

def take {α : Type} (done : Routed κ α) (t : Traffic κ) : Traffic κ :=
  { t with router := done.router, tornDown := t.tornDown ++ done.tornDown }

def await (place : Place) (slot : Nat) (call : Option Call) (t : Traffic κ) : Traffic κ :=
  { t with opening := ⟨place, slot, t.router.target? place, call⟩ :: t.opening }

def ended (place : Place) (slot : Nat) (t : Traffic κ) : Traffic κ :=
  { t with opening := t.opening.eraseP (Handshake.isAt place slot) }

def lend (place : Place) (l : Leased κ) (t : Traffic κ) : Traffic κ :=
  { t with leases := (place, .ofLeased l) :: t.leases }

def grant (call : Call) (place : Place) (l : Leased κ) (t : Traffic κ) : Traffic κ :=
  { t.lend place l with granted := t.granted ++ [⟨call, place, l⟩] }

def record (place : Place) (l : Leased κ) (t : Traffic κ) : Traffic κ :=
  { t with opened := t.opened ++ [(place, l)] }

def begin (call : Call) (place : Place) (t : Traffic κ) : Traffic κ :=
  let done := t.router.beginGet place t.now
  match done.answer with
  | .refused _ => t.take done
  | .reused l => (t.take done).grant call place l
  | .opening slot => (t.take done).await place slot (some call)

def finishGet (call : Call) (place : Place) (slot : Nat) (result : Except Fault κ)
    (t : Traffic κ) : Traffic κ :=
  let done := t.router.finishGet place slot result t.now
  let t' := (t.ended place slot).take done
  match done.answer with
  | .ok l => (t'.grant call place l).record place l
  | .error _ => t'

def drawn (c : RouterConfig) (t : Traffic κ) : List RouterConfig :=
  match t.router.draft c with
  | .ok _ => t.configs ++ [c]
  | .error _ => t.configs

def configure [Transport κ] (c : RouterConfig) (t : Traffic κ) : Traffic κ :=
  let done := t.router.beginConfigure c t.now
  let t' := { t.take done with configs := t.drawn c }
  match done.answer with
  | .warming place slot => t'.await place slot none
  | _ => t'

def finishWarmUp [Transport κ] (place : Place) (slot : Nat) (result : Except Fault κ)
    (t : Traffic κ) : Traffic κ :=
  let t' := (t.ended place slot).take (t.router.finishConfigure place slot result t.now)
  -- the session of a warm-up is given back before anyone else sees it
  match (t.router.finishGet place slot result t.now).answer with
  | .ok l => { t'.record place l with returns := (place, l.id) :: t.returns }
  | .error _ => t'

def put (i : Nat) (place : Place) (l : Lease κ) (t : Traffic κ) : Traffic κ :=
  { t with
    leases := t.leases.set i (place, l)
    opened := t.opened.map fun o =>
      if o.1 = place ∧ o.2.id = l.leased.id then (place, l.leased) else o }

def giveUp (i : Nat) (place : Place) (l : Lease κ) (t : Traffic κ) : Traffic κ :=
  { t with leases := t.leases.eraseIdx i, returns := (place, l.leased.id) :: t.returns }

def step [Transport κ] (t : Traffic κ) : Action κ → Traffic κ
  | .configure c => t.configure c
  | .get partition role replica draw =>
    match t.router.route partition role replica draw with
    | .ok (place, router) =>
      { t with router }.begin ⟨partition, role, replica, t.router.installed⟩ place
    | .error _ => t
  | .finish place slot result =>
    match t.opening.find? (Handshake.isAt place slot) with
    | some h =>
      match h.call with
      | some call => t.finishGet call place slot (result h)
      | none => t.finishWarmUp place slot (result h)
    | none => t
  | .execute i c =>
    match t.leases[i]? with
    | some (place, l) => t.put i place (l.execute c).2
    | none => t
  | .discard i =>
    match t.leases[i]? with
    | some (place, l) => { t with leases := t.leases.set i (place, l.discard) }
    | none => t
  | .drop i =>
    match t.leases[i]? with
    | some (place, l) => (t.giveUp i place l).take (t.router.release place l t.now)
    | none => t
  | .flush => t.take ⟨(), t.router.flush.1, t.router.flush.2⟩
  | .setClock now => { t with now }

def run [Transport κ] (t : Traffic κ) (as : List (Action κ)) : Traffic κ := as.foldl step t

theorem run_append [Transport κ] (t : Traffic κ) (as bs : List (Action κ)) :
    t.run (as ++ bs) = (t.run as).run bs := List.foldl_append

theorem begin_opening {t : Traffic κ} {place : Place} {slot : Nat}
    (ha : (t.router.beginGet place t.now).answer = .opening slot) (call : Call) :
    (t.begin call place).opening =
      ⟨place, slot, (t.router.beginGet place t.now).router.target? place, some call⟩ ::
        t.opening := by
  simp only [begin, ha]
  rfl

theorem step_finish [Transport κ] {t : Traffic κ} {place : Place} {slot : Nat}
    {target : Option Target} {call : Option Call} {rest : List Handshake}
    (ho : t.opening = ⟨place, slot, target, call⟩ :: rest) (session : Except Fault κ) :
    t.step (.finish place slot fun _ => session) =
        (call.elim (t.finishWarmUp place slot session) fun c => t.finishGet c place slot session) ∧
      (t.ended place slot).opening = rest := by
  have hat : Handshake.isAt place slot ⟨place, slot, target, call⟩ = true := by
    simp [Handshake.isAt]
  refine ⟨?_, ?_⟩
  · rw [step, ho, List.find?_cons_of_pos hat]
    cases call <;> rfl
  · rw [ended, ho, List.eraseP_cons_of_pos hat]

def usage (place : Place) (t : Traffic κ) : Usage κ where
  pool := t.router.poolAt place
  now := t.now
  leases := pick place t.leases
  opening := pick place (t.opening.map fun h => (h.place, h.slot))
  opened := pick place t.opened
  tornDown := pick place t.tornDown
  returns := pick place t.returns

section usage

variable {t : Traffic κ} {place other : Place}

@[simp] theorem usage_take {p : Pool κ} {α : Type} (hp : t.router.pool? place = some p) (absent : α)
    (op : Pool κ → Outcome κ α) :
    (t.take (t.router.onPool place absent op)).usage place = (t.usage place).take (op p) := by
  have hat := @Router.poolAt_setPool _ t.router place place (op p).pool (by simp [hp])
  simp [usage, take, Usage.take, Router.onPool_of_some hp, hat]

theorem usage_take_of_ne (hne : other ≠ place) {p : Pool κ} {α : Type}
    (hp : t.router.pool? place = some p) (absent : α) (op : Pool κ → Outcome κ α) :
    (t.take (t.router.onPool place absent op)).usage other = t.usage other := by
  have hat := @Router.poolAt_setPool _ t.router place other (op p).pool (by simp [hp])
  simp [usage, take, Router.onPool_of_some hp, hat, hne, pick_map_of_ne (Ne.symm hne)]

@[simp] theorem usage_await (slot : Nat) (call : Option Call) :
    (t.await place slot call).usage place =
      { t.usage place with opening := slot :: (t.usage place).opening } := by
  simp [usage, await]

theorem usage_await_of_ne (hne : other ≠ place) (slot : Nat) (call : Option Call) :
    (t.await place slot call).usage other = t.usage other := by
  simp [usage, await, pick_cons_of_ne (Ne.symm hne)]

@[simp] theorem usage_lend (l : Leased κ) :
    (t.lend place l).usage place = (t.usage place).lend l := by
  simp [usage, lend, Usage.lend]

theorem usage_lend_of_ne (hne : other ≠ place) (l : Leased κ) :
    (t.lend place l).usage other = t.usage other := by
  simp [usage, lend, pick_cons_of_ne (Ne.symm hne)]

@[simp] theorem usage_record (l : Leased κ) :
    (t.record place l).usage place =
      { t.usage place with opened := (t.usage place).opened ++ [l] } := by
  simp [usage, record]

theorem usage_record_of_ne (hne : other ≠ place) (l : Leased κ) :
    (t.record place l).usage other = t.usage other := by
  simp [usage, record, pick_cons_of_ne (Ne.symm hne)]

theorem map_eraseP_isAt (place : Place) (slot : Nat) (hs : List Handshake) :
    (hs.eraseP (Handshake.isAt place slot)).map (fun h => (h.place, h.slot)) =
      (hs.map fun h => (h.place, h.slot)).erase (place, slot) := by
  induction hs with
  | nil => rfl
  | cons h hs ih =>
    by_cases hat : h.place = place ∧ h.slot = slot
    · simp [Handshake.isAt, hat]
    · have hne : (h.place, h.slot) ≠ (place, slot) := fun he => hat (Prod.mk.inj he)
      simp [Handshake.isAt, hat, hne, ← ih]

@[simp] theorem usage_ended (slot : Nat) :
    (t.ended place slot).usage place =
      { t.usage place with opening := (t.usage place).opening.erase slot } := by
  simp [usage, ended, map_eraseP_isAt, pick_erase]

theorem usage_ended_of_ne (hne : other ≠ place) (slot : Nat) :
    (t.ended place slot).usage other = t.usage other := by
  simp [usage, ended, map_eraseP_isAt, pick_erase_of_ne (Ne.symm hne)]

theorem usage_finished {p : Pool κ} (hp : t.router.pool? place = some p) (slot : Nat)
    (result : Except Fault κ) :
    ((t.ended place slot).take (t.router.finishGet place slot result t.now)).usage place =
      { t.usage place with opening := (t.usage place).opening.erase slot }.take
        (p.finishGet slot result t.now) := by
  rw [← usage_ended]
  exact usage_take (t := t.ended place slot) hp _ _

theorem usage_finished_of_ne (hne : other ≠ place) {p : Pool κ}
    (hp : t.router.pool? place = some p) (slot : Nat) (result : Except Fault κ) :
    ((t.ended place slot).take (t.router.finishGet place slot result t.now)).usage other =
      t.usage other :=
  (usage_take_of_ne (t := t.ended place slot) hne hp _ _).trans (usage_ended_of_ne hne slot)

theorem mem_opening {h : Handshake} (hh : h ∈ t.opening) : h.slot ∈ (t.usage h.place).opening :=
  mem_pick.2 (List.mem_map.2 ⟨h, hh, rfl⟩)

section lease

variable {i : Nat} {l : Lease κ} (hl : t.leases[i]? = some (place, l))

include hl

theorem usage_giveUp : ∃ j : Nat, (t.usage place).leases[j]? = some l ∧
    (t.giveUp i place l).usage place = (t.usage place).giveUp j := by
  obtain ⟨j, hj, herase, -⟩ := exists_pick_index hl
  have hj' : (t.usage place).leases[j]? = some l := hj
  refine ⟨j, hj', ?_⟩
  rw [Usage.giveUp, hj']
  simp [usage, giveUp, herase]

theorem usage_giveUp_of_ne (hne : other ≠ place) :
    (t.giveUp i place l).usage other = t.usage other := by
  simp [usage, giveUp, pick_eraseIdx_of_ne hl (Ne.symm hne), pick_cons_of_ne (Ne.symm hne)]

theorem usage_put (l' : Lease κ) : ∃ j : Nat, (t.usage place).leases[j]? = some l ∧
    (t.put i place l').usage place = (t.usage place).put j l' := by
  obtain ⟨j, hj, -, hset⟩ := exists_pick_index hl
  refine ⟨j, hj, ?_⟩
  have hopened : ∀ xs : List (Place × Leased κ),
      pick place (xs.map fun o =>
          if o.1 = place ∧ o.2.id = l'.leased.id then (place, l'.leased) else o) =
        (pick place xs).map fun o => if o.id = l'.leased.id then l'.leased else o := by
    intro xs
    induction xs with
    | nil => rfl
    | cons x xs ih =>
      obtain ⟨q, o⟩ := x
      by_cases hq : q = place
      · by_cases ho : o.id = l'.leased.id <;> simpa [hq, ho] using ih
      · simpa [hq, pick_cons_of_ne hq] using ih
  simp [usage, put, Usage.put, hset, hopened]

theorem usage_put_of_ne (hne : other ≠ place) (l' : Lease κ) :
    (t.put i place l').usage other = t.usage other := by
  have hopened : ∀ xs : List (Place × Leased κ),
      pick other (xs.map fun o =>
          if o.1 = place ∧ o.2.id = l'.leased.id then (place, l'.leased) else o) =
        pick other xs := by
    intro xs
    induction xs with
    | nil => rfl
    | cons x xs ih =>
      rw [List.map_cons, pick_cons, pick_cons, ih]
      split
      · next hx => simp [hx.1, Ne.symm hne]
      · rfl
  simp [usage, put, pick_set_of_ne hl (Ne.symm hne), hopened]

theorem usage_discard : ∃ j : Nat, (t.usage place).leases[j]? = some l ∧
    ({ t with leases := t.leases.set i (place, l.discard) } : Traffic κ).usage place =
      { t.usage place with leases := (t.usage place).leases.set j l.discard } := by
  obtain ⟨j, hj, -, hset⟩ := exists_pick_index hl
  exact ⟨j, hj, by simp [usage, hset]⟩

theorem usage_discard_of_ne (hne : other ≠ place) :
    ({ t with leases := t.leases.set i (place, l.discard) } : Traffic κ).usage other =
      t.usage other := by
  simp [usage, pick_set_of_ne hl (Ne.symm hne)]

end lease

end usage

end Traffic

end SessionPool
