import SessionPool.Lease
import SessionPool.Proofs.Pool.Operations

/-!
# A pool in use

A usage is a pool together with everything outside it that a history of the pool depends on: the
clock, the outstanding leases, the handshakes in progress, and a record of what happened so far. An
action may come at any time, also between the two halves of getting a session, so the steps that run
inside a handshake are ordinary actions between its beginning and its end. An action happens at one
point in time, and the clock moves only between actions; so to reassign a lease is to drop it and to
begin a get at the same time. `Change` lists what an action can do, and `Owned.change` derives that
list from the operations of the pool; every law of histories is proved from the list alone.
-/

namespace SessionPool

/-- `opening` are the slots reserved for the handshakes in progress, `opened` the sessions that
handshakes returned, each in its present state, and `returns` the numbers of those given back, the
latest first. -/
structure Usage (κ : Type) where
  pool : Pool κ
  now : Nat := 0
  leases : List (Lease κ) := []
  opening : List Nat := []
  opened : List (Leased κ) := []
  tornDown : List (Member κ) := []
  returns : List Nat := []

namespace Usage

variable {κ : Type}

def start (name : String) (options : PoolOptions) (bound : Option Nat) : Usage κ :=
  { pool := .fresh name options bound }

theorem start_resting (name : String) (options : PoolOptions) (bound : Option Nat) :
    (start name options bound : Usage κ).pool.resting = [] :=
  (Pool.shows_fresh name options bound).resting

/-- What can be done with a pool. Leases are named by their place among the outstanding ones, and a
place where there is none stands for a holder without a lease. -/
inductive Action (κ : Type)
  | get
  | finish (slot : Nat) (result : Except Fault κ)
  | execute (i : Nat) (c : Command)
  | discard (i : Nat)
  | drop (i : Nat)
  | reassign (i : Nat)
  | close
  | setClock (now : Nat)

def take {α : Type} (done : Outcome κ α) (u : Usage κ) : Usage κ :=
  { u with pool := done.pool, tornDown := u.tornDown ++ done.tornDown }

def lend (l : Leased κ) (u : Usage κ) : Usage κ := { u with leases := .ofLeased l :: u.leases }

def begin (done : Outcome κ (Attempt κ)) (u : Usage κ) : Usage κ :=
  match done.answer with
  | .refused _ => u.take done
  | .reused l => (u.take done).lend l
  | .opening slot => { u.take done with opening := slot :: u.opening }

def finish (slot : Nat) (done : Outcome κ (Except Fault (Leased κ))) (u : Usage κ) : Usage κ :=
  let u' := { u.take done with opening := u.opening.erase slot }
  match done.answer with
  | .ok l => { u'.lend l with opened := u.opened ++ [l] }
  | .error _ => u'

def giveUp (i : Nat) (u : Usage κ) : Usage κ :=
  { u with
    leases := u.leases.eraseIdx i
    returns := u.leases[i]?.toList.map (fun l => l.leased.id) ++ u.returns }

def put (i : Nat) (l : Lease κ) (u : Usage κ) : Usage κ :=
  { u with
    leases := u.leases.set i l
    opened := u.opened.map fun o => if o.id = l.leased.id then l.leased else o }

def step [Transport κ] (u : Usage κ) : Action κ → Usage κ
  | .get => u.begin (u.pool.beginGet u.now)
  | .finish slot result =>
    if slot ∈ u.opening then u.finish slot (u.pool.finishGet slot result u.now) else u
  | .execute i c =>
    match u.leases[i]? with
    | some l => u.put i (l.execute c).2
    | none => u
  | .discard i =>
    match u.leases[i]? with
    | some l => { u with leases := u.leases.set i l.discard }
    | none => u
  | .drop i =>
    match u.leases[i]? with
    | some l => (u.giveUp i).take (l.release u.now u.pool)
    | none => u
  | .reassign i => (u.giveUp i).begin (Lease.beginReassign u.leases[i]? u.now u.pool)
  | .close => u.take u.pool.close
  | .setClock now => { u with now }

def run [Transport κ] (u : Usage κ) (as : List (Action κ)) : Usage κ := as.foldl step u

theorem run_append [Transport κ] (u : Usage κ) (as bs : List (Action κ)) :
    u.run (as ++ bs) = (u.run as).run bs := List.foldl_append

theorem begin_take {α : Type} (first : Outcome κ α) (second : Outcome κ (Attempt κ)) (u : Usage κ) :
    u.begin { second with tornDown := first.tornDown ++ second.tornDown } =
      (u.take first).begin second := by
  obtain ⟨attempt, tornDown, pool⟩ := second
  cases attempt <;> simp [begin, take, lend]

theorem step_reassign [Transport κ] (u : Usage κ) (i : Nat) :
    u.step (.reassign i) = (u.step (.drop i)).step .get := by
  cases hl : u.leases[i]? with
  | none =>
    have hu : u.giveUp i = u := by
      simp [giveUp, hl, List.eraseIdx_of_length_le (List.getElem?_eq_none_iff.1 hl)]
    simp only [step, hl, hu]
    rfl
  | some l =>
    simp only [step, hl]
    exact begin_take (l.release u.now u.pool) _ (u.giveUp i)

def taken (u : Usage κ) : List Nat := u.leases.map (fun l => l.leased.slot) ++ u.opening

theorem taken_length (u : Usage κ) : u.taken.length = u.leases.length + u.opening.length := by
  rw [taken, List.length_append, List.length_map]

/-- The pool holds the idle sessions, and a reserved block for every lease and every handshake. -/
def Owned (u : Usage κ) : Prop := u.pool.Shows u.pool.resting [] u.taken

def retire (p : Pool κ) (u : Usage κ) : Usage κ :=
  { u with
    pool := p
    tornDown := u.tornDown ++
      (Pool.retired u.pool.options u.now u.pool.resting).map Resting.member }

/-- What an action can do, reassigning aside, which is two actions. -/
inductive Change [Transport κ] (u : Usage κ) : Action κ → Usage κ → Prop
  | closed (hc : u.pool.closed = true) : Change u .get u
  | reused {x rest p} (ho : u.pool.closed = false)
      (hu : Pool.usable u.pool.options u.now u.pool.resting = x :: rest)
      (hr : p.resting = rest) (hh : p.header = u.pool.header) :
    Change u .get ((u.retire p).lend x.leased)
  | overload {limit p} (ho : u.pool.closed = false)
      (hu : Pool.usable u.pool.options u.now u.pool.resting = [])
      (hl : u.pool.options.activeLimit = some limit) (hle : limit ≤ u.taken.length)
      (hr : p.resting = []) (hh : p.header = u.pool.header) :
    Change u .get (u.retire p)
  | allocation {p} (ho : u.pool.closed = false)
      (hu : Pool.usable u.pool.options u.now u.pool.resting = [])
      (hroom : Pool.Room u.pool.options u.taken.length) (hr : p.resting = [])
      (hh : p.header = { u.pool.header with failures := u.pool.failures + 1 }) :
    Change u .get (u.retire p)
  | began {slot p} (ho : u.pool.closed = false)
      (hu : Pool.usable u.pool.options u.now u.pool.resting = [])
      (hroom : Pool.Room u.pool.options u.taken.length) (hr : p.resting = [])
      (hh : p.header = u.pool.header) :
    Change u .get { u.retire p with opening := slot :: u.opening }
  | noHandshake {slot result} (hs : slot ∉ u.opening) : Change u (.finish slot result) u
  | opened {slot session p} (hs : slot ∈ u.opening) (hr : p.resting = u.pool.resting)
      (hh : p.header = { u.pool.header with nextId := u.pool.nextId + 1 }) :
    Change u (.finish slot (.ok session))
      { u with
        pool := p
        leases := .ofLeased ⟨slot, u.pool.nextId, u.now, session⟩ :: u.leases
        opening := u.opening.erase slot
        opened := u.opened ++ [⟨slot, u.pool.nextId, u.now, session⟩] }
  | failed {slot cause p} (hs : slot ∈ u.opening) (hr : p.resting = u.pool.resting)
      (hh : p.header = { u.pool.header with failures := u.pool.failures + 1 }) :
    Change u (.finish slot (.error cause))
      { u with pool := p, opening := u.opening.erase slot }
  | unused {i c} (hl : u.leases[i]? = none) : Change u (.execute i c) u
  | executed {i c l} (hl : u.leases[i]? = some l) :
    Change u (.execute i c) (u.put i (l.execute c).2)
  | unmarked {i} (hl : u.leases[i]? = none) : Change u (.discard i) u
  | marked {i l} (hl : u.leases[i]? = some l) :
    Change u (.discard i) { u with leases := u.leases.set i l.discard }
  | undropped {i} (hl : u.leases[i]? = none) : Change u (.drop i) u
  | destroyed {i l p} (hl : u.leases[i]? = some l)
      (hk : u.pool.keeps l.discarded l.leased.session = false)
      (hr : p.resting = u.pool.resting) (hh : p.header = u.pool.header) :
    Change u (.drop i)
      { u with
        pool := p
        leases := u.leases.eraseIdx i
        tornDown := u.tornDown ++ [l.leased.member]
        returns := l.leased.id :: u.returns }
  | kept {i l p} (hl : u.leases[i]? = some l)
      (hk : u.pool.keeps l.discarded l.leased.session = true)
      (hroom : ∀ limit, u.pool.options.idleLimit = some limit → u.pool.resting.length < limit)
      (hr : p.resting = l.leased.resting u.now :: u.pool.resting) (hh : p.header = u.pool.header) :
    Change u (.drop i)
      { u with
        pool := p
        leases := u.leases.eraseIdx i
        returns := l.leased.id :: u.returns }
  | evicted {i l p limit init last} (hl : u.leases[i]? = some l)
      (hk : u.pool.keeps l.discarded l.leased.session = true)
      (hlim : u.pool.options.idleLimit = some limit) (hle : limit ≤ u.pool.resting.length)
      (hi : u.pool.resting = init ++ [last])
      (hr : p.resting = l.leased.resting u.now :: init) (hh : p.header = u.pool.header) :
    Change u (.drop i)
      { u with
        pool := p
        leases := u.leases.eraseIdx i
        tornDown := u.tornDown ++ [last.member]
        returns := l.leased.id :: u.returns }
  | already (hc : u.pool.closed = true) : Change u .close u
  | drained {p} (ho : u.pool.closed = false) (hr : p.resting = [])
      (hh : p.header = { u.pool.header with closed := true }) :
    Change u .close
      { u with pool := p, tornDown := u.tornDown ++ u.pool.resting.map Resting.member }
  | clock {now} : Change u (.setClock now) { u with now }

variable {u : Usage κ}

theorem Owned.ofShows {p : Pool κ} {idle : List (Resting κ)} {reserved : List Nat}
    (hp : u.pool = p) (h : p.Shows idle [] reserved) (ht : reserved.Perm u.taken) : u.Owned := by
  rw [Owned, hp, h.resting]
  exact h.perm (.refl _) ht

theorem owned_start (name : String) (options : PoolOptions) (bound : Option Nat) :
    (start name options bound : Usage κ).Owned :=
  .ofShows rfl (Pool.shows_fresh name options bound) (.refl _)

theorem Owned.change_get [Transport κ] (h : u.Owned) :
    u.Change .get (u.step .get) ∧ (u.step .get).Owned := by
  obtain ⟨idle', reserved', hb, hs⟩ := Pool.Shows.beginGet h u.now
  simp only [step]
  generalize u.pool.beginGet u.now = done at hb hs
  cases hb with
  | closed hc =>
    have hu : u.begin ⟨.refused (.poolClosed u.pool.name), [], u.pool⟩ = u := by
      simp [begin, take]
    rw [hu]
    exact ⟨.closed hc, h⟩
  | reused ho hu hh => exact ⟨.reused ho hu hs.resting hh, .ofShows rfl hs (.refl _)⟩
  | overload ho hu hl hle hh =>
    exact ⟨.overload ho hu hl hle hs.resting hh, .ofShows rfl hs (.refl _)⟩
  | allocation ho hu hr hh => exact ⟨.allocation ho hu hr hs.resting hh, .ofShows rfl hs (.refl _)⟩
  | opening ho hu hr hh =>
    exact ⟨.began ho hu hr hs.resting hh, .ofShows rfl hs List.perm_middle.symm⟩

theorem taken_perm_of_opening {slot : Nat} (hs : slot ∈ u.opening) :
    u.taken.Perm (slot :: (u.leases.map (fun l => l.leased.slot) ++ u.opening.erase slot)) :=
  ((List.perm_cons_erase hs).append_left _).trans List.perm_middle

theorem Owned.change_finish [Transport κ] (h : u.Owned) (slot : Nat) (result : Except Fault κ) :
    u.Change (.finish slot result) (u.step (.finish slot result)) ∧
      (u.step (.finish slot result)).Owned := by
  by_cases hslot : slot ∈ u.opening
  · obtain ⟨reserved', hf, hs⟩ :=
      Pool.Shows.finishGet (h.perm (.refl _) (taken_perm_of_opening hslot)) result u.now
    simp only [step, if_pos hslot]
    generalize u.pool.finishGet slot result u.now = done at hf hs
    cases hf with
    | opened hh =>
      refine ⟨?_, .ofShows rfl hs (.refl _)⟩
      simpa [finish, take, lend] using Change.opened hslot hs.resting hh
    | failed hh =>
      refine ⟨?_, .ofShows rfl hs (.refl _)⟩
      simpa [finish, take] using Change.failed hslot hs.resting hh
  · simp only [step, if_neg hslot]
    exact ⟨.noHandshake hslot, h⟩

theorem perm_lease {α : Type} {leases : List α} {i : Nat} {l : α} (hl : leases[i]? = some l) :
    leases.Perm (l :: leases.eraseIdx i) := by
  obtain ⟨hi, rfl⟩ := List.getElem?_eq_some_iff.1 hl
  exact (List.getElem_cons_eraseIdx_perm hi).symm

theorem perm_set_lease {α : Type} {leases : List α} {i : Nat} {l : α} (hl : leases[i]? = some l)
    (l' : α) : (leases.set i l').Perm (l' :: leases.eraseIdx i) := by
  obtain ⟨hi, -⟩ := List.getElem?_eq_some_iff.1 hl
  exact List.set_perm_cons_eraseIdx hi l'

theorem taken_perm_set {i : Nat} {l l' : Lease κ} (hl : u.leases[i]? = some l)
    (hs : l'.leased.slot = l.leased.slot) :
    u.taken.Perm ((u.leases.set i l').map (fun l => l.leased.slot) ++ u.opening) := by
  refine List.Perm.append_right _ ?_
  have h₁ := (perm_lease hl).map fun l => l.leased.slot
  have h₂ := (perm_set_lease hl l').map fun l => l.leased.slot
  rw [List.map_cons] at h₁ h₂
  rw [hs] at h₂
  exact h₁.trans h₂.symm

theorem taken_perm_of_lease {i : Nat} {l : Lease κ} (hl : u.leases[i]? = some l) :
    u.taken.Perm
      (l.leased.slot :: ((u.leases.eraseIdx i).map (fun l => l.leased.slot) ++ u.opening)) :=
  ((perm_lease hl).map _).append_right _

theorem Owned.change_drop [Transport κ] (h : u.Owned) (i : Nat) :
    u.Change (.drop i) (u.step (.drop i)) ∧ (u.step (.drop i)).Owned := by
  cases hl : u.leases[i]? with
  | none =>
    simp only [step, hl]
    exact ⟨.undropped hl, h⟩
  | some l =>
    obtain ⟨idle', hg, hs⟩ :=
      Pool.Shows.giveBack (h.perm (.refl _) (taken_perm_of_lease hl)) l.discarded u.now
    simp only [step, hl, Lease.release]
    generalize u.pool.giveBack l.leased l.discarded u.now = done at hg hs
    have ho : ((u.giveUp i).take done).Owned := .ofShows rfl hs (.refl _)
    refine ⟨?_, ho⟩
    cases hg with
    | destroyed hk hh =>
      simpa [giveUp, hl, take] using Change.destroyed hl hk hs.resting hh
    | kept hk hr hh => simpa [giveUp, hl, take] using Change.kept hl hk hr hs.resting hh
    | evicted hk hlim hle hi hh =>
      simpa [giveUp, hl, take] using Change.evicted hl hk hlim hle hi hs.resting hh

theorem Change.now_eq [Transport κ] {u' : Usage κ} {a : Action κ} (h : u.Change a u')
    (ha : ∀ now, a ≠ .setClock now) : u'.now = u.now := by
  cases h with
  | clock => exact absurd rfl (ha _)
  | _ => rfl

theorem Change.resting [Transport κ] {u' : Usage κ} {a : Action κ} (h : u.Change a u') :
    u'.pool.resting.Sublist u.pool.resting ∨ ∃ i l rest, a = .drop i ∧ u.leases[i]? = some l ∧
      rest.Sublist u.pool.resting ∧ u'.pool.resting = l.leased.resting u.now :: rest := by
  cases h with
  | closed | noHandshake | unused | executed | unmarked | marked | undropped | already | clock =>
    exact .inl (.refl _)
  | @reused x rest p ho hu hr hh =>
    have hs : (x :: rest).Sublist u.pool.resting := hu ▸ Pool.usable_sublist _ _ _
    rw [← hr] at hs
    exact .inl ((List.sublist_cons_self x _).trans hs)
  | overload ho hu hl hle hr hh | allocation ho hu hroom hr hh | began ho hu hroom hr hh
  | drained ho hr hh => exact .inl (hr ▸ List.nil_sublist _)
  | opened hs hr hh | failed hs hr hh | destroyed hl hk hr hh => exact .inl (hr ▸ .refl _)
  | kept hl hk hroom hr hh => exact .inr ⟨_, _, _, rfl, hl, .refl _, hr⟩
  | evicted hl hk hlim hle hi hr hh =>
    exact .inr ⟨_, _, _, rfl, hl, hi ▸ List.sublist_append_left _ _, hr⟩

theorem Owned.change [Transport κ] (h : u.Owned) {a : Action κ} (ha : ∀ i, a ≠ .reassign i) :
    u.Change a (u.step a) ∧ (u.step a).Owned := by
  cases a with
  | get => exact h.change_get
  | finish slot result => exact h.change_finish slot result
  | execute i c =>
    cases hl : u.leases[i]? with
    | none =>
      simp only [step, hl]
      exact ⟨.unused hl, h⟩
    | some l =>
      simp only [step, hl]
      exact ⟨.executed hl, .ofShows rfl h (taken_perm_set hl rfl)⟩
  | discard i =>
    cases hl : u.leases[i]? with
    | none =>
      simp only [step, hl]
      exact ⟨.unmarked hl, h⟩
    | some l =>
      simp only [step, hl]
      exact ⟨.marked hl, .ofShows rfl h (taken_perm_set hl rfl)⟩
  | drop i => exact h.change_drop i
  | reassign i => exact absurd rfl (ha i)
  | close =>
    obtain ⟨idle', hc, hs⟩ := Pool.Shows.close h
    simp only [step]
    generalize u.pool.close = done at hc hs
    cases hc with
    | already hc =>
      have hu : u.take (⟨(), [], u.pool⟩ : Outcome κ Unit) = u := by simp [take]
      rw [hu]
      exact ⟨.already hc, h⟩
    | drained ho hh => exact ⟨.drained ho hs.resting hh, .ofShows rfl hs (.refl _)⟩
  | setClock now => exact ⟨.clock, h⟩

theorem Owned.step [Transport κ] (h : u.Owned) (a : Action κ) : (u.step a).Owned := by
  by_cases ha : ∃ i, a = .reassign i
  · obtain ⟨i, rfl⟩ := ha
    rw [step_reassign]
    exact (h.change_drop i).2.change_get.2
  · exact (h.change fun i hi => ha ⟨i, hi⟩).2

theorem Owned.run [Transport κ] (h : u.Owned) (as : List (Action κ)) : (u.run as).Owned := by
  induction as generalizing u with
  | nil => exact h
  | cons a as ih => exact ih (h.step a)

theorem Owned.step_keeps [Transport κ] {P : Usage κ → Prop}
    (change : ∀ {u u' : Usage κ} {a : Action κ}, u.Owned → P u → u.Change a u' → P u')
    (h : u.Owned) (hp : P u) (a : Action κ) : P (u.step a) := by
  by_cases ha : ∃ i, a = .reassign i
  · obtain ⟨i, rfl⟩ := ha
    have hd := h.change_drop i
    rw [step_reassign]
    exact change hd.2 (change h hp hd.1) hd.2.change_get.1
  · exact change h hp (h.change fun i hi => ha ⟨i, hi⟩).1

theorem Owned.run_keeps [Transport κ] {P : Usage κ → Prop}
    (change : ∀ {u u' : Usage κ} {a : Action κ}, u.Owned → P u → u.Change a u' → P u')
    (h : u.Owned) (hp : P u) (as : List (Action κ)) : P (u.run as) := by
  induction as generalizing u with
  | nil => exact hp
  | cons a as ih => exact ih (h.step a) (h.step_keeps change hp a)

end Usage

end SessionPool
