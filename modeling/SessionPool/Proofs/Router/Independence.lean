import SessionPool.Proofs.Router.Configuring

/-!
# Pools do not interfere

Handshakes that depend on nothing but the server and the clock are run one after the other. What is
done with a router is then cut into what is done at each place, and every place shows what one pool
shows that is used alone, with the same handshakes and at the same times.
-/

namespace SessionPool

structure Shaken (κ : Type) where
  result : Except Fault κ
  now : Nat

/-- What is done with one pool. Leases are named by the numbers of their sessions. -/
inductive Deed
  | get
  | execute (id : Nat) (c : Command)
  | discard (id : Nat)
  | drop (id : Nat)
  deriving DecidableEq

inductive Yield (κ : Type)
  | session (answer : Except Fault (Leased κ))
  | reply (answer : Option (Except Fault Reply))
  | nothing

structure Report (κ : Type) where
  yield : Yield κ
  after : Usage κ

/-! ## One pool -/

namespace Usage

variable {κ : Type} [Transport κ]

def fetch (connect : Nat → Shaken κ) (u : Usage κ) : Except Fault (Leased κ) × Usage κ :=
  match (u.pool.beginGet u.now).answer with
  | .refused f => (.error f, u.step .get)
  | .reused l => (.ok l, u.step .get)
  | .opening slot =>
    let shaken := connect u.now
    let u := (u.step .get).step (.setClock shaken.now)
    ((u.pool.finishGet slot shaken.result u.now).answer, u.step (.finish slot shaken.result))

def position (u : Usage κ) (id : Nat) : Nat := (u.leases.map fun l => l.leased.id).idxOf id

def perform (connect : Nat → Shaken κ) (u : Usage κ) : Deed → Yield κ × Usage κ
  | .get => ((.session (u.fetch connect).1), (u.fetch connect).2)
  | .execute id c => (.reply ((u.leases[u.position id]?).map fun l => (l.execute c).1),
      u.step (.execute (u.position id) c))
  | .discard id => (.nothing, u.step (.discard (u.position id)))
  | .drop id => (.nothing, u.step (.drop (u.position id)))

def replay (connect : Nat → Shaken κ) (u : Usage κ) : List (Nat × Deed) → List (Report κ) × Usage κ
  | [] => ([], u)
  | (now, deed) :: rest =>
    let done := (u.step (.setClock now)).perform connect deed
    let others := replay connect done.2 rest
    (⟨done.1, done.2⟩ :: others.1, others.2)

omit [Transport κ] in
theorem Accounted.position_eq {u : Usage κ} (h : u.Accounted) {j : Nat} {l : Lease κ}
    (hl : u.leases[j]? = some l) : u.position l.leased.id = j := by
  have hids : (u.leases.map fun l => l.leased.id).Nodup := by
    have hnd := h.held_nodup
    rw [held, List.map_append, List.map_map] at hnd
    exact (List.nodup_append.1 hnd).1
  obtain ⟨hj, rfl⟩ := List.getElem?_eq_some_iff.1 hl
  have hat := hids.idxOf_getElem j (by rwa [List.length_map])
  rwa [List.getElem_map] at hat

end Usage

/-! ## A table that stands -/

namespace Router

variable {κ : Type} {r r' : Router κ} {i : Nat} {s : RoutingTable κ} {place : Place}

/-- Table `i` is installed, and but for its pools it is `s`. -/
structure Stands (i : Nat) (s : RoutingTable κ) (r : Router κ) : Prop where
  installed : r.installed = some i
  table : ∃ pools, r.tables[i]? = some { s with pools }

theorem Stands.modify (h : Stands i s r) {f : RoutingTable κ → RoutingTable κ}
    (hf : ∀ t, ∃ pools, f t = { t with pools }) (j : Nat) :
    Stands i s { r with tables := r.tables.modify j f } := by
  obtain ⟨pools, ht⟩ := h.table
  refine ⟨h.installed, ?_⟩
  rw [Array.getElem?_modify]
  split
  · obtain ⟨pools', hpools⟩ := hf { s with pools }
    exact ⟨pools', by rw [ht, Option.map_some, hpools]⟩
  · exact ⟨pools, ht⟩

theorem Stands.onPool (h : Stands i s r) {α : Type} (absent : α) (op : Pool κ → Outcome κ α) :
    Stands i s (r.onPool place absent op).router := by
  rcases router_onPool_cases (r := r) place absent op with hsame | ⟨p, hset⟩
  · rwa [hsame]
  · rw [hset]
    exact h.modify (fun t => ⟨_, rfl⟩) _

theorem Stands.claim (h : Stands i s r) {j : Nat} {key : PoolKey}
    (hc : r.claim j key = .ok (place, r')) : Stands i s r' := by
  rw [Router.claim] at hc
  split at hc
  · split at hc
    · cases hc
    · cases hc
      refine h.modify (fun t => ?_) j
      rw [RoutingTable.withPool]
      split
      · exact ⟨t.pools, rfl⟩
      · exact ⟨_, rfl⟩
  · cases hc

variable {partition draw : Nat} {role : Role} {replica : Option Nat}

theorem Stands.routed (h : Stands i s r)
    (hr : r.route partition role replica draw = .ok (place, r')) : Stands i s r' := by
  rw [route] at hr
  split at hr
  · cases hr
  · split at hr
    · exact h.claim hr
    · cases hr

theorem Stands.route_eq (h : Stands i s r) (hopen : s.closed = false)
    (hlt : partition < maxPartitions) : ∃ r', r.route partition role replica draw =
      .ok (⟨i, s.resolve partition role replica draw⟩, r') := by
  obtain ⟨pools, ht⟩ := h.table
  have htable : r.table? = some { s with pools } := by
    rw [table?, h.installed]
    exact ht
  have hclaim : r.route partition role replica draw =
      r.claim i (s.resolve partition role replica draw) := by
    rw [route, if_neg (Nat.not_le.2 hlt), h.installed, htable]
    rfl
  have hclosed : ({ s with pools } : RoutingTable κ).closed ≠ true := by simp [hopen]
  rw [hclaim, Router.claim, ht]
  exact ⟨_, if_neg hclosed⟩

theorem Stands.plan? (h : Stands i s r) : r.plan? i = some s.plan := by
  obtain ⟨pools, ht⟩ := h.table
  rw [Router.plan?, ht]
  rfl

end Router

namespace Traffic

variable {κ : Type} [Transport κ]

/-! ## Whole operations on a router -/

inductive Move
  | get (partition : Nat) (role : Role) (replica : Option Nat) (draw : Nat)
  | execute (i : Nat) (c : Command)
  | discard (i : Nat)
  | drop (i : Nat)
  | configure (c : RouterConfig)
  | setClock (now : Nat)

def shake (connect : Target → Nat → Shaken κ) (target : Option Target) (now : Nat) : Shaken κ :=
  target.elim ⟨.error .notConfigured, now⟩ fun target => connect target now

def fetch (connect : Target → Nat → Shaken κ) (call : Call) (place : Place) (t : Traffic κ) :
    Except Fault (Leased κ) × Traffic κ :=
  match (t.router.beginGet place t.now).answer with
  | .refused f => (.error f, t.begin call place)
  | .reused l => (.ok l, t.begin call place)
  | .opening slot =>
    let shaken := shake connect (t.router.target? place) t.now
    let t := (t.begin call place).step (.setClock shaken.now)
    ((t.router.finishGet place slot shaken.result t.now).answer,
      t.step (.finish place slot fun _ => shaken.result))

def move (connect : Target → Nat → Shaken κ) (t : Traffic κ) :
    Move → Option (Place × Deed × Yield κ) × Traffic κ
  | .get partition role replica draw =>
    match t.router.route partition role replica draw with
    | .ok (place, router) =>
      let done :=
        { t with router }.fetch connect ⟨partition, role, replica, t.router.installed⟩ place
      (some (place, .get, .session done.1), done.2)
    | .error _ => (none, t)
  | .execute i c =>
    ((t.leases[i]?).map fun x => (x.1, .execute x.2.leased.id c, .reply (some (x.2.execute c).1)),
      t.step (.execute i c))
  | .discard i =>
    ((t.leases[i]?).map fun x => (x.1, .discard x.2.leased.id, .nothing), t.step (.discard i))
  | .drop i => ((t.leases[i]?).map fun x => (x.1, .drop x.2.leased.id, .nothing), t.step (.drop i))
  | .configure c => (none, t.step (.configure c))
  | .setClock now => (none, t.step (.setClock now))

def trace (connect : Target → Nat → Shaken κ) (t : Traffic κ) :
    List Move → List (Place × (Nat × Deed) × Report κ) × Traffic κ
  | [] => ([], t)
  | m :: ms =>
    let done := t.move connect m
    let others := trace connect done.2 ms
    (done.1.toList.map (fun (place, deed, yield) =>
      (place, (t.now, deed), ⟨yield, done.2.usage place⟩)) ++ others.1, others.2)

def seen (connect : Target → Nat → Shaken κ) (place : Place) (t : Traffic κ) (ms : List Move) :
    List ((Nat × Deed) × Report κ) :=
  pick place (t.trace connect ms).1

/-! ## A move at one place -/

variable {connect : Target → Nat → Shaken κ} {t t' : Traffic κ} {place : Place}
  {p : Pool κ} {i : Nat}
  {s : RoutingTable κ}

theorem At.elsewhere {as : List (Usage.Action κ)} (h : At place as t t') {other : Place}
    (hne : other ≠ place) : t'.usage other = { t.usage other with now := t'.now } := by
  have hu := h.others other hne
  have hnow : t'.now = t.now := congrArg Usage.now hu
  rw [hnow]
  exact hu

omit [Transport κ] in
theorem stands_begin (h : t.router.Stands i s) (call : Call) :
    (t.begin call place).router.Stands i s := by
  rw [router_begin]
  exact h.onPool _ _

omit [Transport κ] in
theorem stands_finishGet (h : t.router.Stands i s) (call : Call) (slot : Nat)
    (result : Except Fault κ) : (t.finishGet call place slot result).router.Stands i s := by
  rw [router_finishGet]
  exact h.onPool _ _

/-- What is done to the traffic when a deed is done at a place. -/
structure Does (connect : Target → Nat → Shaken κ) (t : Traffic κ) (place : Place) (deed : Deed)
    (yield : Yield κ) (t' : Traffic κ) : Prop where
  sound : t'.Sound
  stands : ∀ i s, t.router.Stands i s → t'.router.Stands i s
  here : ∀ s, t.router.plan? place.table = some s →
    (t.usage place).perform (connect (s.target place.key)) deed = (yield, t'.usage place)
  elsewhere : ∀ other ≠ place, t'.usage other = { t.usage other with now := t'.now }

theorem Sound.fetch_at_once (h : t.Sound) (hp : t.router.pool? place = some p) (call : Call)
    (answer : Except Fault (Leased κ))
    (ht : t.fetch connect call place = (answer, t.begin call place))
    (hu : ∀ connect, (t.usage place).fetch connect = (answer, (t.usage place).step .get)) :
    Does connect t place .get (.session (t.fetch connect call place).1)
      (t.fetch connect call place).2 := by
  have hget := h.begin hp call
  have hhere : (t.begin call place).usage place = (t.usage place).step .get := hget.here
  rw [ht]
  refine ⟨hget.sound, fun i s hst => stands_begin hst call, fun s _ => ?_,
    fun other hne => hget.elsewhere hne⟩
  rw [Usage.perform, hu, hhere]

theorem fetch_of_opening {slot : Nat} (ha : (t.router.beginGet place t.now).answer = .opening slot)
    (call : Call) :
    let shaken := shake connect (t.router.target? place) t.now
    let begun := (t.begin call place).step (.setClock shaken.now)
    t.fetch connect call place =
      ((begun.router.finishGet place slot shaken.result begun.now).answer,
        begun.finishGet call place slot shaken.result) := by
  intro shaken begun
  have hopening : begun.opening = _ := begin_opening ha call
  have hstep : begun.step (.finish place slot fun _ => shaken.result) =
      begun.finishGet call place slot shaken.result := (step_finish hopening shaken.result).1
  rw [← hstep, Traffic.fetch, ha]

theorem Sound.fetch_opening (h : t.Sound) (hp : t.router.pool? place = some p) (call : Call)
    {slot : Nat} (ha : (p.beginGet t.now).answer = .opening slot) :
    Does connect t place .get (.session (t.fetch connect call place).1)
      (t.fetch connect call place).2 := by
  have hanswer : (t.router.beginGet place t.now).answer = .opening slot :=
    (Router.answer_onPool hp _ _).trans ha
  have hpool : (t.usage place).pool = p := Router.poolAt_of_some hp
  have hget := h.begin hp call
  rw [fetch_of_opening hanswer call]
  set shaken := shake connect (t.router.target? place) t.now with hshaken
  set begun := (t.begin call place).step (.setClock shaken.now)
  have hbegin : begun.Sound := (hget.sound.setClock shaken.now).sound
  have hslot : slot ∈ (begun.usage place).opening := by
    have hopening : begun.opening = _ := begin_opening hanswer call
    exact mem_opening (hopening ▸ List.mem_cons_self)
  obtain ⟨q, hq⟩ := hbegin.made (.inr (List.ne_nil_of_mem hslot))
  have hfinish := hbegin.finishGet hq hslot call shaken.result
  have hyield : (begun.router.finishGet place slot shaken.result begun.now).answer =
      (q.finishGet slot shaken.result begun.now).answer := Router.answer_onPool hq _ _
  refine ⟨hfinish.sound, fun i s hst => ?_, fun s hs => ?_, fun other hne => ?_⟩
  · have hbegun : begun.router.Stands i s := stands_begin hst call
    exact stands_finishGet hbegun call slot shaken.result
  · have htarget : connect (s.target place.key) t.now = shaken := by
      rw [hshaken, Router.target?_of_plan? hs]
      rfl
    have hnow : (t.usage place).now = t.now := rfl
    have hbegun : ((t.usage place).step .get).step (.setClock shaken.now) = begun.usage place :=
      congrArg (fun u : Usage κ => u.step (.setClock shaken.now)) hget.here.symm
    have hpool' : (begun.usage place).pool = q := Router.poolAt_of_some hq
    rw [hfinish.here, hyield, Usage.perform]
    simp only [Usage.fetch, hpool, hnow, ha, htarget, hbegun, hpool']
    rfl
  · have hbefore : begun.usage other = { t.usage other with now := begun.now } :=
      congrArg (fun u : Usage κ => { u with now := begun.now }) (hget.others other hne)
    rw [hfinish.elsewhere hne, hbefore]

theorem Sound.fetch (connect : Target → Nat → Shaken κ) (h : t.Sound)
    (hp : t.router.pool? place = some p) (call : Call) :
    Does connect t place .get (.session (t.fetch connect call place).1)
      (t.fetch connect call place).2 := by
  have hanswer : (t.router.beginGet place t.now).answer = (p.beginGet t.now).answer :=
    Router.answer_onPool hp _ _
  have hpool : (t.usage place).pool = p := Router.poolAt_of_some hp
  have hnow : (t.usage place).now = t.now := rfl
  cases ha : (p.beginGet t.now).answer with
  | refused f =>
    exact h.fetch_at_once hp call (.error f) (by simp only [Traffic.fetch, hanswer, ha])
      fun connect => by simp only [Usage.fetch, hpool, hnow, ha]
  | reused l =>
    exact h.fetch_at_once hp call (.ok l) (by simp only [Traffic.fetch, hanswer, ha])
      fun connect => by simp only [Usage.fetch, hpool, hnow, ha]
  | opening slot => exact h.fetch_opening hp call ha

theorem does_of_at {a : Usage.Action κ} {deed : Deed} {yield : Yield κ} (h : At place [a] t t')
    (hr : ∀ i s, t.router.Stands i s → t'.router.Stands i s)
    (hu : ∀ connect, (t.usage place).perform connect deed = (yield, (t.usage place).step a)) :
    Does connect t place deed yield t' where
  sound := h.sound
  stands := hr
  here s _ := by
    rw [hu, h.here]
    rfl
  elsewhere _ hne := h.elsewhere hne

theorem Sound.position_eq (h : t.Sound) {k j : Nat} {l : Lease κ}
    (hl : t.leases[k]? = some (place, l))
    (hj : (t.usage place).leases[j]? = some l) : (t.usage place).position l.leased.id = j := by
  obtain ⟨p, hp⟩ := h.lease hl
  exact (h.settled hp).2.accounted.position_eq hj

inductive Moves (connect : Target → Nat → Shaken κ) (t : Traffic κ) :
    Option (Place × Deed × Yield κ) × Traffic κ → Prop
  | deed {place : Place} {deed : Deed} {yield : Yield κ} {t' : Traffic κ}
      (h : Does connect t place deed yield t') : Moves connect t (some (place, deed, yield), t')
  | idle {t' : Traffic κ} (hs : t'.Sound) (hr : t'.router = t.router)
      (hu : ∀ place, t'.usage place = { t.usage place with now := t'.now }) :
    Moves connect t (none, t')

theorem Sound.moves (connect : Target → Nat → Shaken κ) (h : t.Sound)
    (hi : t.router.Stands i s) (m : Move) : Moves connect t (t.move connect m) := by
  have hstill : Moves connect t (none, t) := .idle h rfl fun _ => rfl
  cases m with
  | get partition role replica draw =>
    rw [move]
    split
    · next place r hroute =>
      obtain ⟨hlt, j, s', -, hs', hc⟩ := Router.route_eq_ok hroute
      have hclaimed := h.claimed hc hs' (RoutingTable.has_resolve hlt role replica draw)
      have husage : ∀ q, ({ t with router := r } : Traffic κ).usage q = t.usage q := fun q => by
        simp only [usage, hc.poolAt_eq]
      have hdoes := hclaimed.sound.fetch connect hc.made
        ⟨partition, role, replica, t.router.installed⟩
      refine .deed ⟨hdoes.sound, fun i s hst => hdoes.stands i s (hst.routed hroute),
        fun s hs => ?_, fun other hne => ?_⟩
      · rw [← husage]
        exact hdoes.here s (hc.plans ▸ hs)
      · rw [hdoes.elsewhere other hne, husage]
    · exact hstill
  | execute k c =>
    rw [move, Traffic.step]
    cases hl : t.leases[k]? with
    | none => exact hstill
    | some x =>
      obtain ⟨place, l⟩ := x
      obtain ⟨j, hj, hat⟩ := h.put hl c
      refine .deed (does_of_at hat (fun _ _ => id) fun connect => ?_)
      simp only [Usage.perform, h.position_eq hl hj, hj, Option.map_some]
  | discard k =>
    rw [move, Traffic.step]
    cases hl : t.leases[k]? with
    | none => exact hstill
    | some x =>
      obtain ⟨place, l⟩ := x
      obtain ⟨j, hj, hat⟩ := h.discard hl
      refine .deed (does_of_at hat (fun _ _ => id) fun connect => ?_)
      simp only [Usage.perform, h.position_eq hl hj]
  | drop k =>
    rw [move, Traffic.step]
    cases hl : t.leases[k]? with
    | none => exact hstill
    | some x =>
      obtain ⟨place, l⟩ := x
      obtain ⟨j, hj, hat⟩ := h.drop hl
      refine .deed (does_of_at hat (fun _ _ hst => hst.onPool _ _) fun connect => ?_)
      simp only [Usage.perform, h.position_eq hl hj]
  | configure c =>
    have hd : t.router.draft c = .error .alreadyConfigured :=
      if_pos (by rw [Router.isConfigured, hi.installed]; rfl)
    rw [move, Traffic.step, configure_of_draft hd]
    exact hstill
  | setClock now => exact .idle (h.setClock now).sound rfl fun _ => rfl

/-! ## A run at one place -/

theorem Moves.kept {done : Option (Place × Deed × Yield κ) × Traffic κ} (hm : Moves connect t done)
    (hi : t.router.Stands i s) : done.2.Sound ∧ done.2.router.Stands i s := by
  cases hm with
  | deed h => exact ⟨h.sound, h.stands i s hi⟩
  | idle hs hr hu =>
    refine ⟨hs, ?_⟩
    rwa [hr]

theorem Sound.trace (connect : Target → Nat → Shaken κ) (h : t.Sound)
    (hi : t.router.Stands i s) (key : PoolKey) {v : Usage κ}
    (hv : t.usage ⟨i, key⟩ = { v with now := t.now }) (ms : List Move) :
    let alone := v.replay (connect (s.target key)) ((t.seen connect ⟨i, key⟩ ms).map Prod.fst)
    let last := (t.trace connect ms).2
    (t.seen connect ⟨i, key⟩ ms).map Prod.snd = alone.1 ∧
      last.usage ⟨i, key⟩ = { alone.2 with now := last.now } := by
  induction ms generalizing t v with
  | nil => exact ⟨rfl, hv⟩
  | cons m ms ih =>
    have hm := h.moves connect hi m
    obtain ⟨h', hi'⟩ := hm.kept hi
    have htrace : t.trace connect (m :: ms) = (((t.move connect m).1.toList.map
        fun x => (x.1, (t.now, x.2.1), ⟨x.2.2, (t.move connect m).2.usage x.1⟩)) ++
        ((t.move connect m).2.trace connect ms).1, ((t.move connect m).2.trace connect ms).2) := rfl
    rw [seen, htrace]
    generalize t.move connect m = done at hm h' hi'
    cases hm with
    | @deed place deed yield t' hd =>
      by_cases hplace : place = ⟨i, key⟩
      · subst hplace
        have hperform : (v.step (.setClock t.now)).perform (connect (s.target key)) deed =
            (yield, t'.usage ⟨i, key⟩) := by
          have hhere := hd.here s.plan hi.plan?
          rw [hv] at hhere
          exact hhere
        obtain ⟨hreports, hlast⟩ := ih h' hi' (v := t'.usage ⟨i, key⟩) rfl
        simp only [Option.toList_some, List.map_cons, List.map_nil, List.cons_append,
          List.nil_append, pick_cons_self, Usage.replay, hperform]
        exact ⟨congrArg (List.cons _) hreports, hlast⟩
      · have hv' : t'.usage ⟨i, key⟩ = { v with now := t'.now } := by
          rw [hd.elsewhere _ (Ne.symm hplace), hv]
        simp only [Option.toList_some, List.map_cons, List.map_nil, List.cons_append,
          List.nil_append, pick_cons_of_ne hplace]
        exact ih h' hi' hv'
    | @idle t' hs hr hu =>
      have hv' : t'.usage ⟨i, key⟩ = { v with now := t'.now } := by
        rw [hu, hv]
      exact ih h' hi' hv'

theorem Sound.trace_kept (connect : Target → Nat → Shaken κ) (h : t.Sound)
    (hi : t.router.Stands i s) (ms : List Move) : (t.trace connect ms).2.router.Stands i s := by
  induction ms generalizing t with
  | nil => exact hi
  | cons m ms ih =>
    obtain ⟨h', hi'⟩ := (h.moves connect hi m).kept hi
    exact ih h' hi'

theorem move_run (connect : Target → Nat → Shaken κ) (t : Traffic κ) (m : Move) :
    ∃ bs, (t.move connect m).2 = t.run bs := by
  cases m with
  | get partition role replica draw =>
    rw [move]
    split
    · next place r hroute =>
      have hget : t.step (.get partition role replica draw) =
          ({ t with router := r } : Traffic κ).begin
            ⟨partition, role, replica, t.router.installed⟩ place := by
        rw [step, hroute]
      dsimp only
      rw [fetch, ← hget]
      split
      · exact ⟨[.get partition role replica draw], rfl⟩
      · exact ⟨[.get partition role replica draw], rfl⟩
      · exact ⟨[.get partition role replica draw, .setClock _, .finish place _ fun _ => _], rfl⟩
    · exact ⟨[], rfl⟩
  | execute k c => exact ⟨[.execute k c], rfl⟩
  | discard k => exact ⟨[.discard k], rfl⟩
  | drop k => exact ⟨[.drop k], rfl⟩
  | configure c => exact ⟨[.configure c], rfl⟩
  | setClock now => exact ⟨[.setClock now], rfl⟩

theorem trace_run (connect : Target → Nat → Shaken κ) (t : Traffic κ) (ms : List Move) :
    ∃ bs, (t.trace connect ms).2 = t.run bs := by
  induction ms generalizing t with
  | nil => exact ⟨[], rfl⟩
  | cons m ms ih =>
    obtain ⟨as, ha⟩ := move_run connect t m
    obtain ⟨bs, hb⟩ := ih (t.move connect m).2
    refine ⟨as ++ bs, ?_⟩
    rw [run_append, ← ha, ← hb]
    rfl

theorem Sound.usage_new (h : t.Sound) (hs : t.router.tables[i]? = some s) (hnil : s.pools = [])
    (key : PoolKey) :
    t.usage ⟨i, key⟩ = { Usage.start (s.poolName key) s.options none with now := t.now } := by
  have hp : t.router.pool? ⟨i, key⟩ = none := by
    rw [Router.pool?, hs, Option.bind_some, RoutingTable.pool?_eq_none_iff, hnil]
    exact List.not_mem_nil
  have hpool : (t.usage ⟨i, key⟩).pool = .new (s.poolName key) s.options := by
    change t.router.poolAt ⟨i, key⟩ = _
    rw [Router.poolAt, hp, Router.blank, Router.plan?, hs]
    rfl
  rw [h.unmade _ hp, hpool]
  rfl

theorem drawable_of_ok {c : RouterConfig} (h : t.verdict (.configure c) = some (.ok ())) :
    ∃ master, t.router.Drawable c master := by
  cases hobj : t.router.draftObjections c with
  | nil => exact Router.drawable_of_nil hobj
  | cons f rest =>
    rw [verdict, Router.beginConfigure, Router.draft_of_objection hobj] at h
    cases h

/-- Between a call to configure that succeeds without a warm-up and the next flush, what is done and
seen at each key is what is done and seen at a pool that is used alone; so it does not change with
what is done at other keys, or with how their servers answer. -/
theorem run_independence (replicaLimit : Nat) (as : List (Action κ)) (c : RouterConfig)
    (connect : Target → Nat → Shaken κ)
    (hc : ((start replicaLimit : Traffic κ).run as).verdict (.configure c) = some (.ok ()))
    (hw : c.warmUp = false) :
    let i := ((start replicaLimit : Traffic κ).run as).router.tables.size
    let t := ((start replicaLimit : Traffic κ).run as).step (.configure c)
    ∃ master, Address.parseList c.master = [master] ∧
      let s : RoutingTable κ := .described c master
      ∀ ms,
        (∃ bs, (t.trace connect ms).2 = t.run bs) ∧
        (∀ partition role replica draw, partition < maxPartitions →
          ((t.trace connect ms).2.move connect (.get partition role replica draw)).1.map Prod.fst =
            some ⟨i, s.resolve partition role replica draw⟩) ∧
        ∀ key,
          let seen := t.seen connect ⟨i, key⟩ ms
          let alone := (Usage.start (s.poolName key) c.pool none).replay (connect (s.target key))
            (seen.map Prod.fst)
          seen.map Prod.snd = alone.1 ∧
          (t.trace connect ms).2.usage ⟨i, key⟩ =
            { alone.2 with now := (t.trace connect ms).2.now } ∧
          ∀ connect' ms', connect' (s.target key) = connect (s.target key) →
            (t.seen connect' ⟨i, key⟩ ms').map Prod.fst = seen.map Prod.fst →
            (t.seen connect' ⟨i, key⟩ ms').map Prod.snd = seen.map Prod.snd := by
  intro i t
  obtain ⟨master, hd⟩ := drawable_of_ok hc
  have hbegin := hd.configure_plain hw ((start replicaLimit : Traffic κ).run as).now
  have htable : t.router.tables[i]? = some (.described c master) := by
    change (configure c _).router.tables[i]? = _
    rw [router_configure, hbegin]
    exact Array.getElem?_push_size
  have hinst : t.router.installed = some i := installed_of_ok hc
  have h : t.Sound := (((sound_start replicaLimit).run as).sound.step (.configure c)).sound
  have hstands : t.router.Stands i (.described c master) := ⟨hinst, [], htable⟩
  have htrace := fun connect key ms =>
    h.trace connect hstands key (h.usage_new htable rfl key) ms
  refine ⟨master, hd.master, fun ms => ⟨trace_run connect t ms, ?_, fun key => ?_⟩⟩
  · intro partition role replica draw hlt
    obtain ⟨r, hroute⟩ := (h.trace_kept connect hstands ms).route_eq rfl hlt
    rw [move, hroute]
    rfl
  · obtain ⟨hreports, hlast⟩ := htrace connect key ms
    refine ⟨hreports, hlast, fun connect' ms' hconnect hdeeds => ?_⟩
    obtain ⟨hreports', -⟩ := htrace connect' key ms'
    rw [hreports', hdeeds, hconnect]
    exact hreports.symm

theorem run_independence_of_overload :
    let c : RouterConfig := { master := "m:1", replicas := "a:2", pool := { maxActive := some 1 } }
    let healthy : Target → Nat → Shaken Scenario.Stub := fun _ now => ⟨.ok ⟨now, true⟩, now + 2⟩
    let down : Target → Nat → Shaken Scenario.Stub := fun target now =>
      if target.endpoint.host = "a" then ⟨.error (.io .refused), now + 5⟩
      else healthy target now
    let t : Traffic Scenario.Stub := ((start 15).run []).step (.configure c)
    let busy : List Move :=
      [.get 0 .master none 0, .get 0 .master none 0, .get 0 .replica (some 0) 0,
      .get 1 .master none 0, .drop 0, .get 1 .master none 0]
    let quiet : List Move := [.setClock 7, .get 1 .master none 0, .drop 0, .get 1 .master none 0]
    let failures (key : PoolKey) : List FaultKind :=
      (t.seen down ⟨0, key⟩ busy).filterMap fun x =>
        match x.2.yield with
        | .session (.error f) => some f.kind
        | _ => none
    failures (.ofMaster 0) = [.overload] ∧ failures (.ofReplica 0 0) = [.handshake] ∧
      (t.seen down ⟨0, .ofMaster 1⟩ busy).map (fun x => (x.1, x.2.after.pool.stats)) =
        [((7, .get), ⟨1, 0, 1⟩), ((9, .drop 1), ⟨1, 1, 0⟩), ((9, .get), ⟨1, 0, 1⟩)] ∧
      (t.seen healthy ⟨0, .ofMaster 1⟩ quiet).map Prod.snd =
        (t.seen down ⟨0, .ofMaster 1⟩ busy).map Prod.snd := by
  intro c healthy down t busy quiet failures
  refine ⟨by decide +kernel, by decide +kernel, by decide +kernel, ?_⟩
  obtain ⟨master, hmaster, hms⟩ := run_independence 15 [] c down (by decide +kernel) rfl
  have hparsed : Address.parseList "m:1" = [⟨"m", 1⟩] := by decide +kernel
  obtain rfl : ⟨"m", 1⟩ = master := List.singleton_inj.1 (hparsed.symm.trans hmaster)
  obtain ⟨-, -, hkeys⟩ := hms busy
  obtain ⟨-, -, hothers⟩ := hkeys (.ofMaster 1)
  exact hothers healthy quiet rfl (by decide +kernel)

end Traffic

end SessionPool
