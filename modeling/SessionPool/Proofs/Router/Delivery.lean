import SessionPool.Proofs.Pool.Teardown
import SessionPool.Proofs.Router.History
import SessionPool.Scenario.Basic

/-!
# Requests get sessions of the right server

Sessions are traced: each one keeps the handshake that brought it, with the place it was opened for
and the target it was opened with. However long a session lies idle, and whatever is configured and
flushed meanwhile, it is handed out at its own place only, and the target of that place is the one
that the settings give for the request.
-/

namespace SessionPool

structure Traced (κ : Type) where
  origin : Handshake
  session : κ

instance {κ : Type} [Transport κ] : Transport (Traced κ) where
  isHealthy s := Transport.isHealthy s.session
  execute c s :=
    let (reply, session) := Transport.execute c s.session
    (reply, { s with session })

namespace Traffic

variable {κ : Type}

def Action.traced : Action κ → Action (Traced κ)
  | .configure c => .configure c
  | .get partition role replica draw => .get partition role replica draw
  | .finish place slot result => .finish place slot fun h => (result h).map (⟨h, ·⟩)
  | .execute i c => .execute i c
  | .discard i => .discard i
  | .drop i => .drop i
  | .flush => .flush
  | .setClock now => .setClock now

/-- A handshake opens a session to the server that its table has for its key. -/
def Opens (plans : Nat → Option (RoutingTable κ)) (h : Handshake) : Prop :=
  ∃ s, plans h.place.table = some s ∧ h.target = some (s.target h.place.key)

def Stems (plans : Nat → Option (RoutingTable (Traced κ))) (place : Place)
    (l : Leased (Traced κ)) : Prop :=
  l.session.origin.place = place ∧ Opens plans l.session.origin

structure Answers (plans : Nat → Option (RoutingTable κ)) (call : Call) (place : Place) : Prop where
  installed : call.installed = some place.table
  partition : call.partition < maxPartitions
  resolved : ∃ s draw, plans place.table = some s ∧
    place.key = s.resolve call.partition call.role call.replica draw

section persist

variable {plans plans' : Nat → Option (RoutingTable κ)}
  (hp : ∀ i s, plans i = some s → plans' i = some s)

include hp

theorem Opens.persist {h : Handshake} (ho : Opens plans h) : Opens plans' h := by
  obtain ⟨s, hs, ht⟩ := ho
  exact ⟨s, hp _ s hs, ht⟩

theorem Answers.persist {call : Call} {place : Place} (ha : Answers plans call place) :
    Answers plans' call place := by
  obtain ⟨s, draw, hs, hkey⟩ := ha.resolved
  exact ⟨ha.installed, ha.partition, s, draw, hp _ s hs, hkey⟩

end persist

theorem stems_of_finishGet {plans : Nat → Option (RoutingTable (Traced κ))} {r : Router (Traced κ)}
    {s : Handshake} (hopens : Opens plans s) {result : Except Fault κ} {now : Nat}
    {l : Leased (Traced κ)}
    (hl : (r.finishGet s.place s.slot (result.map (Traced.mk s)) now).answer = .ok l) :
    Stems plans s.place l := by
  obtain ⟨session, hsession, hl⟩ := Router.finishGet_eq_ok hl
  cases result with
  | error f => cases hsession
  | ok session' =>
    cases hsession
    rw [Stems, hl]
    exact ⟨rfl, hopens⟩

/-- The key and the server for a request, as the settings give them. -/
inductive Serves (master : Address) (replicas : List Address) (call : Call) :
    PoolKey → Address → Prop
  | master (h : call.role = .master ∨ replicas = []) :
    Serves master replicas call (.ofMaster call.partition) master
  | named {i endpoint} (hr : call.role = .replica) (hi : call.replica = some i)
      (he : replicas[i]? = some endpoint) :
    Serves master replicas call (.ofReplica call.partition i) endpoint
  | drawn {j endpoint} (hr : call.role = .replica)
      (hi : ∀ i, call.replica = some i → replicas.length ≤ i) (he : replicas[j]? = some endpoint) :
    Serves master replicas call (.ofReplica call.partition j) endpoint

theorem serves_resolve (s : RoutingTable κ) (call : Call) (draw : Nat) :
    let key := s.resolve call.partition call.role call.replica draw
    Serves s.master s.replicas call key (s.endpoint key) ∧ key.partition = call.partition := by
  intro key
  by_cases hmaster : call.role = .master ∨ s.replicas.length = 0
  · have hkey : key = .ofMaster call.partition := if_pos hmaster
    rw [hkey]
    exact ⟨.master (hmaster.imp_right List.length_eq_zero_iff.1), rfl⟩
  · have hr : call.role = .replica := by
      cases hrole : call.role with
      | master => exact absurd (.inl hrole) hmaster
      | replica => rfl
    have hat : ∀ j, (hj : j < s.replicas.length) → s.replicas[j]? =
        some (s.endpoint (.ofReplica call.partition j)) := by
      intro j hj
      simp [RoutingTable.endpoint, PoolKey.ofReplica, hj]
    cases hf : call.replica.filter (· < s.replicas.length) with
    | some i =>
      have hkey : key = .ofReplica call.partition i := by
        simp only [key, RoutingTable.resolve, if_neg hmaster, hf]
      obtain ⟨hi, hlt⟩ := Option.filter_eq_some_iff.1 hf
      rw [hkey]
      exact ⟨.named hr hi (hat i (by simpa using hlt)), rfl⟩
    | none =>
      have hkey : key = .ofReplica call.partition (draw % s.replicas.length) := by
        simp only [key, RoutingTable.resolve, if_neg hmaster, hf]
      have hpos : 0 < s.replicas.length := Nat.pos_of_ne_zero fun h₀ => hmaster (.inr h₀)
      rw [hkey]
      refine ⟨.drawn hr (fun i hi => ?_) (hat _ (Nat.mod_lt _ hpos)), rfl⟩
      rw [hi] at hf
      simpa using hf

theorem Sound.lease_opened [Transport κ] {t : Traffic κ} (h : t.Sound) {place : Place} {l : Lease κ}
    (hl : (place, l) ∈ t.leases) : (place, l.leased) ∈ t.opened := by
  have hlease : l ∈ (t.usage place).leases := mem_pick.2 hl
  obtain ⟨p, hp⟩ := h.made (.inl (List.ne_nil_of_mem hlease))
  obtain ⟨s, hs, -⟩ := h.served place (Option.isSome_of_eq_some hp)
  obtain ⟨as, ha⟩ := h.history place s hs
  have hacc : (t.usage place).Accounted := ha ▸ (Usage.run_settled _ _ none as).accounted
  obtain ⟨gone, -, hperm⟩ := hacc.accounts
  refine mem_pick.1 (hperm.subset ?_)
  exact List.mem_append_left _ (List.mem_append_left _ (List.mem_map_of_mem hlease))

variable [Transport κ] {t t' : Traffic (Traced κ)}

structure Delivered (t : Traffic (Traced κ)) : Prop where
  sound : t.Sound
  counted : t.configs.length = t.router.tables.size
  described : ∀ i s, t.router.plan? i = some s →
    ∃ c limit, t.configs[i]? = some c ∧ RoutingTable.ofConfig c limit = .ok s
  opening : ∀ h ∈ t.opening, Opens t.router.plan? h ∧
    ∀ call, h.call = some call → Answers t.router.plan? call h.place
  opened : ∀ place l, (place, l) ∈ t.opened → Stems t.router.plan? place l
  granted : ∀ g ∈ t.granted, Answers t.router.plan? g.call g.place ∧
    Stems t.router.plan? g.place g.leased

theorem delivered_start (replicaLimit : Nat) :
    (start replicaLimit : Traffic (Traced κ)).Delivered where
  sound := sound_start replicaLimit
  counted := rfl
  described i s hs := by simp [start, Router.plan?] at hs
  opening _ hh := by cases hh
  opened _ _ hl := by cases hl
  granted _ hg := by cases hg

theorem Delivered.along (h : t.Delivered) (ha : Along t t') (hc : t'.configs = t.configs)
    (hopening : ∀ s ∈ t'.opening, s ∈ t.opening ∨ Opens t.router.plan? s ∧
      ∀ call, s.call = some call → Answers t.router.plan? call s.place)
    (hopened : ∀ place l, (place, l) ∈ t'.opened → (place, l) ∈ t.opened ∨
      Stems t.router.plan? place l)
    (hgranted : ∀ g ∈ t'.granted, g ∈ t.granted ∨
      Answers t.router.plan? g.call g.place ∧ Stems t.router.plan? g.place g.leased) :
    t'.Delivered where
  sound := ha.sound
  counted := by rw [hc, h.counted, Router.size_congr ha.plans]
  described := by
    rw [ha.plans, hc]
    exact h.described
  opening s hs := by
    rw [ha.plans]
    exact (hopening s hs).elim (h.opening s) id
  opened place l hl := by
    rw [ha.plans]
    exact (hopened place l hl).elim (h.opened place l) id
  granted g hg := by
    rw [ha.plans]
    exact (hgranted g hg).elim (h.granted g) id

theorem Delivered.quiet (h : t.Delivered) (ha : Along t t') (hc : t'.configs = t.configs)
    (hopening : t'.opening ⊆ t.opening) (hopened : t'.opened = t.opened)
    (hgranted : t'.granted = t.granted) : t'.Delivered :=
  h.along ha hc (fun _ hs => .inl (hopening hs)) (fun _ _ hl => .inl (hopened ▸ hl))
    fun _ hg => .inl (hgranted ▸ hg)

theorem Delivered.begin (h : t.Delivered) {place : Place} {call : Call} {r : Router (Traced κ)}
    (hcall : Answers t.router.plan? call place)
    (ha : Along t (({ t with router := r } : Traffic (Traced κ)).begin call place)) :
    (({ t with router := r } : Traffic (Traced κ)).begin call place).Delivered := by
  obtain ⟨s, -, hplan, -⟩ := hcall.resolved
  revert ha
  rw [Traffic.begin]
  split
  · exact fun ha => h.quiet ha rfl (List.Subset.refl _) rfl rfl
  · next l _ =>
    intro ha
    refine h.along ha rfl (fun _ => .inl) (fun _ _ => .inl) fun g hg => ?_
    rcases List.mem_append.1 hg with hg | hg
    · exact .inl hg
    · rw [List.mem_singleton.1 hg]
      have hopened := ha.sound.lease_opened (l := .ofLeased l) List.mem_cons_self
      exact .inr ⟨hcall, h.opened place l hopened⟩
  · next slot _ =>
    intro ha
    refine h.along ha rfl (fun s' hs' => ?_) (fun _ _ => .inl) fun _ => .inl
    rcases List.mem_cons.1 hs' with rfl | hs'
    · have htarget := (congrFun ha.plans place.table).trans hplan
      refine .inr ⟨⟨s, hplan, Router.target?_of_plan? htarget⟩, fun call' hc => ?_⟩
      cases hc
      exact hcall
    · exact .inl hs'

theorem Delivered.get (h : t.Delivered) (partition : Nat) (role : Role) (replica : Option Nat)
    (draw : Nat) : (t.step (.get partition role replica draw)).Delivered := by
  have ha := h.sound.get partition role replica draw
  revert ha
  rw [Traffic.step]
  split
  · next place r hr =>
    obtain ⟨hlt, i, s, hi, hs, hclaimed⟩ := Router.route_eq_ok hr
    have hplace := hclaimed.place_eq
    exact h.begin ⟨by rw [hi, hplace], hlt, s, draw, by rw [hplace, hs], by rw [hplace]⟩
  · exact fun _ => h

theorem Delivered.finish (h : t.Delivered) (place : Place) (slot : Nat)
    (result : Handshake → Except Fault κ) :
    (t.step (Action.finish place slot result).traced).Delivered := by
  have ha := h.sound.finish place slot fun s => (result s).map (Traced.mk s)
  revert ha
  rw [Action.traced, Traffic.step]
  split
  · next s hfind =>
    obtain ⟨rfl, rfl⟩ := Handshake.eq_of_isAt (List.find?_some hfind)
    obtain ⟨hopens, hcall⟩ := h.opening s (List.mem_of_find?_eq_some hfind)
    have hended : t.opening.eraseP (Handshake.isAt s.place s.slot) ⊆ t.opening :=
      fun _ => List.mem_of_mem_eraseP
    have hopened : ∀ {l}, Stems t.router.plan? s.place l → ∀ place l',
        (place, l') ∈ t.opened ++ [(s.place, l)] →
          (place, l') ∈ t.opened ∨ Stems t.router.plan? place l' := by
      intro l hl place l' hl'
      rcases List.mem_append.1 hl' with hl' | hl'
      · exact .inl hl'
      · cases List.mem_singleton.1 hl'
        exact .inr hl
    split
    · next call hc =>
      rw [Traffic.finishGet]
      split
      · next l hl =>
        intro ha
        have hstems := stems_of_finishGet hopens hl
        refine h.along ha rfl (fun _ hs' => .inl (hended hs')) (hopened hstems) fun g hg => ?_
        rcases List.mem_append.1 hg with hg | hg
        · exact .inl hg
        · cases List.mem_singleton.1 hg
          exact .inr ⟨hcall call hc, hstems⟩
      · exact fun ha => h.quiet ha rfl hended rfl rfl
    · rw [Traffic.finishWarmUp]
      split
      · next l hl =>
        intro ha
        exact h.along ha rfl (fun _ hs' => .inl (hended hs'))
          (hopened (stems_of_finishGet hopens hl))
          fun _ => .inl
      · exact fun ha => h.quiet ha rfl hended rfl rfl
  · exact fun _ => h

theorem Delivered.drawn (h : t.Delivered) {c : RouterConfig} {i : Nat} {r : Router (Traced κ)}
    (hd : Router.Drafted c t.router i r) (ha : Along { t with router := r } t')
    (hc : t'.configs = t.configs ++ [c]) (hopened : t'.opened = t.opened)
    (hgranted : t'.granted = t.granted)
    (hopening : ∀ s ∈ t'.opening, s ∈ t.opening ∨ Opens t'.router.plan? s ∧ s.call = none) :
    t'.Delivered := by
  have hplans : ∀ j s, t.router.plan? j = some s → t'.router.plan? j = some s :=
    fun j s hs => ha.plans ▸ hd.plans hs
  have hlast : i = t.configs.length := hd.number.trans h.counted.symm
  refine ⟨ha.sound, ?_, fun j s hs => ?_, fun s hs => ?_, fun place l hl => ?_, fun g hg => ?_⟩
  · rw [hc, List.length_append, ← hlast, Router.size_congr ha.plans]
    exact hd.size.symm
  · rw [hc]
    rw [ha.plans] at hs
    by_cases hj : j = i
    · obtain ⟨s', hs', hplan⟩ := hd.described
      cases hplan.symm.trans (hj ▸ hs)
      exact ⟨c, t.router.replicaLimit, by rw [hj, hlast]; simp, hs'⟩
    · obtain ⟨c', limit, hc', hs'⟩ := h.described j s ((hd.others j hj).symm.trans hs)
      refine ⟨c', limit, ?_, hs'⟩
      rw [List.getElem?_append_left (List.getElem?_eq_some_iff.1 hc').1, hc']
  · rcases hopening s hs with hs | ⟨hopens, hnone⟩
    · obtain ⟨hopens, hcall⟩ := h.opening s hs
      exact ⟨hopens.persist hplans, fun call hc => (hcall call hc).persist hplans⟩
    · exact ⟨hopens, fun call hcall => by rw [hnone] at hcall; cases hcall⟩
  · obtain ⟨horigin, hopens⟩ := h.opened place l (hopened ▸ hl)
    exact ⟨horigin, hopens.persist hplans⟩
  · obtain ⟨hanswers, horigin, hopens⟩ := h.granted g (hgranted ▸ hg)
    exact ⟨hanswers.persist hplans, horigin, hopens.persist hplans⟩

theorem Delivered.configure (h : t.Delivered) (c : RouterConfig) : (t.configure c).Delivered := by
  have hc := h.sound.configured c
  generalize t.configure c = t' at hc
  cases hc with
  | refused => exact h
  | drawn hd ha => exact h.drawn hd (ha.noting _ _) rfl rfl rfl fun _ => .inl
  | @warming i r r' tornDown place slot hd hi ha =>
    refine h.drawn hd (ha.noting _ _) rfl rfl rfl fun s hs => ?_
    rcases List.mem_cons.1 hs with rfl | hs
    · obtain ⟨s, -, hplan⟩ := hd.described
      have hplan' : r'.plan? place.table = some s := by rw [hi, ← hplan]; exact congrFun ha.plans i
      exact .inr ⟨⟨s, hplan', Router.target?_of_plan? hplan'⟩, rfl⟩
    · exact .inl hs

theorem Delivered.execute (h : t.Delivered) (i : Nat) (c : Command) :
    (t.step (.execute i c)).Delivered := by
  rw [Traffic.step]
  split
  · next place l hl =>
    obtain ⟨_, _, hat⟩ := h.sound.put hl c
    refine h.along hat.toAlong rfl (fun _ => .inl) (fun q o ho => ?_) fun _ => .inl
    obtain ⟨x, hx, hxo⟩ := List.mem_map.1 ho
    split at hxo
    · -- the changed session keeps its origin
      cases hxo
      have hstems := h.opened place l.leased (h.sound.lease_opened (List.mem_of_getElem? hl))
      exact .inr hstems
    · exact .inl (hxo ▸ hx)
  · exact h

theorem Delivered.step (h : t.Delivered) (a : Action κ) : (t.step a.traced).Delivered := by
  cases a with
  | configure c => exact h.configure c
  | get partition role replica draw => exact h.get partition role replica draw
  | finish place slot result => exact h.finish place slot result
  | execute i c => exact h.execute i c
  | discard i =>
    rw [Action.traced, Traffic.step]
    split
    · next place l hl =>
      obtain ⟨_, _, hat⟩ := h.sound.discard hl
      exact h.quiet hat.toAlong rfl (List.Subset.refl _) rfl rfl
    · exact h
  | drop i =>
    rw [Action.traced, Traffic.step]
    split
    · next place l hl =>
      obtain ⟨_, _, hat⟩ := h.sound.drop hl
      exact h.quiet hat.toAlong rfl (List.Subset.refl _) rfl rfl
    · exact h
  | flush => exact h.quiet h.sound.flush rfl (List.Subset.refl _) rfl rfl
  | setClock now => exact h.quiet (h.sound.setClock now) rfl (List.Subset.refl _) rfl rfl

theorem Delivered.run (h : t.Delivered) (as : List (Action κ)) :
    (t.run (as.map Action.traced)).Delivered := by
  induction as generalizing t with
  | nil => exact h
  | cons a as ih => exact ih (h.step a)

/-- Every session that a request is answered with was opened for that request's place, under the
table that was installed when the request came, and to the server that the settings of this table
give for it, however long it lay idle in between. The pools of every table are for keys the table
has. -/
theorem run_delivery (replicaLimit : Nat) (as : List (Action κ)) :
    let t : Traffic (Traced κ) := (start replicaLimit).run (as.map Action.traced)
    (∀ g ∈ t.granted, ∃ i table c master key endpoint,
      g.call.installed = some i ∧ t.router.tables[i]? = some table ∧ t.configs[i]? = some c ∧
      Address.parseList c.master = [master] ∧ table.master = master ∧
      table.replicas = Address.parseList c.replicas ∧ g.call.partition < maxPartitions ∧
      Serves master (Address.parseList c.replicas) g.call key endpoint ∧
      g.place = ⟨i, key⟩ ∧ g.leased.session.origin.place = ⟨i, key⟩ ∧
      g.leased.session.origin.target =
        some ⟨endpoint, c.credential.filter fun s => !s.isEmpty, c.timeout, g.call.partition⟩) ∧
    ∀ (i : Nat) (table : RoutingTable (Traced κ)), t.router.tables[i]? = some table →
      ∀ key ∈ table.pools.map Prod.fst, key.partition < maxPartitions ∧
        (key.role = .master → key.replica = 0) ∧
        (key.role = .replica → table.replicas[key.replica]? = some (table.endpoint key)) := by
  intro t
  have h : t.Delivered := (delivered_start replicaLimit).run as
  refine ⟨fun g hg => ?_, fun i table ht key hkey => ?_⟩
  · obtain ⟨⟨hinstalled, hlt, s, draw, hs, hkey⟩, horigin, s', hs', htarget⟩ := h.granted g hg
    rw [horigin] at hs' htarget
    cases hs'.symm.trans hs
    obtain ⟨c, limit, hc, hconfig⟩ := h.described _ s hs
    obtain ⟨hmaster, hreplicas, -⟩ := RoutingTable.ofConfig_eq_ok hconfig
    obtain ⟨hserves, hpartition⟩ := serves_resolve s g.call draw
    rw [← hkey] at hserves hpartition
    obtain ⟨table, htable, rfl⟩ := Option.map_eq_some_iff.1 hs
    refine ⟨g.place.table, table, c, table.master, g.place.key, table.endpoint g.place.key,
      hinstalled, htable, hc, hmaster, rfl, hreplicas, hlt, hreplicas ▸ hserves, rfl, horigin, ?_⟩
    rw [htarget, RoutingTable.target_of_ofConfig hconfig, hpartition]
    rfl
  · have hplan : t.router.plan? i = some table.plan := by rw [Router.plan?, ht]; rfl
    have hpool : (t.router.pool? ⟨i, key⟩).isSome := by
      rw [Router.pool?, ht, ← Option.ne_none_iff_isSome]
      exact fun hnone => RoutingTable.pool?_eq_none_iff.1 hnone hkey
    obtain ⟨s, hs, hlt, hrole⟩ := h.sound.served _ hpool
    cases hplan.symm.trans hs
    refine ⟨hlt, fun hr => ?_, fun hr => ?_⟩
    · rw [hr] at hrole
      exact hrole
    · rw [hr] at hrole
      have hat : table.replicas[key.replica]? = some table.replicas[key.replica] :=
        List.getElem?_eq_getElem hrole
      rw [RoutingTable.endpoint, hr, hat]
      rfl

theorem run_delivery_across_flush :
    let as : List (Action Scenario.Stub) := [
      .configure
        { master := "m:1", replicas := "a:2, b:3", credential := some "", timeoutMs := 500 },
      .get 3 .replica (some 1) 0, .flush, .configure { master := "n:4", credential := some "pw" },
      .finish ⟨0, .ofReplica 3 1⟩ 0 (fun _ => .ok ⟨1, true⟩), .drop 0, .get 3 .replica (some 1) 0,
      .finish ⟨1, .ofMaster 3⟩ 0 (fun _ => .ok ⟨2, true⟩), .drop 0, .get 3 .replica none 5]
    let t : Traffic (Traced Scenario.Stub) := (start 15).run (as.map Action.traced)
    t.granted.map (fun g => (g.place, g.leased.session.session.serial)) =
        [(⟨0, .ofReplica 3 1⟩, 1), (⟨1, .ofMaster 3⟩, 2), (⟨1, .ofMaster 3⟩, 2)] ∧
      t.granted.map (fun g => g.leased.session.origin.target) =
        [some ⟨⟨"b", 3⟩, none, .ofMillis 500, 3⟩, some ⟨⟨"n", 4⟩, some "pw", defaultTimeout, 3⟩,
          some ⟨⟨"n", 4⟩, some "pw", defaultTimeout, 3⟩] ∧
      ∀ g ∈ t.granted, g.leased.session.origin.place = g.place := by
  intro as t
  obtain ⟨hgranted, -⟩ := run_delivery 15 as
  refine ⟨by decide +kernel, by decide +kernel, fun g hg => ?_⟩
  obtain ⟨i, table, c, master, key, endpoint, -, -, -, -, -, -, -, -, hplace, horigin, -⟩ :=
    hgranted g hg
  exact horigin.trans hplace.symm

end Traffic

end SessionPool
