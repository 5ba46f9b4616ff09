import SessionPool.Proofs.Router.Flushing
import SessionPool.Scenario.Basic

/-!
# Configuring succeeds or changes nothing

A call to configure is followed from its beginning to its end. Until its table is installed nobody
else can reach that table: no request is routed to it, and nothing is lent or opened there but by
the warm-up. So whatever is done with the router while the handshake is in progress, the call finds
its table as it left it; and if it fails, what it opened is torn down and the other tables never
notice.
-/

namespace SessionPool

variable {κ : Type}

/-! ## The pool of a warm-up -/

namespace Pool

def openingFirst (name : String) (options : PoolOptions) : Pool κ :=
  { name, options, arena := ⟨#[.reserved], [], 1, none⟩, active := 1 }

theorem shows_openingFirst (name : String) (options : PoolOptions) :
    (openingFirst name options : Pool κ).Shows [] [] [0] where
  listed := IdleList.holds_empty
  keeps := (shows_fresh (κ := κ) name options none).keeps.acquire rfl
  active := rfl
  idleCount := rfl

theorem beginGet_new_eq (name : String) (options : PoolOptions) (now : Nat) :
    (new name options : Pool κ).beginGet now =
      ⟨(new name options : Pool κ).reserve.1, [], (new name options : Pool κ).reserve.2⟩ := rfl

theorem reserve_new_of_zero (name : String) {options : PoolOptions}
    (h : options.maxActive = some 0) :
    (new name options : Pool κ).reserve = (.refused (.overload name 0), new name options) := by
  have hl : (new name options : Pool κ).limitReached? = some 0 :=
    limitReached?_eq_some.2 ⟨by simp [PoolOptions.activeLimit, new, h], Nat.le_refl 0⟩
  rw [reserve, hl]
  rfl

theorem reserve_new_of_ne (name : String) {options : PoolOptions} (h : options.maxActive ≠ some 0) :
    (new name options : Pool κ).reserve = (.opening 0, openingFirst name options) := by
  have hl : (new name options : Pool κ).limitReached? = none := by
    refine limitReached?_eq_none.2 fun limit hlimit => Nat.pos_of_ne_zero ?_
    rintro rfl
    obtain ⟨max, hmax, hzero⟩ := Option.map_eq_some_iff.1 hlimit
    exact h (hmax.trans (congrArg some (UInt64.toNat_inj.1 hzero)))
  rw [reserve, hl]
  rfl

theorem Shows.giveBack_first [Transport κ] {p : Pool κ} {l : Leased κ} (h : p.Shows [] [] [l.slot])
    (now : Nat) : ∃ idle, (p.giveBack l false now).pool.Shows idle [] [] ∧
      (p.keeps false l.session = true → (p.giveBack l false now).pool.stats = ⟨1, 1, 0⟩) := by
  obtain ⟨idle, hr, hs⟩ := h.giveBack false now
  refine ⟨idle, hs, fun hkeeps => ?_⟩
  generalize p.giveBack l false now = done at hr hs
  cases hr with
  | destroyed hk => cases hk.symm.trans hkeeps
  | kept => rw [stats, hs.active, hs.idleCount]; rfl
  | evicted _ _ _ hi => exact absurd (congrArg List.length hi) (by simp)

theorem keeps_eq_true [Transport κ] {p : Pool κ} {session : κ}
    (hs : Transport.isHealthy session = true)
    (hc : p.closed = false) (hm : p.options.maxIdle ≠ some 0) : p.keeps false session = true := by
  rw [← Bool.not_eq_false, keeps_eq_false]
  rintro ((h | h) | h | h)
  · cases h
  · cases hs.symm.trans h
  · cases hc.symm.trans h
  · exact hm h

end Pool

/-! ## The table that settings describe -/

theorem PoolStats.total_singleton (a : PoolStats) : total [a] = a := by
  obtain ⟨active, idle, inUse⟩ := a
  change PoolStats.mk (0 + active) (0 + idle) (0 + inUse) = _
  simp only [Nat.zero_add]

namespace RoutingTable

def described (c : RouterConfig) (master : Address) : RoutingTable κ :=
  { master, replicas := Address.parseList c.replicas, credential := c.login?, timeout := c.timeout
    options := c.pool }

def warmed (s : RoutingTable κ) (p : Pool κ) : RoutingTable κ :=
  { s with pools := [(.ofMaster defaultPartition, p)] }

variable {c : RouterConfig} {limit : Nat} {master : Address}

theorem ofConfig_of_masters (h : (Address.parseList c.master).length ≠ 1) :
    (ofConfig c limit : Except Fault (RoutingTable κ)) =
      .error (.invalidMaster (Address.parseList c.master).length) := by
  rw [ofConfig]
  split
  · next hm => exact absurd (congrArg List.length hm) h
  · rfl

theorem ofConfig_of_replicas (hm : Address.parseList c.master = [master])
    (h : limit < (Address.parseList c.replicas).length) :
    (ofConfig c limit : Except Fault (RoutingTable κ)) =
      .error (.tooManyReplicas (Address.parseList c.replicas).length limit) := by
  rw [ofConfig, hm]
  exact if_pos h

theorem ofConfig_described (hm : Address.parseList c.master = [master])
    (h : (Address.parseList c.replicas).length ≤ limit) :
    (ofConfig c limit : Except Fault (RoutingTable κ)) = .ok (described c master) := by
  rw [ofConfig, hm]
  exact if_neg (Nat.not_lt.2 h)

variable {s : RoutingTable κ} {p q : Pool κ} {key : PoolKey}

theorem withPool_warmed (h : s.pools = []) : s.withPool (.ofMaster defaultPartition) =
    s.warmed (.new (s.poolName (.ofMaster defaultPartition)) s.options) := by
  simp [withPool, pool?, h, warmed]

theorem pool?_warmed : (s.warmed p).pool? (.ofMaster defaultPartition) = some p := by
  simp [pool?, warmed]

theorem setPool_warmed : (s.warmed p).setPool (.ofMaster defaultPartition) q = s.warmed q := by
  simp [setPool, warmed]

theorem eq_of_pool?_warmed (h : (s.warmed p).pool? key = some q) : q = p := by
  obtain ⟨entry, hfind, rfl⟩ := Option.map_eq_some_iff.1 h
  rw [List.mem_singleton.1 (List.mem_of_find?_eq_some hfind)]

theorem stats_warmed : (s.warmed p).stats .master = p.stats := PoolStats.total_singleton p.stats

end RoutingTable

/-! ## Both halves of a call -/

namespace Router

variable {r : Router κ} {i : Nat} {s : RoutingTable κ} {p : Pool κ}

def warmUpPlace (i : Nat) : Place := ⟨i, .ofMaster defaultPartition⟩

theorem onPool_warmed {α : Type} (h : r.tables[i]? = some (s.warmed p)) (absent : α)
    (op : Pool κ → Outcome κ α) : ∃ r',
      r.onPool (warmUpPlace i) absent op =
        ⟨(op p).answer, (op p).tornDown.map (warmUpPlace i, ·), r'⟩ ∧
      r'.installed = r.installed ∧ r'.tables[i]? = some (s.warmed (op p).pool) := by
  have hp : r.pool? (warmUpPlace i) = some p := by
    rw [pool?, warmUpPlace, h]
    exact RoutingTable.pool?_warmed
  refine ⟨_, onPool_of_some hp absent op, rfl, ?_⟩
  rw [setPool, warmUpPlace, Array.getElem?_modify, if_pos rfl, h]
  exact congrArg some RoutingTable.setPool_warmed

theorem claim_new (h : r.tables[i]? = some s) (hp : s.pools = []) (hc : s.closed = false) :
    ∃ r', r.claim i (.ofMaster defaultPartition) = .ok (warmUpPlace i, r') ∧
      r'.tables[i]? = some
        (s.warmed (.new (s.poolName (.ofMaster defaultPartition)) s.options)) := by
  refine ⟨{ r with tables := r.tables.modify i fun t => t.withPool (.ofMaster defaultPartition) },
    ?_, ?_⟩
  · rw [claim, h]
    exact if_neg (by rw [hc]; simp)
  · rw [Array.getElem?_modify, if_pos rfl, h]
    exact congrArg some (RoutingTable.withPool_warmed hp)

theorem resting_of_warmed (h : r.tables[i]? = some (s.warmed p)) (hp : p.resting = [])
    (place : Place)
    (q : Pool κ) (hplace : place.table = i) (hq : r.pool? place = some q) : q.resting = [] := by
  rw [pool?, hplace, h] at hq
  rw [RoutingTable.eq_of_pool?_warmed hq, hp]

/-! ## What stands against a configuration -/

def warmUpName (master : Address) : String :=
  Role.master.name ++ "/" ++ master.render ++ "/db" ++ defaultPartition.repr

theorem poolName_described (c : RouterConfig) (master : Address) :
    (RoutingTable.described c master : RoutingTable κ).poolName (.ofMaster defaultPartition) =
      warmUpName master := rfl

structure Drawable (c : RouterConfig) (master : Address) (r : Router κ) : Prop where
  unconfigured : r.installed = none
  master : Address.parseList c.master = [master]
  replicas : (Address.parseList c.replicas).length ≤ r.replicaLimit

def draftObjections (c : RouterConfig) (r : Router κ) : List Fault :=
  let masters := Address.parseList c.master
  let replicas := Address.parseList c.replicas
  (if r.isConfigured then [.alreadyConfigured] else []) ++
  (if masters.length = 1 then [] else [.invalidMaster masters.length]) ++
  if replicas.length ≤ r.replicaLimit then [] else [.tooManyReplicas replicas.length r.replicaLimit]

def warmUpObjections (c : RouterConfig) (result : Except Fault κ) : List Fault :=
  let name := warmUpName ((Address.parseList c.master).headD default)
  (if c.pool.maxActive = some 0 then [.overload name 0] else []) ++
  match result with
  | .error cause => [.handshake name cause]
  | .ok _ => []

variable {c : RouterConfig}

theorem draft_of_objection {f : Fault} {rest : List Fault} (h : r.draftObjections c = f :: rest) :
    r.draft c = .error f := by
  by_cases hi : r.isConfigured = true
  · obtain ⟨rfl, -⟩ : .alreadyConfigured = f ∧ _ := by simpa [draftObjections, hi] using h
    rw [draft, if_pos hi]
  · rw [draft, if_neg hi]
    by_cases hm : (Address.parseList c.master).length = 1
    · obtain ⟨master, hmaster⟩ := List.length_eq_one_iff.1 hm
      by_cases hr : (Address.parseList c.replicas).length ≤ r.replicaLimit
      · simp [draftObjections, hi, hm, hr] at h
      · obtain ⟨rfl, -⟩ : .tooManyReplicas _ _ = f ∧ _ := by
          simpa [draftObjections, hi, hm, hr] using h
        rw [RoutingTable.ofConfig_of_replicas hmaster (Nat.not_le.1 hr)]
    · obtain ⟨rfl, -⟩ : .invalidMaster _ = f ∧ _ := by simpa [draftObjections, hi, hm] using h
      rw [RoutingTable.ofConfig_of_masters hm]

theorem draftObjections_eq_nil : r.draftObjections c = [] ↔
    r.isConfigured = false ∧ (Address.parseList c.master).length = 1 ∧
      (Address.parseList c.replicas).length ≤ r.replicaLimit := by
  simp [draftObjections]

theorem drawable_of_nil (h : r.draftObjections c = []) : ∃ master, r.Drawable c master := by
  obtain ⟨hi, hm, hr⟩ := draftObjections_eq_nil.1 h
  obtain ⟨master, hmaster⟩ := List.length_eq_one_iff.1 hm
  exact ⟨master, by simpa [isConfigured] using hi, hmaster, hr⟩

theorem warmUpObjections_eq_nil {result : Except Fault κ} : warmUpObjections c result = [] ↔
    c.pool.maxActive ≠ some 0 ∧ ∃ session, result = .ok session := by
  cases result <;> simp [warmUpObjections]

section begin

variable [Transport κ]

theorem beginWarmUp_overload (h : r.tables[i]? = some s) (hp : s.pools = []) (hc : s.closed = false)
    (hm : s.options.maxActive = some 0) (now : Nat) : ∃ r' p,
      r.beginWarmUp i now =
        ⟨.refused (.overload (s.poolName (.ofMaster defaultPartition)) 0), [], r'⟩ ∧
      r'.tables[i]? = some (s.warmed p) ∧ p.Shows [] [] [] := by
  obtain ⟨r₁, hclaim, h₁⟩ := claim_new h hp hc
  obtain ⟨r₂, hbegin, -, h₂⟩ := onPool_warmed h₁ (.refused .notConfigured) fun p => p.beginGet now
  rw [Pool.beginGet_new_eq, Pool.reserve_new_of_zero _ hm] at hbegin h₂
  refine ⟨r₂, _, ?_, h₂, Pool.shows_fresh _ _ none⟩
  rw [beginWarmUp, hclaim]
  dsimp only
  rw [beginGet, hbegin]
  rfl

theorem beginWarmUp_opening (h : r.tables[i]? = some s) (hp : s.pools = []) (hc : s.closed = false)
    (hm : s.options.maxActive ≠ some 0) (now : Nat) : ∃ r',
      r.beginWarmUp i now = ⟨.warming (warmUpPlace i) 0, [], r'⟩ ∧
      r'.tables[i]? = some (s.warmed
        (.openingFirst (s.poolName (.ofMaster defaultPartition)) s.options)) := by
  obtain ⟨r₁, hclaim, h₁⟩ := claim_new h hp hc
  obtain ⟨r₂, hbegin, -, h₂⟩ := onPool_warmed h₁ (.refused .notConfigured) fun p => p.beginGet now
  rw [Pool.beginGet_new_eq, Pool.reserve_new_of_ne _ hm] at hbegin h₂
  refine ⟨r₂, ?_, h₂⟩
  rw [beginWarmUp, hclaim]
  dsimp only
  rw [beginGet, hbegin]
  rfl

variable {master : Address} (hd : r.Drawable c master)

include hd

omit [Transport κ] in
theorem Drawable.draft : r.draft c = .ok (r.tables.size,
    { r with tables := r.tables.push (RoutingTable.described c master) }) := by
  rw [Router.draft, isConfigured, hd.unconfigured,
    RoutingTable.ofConfig_described hd.master hd.replicas]
  rfl

theorem Drawable.beginConfigure (now : Nat) : r.beginConfigure c now =
    let r' := { r with tables := r.tables.push (RoutingTable.described c master) }
    if c.warmUp then r'.beginWarmUp r.tables.size now else r'.installNow r.tables.size := by
  rw [Router.beginConfigure, hd.draft]

theorem Drawable.configure_plain (hw : c.warmUp = false) (now : Nat) : r.beginConfigure c now =
    ⟨.installed, [], { r with
      tables := r.tables.push (RoutingTable.described c master)
      installed := some r.tables.size }⟩ := by
  have hi : ({ r with tables := r.tables.push (RoutingTable.described c master) } :
      Router κ).installed = none := hd.unconfigured
  rw [hd.beginConfigure, hw]
  dsimp only
  rw [if_neg (by simp), installNow, install_of_none hi]

theorem Drawable.configure_overload (hw : c.warmUp = true) (hm : c.pool.maxActive = some 0)
    (now : Nat) : ∃ r' p,
      r.beginConfigure c now = ⟨.refused (.overload (warmUpName master) 0), [], r'⟩ ∧
      r'.tables[r.tables.size]? = some ((RoutingTable.described c master).warmed p) ∧
      p.Shows [] [] [] := by
  rw [hd.beginConfigure, hw, ← poolName_described (κ := κ) c master]
  exact beginWarmUp_overload Array.getElem?_push_size rfl rfl hm now

theorem Drawable.configure_opening (hw : c.warmUp = true) (hm : c.pool.maxActive ≠ some 0)
    (now : Nat) : ∃ r', r.beginConfigure c now = ⟨.warming (warmUpPlace r.tables.size) 0, [], r'⟩ ∧
      r'.tables[r.tables.size]? = some ((RoutingTable.described c master).warmed
        (.openingFirst (warmUpName master) c.pool)) := by
  rw [hd.beginConfigure, hw, ← poolName_described (κ := κ) c master]
  exact beginWarmUp_opening Array.getElem?_push_size rfl rfl hm now

omit hd

variable {name : String} {options : PoolOptions}

theorem finishConfigure_error (h : r.tables[i]? = some (s.warmed (.openingFirst name options)))
    (cause : Fault) (now : Nat) : ∃ r' p,
      r.finishConfigure (warmUpPlace i) 0 (.error cause) now =
        ⟨.error (.handshake name cause), [], r'⟩ ∧
      r'.tables[i]? = some (s.warmed p) ∧ p.Shows [] [] [] := by
  obtain ⟨r₁, hfinish, -, h₁⟩ := onPool_warmed h (.error .notConfigured) fun p =>
    p.finishGet 0 (.error cause) now
  obtain ⟨reserved, hf, hs⟩ := (Pool.shows_openingFirst (κ := κ) name options).finishGet
    (.error cause) now
  generalize (Pool.openingFirst name options : Pool κ).finishGet 0 (.error cause) now = done
    at hfinish h₁ hf hs
  cases hf with
  | failed hh =>
    refine ⟨r₁, _, ?_, h₁, hs⟩
    rw [finishConfigure, finishGet, hfinish]
    rfl

theorem finishConfigure_of_finishGet {place : Place} {slot now : Nat} {handshake : Except Fault κ}
    {l : Leased κ} {r₁ : Router κ} (h : r.finishGet place slot handshake now = ⟨.ok l, [], r₁⟩) :
    (r.finishConfigure place slot handshake now).answer =
        ((r₁.release place (.ofLeased l) now).router.install place.table).answer ∧
      (r.finishConfigure place slot handshake now).router =
        ((r₁.release place (.ofLeased l) now).router.install place.table).router := by
  rw [finishConfigure, h]
  exact ⟨rfl, rfl⟩

theorem finishConfigure_ok (h : r.tables[i]? = some (s.warmed (.openingFirst name options)))
    (session : κ) (now : Nat) : ∃ (r' : Router κ) (p : Pool κ) (idle : List (Resting κ)),
      (r.finishConfigure (warmUpPlace i) 0 (.ok session) now).answer = (r'.install i).answer ∧
      (r.finishConfigure (warmUpPlace i) 0 (.ok session) now).router = (r'.install i).router ∧
      r'.installed = r.installed ∧ r'.tables[i]? = some (s.warmed p) ∧ p.Shows idle [] [] ∧
      (Transport.isHealthy session = true → options.maxIdle ≠ some 0 → p.stats = ⟨1, 1, 0⟩) := by
  obtain ⟨r₁, hfinish, hi₁, h₁⟩ := onPool_warmed h (.error .notConfigured) fun p =>
    p.finishGet 0 (.ok session) now
  obtain ⟨reserved, hf, hs⟩ := (Pool.shows_openingFirst (κ := κ) name options).finishGet
    (.ok session) now
  generalize (Pool.openingFirst name options : Pool κ).finishGet 0 (.ok session) now = done
    at hfinish h₁ hf hs
  cases hf with
  | @opened _ p₁ hh =>
    set l : Leased κ := ⟨0, 1, now, session⟩
    obtain ⟨r₂, hrelease, hi₂, h₂⟩ := onPool_warmed h₁ () fun p => (Lease.ofLeased l).release now p
    obtain ⟨idle, hshows, hstats⟩ := Pool.Shows.giveBack_first (l := l) hs now
    obtain ⟨hanswer, hrouter⟩ := finishConfigure_of_finishGet (l := l) hfinish
    rw [release, hrelease] at hanswer hrouter
    refine ⟨r₂, _, idle, hanswer, hrouter, hi₂.trans hi₁, h₂, hshows,
      fun hhealthy hmax => hstats (Pool.keeps_eq_true hhealthy ?_ ?_)⟩
    · exact congrArg Pool.Header.closed hh
    · rw [show p₁.options = options from congrArg Pool.Header.options hh]
      exact hmax

end begin

end Router

namespace Traffic

variable [Transport κ] {t t₁ : Traffic κ} {h : Handshake}

/-! ## Waiting for a handshake -/

/-- Since `t₁` the warm-up of a table waits for its handshake, and nothing else happens there. -/
structure Awaiting (h : Handshake) (t₁ t : Traffic κ) : Prop where
  still : Still h.place.table t₁ t
  mem : h ∈ t.opening
  own : ∀ other ∈ t.opening, other.place.table = h.place.table → other = h
  unlent : ∀ x ∈ t.leases, x.1.table ≠ h.place.table

omit [Transport κ] in
theorem Awaiting.find (ha : Awaiting h t₁ t) :
    t.opening.find? (Handshake.isAt h.place h.slot) = some h := by
  cases hfind : t.opening.find? (Handshake.isAt h.place h.slot) with
  | none => exact absurd (decide_eq_true ⟨rfl, rfl⟩) (List.find?_eq_none.1 hfind h ha.mem)
  | some other =>
    have hplace := (Handshake.eq_of_isAt (List.find?_some hfind)).1
    rw [ha.own other (List.mem_of_find?_eq_some hfind) (congrArg Place.table hplace)]

omit [Transport κ] in
theorem Awaiting.touched (ha : Awaiting h t₁ t) (hs : t.Staged) (hcall : h.call = none)
    {a : Action κ}
    (hne : ∀ slot result, a ≠ .finish h.place slot result) : t.touched a ≠ some h.place.table := by
  have hwarming := mem_warming.2 ⟨h, ha.mem, hcall, rfl⟩
  have hleases : ∀ k : Nat, (t.leases[k]?).map (fun x => x.1.table) ≠ some h.place.table := by
    intro k hk
    obtain ⟨x, hx, htable⟩ := Option.map_eq_some_iff.1 hk
    exact ha.unlent x (List.mem_of_getElem? hx) htable
  cases a with
  | configure c =>
    intro htouched
    exact absurd (Option.some_inj.1 htouched) (Nat.ne_of_gt (hs.warming_lt _ hwarming))
  | get partition role replica draw => exact hs.apart _ hwarming
  | flush => exact hs.apart _ hwarming
  | finish place slot result =>
    intro htouched
    obtain ⟨other, hfind, htable⟩ := Option.map_eq_some_iff.1 htouched
    have hplace := (Handshake.eq_of_isAt (List.find?_some hfind)).1
    rw [ha.own other (List.mem_of_find?_eq_some hfind) htable] at hplace
    exact hne slot result (by rw [hplace])
  | execute k c => exact hleases k
  | discard k => exact hleases k
  | drop k => exact hleases k
  | setClock now => simp [Traffic.touched]

theorem Awaiting.step (ha : Awaiting h t₁ t) (hs : t.Staged) (hcall : h.call = none) {a : Action κ}
    (hne : ∀ slot result, a ≠ .finish h.place slot result) : Awaiting h t₁ (t.step a) := by
  have htouched := ha.touched hs hcall hne
  have hstill := still_step htouched
  have hown : ∀ other ∈ (t.step a).opening, other.place.table = h.place.table → other = h := by
    intro other hother htable
    obtain hsub | ⟨new, hopen, hnew, -⟩ := opening_step t a
    · exact ha.own other (hsub.subset hother) htable
    · rw [hopen] at hother
      rcases List.mem_cons.1 hother with rfl | hother
      · exact absurd (hnew.trans (congrArg some htable)) htouched
      · exact ha.own other hother htable
  -- seen at the places of the table nothing has changed, so the handshake is still in progress and
  -- nothing is lent
  refine ⟨ha.still.trans hstill, ?_, hown, fun x hx htable => ?_⟩
  · have hslot : h.slot ∈ ((t.step a).usage h.place).opening := by
      rw [hstill.usages h.place rfl]
      exact mem_opening ha.mem
    obtain ⟨other, hother, heq⟩ := List.mem_map.1 (mem_pick.1 hslot)
    rwa [← hown other hother (congrArg Place.table (Prod.mk.inj heq).1)]
  · have hlease : x.2 ∈ ((t.step a).usage x.1).leases := mem_pick.2 hx
    rw [hstill.usages x.1 htable] at hlease
    exact ha.unlent x (mem_pick.1 hlease) htable

theorem Awaiting.run (ha : Awaiting h t₁ t) (hsound : t.Sound) (hs : t.Staged)
    (hcall : h.call = none)
    {as : List (Action κ)} (hne : ∀ slot result, .finish h.place slot result ∉ as) :
    Awaiting h t₁ (t.run as) ∧ (t.run as).Sound ∧ (t.run as).Staged := by
  induction as generalizing t with
  | nil => exact ⟨ha, hsound, hs⟩
  | cons a as ih =>
    have hfirst : ∀ slot result, a ≠ .finish h.place slot result := by
      rintro slot result rfl
      exact hne slot result List.mem_cons_self
    refine ih (ha.step hs hcall hfirst) (hsound.step a).sound (hs.step hsound a) ?_
    exact fun slot result hmem => hne slot result (List.mem_cons_of_mem a hmem)

/-! ## A whole call -/

def meanwhile (c : RouterConfig) (inner : List (Action κ)) (t : Traffic κ) : Traffic κ :=
  (t.configure c).run inner

/-- A call to configure from its beginning to its end: what it returns, and the traffic then. The
handshake, if there is one, comes to `result`. -/
def configureAll (c : RouterConfig) (inner : List (Action κ)) (result : Except Fault κ)
    (t : Traffic κ) : Except Fault Unit × Traffic κ :=
  match (t.router.beginConfigure c t.now).answer with
  | .refused f => (.error f, t.configure c)
  | .installed => (.ok (), t.configure c)
  | .warming place slot =>
    let t' := t.meanwhile c inner
    ((t'.router.finishConfigure place slot result t'.now).answer,
      t'.step (.finish place slot fun _ => result))

def warmUpPlace (t : Traffic κ) : Place := Router.warmUpPlace t.router.tables.size

def Waits (t : Traffic κ) (inner : List (Action κ)) : Prop :=
  ∀ slot result, .finish t.warmUpPlace slot result ∉ inner

structure Leaves (i : Nat) (t t' : Traffic κ) : Prop where
  installed : t'.router.installed = t.router.installed
  table? : t'.router.table? = t.router.table?
  others : ∀ j ≠ i, Still j t t'

/-- What is left of a call that failed. Neither half touches the tables that were there, and what
its warm-up opened was torn down. -/
structure Undone (c : RouterConfig) (inner : List (Action κ)) (t t' : Traffic κ) : Prop where
  begun : Leaves t.router.tables.size t (t.configure c)
  ended : t' = t.configure c ∨ Leaves t.router.tables.size (t.meanwhile c inner) t'
  uninstalled : t'.router.installed ≠ some t.router.tables.size
  tornDown : ∀ place, place.table = t.router.tables.size →
    ((pick place t'.opened).map Leased.member).Perm (pick place t'.tornDown)

structure Installs (c : RouterConfig) (i : Nat) (t' : Traffic κ) : Prop where
  installed : t'.router.installed = some i
  described : ∃ master pools, Address.parseList c.master = [master] ∧
    t'.router.table? = some { (RoutingTable.described c master : RoutingTable κ) with pools }

omit [Transport κ] in
theorem Leaves.of_others {i : Nat} {t t' : Traffic κ}
    (hi : t'.router.installed = t.router.installed)
    (hne : t.router.installed ≠ some i) (ho : ∀ j ≠ i, Still j t t') : Leaves i t t' := by
  refine ⟨hi, ?_, ho⟩
  rw [Router.table?, Router.table?, hi]
  cases hj : t.router.installed with
  | none => rfl
  | some j => exact (ho j fun hij => hne (hij ▸ hj)).table

theorem Sound.table_lt (h : t.Sound) {place : Place}
    (hat : (t.usage place).leases ≠ [] ∨ (t.usage place).opening ≠ []) :
    place.table < t.router.tables.size := by
  obtain ⟨p, hp⟩ := h.made hat
  obtain ⟨s, hs, -⟩ := h.served place (Option.isSome_of_eq_some hp)
  exact Router.plan?_isSome_iff.1 (Option.isSome_of_eq_some hs)

theorem Sound.unlent (h : t.Sound) {x : Place × Lease κ} (hx : x ∈ t.leases) :
    x.1.table ≠ t.router.tables.size :=
  Nat.ne_of_lt (h.table_lt (.inl (List.ne_nil_of_mem (a := x.2) (mem_pick.2 hx))))

theorem Sound.unopened (h : t.Sound) {hand : Handshake} (hhand : hand ∈ t.opening) :
    hand.place.table ≠ t.router.tables.size :=
  Nat.ne_of_lt (h.table_lt (.inr (List.ne_nil_of_mem (mem_opening hhand))))

theorem leases_configure (t : Traffic κ) (c : RouterConfig) :
    (t.configure c).leases = t.leases := by
  rw [configure]
  dsimp only
  split <;> rfl

section call

variable {c : RouterConfig} {master : Address} {inner : List (Action κ)} {result : Except Fault κ}

omit [Transport κ] in
theorem Staged.uninstalled (hs : t.Staged) : t.router.installed ≠ some t.router.tables.size :=
  fun hi => Nat.lt_irrefl _ (hs.installed_lt _ hi)

theorem Staged.leaves_configure (hs : t.Staged)
    (ha : (t.router.beginConfigure c t.now).answer ≠ .installed) :
    Leaves t.router.tables.size t (t.configure c) := by
  refine .of_others ?_ hs.uninstalled fun j hj => still_configure hj.symm c
  rw [router_configure, Router.installed_beginConfigure]
  split
  · next hi => exact absurd hi ha
  · rfl

theorem undone_of_draft (h : t.Sound) (hs : t.Staged) {f : Fault}
    (hd : t.router.draft c = .error f) : Undone c inner t t := by
  have hc := configure_of_draft hd
  refine ⟨?_, .inl hc.symm, hs.uninstalled, fun place hplace => h.cleared ?_ ?_ hplace⟩
  · rw [hc]
    exact .of_others rfl hs.uninstalled fun j _ => .refl j t
  · exact fun _ => h.unlent
  · intro place p hplace hp
    have hnone : t.router.pool? place = none := by
      rw [Router.pool?, hplace, Array.getElem?_eq_none (Nat.le_refl _)]
      rfl
    cases hnone.symm.trans hp

variable (hd : t.router.Drawable c master)

include hd

theorem undone_of_overload (h : t.Sound) (hs : t.Staged) (hw : c.warmUp = true)
    (hm : c.pool.maxActive = some 0) :
    (t.configureAll c inner result).1 = .error (.overload (Router.warmUpName master) 0) ∧
      Undone c inner t (t.configureAll c inner result).2 := by
  obtain ⟨r', p, hbegin, ht', hp⟩ := hd.configure_overload hw hm t.now
  have ha := congrArg Routed.answer hbegin
  have hleaves : Leaves t.router.tables.size t (t.configure c) :=
    hs.leaves_configure fun hi => by cases ha.symm.trans hi
  have hr' : (t.configure c).router = r' :=
    (router_configure t c).trans (congrArg Routed.router hbegin)
  rw [← hr'] at ht'
  rw [configureAll, ha]
  refine ⟨rfl, hleaves, .inl rfl, ?_, fun place hplace =>
    (h.configure c).sound.cleared ?_ (Router.resting_of_warmed ht' hp.resting) hplace⟩
  · rw [hleaves.installed]
    exact hs.uninstalled
  · rw [leases_configure]
    exact fun _ => h.unlent

theorem Sound.awaiting (h : t.Sound) (hw : c.warmUp = true) (hm : c.pool.maxActive ≠ some 0) :
    ∃ hand : Handshake, hand.place = t.warmUpPlace ∧ hand.slot = 0 ∧ hand.call = none ∧
      (t.router.beginConfigure c t.now).answer = .warming t.warmUpPlace 0 ∧
      Awaiting hand (t.configure c) (t.configure c) ∧
      (t.configure c).router.tables[t.router.tables.size]? =
        some ((RoutingTable.described c master).warmed
          (.openingFirst (Router.warmUpName master) c.pool)) := by
  obtain ⟨r', hbegin, ht'⟩ := hd.configure_opening hw hm t.now
  have hopen : (t.configure c).opening =
      ⟨t.warmUpPlace, 0, r'.target? t.warmUpPlace, none⟩ :: t.opening := by
    rw [Traffic.configure, hbegin]
    rfl
  refine ⟨⟨t.warmUpPlace, 0, r'.target? t.warmUpPlace, none⟩, rfl, rfl, rfl,
    congrArg Routed.answer hbegin, ⟨.refl _ _, ?_, ?_, ?_⟩, ?_⟩
  · rw [hopen]
    exact List.mem_cons_self
  · intro other hother htable
    rw [hopen] at hother
    rcases List.mem_cons.1 hother with rfl | hother
    · rfl
    · exact absurd htable (h.unopened hother)
  · rw [leases_configure]
    exact fun _ => h.unlent
  · rw [router_configure, hbegin]
    exact ht'

/-- When the handshake is over, the second half finds the table as the first half left it. -/
structure Waited (c : RouterConfig) (master : Address) (inner : List (Action κ))
    (result : Except Fault κ) (t : Traffic κ) : Prop where
  sound : (t.meanwhile c inner).Sound
  uninstalled : (t.meanwhile c inner).router.installed ≠ some t.router.tables.size
  unlent : ∀ x ∈ (t.meanwhile c inner).leases, x.1.table ≠ t.router.tables.size
  table : (t.meanwhile c inner).router.tables[t.router.tables.size]? =
    some ((RoutingTable.described c master).warmed
      (.openingFirst (Router.warmUpName master) c.pool))
  begun : Leaves t.router.tables.size t (t.configure c)
  finish : (t.meanwhile c inner).step (.finish t.warmUpPlace 0 fun _ => result) =
    (t.meanwhile c inner).finishWarmUp t.warmUpPlace 0 result
  ends : t.configureAll c inner result =
    (((t.meanwhile c inner).router.finishConfigure t.warmUpPlace 0 result
      (t.meanwhile c inner).now).answer, (t.meanwhile c inner).finishWarmUp t.warmUpPlace 0 result)

theorem Sound.waited (h : t.Sound) (hs : t.Staged) (hw : c.warmUp = true)
    (hm : c.pool.maxActive ≠ some 0) (hinner : t.Waits inner) :
    t.Waited c master inner result := by
  obtain ⟨hand, hplace, hslot, hcall, ha, hawaiting, htable⟩ := h.awaiting hd hw hm
  rw [Waits, ← hplace] at hinner
  obtain ⟨hrun, hsound, hstaged⟩ :=
    hawaiting.run (h.configure c).sound (hs.step h (.configure c)) hcall hinner
  have hn : hand.place.table = t.router.tables.size := congrArg Place.table hplace
  have hfinish : (t.meanwhile c inner).step (.finish t.warmUpPlace 0 fun _ => result) =
      (t.meanwhile c inner).finishWarmUp t.warmUpPlace 0 result := by
    rw [meanwhile, Traffic.step, ← hplace, ← hslot, hrun.find]
    simp only [hcall]
  refine ⟨hsound, ?_, ?_, ?_, ?_, hfinish, ?_⟩
  · rw [← hn]
    exact hstaged.apart _ (mem_warming.2 ⟨hand, hrun.mem, hcall, rfl⟩)
  · rw [← hn]
    exact hrun.unlent
  · rw [← htable, ← hn]
    exact hrun.still.table
  · exact hs.leaves_configure fun hi => by cases ha.symm.trans hi
  · rw [configureAll, ha, ← hfinish]

omit hd

theorem leases_finishWarmUp (t : Traffic κ) (place : Place) (slot : Nat) (result : Except Fault κ) :
    (t.finishWarmUp place slot result).leases = t.leases := by
  rw [finishWarmUp]
  split <;> rfl

theorem Waited.sound_end (hw : t.Waited c master inner result) :
    ((t.meanwhile c inner).finishWarmUp t.warmUpPlace 0 result).Sound :=
  hw.finish ▸ (hw.sound.step _).sound

theorem Waited.undone (hw : t.Waited c master inner result) {f : Fault}
    (ha : ((t.meanwhile c inner).router.finishConfigure t.warmUpPlace 0 result
      (t.meanwhile c inner).now).answer = .error f)
    (hidle : ∀ place p, place.table = t.router.tables.size →
      ((t.meanwhile c inner).finishWarmUp t.warmUpPlace 0 result).router.pool? place = some p →
      p.resting = []) :
    Undone c inner t ((t.meanwhile c inner).finishWarmUp t.warmUpPlace 0 result) := by
  have hleaves : Leaves t.router.tables.size (t.meanwhile c inner)
      ((t.meanwhile c inner).finishWarmUp t.warmUpPlace 0 result) := by
    refine .of_others ?_ hw.uninstalled fun j hj => still_finishWarmUp (Ne.symm hj) 0 result
    rw [router_finishWarmUp, Router.installed_finishConfigure, ha]
  refine ⟨hw.begun, .inr hleaves, ?_, fun place hplace => hw.sound_end.cleared ?_ hidle hplace⟩
  · rw [hleaves.installed]
    exact hw.uninstalled
  · rw [leases_finishWarmUp]
    exact hw.unlent

theorem Waited.failed {cause : Fault} (hw : t.Waited c master inner (.error cause)) :
    (t.configureAll c inner (.error cause)).1 =
      .error (.handshake (Router.warmUpName master) cause) ∧
      Undone c inner t (t.configureAll c inner (.error cause)).2 := by
  obtain ⟨r', p, hfinish, ht', hp⟩ :=
    Router.finishConfigure_error hw.table cause (t.meanwhile c inner).now
  have ha := congrArg Routed.answer hfinish
  have hr' : ((t.meanwhile c inner).finishWarmUp t.warmUpPlace 0 (.error cause)).router = r' :=
    (router_finishWarmUp _ _ _ _).trans (congrArg Routed.router hfinish)
  rw [← hr'] at ht'
  rw [hw.ends]
  exact ⟨ha, hw.undone ha (Router.resting_of_warmed ht' hp.resting)⟩

theorem Waited.late {session : κ} (hw : t.Waited c master inner (.ok session))
    (hbusy : (t.meanwhile c inner).router.installed ≠ none) :
    (t.configureAll c inner (.ok session)).1 = .error .alreadyConfigured ∧
      Undone c inner t (t.configureAll c inner (.ok session)).2 := by
  obtain ⟨r', p, idle, ha, hr, hi, ht', hp, -⟩ :=
    Router.finishConfigure_ok hw.table session (t.meanwhile c inner).now
  rw [Router.install_of_some (hi ▸ hbusy)] at ha hr
  rw [hw.ends]
  -- the session that came back may be idle, and then the closing of the table tears it down
  refine ⟨ha, hw.undone ha fun place q hplace hq => hw.sound_end.resting_of_closed hq ?_⟩
  rw [router_finishWarmUp, warmUpPlace, hr, Router.pool?_closeTable, if_pos hplace.symm] at hq
  obtain ⟨q', hq', rfl⟩ := Option.map_eq_some_iff.1 hq
  rw [Router.pool?, hplace, ht'] at hq'
  rw [RoutingTable.eq_of_pool?_warmed hq']
  exact hp.closed_close

theorem Waited.installs {session : κ} (hw : t.Waited c master inner (.ok session))
    (hm : Address.parseList c.master = [master])
    (hfree : (t.meanwhile c inner).router.installed = none) :
    (t.configureAll c inner (.ok session)).1 = .ok () ∧
      Installs c t.router.tables.size (t.configureAll c inner (.ok session)).2 ∧
      (Transport.isHealthy session = true → c.pool.maxIdle ≠ some 0 →
        (t.configureAll c inner (.ok session)).2.router.stats .master = ⟨1, 1, 0⟩) := by
  obtain ⟨r', p, idle, ha, hr, hi, ht', -, hstats⟩ :=
    Router.finishConfigure_ok hw.table session (t.meanwhile c inner).now
  rw [Router.install_of_none (hi.trans hfree)] at ha hr
  have htable : ((t.meanwhile c inner).finishWarmUp t.warmUpPlace 0 (.ok session)).router.table? =
      some ((RoutingTable.described c master).warmed p) := by
    rw [router_finishWarmUp, warmUpPlace, hr]
    exact ht'
  rw [hw.ends]
  refine ⟨ha, ⟨?_, master, _, hm, htable⟩, fun hhealthy hmax => ?_⟩
  · rw [router_finishWarmUp, warmUpPlace, hr]
  · rw [Router.stats, htable]
    exact RoutingTable.stats_warmed.trans (hstats hhealthy hmax)

theorem installs_of_plain (hd : t.router.Drawable c master) (hw : c.warmUp = false) :
    (t.configureAll c inner result).1 = .ok () ∧
      Installs c t.router.tables.size (t.configureAll c inner result).2 := by
  have hbegin := hd.configure_plain hw t.now
  have ha := congrArg Routed.answer hbegin
  have hall : t.configureAll c inner result = (.ok (), t.configure c) := by rw [configureAll, ha]
  rw [hall]
  refine ⟨rfl, ?_, master, [], hd.master, ?_⟩
  · rw [router_configure, hbegin]
  · rw [router_configure, hbegin]
    exact Array.getElem?_push_size

/-! ## How a call ends -/

def installing (c : RouterConfig) (inner : List (Action κ)) (t : Traffic κ) : Traffic κ :=
  if c.warmUp then t.meanwhile c inner else t

/-- All that stands against a call, in the order in which it is looked at. -/
def objections (c : RouterConfig) (inner : List (Action κ)) (result : Except Fault κ)
    (t : Traffic κ) : List Fault :=
  t.router.draftObjections c ++ (if c.warmUp then Router.warmUpObjections c result else []) ++
    if (t.installing c inner).router.isConfigured then [.alreadyConfigured] else []

def firstFault : List Fault → Except Fault Unit
  | [] => .ok ()
  | f :: _ => .error f

theorem firstFault_eq_ok {fs : List Fault} : firstFault fs = .ok () ↔ fs = [] := by
  cases fs <;> simp [firstFault]

structure Ends (c : RouterConfig) (inner : List (Action κ)) (result : Except Fault κ)
    (t : Traffic κ) : Prop where
  answer : (t.configureAll c inner result).1 = firstFault (t.objections c inner result)
  success : (t.configureAll c inner result).1 = .ok () →
    Installs c t.router.tables.size (t.configureAll c inner result).2 ∧
    (c.warmUp = true → ∀ session, result = .ok session → Transport.isHealthy session = true →
      c.pool.maxIdle ≠ some 0 → (t.configureAll c inner result).2.router.stats .master = ⟨1, 1, 0⟩)
  failure : ∀ f, (t.configureAll c inner result).1 = .error f →
    Undone c inner t (t.configureAll c inner result).2

theorem Ends.of_error {f : Fault}
    (h : (t.configureAll c inner result).1 = .error f ∧
      Undone c inner t (t.configureAll c inner result).2)
    (ho : (t.objections c inner result).head? = some f) : t.Ends c inner result where
  answer := by
    obtain ⟨rest, ho⟩ := List.head?_eq_some_iff.1 ho
    rw [h.1, ho]
    rfl
  success hok := by cases h.1.symm.trans hok
  failure _ _ := h.2

theorem Ends.of_ok (h : (t.configureAll c inner result).1 = .ok ())
    (hi : Installs c t.router.tables.size (t.configureAll c inner result).2)
    (hstats : c.warmUp = true → ∀ session, result = .ok session →
      Transport.isHealthy session = true →
      c.pool.maxIdle ≠ some 0 → (t.configureAll c inner result).2.router.stats .master = ⟨1, 1, 0⟩)
    (ho : t.objections c inner result = []) : t.Ends c inner result where
  answer := by rw [h, ho]; rfl
  success _ := ⟨hi, hstats⟩
  failure f hf := by cases h.symm.trans hf

theorem Sound.ends_of_warmUp (h : t.Sound) (hs : t.Staged) (hinner : t.Waits inner)
    (hd : t.router.Drawable c master) (hdraft : t.router.draftObjections c = [])
    (hw : c.warmUp = true) : t.Ends c inner result := by
  have ho : t.objections c inner result = Router.warmUpObjections c result ++
      if (t.meanwhile c inner).router.isConfigured then [.alreadyConfigured] else [] := by
    rw [objections, hdraft, installing, if_pos hw, if_pos hw, List.nil_append]
  by_cases hm : c.pool.maxActive = some 0
  · refine .of_error (undone_of_overload hd h hs hw hm) ?_
    simp [ho, Router.warmUpObjections, hm, hd.master]
  · have hwaited : t.Waited c master inner result := h.waited hd hs hw hm hinner
    cases result with
    | error cause =>
      refine .of_error hwaited.failed ?_
      simp [ho, Router.warmUpObjections, hm, hd.master]
    | ok session =>
      rw [Router.warmUpObjections_eq_nil.2 ⟨hm, session, rfl⟩, List.nil_append] at ho
      by_cases hfree : (t.meanwhile c inner).router.installed = none
      · obtain ⟨hok, hinstalls, hstats⟩ := hwaited.installs hd.master hfree
        refine .of_ok hok hinstalls ?_ ?_
        · rintro - session' hsession
          cases hsession
          exact hstats
        · rw [ho, Router.isConfigured, hfree]
          rfl
      · refine .of_error (hwaited.late hfree) ?_
        rw [ho, Router.isConfigured, if_pos (Option.isSome_iff_ne_none.2 hfree)]
        rfl

theorem Sound.ends (h : t.Sound) (hs : t.Staged) (hinner : t.Waits inner) :
    t.Ends c inner result := by
  cases hdraft : t.router.draftObjections c with
  | cons f rest =>
    have hd := Router.draft_of_objection hdraft
    have hall : t.configureAll c inner result = (.error f, t) := by
      rw [configureAll, Router.beginConfigure, hd]
      exact congrArg _ (configure_of_draft hd)
    refine .of_error ?_ (f := f) (by rw [objections, hdraft]; rfl)
    rw [hall]
    exact ⟨rfl, undone_of_draft h hs hd⟩
  | nil =>
    obtain ⟨master, hd⟩ := Router.drawable_of_nil hdraft
    by_cases hw : c.warmUp = true
    · exact h.ends_of_warmUp hs hinner hd hdraft hw
    · obtain ⟨hok, hinstalls⟩ : (t.configureAll c inner result).1 = .ok () ∧ _ :=
        installs_of_plain hd (Bool.not_eq_true _ ▸ hw)
      refine .of_ok hok hinstalls (fun hw' => absurd hw' hw) ?_
      rw [objections, hdraft, installing, if_neg hw, if_neg hw, Router.isConfigured,
        hd.unconfigured]
      rfl

/-- A call to configure succeeds if nothing stands against it, and then its table is the installed
one. Otherwise it fails with the first objection, what its warm-up opened is torn down, and neither
the installed table nor any other one changes, but by what is done with the router during the
handshake. -/
theorem configure_all_or_nothing (replicaLimit : Nat) (as : List (Action κ)) (c : RouterConfig)
    (inner : List (Action κ)) (result : Except Fault κ)
    (hinner : ((start replicaLimit).run as).Waits inner) :
    let t := (start replicaLimit).run as
    let answer := (t.configureAll c inner result).1
    let t' := (t.configureAll c inner result).2
    (answer = .ok () ↔ t.router.isConfigured = false ∧ (Address.parseList c.master).length = 1 ∧
      (Address.parseList c.replicas).length ≤ t.router.replicaLimit ∧
      (c.warmUp = true → c.pool.maxActive ≠ some 0 ∧ ∃ session, result = .ok session) ∧
      (t.installing c inner).router.isConfigured = false) ∧
    answer = firstFault (t.objections c inner result) ∧
    (answer = .ok () → Installs c t.router.tables.size t' ∧
      (c.warmUp = true → ∀ session, result = .ok session → Transport.isHealthy session = true →
        c.pool.maxIdle ≠ some 0 → t'.router.stats .master = ⟨1, 1, 0⟩)) ∧
    ∀ f, answer = .error f → Undone c inner t t' := by
  intro t answer t'
  obtain ⟨h, hs⟩ := run_staged replicaLimit as
  obtain ⟨hanswer, hsuccess, hfailure⟩ : t.Ends c inner result := h.ends hs hinner
  refine ⟨?_, hanswer, hsuccess, hfailure⟩
  change (t.configureAll c inner result).1 = .ok () ↔ _
  rw [hanswer, firstFault_eq_ok, objections, List.append_eq_nil_iff, List.append_eq_nil_iff,
    Router.draftObjections_eq_nil]
  simp [Router.warmUpObjections_eq_nil, and_assoc]

/-- A call whose handshake configures the router loses; if the handshake flushes it again, the call
wins. -/
theorem configure_all_or_nothing_reentrant :
    let c : RouterConfig := { master := "m:1", warmUp := true }
    let inner : List (Action Scenario.Stub) :=
      [.configure { master := "n:2" }, .get 3 .master none 0]
    let t : Traffic Scenario.Stub := start 15
    let lost := t.configureAll c inner (.ok ⟨1, true⟩)
    let won := t.configureAll c (inner ++ [.flush]) (.ok ⟨1, true⟩)
    t.Waits inner ∧ lost.1 = .error .alreadyConfigured ∧ lost.2.router.installed = some 1 ∧
      lost.2.tornDown.map (fun x => (x.1, x.2.id)) = [(⟨0, .ofMaster 0⟩, 1)] ∧
        Undone c inner t lost.2 ∧
      won.1 = .ok () ∧ won.2.router.installed = some 0 ∧
        won.2.router.stats .master = ⟨1, 1, 0⟩ := by
  intro c inner t lost won
  have hinner : t.Waits inner := by simp [Waits, inner]
  have hlost : lost.1 = .error .alreadyConfigured := by decide +kernel
  obtain ⟨-, -, -, hundone⟩ := configure_all_or_nothing 15 [] c inner (.ok ⟨1, true⟩) hinner
  exact ⟨hinner, hlost, by decide +kernel, by decide +kernel, hundone _ hlost, by decide +kernel,
    by decide +kernel, by decide +kernel⟩

end call

end Traffic

end SessionPool
