import Mathlib.Algebra.BigOperators.Group.List.Basic
import Mathlib.Algebra.Ring.Nat
import Mathlib.Data.List.Nodup
import SessionPool.Proofs.Router.Flushing

/-!
# What the counters of a router count

The counters of a role are sums over the pools of the installed table. Every lease and every
handshake stands at one place, and the keys of a table are distinct; so the sums count each of them
once, if it is at the installed table, and not at all otherwise. A table that was flushed, or whose
call to configure failed, is never installed again.
-/

namespace SessionPool

/-! ## Sums over the pools of a table -/

section sums

variable {ι α : Type} [DecidableEq ι]

theorem length_pick (k : ι) (xs : List (ι × α)) :
    (pick k xs).length = (xs.map Prod.fst).count k := by
  induction xs with
  | nil => rfl
  | cons x xs ih =>
    rw [pick_cons, List.map_cons, List.count_cons, ← ih]
    by_cases hx : x.1 = k <;> simp [hx]

theorem countP_mem_cons {k : ι} {keys : List ι} (hk : k ∉ keys) (xs : List ι) :
    xs.countP (· ∈ k :: keys) = xs.count k + xs.countP (· ∈ keys) := by
  induction xs with
  | nil => rfl
  | cons x xs ih =>
    rw [List.countP_cons, List.count_cons, List.countP_cons, ih]
    by_cases hx : x = k
    · simp [hx, hk]
      omega
    · simp [hx]
      omega

theorem sum_count {keys : List ι} (h : keys.Nodup) (xs : List ι) :
    (keys.map fun k => xs.count k).sum = xs.countP (· ∈ keys) := by
  induction keys with
  | nil => simp
  | cons k keys ih =>
    obtain ⟨hk, h⟩ := List.nodup_cons.1 h
    rw [List.map_cons, List.sum_cons, ih h, countP_mem_cons hk]

end sums

namespace PoolStats

theorem foldl_add (items : List PoolStats) (a : PoolStats) : items.foldl (· + ·) a =
    ⟨a.active + (items.map active).sum, a.idle + (items.map idle).sum,
      a.inUse + (items.map inUse).sum⟩ := by
  induction items generalizing a with
  | nil => rfl
  | cons b items ih =>
    rw [List.foldl_cons, ih]
    simp only [List.map_cons, List.sum_cons, ← Nat.add_assoc]
    rfl

theorem total_eq (items : List PoolStats) : total items =
    ⟨(items.map active).sum, (items.map idle).sum, (items.map inUse).sum⟩ := by
  rw [total, foldl_add]
  simp only [show (0 : PoolStats) = ⟨0, 0, 0⟩ from rfl, Nat.zero_add]

theorem total_perm {items items' : List PoolStats} (h : items'.Perm items) :
    total items' = total items := by
  rw [total_eq, total_eq, (h.map _).sum_eq, (h.map _).sum_eq, (h.map _).sum_eq]

end PoolStats

variable {κ : Type}

namespace RoutingTable

variable {s : RoutingTable κ} {key : PoolKey} {p : Pool κ}

def serving (role : Role) (s : RoutingTable κ) : List (PoolKey × Pool κ) :=
  s.pools.filter fun entry => entry.1.role = role

theorem stats_perm {pools : List (PoolKey × Pool κ)} (h : pools.Perm s.pools) (role : Role) :
    ({ s with pools } : RoutingTable κ).stats role = s.stats role :=
  PoolStats.total_perm ((h.filter _).map _)

theorem mem_of_pool? (h : s.pool? key = some p) : (key, p) ∈ s.pools := by
  obtain ⟨⟨k, q⟩, hfind, rfl⟩ := Option.map_eq_some_iff.1 h
  have hk := List.find?_some hfind
  rw [decide_eq_true_eq] at hk
  exact hk ▸ List.mem_of_find?_eq_some hfind

theorem Keyed.pool?_of_mem (h : s.Keyed) (hp : (key, p) ∈ s.pools) : s.pool? key = some p := by
  cases hq : s.pool? key with
  | none => exact absurd (List.mem_map_of_mem hp) (pool?_eq_none_iff.1 hq)
  | some q =>
    have hpair := List.inj_on_of_nodup_map h hp (mem_of_pool? hq) rfl
    rw [(Prod.mk.inj hpair).2]

end RoutingTable

namespace Traffic

variable {t : Traffic κ} {place : Place} {p : Pool κ} {i : Nat}

def busy (t : Traffic κ) : List Place := t.leases.map Prod.fst ++ t.opening.map Handshake.place

/-- The outstanding leases and the handshakes in progress of a role at the installed table. -/
def inUse (role : Role) (t : Traffic κ) : List Place :=
  t.busy.filter fun place => t.router.installed = some place.table ∧ place.key.role = role

def idle (role : Role) (t : Traffic κ) : List (Place × Resting κ) :=
  match t.router.installed, t.router.table? with
  | some i, some s => (s.serving role).flatMap fun entry => entry.2.resting.map (⟨i, entry.1⟩, ·)
  | _, _ => []

theorem count_busy (t : Traffic κ) (place : Place) : t.busy.count place =
    (t.usage place).leases.length + (t.usage place).opening.length := by
  rw [busy, List.count_append, usage, length_pick, length_pick, List.map_map]
  rfl

variable [Transport κ]

theorem Sound.stats_eq (h : t.Sound) (hp : t.router.pool? place = some p) : p.stats =
    ⟨p.resting.length + t.busy.count place, p.resting.length, t.busy.count place⟩ := by
  have ho := (h.settled hp).1
  have hentries := congrArg List.length ho.entries
  have hactive := ho.active
  obtain ⟨-, hidle, -, hinUse⟩ := ho.counters
  rw [← count_busy] at hinUse
  rw [Nat.add_assoc, ← count_busy] at hactive
  rw [List.length_map, List.length_map] at hentries
  rw [hentries] at hidle hactive
  rw [show (t.usage place).pool = p from Router.poolAt_of_some hp] at hidle hactive hinUse
  rw [← hactive, ← hidle, ← hinUse]
  rfl

theorem Sound.made_of_busy (h : t.Sound) (hplace : place ∈ t.busy) :
    ∃ p, t.router.pool? place = some p := by
  have hpos := List.count_pos_iff.2 hplace
  rw [count_busy] at hpos
  refine h.made ?_
  rcases Nat.add_pos_iff_pos_or_pos.1 hpos with hpos | hpos
  · exact .inl (List.length_pos_iff.1 hpos)
  · exact .inr (List.length_pos_iff.1 hpos)

section installed

variable {s : RoutingTable κ} (hi : t.router.installed = some i) (hs : t.router.tables[i]? = some s)

include hi hs

omit [Transport κ] in
theorem length_idle (role : Role) : (t.idle role).length =
    ((s.serving role).map fun entry => entry.2.resting.length).sum := by
  have htable : t.router.table? = some s := by
    rw [Router.table?, hi]
    exact hs
  simp only [idle, hi, htable, List.length_flatMap, List.length_map]

theorem Sound.length_inUse (h : t.Sound) (role : Role) : (t.inUse role).length =
    ((s.serving role).map fun entry => t.busy.count ⟨i, entry.1⟩).sum := by
  have hkeys : ((s.serving role).map Prod.fst).Nodup :=
    (h.keyed i s hs).sublist (List.filter_sublist.map _)
  have hplaces := hkeys.map (f := Place.mk i) fun a b hab => (Place.mk.inj hab).2
  have hsum := sum_count hplaces t.busy
  rw [List.map_map, List.map_map] at hsum
  rw [inUse, ← List.countP_eq_length_filter]
  refine Eq.trans (List.countP_congr fun place hplace => ?_) hsum.symm
  rw [decide_eq_true_eq, decide_eq_true_eq, hi, List.mem_map]
  constructor
  · rintro ⟨hinst, hrole⟩
    obtain ⟨p, hp⟩ := h.made_of_busy hplace
    rw [Router.pool?, ← Option.some_inj.1 hinst, hs] at hp
    exact ⟨place.key, List.mem_map.2 ⟨(place.key, p), List.mem_filter.2
      ⟨RoutingTable.mem_of_pool? hp, decide_eq_true hrole⟩, rfl⟩, by rw [Option.some_inj.1 hinst]⟩
  · rintro ⟨key, hkey, rfl⟩
    obtain ⟨entry, hentry, rfl⟩ := List.mem_map.1 hkey
    exact ⟨rfl, of_decide_eq_true (List.mem_filter.1 hentry).2⟩

theorem Sound.stats_installed (h : t.Sound) (role : Role) : t.router.stats role =
    ⟨(t.idle role).length + (t.inUse role).length, (t.idle role).length,
      (t.inUse role).length⟩ := by
  have hpools : (s.serving role).map (fun entry => entry.2.stats) =
    (s.serving role).map fun entry =>
      ⟨entry.2.resting.length + t.busy.count ⟨i, entry.1⟩, entry.2.resting.length,
        t.busy.count ⟨i, entry.1⟩⟩ := by
    refine List.map_congr_left fun entry hentry => h.stats_eq ?_
    rw [Router.pool?, hs]
    exact (h.keyed i s hs).pool?_of_mem (List.mem_filter.1 hentry).1
  rw [Router.stats, Router.table?, hi, Option.bind_some, hs, h.length_inUse hi hs,
    length_idle hi hs, ← List.sum_map_add]
  refine (congrArg PoolStats.total hpools).trans ?_
  rw [PoolStats.total_eq, List.map_map, List.map_map, List.map_map]
  rfl

end installed

theorem Sound.stats_exact (h : t.Sound) (hs : t.Staged) (role : Role) : t.router.stats role =
    ⟨(t.idle role).length + (t.inUse role).length, (t.idle role).length,
      (t.inUse role).length⟩ := by
  cases hi : t.router.installed with
  | none =>
    have hstats : t.router.stats role = 0 := (unconfigured_of_none hi).stats role
    have hidle : t.idle role = [] := by simp only [idle, hi]
    have hinUse : t.inUse role = [] := by simp [inUse, hi]
    rw [hstats, hidle, hinUse]
    rfl
  | some i =>
    exact h.stats_installed hi (Array.getElem?_eq_getElem (hs.installed_lt i hi)) role

/-! ## A table without replicas -/

omit [Transport κ] in
theorem route_fallback {s : RoutingTable κ} (hs : t.router.table? = some s) (hnil : s.replicas = [])
    (partition : Nat) (replica replica' : Option Nat) (draw draw' : Nat) :
    t.router.route partition .replica replica draw =
      t.router.route partition .master replica' draw' := by
  have hkey : s.resolve partition .replica replica draw =
      s.resolve partition .master replica' draw' := by
    simp [RoutingTable.resolve, hnil]
  rw [Router.route, Router.route, hs]
  cases t.router.installed with
  | none => rfl
  | some i => simp only [hkey]

omit [Transport κ] in
theorem begin_call (t : Traffic κ) (call call' : Call) (place : Place) :
    (t.begin call place).router = (t.begin call' place).router ∧
      (t.begin call place).leases = (t.begin call' place).leases ∧
      (t.begin call place).busy = (t.begin call' place).busy := by
  rw [begin, begin]
  split <;> exact ⟨rfl, rfl, rfl⟩

theorem Sound.stats_replica {s : RoutingTable κ} (h : t.Sound) (hs : t.router.table? = some s)
    (hnil : s.replicas = []) : t.router.stats .replica = 0 := by
  obtain ⟨i, hi, hat⟩ := Option.bind_eq_some_iff.1 hs
  have hnone : s.pools.filter (fun entry => entry.1.role = .replica) = [] := by
    refine List.filter_eq_nil_iff.2 fun entry hentry hrole => ?_
    have hp : t.router.pool? ⟨i, entry.1⟩ = some entry.2 := by
      rw [Router.pool?, hat]
      exact (h.keyed i s hat).pool?_of_mem hentry
    obtain ⟨s', hs', hhas⟩ := h.served _ (Option.isSome_of_eq_some hp)
    rw [Router.plan?, hat, Option.map_some, Option.some_inj] at hs'
    have hlt := hhas.2
    rw [of_decide_eq_true hrole, ← hs'] at hlt
    change _ < s.replicas.length at hlt
    rw [hnil] at hlt
    exact Nat.not_lt_zero _ hlt
  rw [Router.stats, hs]
  exact congrArg (fun entries => PoolStats.total (entries.map fun entry => entry.2.stats)) hnone

/-! ## Tables that do not count -/

def Uncounted (i : Nat) (t : Traffic κ) : Prop :=
  ∀ role, (∀ x ∈ t.idle role, x.1.table ≠ i) ∧ ∀ place ∈ t.inUse role, place.table ≠ i

omit [Transport κ] in
theorem uncounted_of_uninstalled (hi : t.router.installed ≠ some i) : Uncounted i t := by
  refine fun role => ⟨fun x hx htable => ?_, fun place hplace htable => ?_⟩
  · rw [idle] at hx
    split at hx
    · next j s hj hs =>
      obtain ⟨entry, -, hx⟩ := List.mem_flatMap.1 hx
      obtain ⟨y, -, rfl⟩ := List.mem_map.1 hx
      exact hi (htable ▸ hj)
    · cases hx
  · have hinst := (of_decide_eq_true (List.mem_filter.1 hplace).2).1
    exact hi (htable ▸ hinst)

theorem Unwarmed.run (hu : Unwarmed i t) (h : t.Sound) (as : List (Action κ)) :
    Unwarmed i (t.run as) ∧
      (t.router.installed ≠ some i → (t.run as).router.installed ≠ some i) := by
  induction as generalizing t with
  | nil => exact ⟨hu, id⟩
  | cons a as ih =>
    obtain ⟨hlast, hinst⟩ := ih (hu.step h a) (h.step a).sound
    exact ⟨hlast, fun hi => hinst (hu.uninstalled_step hi a)⟩

omit [Transport κ] in
theorem Staged.unwarmed (hs : t.Staged) (hi : t.router.installed = some i) : Unwarmed i t :=
  ⟨hs.installed_lt i hi, fun hmem => hs.apart i hmem hi⟩

theorem Staged.failed (hs : t.Staged) {a : Action κ} {f : Fault}
    (hv : t.verdict a = some (.error f)) (ha : t.touched a = some i)
    (hlt : i < (t.step a).router.tables.size) :
    ¬ Unwarmed i t ∧ Unwarmed i (t.step a) ∧ (t.step a).router.installed ≠ some i := by
  have hinst : (t.step a).router.installed = some i → t.router.installed = some i := fun hinst => by
    rcases installed_of_not_ok (by rw [hv]; simp) with hsame | ⟨-, hnone⟩
    · exact hsame ▸ hinst
    · cases hnone.symm.trans hinst
  cases a with
  | configure c =>
    obtain rfl := Option.some_inj.1 ha
    refine ⟨fun hu => Nat.lt_irrefl _ hu.lt, ⟨hlt, fun hmem => ?_⟩, fun hi => ?_⟩
    · rcases opening_step t (.configure c) with hsub | ⟨_, -, -, hnone, -⟩
      · exact Nat.lt_irrefl _ (hs.warming_lt _ ((warming_sublist hsub).subset hmem))
      · rw [hv] at hnone
        cases hnone
    · exact Nat.lt_irrefl _ (hs.installed_lt _ (hinst hi))
  | finish place slot result =>
    obtain ⟨hand, hfind, rfl⟩ := Option.map_eq_some_iff.1 ha
    rw [verdict, hfind] at hv
    dsimp only at hv
    split at hv
    · next hcall =>
      have hmem : hand.place.table ∈ warming t.opening :=
        mem_warming.2 ⟨hand, List.mem_of_find?_eq_some hfind, hcall, rfl⟩
      refine ⟨fun hu => hu.unwarmed hmem, ⟨hlt, ?_⟩, fun hi => hs.apart _ hmem (hinst hi)⟩
      rw [Traffic.step, hfind]
      simp only [hcall]
      rw [opening_finishWarmUp]
      exact warming_eraseP hs.nodup hfind hcall
    · cases hv
  | _ => cases hv

/-- What the counters of a router say of the traffic. -/
structure Counted (t : Traffic κ) : Prop where
  stats : ∀ role, t.router.stats role =
    ⟨(t.idle role).length + (t.inUse role).length, (t.idle role).length, (t.inUse role).length⟩
  order : ∀ s, t.router.table? = some s → ∀ pools, pools.Perm s.pools → ∀ role,
    ({ s with pools } : RoutingTable κ).stats role = t.router.stats role
  fallback : ∀ s, t.router.table? = some s → s.replicas = [] →
    t.router.stats .replica = 0 ∧ ∀ partition replica draw,
      let asked := t.step (.get partition .replica replica draw)
      let served := t.step (.get partition .master none 0)
      asked.router = served.router ∧ asked.leases = served.leases ∧ asked.busy = served.busy

theorem Sound.counted (h : t.Sound) (hs : t.Staged) : t.Counted where
  stats := h.stats_exact hs
  order s htable pools hperm role := by
    rw [RoutingTable.stats_perm hperm, Router.stats, htable]
    rfl
  fallback s htable hnil := by
    refine ⟨h.stats_replica htable hnil, fun partition replica draw => ?_⟩
    rw [Traffic.step, Traffic.step, route_fallback htable hnil partition replica none draw 0]
    cases t.router.route partition .master none 0 with
    | error f => exact ⟨rfl, rfl, rfl⟩
    | ok routed => exact begin_call _ _ _ _

/-- In every state the counters are exact; a table that was flushed does not count any more, and one
whose call to configure failed never did. -/
theorem run_counters (replicaLimit : Nat) (as : List (Action κ)) :
    let t := (start replicaLimit).run as
    t.Counted ∧
    (∀ i, t.router.installed = some i → ∀ bs, Uncounted i ((t.step .flush).run bs)) ∧
    ∀ a f i, t.verdict a = some (.error f) → t.touched a = some i →
      i < (t.step a).router.tables.size →
      ∀ bs cs, cs <+: as ++ a :: bs → Uncounted i ((start replicaLimit).run cs) := by
  intro t
  obtain ⟨h, hs⟩ : t.Sound ∧ t.Staged := run_staged replicaLimit as
  refine ⟨h.counted hs, fun i hi bs => ?_, fun a f i hv ha hlt bs cs hcs => ?_⟩
  · have hu : Unwarmed i (t.step .flush) := (hs.unwarmed hi).step h .flush
    refine uncounted_of_uninstalled ((hu.run (h.step .flush).sound bs).2 ?_)
    rw [show (t.step .flush).router.installed = none from Router.installed_flush _]
    exact (Option.some_ne_none i).symm
  · obtain ⟨hwarming, hu, hinst⟩ := hs.failed hv ha hlt
    refine uncounted_of_uninstalled ?_
    rcases List.prefix_or_prefix_of_prefix hcs (List.prefix_append as _) with ⟨ds, rfl⟩ | ⟨ds, rfl⟩
    · -- a table that is installed waits for no warm-up, and so it could not fail later
      intro hi
      obtain ⟨hc, hsc⟩ := run_staged replicaLimit cs
      refine hwarming ?_
      rw [show t = ((start replicaLimit).run cs).run ds from run_append _ cs ds]
      exact ((hsc.unwarmed hi).run hc ds).1
    · rw [run_append]
      cases ds with
      | nil =>
        intro hi
        exact hwarming (hs.unwarmed hi)
      | cons d ds =>
        obtain ⟨rfl, -⟩ := List.cons_prefix_cons.1 ((List.prefix_append_right_inj as).1 hcs)
        exact (hu.run (h.step d).sound ds).2 hinst

/-- One session is idle at the master, which was asked in place of a replica, and one handshake is
in progress; the lease of a table that was flushed before is not counted. -/
example :
    let t := (start 15 : Traffic Scenario.Stub).run
      [.configure { master := "m:1" }, .get 0 .master none 0,
        .finish ⟨0, .ofMaster 0⟩ 0 fun _ => .ok ⟨1, true⟩, .flush, .configure { master := "m:1" },
        .get 0 .replica (some 4) 7, .finish ⟨1, .ofMaster 0⟩ 0 fun _ => .ok ⟨2, true⟩, .drop 0,
        .get 3 .master none 0]
    t.leases.length = 1 ∧ t.router.stats .master = ⟨2, 1, 1⟩ ∧ t.router.stats .replica = 0 := by
  decide +kernel

end Traffic

end SessionPool
