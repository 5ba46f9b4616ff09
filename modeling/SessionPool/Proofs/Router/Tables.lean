import SessionPool.Proofs.Pool.Operations
import SessionPool.Router.Configure

/-!
# What a router holds

A router is seen through two look-ups: the pool at a place, and the plan of a table, which is the
table without its pools. Each operation is described by what it does to both, so that what happens
at one place can be followed without looking at the others.
-/

namespace SessionPool

section pick

variable {ι α : Type} [DecidableEq ι]

/-- What a list of things under keys has under one key. -/
def pick (k : ι) (xs : List (ι × α)) : List α :=
  xs.filterMap fun x => if x.1 = k then some x.2 else none

variable {k k' : ι} {a : α} {xs : List (ι × α)}

@[simp] theorem pick_nil : pick k ([] : List (ι × α)) = [] := rfl

@[simp] theorem pick_append (xs ys : List (ι × α)) : pick k (xs ++ ys) = pick k xs ++ pick k ys :=
  List.filterMap_append

theorem pick_cons (x : ι × α) (xs : List (ι × α)) :
    pick k (x :: xs) = if x.1 = k then x.2 :: pick k xs else pick k xs := by
  by_cases h : x.1 = k <;> simp [pick, h]

@[simp] theorem pick_cons_self : pick k ((k, a) :: xs) = a :: pick k xs := by simp [pick]

theorem pick_cons_of_ne (h : k' ≠ k) : pick k ((k', a) :: xs) = pick k xs := by simp [pick, h]

@[simp] theorem pick_map_self (as : List α) : pick k (as.map (k, ·)) = as := by
  simp [pick, List.filterMap_map]

theorem pick_map_of_ne (h : k' ≠ k) (as : List α) : pick k (as.map (k', ·)) = [] := by
  simp [pick, List.filterMap_map, h]

theorem mem_pick : a ∈ pick k xs ↔ (k, a) ∈ xs := by
  rw [pick, List.mem_filterMap]
  constructor
  · rintro ⟨⟨j, b⟩, hx, hb⟩
    split at hb
    · next hj =>
      cases hb
      exact hj ▸ hx
    · cases hb
  · exact fun hx => ⟨(k, a), hx, if_pos rfl⟩

theorem pick_erase [DecidableEq α] : pick k (xs.erase (k, a)) = (pick k xs).erase a := by
  induction xs with
  | nil => rfl
  | cons x xs ih =>
    obtain ⟨j, b⟩ := x
    by_cases hj : j = k
    · subst hj
      by_cases hb : b = a
      · simp [hb]
      · simpa [hb, List.erase_cons] using ih
    · simpa [pick_cons_of_ne hj, List.erase_cons, hj] using ih

theorem pick_erase_of_ne [DecidableEq α] (h : k' ≠ k) : pick k (xs.erase (k', a)) = pick k xs := by
  induction xs with
  | nil => rfl
  | cons x xs ih =>
    obtain ⟨j, b⟩ := x
    rw [List.erase_cons]
    split
    · next hx =>
      obtain ⟨rfl, -⟩ := Prod.mk.inj (eq_of_beq hx)
      exact (pick_cons_of_ne h).symm
    · by_cases hj : j = k
      · subst hj
        simpa using ih
      · simpa [pick_cons_of_ne hj] using ih

theorem exists_pick_index {i : Nat} (h : xs[i]? = some (k, a)) :
    ∃ j : Nat, (pick k xs)[j]? = some a ∧ pick k (xs.eraseIdx i) = (pick k xs).eraseIdx j ∧
      ∀ b, pick k (xs.set i (k, b)) = (pick k xs).set j b := by
  induction xs generalizing i with
  | nil => cases h
  | cons x xs ih =>
    cases i with
    | zero =>
      cases h
      exact ⟨0, by simp⟩
    | succ i =>
      obtain ⟨j, hj, herase, hset⟩ := ih h
      obtain ⟨k', b⟩ := x
      by_cases hk : k' = k
      · subst hk
        exact ⟨j + 1, by simp [hj, herase, hset]⟩
      · exact ⟨j, by simp [pick_cons_of_ne hk, hj, herase, hset]⟩

theorem pick_eraseIdx_of_ne {i : Nat} (h : xs[i]? = some (k', a)) (hne : k' ≠ k) :
    pick k (xs.eraseIdx i) = pick k xs := by
  induction xs generalizing i with
  | nil => rfl
  | cons x xs ih =>
    cases i with
    | zero =>
      cases h
      simp [pick_cons_of_ne hne]
    | succ i => rw [List.eraseIdx_cons_succ, pick_cons, pick_cons, ih h]

theorem pick_set_of_ne {i : Nat} (h : xs[i]? = some (k', a)) (hne : k' ≠ k) (b : α) :
    pick k (xs.set i (k', b)) = pick k xs := by
  induction xs generalizing i with
  | nil => rfl
  | cons x xs ih =>
    cases i with
    | zero =>
      cases h
      simp [pick_cons_of_ne hne]
    | succ i => rw [List.set_cons_succ, pick_cons, pick_cons, ih h]

end pick

variable {κ : Type}

namespace RoutingTable

/-- What a table says of its servers. -/
def plan (t : RoutingTable κ) : RoutingTable κ := { t with pools := [], closed := false }

def Keyed (t : RoutingTable κ) : Prop := (t.pools.map Prod.fst).Nodup

def Has (t : RoutingTable κ) (key : PoolKey) : Prop :=
  key.partition < maxPartitions ∧
    match key.role with
    | .master => key.replica = 0
    | .replica => key.replica < t.replicas.length

variable {t : RoutingTable κ}

@[simp] theorem plan_withPool (key : PoolKey) : (t.withPool key).plan = t.plan := by
  rw [withPool]
  split <;> rfl

theorem pool?_eq_none_iff {key : PoolKey} : t.pool? key = none ↔ key ∉ t.pools.map Prod.fst := by
  simp only [pool?, Option.map_eq_none_iff, List.find?_eq_none, decide_eq_true_eq, List.mem_map,
    not_exists, not_and]

theorem pool?_setPool (key key' : PoolKey) (p : Pool κ) :
    (t.setPool key p).pool? key' =
      if key' = key then (t.pool? key).map fun _ => p else t.pool? key' := by
  simp only [pool?, setPool]
  induction t.pools with
  | nil => simp
  | cons entry pools ih =>
    obtain ⟨k, q⟩ := entry
    rw [List.map_cons, List.find?_cons, List.find?_cons, List.find?_cons]
    by_cases hk : k = key
    · by_cases hk' : key = key'
      · simp [hk, hk']
      · simpa [hk, hk', Ne.symm hk'] using ih
    · by_cases hk' : k = key'
      · have hne : key' ≠ key := hk' ▸ hk
        simp [hk', hne]
      · simpa [hk, hk'] using ih

theorem pool?_withPool (key key' : PoolKey) :
    (t.withPool key).pool? key' =
      if key' = key then some ((t.pool? key).getD (.new (t.poolName key) t.options))
      else t.pool? key' := by
  by_cases hk : key' = key
  · subst hk
    rw [if_pos rfl]
    cases h : t.pool? key' with
    | some p => simp only [withPool, h, Option.getD_some]
    | none =>
      simp only [withPool, h, Option.getD_none]
      rw [pool?, Option.map_eq_none_iff] at h
      simp [pool?, h]
  · rw [if_neg hk, withPool]
    split
    · rfl
    · simp [pool?, Ne.symm hk]

theorem keys_closePools (pools : List (PoolKey × Pool κ)) :
    (closePools pools).2.map Prod.fst = pools.map Prod.fst := by
  induction pools with
  | nil => rfl
  | cons entry pools ih => exact congrArg (entry.1 :: ·) ih

theorem pool?_close (key : PoolKey) :
    t.close.2.pool? key = (t.pool? key).map fun p => p.close.pool := by
  simp only [pool?, close]
  induction t.pools with
  | nil => rfl
  | cons entry pools ih =>
    obtain ⟨k, p⟩ := entry
    simp only [closePools, List.find?_cons]
    by_cases hk : k = key
    · simp [hk]
    · simpa [hk] using ih

theorem Keyed.pick_close (h : t.Keyed) (key : PoolKey) :
    pick key t.close.1 = ((t.pool? key).map fun p => p.close.tornDown).getD [] := by
  rw [Keyed] at h
  simp only [pool?, RoutingTable.close]
  generalize t.pools = pools at h ⊢
  induction pools with
  | nil => rfl
  | cons entry pools ih =>
    obtain ⟨k, p⟩ := entry
    rw [List.map_cons, List.nodup_cons] at h
    have hrest := ih h.2
    simp only [closePools, List.find?_cons, pick_append]
    by_cases hk : k = key
    · subst hk
      have hnone : pools.find? (fun entry => entry.1 = k) = none := by
        refine List.find?_eq_none.2 fun entry he hkey => h.1 ?_
        exact List.mem_map.2 ⟨entry, he, of_decide_eq_true hkey⟩
      rw [hnone] at hrest
      simp [hrest]
    · simpa [pick_map_of_ne hk, hk] using hrest

theorem Keyed.setPool (h : t.Keyed) (key : PoolKey) (p : Pool κ) : (t.setPool key p).Keyed := by
  have hkeys : (t.setPool key p).pools.map Prod.fst = t.pools.map Prod.fst := by
    rw [RoutingTable.setPool, List.map_map]
    refine List.map_congr_left fun entry _ => ?_
    rw [Function.comp_apply]
    split
    · next hk => exact hk.symm
    · rfl
  rw [Keyed, hkeys]
  exact h

theorem has_master (t : RoutingTable κ) : t.Has (.ofMaster defaultPartition) := ⟨by decide, rfl⟩

theorem has_resolve {partition : Nat} (h : partition < maxPartitions) (role : Role)
    (replica : Option Nat) (draw : Nat) : t.Has (t.resolve partition role replica draw) := by
  rw [resolve]
  split
  · exact ⟨h, rfl⟩
  · next hr =>
    have hpos : 0 < t.replicas.length := Nat.pos_of_ne_zero fun h₀ => hr (.inr h₀)
    split
    · next i hi =>
      have hlt : i < t.replicas.length := by simpa using (Option.filter_eq_some_iff.1 hi).2
      exact ⟨h, hlt⟩
    · exact ⟨h, Nat.mod_lt _ hpos⟩

theorem Keyed.withPool (h : t.Keyed) (key : PoolKey) : (t.withPool key).Keyed := by
  rw [RoutingTable.withPool]
  split
  · exact h
  · next hnone =>
    rw [Keyed, List.map_append, List.map_singleton]
    refine List.nodup_append.2 ⟨h, List.pairwise_singleton _ _, ?_⟩
    rintro k hk k' hk' rfl
    rw [List.mem_singleton.1 hk'] at hk
    exact pool?_eq_none_iff.1 hnone hk

theorem Keyed.close (h : t.Keyed) : t.close.2.Keyed := by
  rw [Keyed, RoutingTable.close, keys_closePools]
  exact h

theorem ofConfig_eq_ok {c : RouterConfig} {limit : Nat}
    (h : ofConfig c limit = .ok t) :
    Address.parseList c.master = [t.master] ∧ t.replicas = Address.parseList c.replicas ∧
      t.credential = c.login? ∧ t.timeout = c.timeout ∧ t.options = c.pool := by
  rw [ofConfig] at h
  split at h
  · next master hm =>
    dsimp only at h
    split at h <;> cases h
    exact ⟨hm, rfl, rfl, rfl, rfl⟩
  · cases h

theorem plan_of_ofConfig {c : RouterConfig} {limit : Nat}
    (h : ofConfig c limit = .ok t) : t.plan = t := by
  rw [ofConfig] at h
  split at h
  · dsimp only at h
    split at h <;> cases h
    rfl
  · cases h

theorem target_of_ofConfig {c : RouterConfig} {limit : Nat} (h : ofConfig c limit = .ok t)
    (key : PoolKey) : t.target key = ⟨t.endpoint key, c.login?, c.timeout, key.partition⟩ := by
  obtain ⟨-, -, hcredential, htimeout, -⟩ := ofConfig_eq_ok h
  have hlogin : c.login?.filter (fun s => !s.isEmpty) = c.login? := by
    rw [RouterConfig.login?, Option.filter_filter]
    simp
  rw [← hlogin, ← hcredential, ← htimeout]
  rfl

end RoutingTable

namespace Router

def plan? (r : Router κ) (i : Nat) : Option (RoutingTable κ) := (r.tables[i]?).map RoutingTable.plan

def blank (r : Router κ) (place : Place) : Pool κ :=
  (r.plan? place.table).elim default fun t => .new (t.poolName place.key) t.options

def poolAt (r : Router κ) (place : Place) : Pool κ := (r.pool? place).getD (r.blank place)

def Keyed (r : Router κ) : Prop := ∀ (i : Nat) (t : RoutingTable κ), r.tables[i]? = some t → t.Keyed

variable {r r' : Router κ} {i : Nat} {place place' : Place} {p : Pool κ}

theorem poolAt_of_some (h : r.pool? place = some p) : r.poolAt place = p := by rw [poolAt, h]; rfl

theorem poolAt_congr (hp : r'.pool? place = r.pool? place) (hs : r'.plan? = r.plan?) :
    r'.poolAt place = r.poolAt place := by rw [poolAt, poolAt, blank, blank, hp, hs]

theorem target?_of_plan? {t : RoutingTable κ} (h : r.plan? place.table = some t) :
    r.target? place = some (t.target place.key) := by
  obtain ⟨t', ht', rfl⟩ := Option.map_eq_some_iff.1 h
  rw [target?, ht']
  rfl

theorem finishGet_eq_ok {slot now : Nat} {handshake : Except Fault κ} {l : Leased κ}
    (h : (r.finishGet place slot handshake now).answer = .ok l) :
    ∃ session, handshake = .ok session ∧ l.session = session := by
  rw [finishGet, onPool] at h
  split at h
  · cases handshake with
    | ok session =>
      cases h
      exact ⟨session, rfl, rfl⟩
    | error f => cases h
  · cases h

theorem plan?_isSome_iff : (r.plan? i).isSome ↔ i < r.tables.size := by simp [plan?]

theorem size_congr (h : r'.plan? = r.plan?) : r'.tables.size = r.tables.size := by
  refine le_antisymm (Nat.le_of_not_lt fun hlt => ?_) (Nat.le_of_not_lt fun hlt => ?_)
  · have hsome := plan?_isSome_iff.2 hlt
    rw [h, plan?_isSome_iff] at hsome
    exact Nat.lt_irrefl _ hsome
  · have hsome := plan?_isSome_iff.2 hlt
    rw [← h, plan?_isSome_iff] at hsome
    exact Nat.lt_irrefl _ hsome

theorem pool?_eq_none_of_plan? (h : r.plan? place.table = none) : r.pool? place = none := by
  rw [plan?, Option.map_eq_none_iff] at h
  rw [pool?, h]
  rfl

/-! ## Changing one table -/

section modify

variable {f : RoutingTable κ → RoutingTable κ}

theorem plan?_modify (hf : ∀ t, (f t).plan = t.plan) :
    ({ r with tables := r.tables.modify i f } : Router κ).plan? = r.plan? := by
  funext j
  simp only [plan?, Array.getElem?_modify]
  split
  · rw [Option.map_map]
    exact congrArg (fun g => Option.map g r.tables[j]?) (funext hf)
  · rfl

theorem pool?_modify :
    ({ r with tables := r.tables.modify i f } : Router κ).pool? place =
      if i = place.table then (r.tables[i]?).bind fun t => (f t).pool? place.key
      else r.pool? place := by
  simp only [pool?, Array.getElem?_modify]
  split
  · next hi => rw [hi, Option.bind_map]; rfl
  · rfl

theorem Keyed.modify (h : r.Keyed) (hf : ∀ t, r.tables[i]? = some t → t.Keyed → (f t).Keyed) :
    ({ r with tables := r.tables.modify i f } : Router κ).Keyed := by
  intro j t ht
  simp only [Array.getElem?_modify] at ht
  split at ht
  · next hi =>
    subst hi
    obtain ⟨s, hs, rfl⟩ := Option.map_eq_some_iff.1 ht
    exact hf s hs (h i s hs)
  · exact h j t ht

end modify

theorem plan?_setPool : (r.setPool place p).plan? = r.plan? := plan?_modify fun _ => rfl

theorem pool?_setPool :
    (r.setPool place p).pool? place' =
      if place' = place then (r.pool? place).map fun _ => p else r.pool? place' := by
  obtain ⟨i, key⟩ := place
  obtain ⟨j, key'⟩ := place'
  simp only [setPool, pool?_modify, RoutingTable.pool?_setPool, Place.mk.injEq]
  by_cases hi : i = j
  · subst hi
    cases ht : r.tables[i]? with
    | none => simp [pool?, ht]
    | some t => simp [pool?, ht]
  · simp [hi, Ne.symm hi]

theorem poolAt_setPool (hp : (r.pool? place).isSome) :
    (r.setPool place p).poolAt place' = if place' = place then p else r.poolAt place' := by
  obtain ⟨q, hq⟩ := Option.isSome_iff_exists.1 hp
  split
  · next h => rw [poolAt, pool?_setPool, if_pos h, hq]; rfl
  · next h => exact poolAt_congr (by rw [pool?_setPool, if_neg h]) plan?_setPool

theorem Keyed.setPool (h : r.Keyed) : (r.setPool place p).Keyed :=
  h.modify fun _ _ ht => ht.setPool _ _

theorem onPool_of_some {α : Type} (h : r.pool? place = some p) (absent : α)
    (op : Pool κ → Outcome κ α) :
    r.onPool place absent op =
      ⟨(op p).answer, (op p).tornDown.map (place, ·), r.setPool place (op p).pool⟩ := by
  rw [onPool, h]

theorem answer_onPool {α : Type} (h : r.pool? place = some p) (absent : α)
    (op : Pool κ → Outcome κ α) : (r.onPool place absent op).answer = (op p).answer := by
  rw [onPool_of_some h]

theorem router_onPool {α : Type} (h : r.pool? place = some p) (absent : α)
    (op : Pool κ → Outcome κ α) :
    (r.onPool place absent op).router = r.setPool place (op p).pool := by
  rw [onPool_of_some h]

/-! ## Making a pool, and taking a table down -/

/-- What a claim does: it makes the pool at its place, and the router looks as before. -/
structure Claimed (i : Nat) (key : PoolKey) (r : Router κ) (place : Place)
    (r' : Router κ) : Prop where
  place_eq : place = ⟨i, key⟩
  made : r'.pool? place = some (r.poolAt place)
  others : ∀ other ≠ place, r'.pool? other = r.pool? other
  plans : r'.plan? = r.plan?
  planned : (r.plan? i).isSome
  installed : r'.installed = r.installed
  keyed : r.Keyed → r'.Keyed

theorem claimed {key : PoolKey} (h : r.claim i key = .ok (place, r')) :
    Claimed i key r place r' := by
  rw [claim] at h
  split at h
  · next t ht =>
    split at h
    · cases h
    · cases h
      have hplan : r.plan? i = some t.plan := by rw [plan?, ht]; rfl
      refine ⟨rfl, ?_, ?_, plan?_modify fun _ => RoutingTable.plan_withPool _, by simp [hplan], rfl,
        fun hk => hk.modify fun _ _ hs => hs.withPool _⟩
      · rw [pool?_modify, if_pos rfl, ht, Option.bind_some, RoutingTable.pool?_withPool, if_pos rfl]
        rw [poolAt, blank, hplan, pool?, ht]
        rfl
      · rintro ⟨j, key'⟩ hne
        rw [pool?_modify]
        split
        · next hi =>
          have hkey : key' ≠ key := fun hkey => hne (by rw [hkey, hi])
          rw [ht, Option.bind_some, RoutingTable.pool?_withPool, if_neg hkey, pool?, ← hi, ht]
          rfl
        · rfl
  · cases h

theorem Claimed.poolAt_eq {key : PoolKey} (h : Claimed i key r place r') (other : Place) :
    r'.poolAt other = r.poolAt other := by
  by_cases hne : other = place
  · rw [hne]
    exact poolAt_of_some h.made
  · exact poolAt_congr (h.others other hne) h.plans

theorem closeTable_router (r : Router κ) (i : Nat) :
    (r.closeTable i).2 = { r with tables := r.tables.modify i fun t => t.close.2 } := by
  have htables : (r.closeTable i).2.tables = r.tables.modify i fun t => t.close.2 := by
    refine Array.ext_getElem? fun j => ?_
    rw [Array.getElem?_modify, closeTable]
    split
    · next t ht =>
      rw [Array.getElem?_setIfInBounds]
      split
      · next hi =>
        subst hi
        rw [if_pos (Array.getElem?_eq_some_iff.1 ht).1, ht]
        rfl
      · rfl
    · next ht =>
      split
      · next hi => simp [← hi, ht]
      · rfl
  rw [← htables, closeTable]
  split <;> rfl

theorem plan?_closeTable : (r.closeTable i).2.plan? = r.plan? := by
  rw [closeTable_router]
  exact plan?_modify fun _ => rfl

theorem pool?_closeTable :
    (r.closeTable i).2.pool? place =
      if i = place.table then (r.pool? place).map fun p => p.close.pool else r.pool? place := by
  rw [closeTable_router, pool?_modify]
  split
  · next hi =>
    simp only [RoutingTable.pool?_close, pool?, hi]
    cases r.tables[place.table]? <;> rfl
  · rfl

theorem Keyed.pick_closeTable (h : r.Keyed) :
    pick place (r.closeTable i).1 =
      if i = place.table then ((r.pool? place).map fun p => p.close.tornDown).getD [] else [] := by
  obtain ⟨j, key⟩ := place
  rw [Router.closeTable]
  split
  · next t ht =>
    have hpick : pick (⟨j, key⟩ : Place) (t.close.1.map fun x => (⟨i, x.1⟩, x.2)) =
        if i = j then pick key t.close.1 else [] := by
      simp only [pick, List.filterMap_map, Function.comp_def, Place.mk.injEq]
      split
      · next hij => simp [hij]
      · next hij => simp [hij]
    refine hpick.trans ?_
    split
    · next hij => rw [(h i t ht).pick_close, pool?, ← hij, ht]; rfl
    · rfl
  · next ht =>
    split
    · next hij => rw [pool?, ← hij, ht]; rfl
    · rfl

theorem Keyed.closeTable (h : r.Keyed) : (r.closeTable i).2.Keyed := by
  rw [closeTable_router]
  exact h.modify fun _ _ ht => ht.close

/-! ## Drawing a table up -/

/-- What a draft does: it puts a table without pools behind those there are. -/
structure Drafted (c : RouterConfig) (r : Router κ) (i : Nat) (r' : Router κ) : Prop where
  unconfigured : r.installed = none
  number : i = r.tables.size
  size : r'.tables.size = i + 1
  described : ∃ t, RoutingTable.ofConfig c r.replicaLimit = .ok t ∧ r'.plan? i = some t
  absent : r.plan? i = none
  others : ∀ j ≠ i, r'.plan? j = r.plan? j
  pools : r'.pool? = r.pool?
  installed : r'.installed = r.installed
  keyed : r.Keyed → r'.Keyed

theorem drafted {c : RouterConfig} (h : r.draft c = .ok (i, r')) : Drafted c r i r' := by
  rw [draft] at h
  split at h
  · cases h
  · next hconf =>
    split at h
    · next t ht =>
      cases h
      have hplan := RoutingTable.plan_of_ofConfig ht
      have hpools : t.pools = [] := congrArg RoutingTable.pools hplan.symm
      refine ⟨by simpa [isConfigured] using hconf, rfl, Array.size_push _, ⟨t, ht, ?_⟩,
        by simp [plan?], fun j hj => ?_, funext fun place => ?_, rfl, fun hk j s hs => ?_⟩
      · simp [plan?, hplan]
      · simp [plan?, Array.getElem?_push, hj]
      · simp only [pool?, Array.getElem?_push]
        split
        · next hi => simp [hi, RoutingTable.pool?, hpools]
        · rfl
      · simp only [Array.getElem?_push] at hs
        split at hs
        · cases hs
          rw [RoutingTable.Keyed, hpools]
          exact List.nodup_nil
        · exact hk j s hs
    · cases h

theorem Drafted.ne_of_isSome {c : RouterConfig} {j : Nat} (h : Drafted c r i r')
    (hj : (r.plan? j).isSome) : j ≠ i := by
  rintro rfl
  rw [h.absent] at hj
  cases hj

theorem Drafted.plans {c : RouterConfig} {j : Nat} {t : RoutingTable κ} (h : Drafted c r i r')
    (ht : r.plan? j = some t) : r'.plan? j = some t :=
  (h.others j (h.ne_of_isSome (Option.isSome_of_eq_some ht))).trans ht

theorem Drafted.poolAt_eq {c : RouterConfig} {t : RoutingTable κ} (h : Drafted c r i r')
    (hi : place.table = i) (ht : r'.plan? i = some t) :
    r'.poolAt place = .new (t.poolName place.key) t.options := by
  have hp : r.pool? place = none := pool?_eq_none_of_plan? (hi ▸ h.absent)
  rw [poolAt, h.pools, hp, blank, hi, ht]
  rfl

inductive WarmUp (i now : Nat) (r : Router κ) : Routed κ Configuring → Prop
  | unclaimed {f} : WarmUp i now r ⟨.refused f, [], r⟩
  | refused {place r' f} (hc : Claimed i (.ofMaster defaultPartition) r place r')
      (ha : ((r.poolAt place).beginGet now).answer = .refused f) :
    WarmUp i now r ⟨.refused f, (r'.beginGet place now).tornDown, (r'.beginGet place now).router⟩
  | warming {place r' slot} (hc : Claimed i (.ofMaster defaultPartition) r place r')
      (ha : ((r.poolAt place).beginGet now).answer = .opening slot) :
    WarmUp i now r
      ⟨.warming place slot, (r'.beginGet place now).tornDown, (r'.beginGet place now).router⟩

theorem Drafted.beginWarmUp [Transport κ] {c : RouterConfig} (h : Drafted c r i r') (now : Nat) :
    WarmUp i now r' (r'.beginWarmUp i now) := by
  rw [Router.beginWarmUp]
  split
  · exact .unclaimed
  · next place r₂ hclaim =>
    have hc := claimed hclaim
    have hb : (r₂.beginGet place now).answer = ((r'.poolAt place).beginGet now).answer :=
      answer_onPool hc.made _ _
    obtain ⟨t, -, ht⟩ := h.described
    cases ha : ((r'.poolAt place).beginGet now).answer with
    | refused f =>
      simp only [hb, ha]
      exact .refused hc ha
    | reused l =>
      rw [h.poolAt_eq (congrArg Place.table hc.place_eq) ht] at ha
      exact absurd ha (Pool.beginGet_new _ _ _ l)
    | opening slot =>
      simp only [hb, ha]
      exact .warming hc ha

theorem route_eq_ok {partition draw : Nat} {role : Role} {replica : Option Nat}
    (h : r.route partition role replica draw = .ok (place, r')) :
    partition < maxPartitions ∧ ∃ i t, r.installed = some i ∧ r.plan? i = some t ∧
      Claimed i (t.resolve partition role replica draw) r place r' := by
  rw [route] at h
  split at h
  · cases h
  · next hlt =>
    refine ⟨Nat.lt_of_not_le hlt, ?_⟩
    split at h
    · next i t hi ht =>
      rw [table?, hi, Option.bind_some] at ht
      exact ⟨i, t.plan, hi, by rw [plan?, ht]; rfl, claimed h⟩
    · cases h

end Router

end SessionPool
