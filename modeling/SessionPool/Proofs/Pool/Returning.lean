import SessionPool.Proofs.Pool.Closing
import SessionPool.Proofs.Pool.Memory
import SessionPool.Proofs.Session.Calls

/-!
# What comes of a session that is given back

A session that comes back is torn down if it was marked or is unhealthy, or if the pool keeps no
idle sessions; otherwise it is the first idle one. A single eviction is enough to make room for it,
since no pool ever has more idle sessions than its limit allows.
-/

namespace SessionPool

namespace Usage

variable {κ : Type} {u v : Usage κ} {i : Nat} {l : Lease κ}

structure Spends (u : Usage κ) (l : Lease κ) (v : Usage κ) : Prop where
  tornDown : v.tornDown = u.tornDown ++ [l.leased.member]
  resting : v.pool.resting = u.pool.resting
  idleCount : v.pool.idleCount = u.pool.idleCount
  active : v.pool.active + 1 = u.pool.active
  blocks : v.pool.arena.block = Function.update u.pool.arena.block l.leased.slot .vacant

structure Restores (u : Usage κ) (l : Lease κ) (v : Usage κ) : Prop where
  tornDown : v.tornDown = u.tornDown
  resting : v.pool.resting = l.leased.resting u.now :: u.pool.resting
  idleCount : v.pool.idleCount = u.pool.idleCount + 1
  active : v.pool.active = u.pool.active
  blocks : v.pool.arena.block =
    Function.update u.pool.arena.block l.leased.slot (.parked l.leased.member)

/-- The lease `l` of `u` is gone in `v`, and its session is the first idle one in place of `last`,
the one that was returned longest ago. -/
structure Displaces (u : Usage κ) (l : Lease κ) (v : Usage κ) (init : List (Resting κ))
    (last : Resting κ) : Prop where
  split : u.pool.resting = init ++ [last]
  returned : last.id ∈ u.returns
  longest : ∀ x ∈ init, u.returns.idxOf x.id < u.returns.idxOf last.id
  other : last.id ≠ l.leased.id
  tornDown : v.tornDown = u.tornDown ++ [last.member]
  resting : v.pool.resting = l.leased.resting u.now :: init
  idleCount : v.pool.idleCount = u.pool.idleCount
  active : v.pool.active + 1 = u.pool.active
  blocks : v.pool.arena.block = Function.update
    (Function.update u.pool.arena.block l.leased.slot (.parked l.leased.member)) last.slot .vacant

structure Readmits (u : Usage κ) (l : Lease κ) (v : Usage κ) (rest gone : List (Resting κ)) :
    Prop where
  split : u.pool.resting = rest ++ gone
  tornDown : v.tornDown = u.tornDown ++ gone.map Resting.member
  resting : v.pool.resting = l.leased.resting u.now :: rest
  active : v.pool.active + gone.length = u.pool.active
  own : v.pool.arena.block l.leased.slot = .parked l.leased.member
  vacated : ∀ x ∈ gone, v.pool.arena.block x.slot = .vacant
  others : ∀ s, s ≠ l.leased.slot → s ∉ gone.map Resting.slot →
    v.pool.arena.block s = u.pool.arena.block s

theorem taken_perm_gone (hl : u.leases[i]? = some l) (hv : v.leases = u.leases.eraseIdx i)
    (ho : v.opening = u.opening) :
    u.taken.Perm (l.leased.slot :: v.taken) := by
  rw [taken, taken, hv, ho]
  exact taken_perm_of_lease hl

theorem mem_taken_lease (hl : u.leases[i]? = some l) : l.leased.slot ∈ u.taken :=
  List.mem_append_left _ (List.mem_map_of_mem (List.mem_of_getElem? hl))

theorem Owned.readmits (h : u.Owned) (hv : v.Owned) (hl : u.leases[i]? = some l)
    (hleases : v.leases = u.leases.eraseIdx i) (hopening : v.opening = u.opening)
    {rest gone : List (Resting κ)} (hsplit : u.pool.resting = rest ++ gone)
    (ht : v.tornDown = u.tornDown ++ gone.map Resting.member)
    (hr : v.pool.resting = l.leased.resting u.now :: rest) : u.Readmits l v rest gone := by
  have hperm := taken_perm_gone hl hleases hopening
  have hfront : l.leased.resting u.now ∈ v.pool.resting := by
    rw [hr]
    exact List.mem_cons_self
  refine ⟨hsplit, ht, hr, ?_, hv.block_parked hfront, fun x hx => ?_, fun s hs hgone => ?_⟩
  · have hplace := (perm_lease hl).length_eq
    rw [hv.amount, h.amount, Usage.amount, Usage.amount, hr, hsplit, hleases, hopening]
    simp only [List.length_cons, List.length_append] at hplace ⊢
    omega
  · -- the slot of a session that had to go is in no other list
    have hnd := h.slots_nodup
    rw [hsplit, List.map_append] at hnd
    obtain ⟨hidle, -, htaken⟩ := List.nodup_append.1 hnd
    have hmem : x.slot ∈ gone.map Resting.slot := List.mem_map_of_mem hx
    have hne : x.slot ∉ u.taken := fun hs => htaken _ (List.mem_append_right _ hmem) _ hs rfl
    refine hv.block_vacant ?_ fun hs => hne (hperm.mem_iff.2 (List.mem_cons_of_mem _ hs))
    rw [hr, List.map_cons, List.mem_cons]
    rintro (heq | hs)
    · exact hne (heq ▸ mem_taken_lease hl)
    · exact (List.nodup_append.1 hidle).2.2 _ hs _ hmem rfl
  · refine h.block_congr hv (fun x hx => ?_) ?_
    · have hxl : x ≠ l.leased.resting u.now := by
        rintro rfl
        exact hs hx.symm
      have hxg : x ∉ gone := fun hmem => hgone (hx ▸ List.mem_map_of_mem hmem)
      rw [hr, hsplit, List.mem_cons, or_iff_right hxl, List.mem_append, or_iff_left hxg]
    · rw [hperm.mem_iff, List.mem_cons, or_iff_right hs]

variable [Transport κ]

/-! ## The limit on idle sessions -/

theorem Owned.drop_kept (h : u.Owned) (hl : u.leases[i]? = some l)
    (hk : u.pool.keeps l.discarded l.leased.session = true) :
    ∃ (p : Pool κ) (rest gone : List (Resting κ)), p.header = u.pool.header ∧
      p.resting = l.leased.resting u.now :: rest ∧ u.pool.resting = rest ++ gone ∧
      u.step (.drop i) =
        { u with
          pool := p
          leases := u.leases.eraseIdx i
          tornDown := u.tornDown ++ gone.map Resting.member
          returns := l.leased.id :: u.returns } ∧
      (gone = [] ∧
          (∀ limit, u.pool.options.idleLimit = some limit → u.pool.resting.length < limit) ∨
        ∃ last limit, gone = [last] ∧ u.pool.options.idleLimit = some limit ∧
          limit ≤ u.pool.resting.length) := by
  have hc := (h.change_drop i).1
  generalize u.step (.drop i) = u' at hc
  cases hc with
  | undropped hl' => simp [hl] at hl'
  | destroyed hl' hk' =>
    rw [hl, Option.some_inj] at hl'
    rw [← hl', hk] at hk'
    cases hk'
  | @kept _ _ p hl' hk' hroom hr hh =>
    rw [hl, Option.some_inj] at hl'
    subst hl'
    exact ⟨p, _, [], hh, hr, (List.append_nil _).symm, by simp, .inl ⟨rfl, hroom⟩⟩
  | @evicted _ _ p limit init last hl' hk' hlim hle hi hr hh =>
    rw [hl, Option.some_inj] at hl'
    subst hl'
    exact ⟨p, init, [last], hh, hr, hi, rfl, .inr ⟨last, limit, rfl, hlim, hle⟩⟩

theorem Change.idle_le {a : Action κ} {u' : Usage κ} (h : u.Change a u') :
    u'.pool.resting.length ≤ u.pool.resting.length ∨
      ∀ limit, u.pool.options.idleLimit = some limit → u'.pool.resting.length ≤ limit := by
  cases h with
  | kept hl hk hroom hr hh =>
    refine .inr fun limit hlim => ?_
    rw [hr]
    exact hroom limit hlim
  | evicted hl hk hlim hle hi hr hh =>
    refine .inl ?_
    rw [hr, hi, List.length_cons, List.length_append]
    rfl
  | closed | noHandshake | unused | executed | unmarked | marked | undropped | already | clock =>
    exact .inl le_rfl
  | reused ho hu hr hh =>
    have hs := (Pool.usable_sublist u.pool.options u.now u.pool.resting).length_le
    rw [hu, ← hr, List.length_cons] at hs
    exact .inl (Nat.le_of_succ_le hs)
  | overload ho hu hl hle hr | allocation ho hu hroom hr | began ho hu hroom hr | drained ho hr =>
    exact .inl ((congrArg List.length hr).trans_le (Nat.zero_le _))
  | opened hs hr hh | failed hs hr hh | destroyed hl hk hr hh => exact .inl (hr ▸ le_rfl)

theorem play_idle_le (name : String) (options : PoolOptions) (ts : List (Turn κ)) {limit : Nat}
    (hlim : options.idleLimit = some limit) :
    ((start name options none).play ts : Usage κ).pool.resting.length ≤ limit := by
  have hkeeps := (owned_start name options none).play_keeps (κ := κ)
    (P := fun u => u.pool.options = options ∧ u.pool.resting.length ≤ limit)
    ?_ (fun _ hp => hp) ⟨rfl, ?_⟩ ts
  · exact hkeeps.2
  · rintro u u' a - ⟨hopt, hle⟩ hc
    refine ⟨hc.same.2.trans hopt, ?_⟩
    rcases hc.idle_le with hidle | hidle
    · exact hidle.trans hle
    · exact hidle limit (hopt ▸ hlim)
  · rw [start_resting]
    exact Nat.zero_le _

/-! ## What a drop does -/

theorem Owned.drop_lease (h : u.Owned) (hl : u.leases[i]? = some l) :
    let v := u.step (.drop i)
    v.leases = u.leases.eraseIdx i ∧ v.opening = u.opening ∧ v.opened = u.opened ∧ v.now = u.now ∧
      v.returns = l.leased.id :: u.returns ∧ v.pool.header = u.pool.header := by
  intro v
  cases hk : u.pool.keeps l.discarded l.leased.session with
  | false =>
    obtain ⟨p, -, hh, hv⟩ := h.drop_destroyed hl hk
    rw [show v = _ from hv]
    exact ⟨rfl, rfl, rfl, rfl, rfl, hh⟩
  | true =>
    obtain ⟨p, rest, gone, hh, -, -, hv, -⟩ := h.drop_kept hl hk
    rw [show v = _ from hv]
    exact ⟨rfl, rfl, rfl, rfl, rfl, hh⟩

theorem Owned.spends (h : u.Owned) (hl : u.leases[i]? = some l)
    (hk : u.pool.keeps l.discarded l.leased.session = false) :
    u.Spends l (u.step (.drop i)) := by
  obtain ⟨p, hr, -, hd⟩ := h.drop_destroyed hl hk
  have hv := h.step (.drop i)
  generalize u.step (.drop i) = v at hv hd
  have hr' : v.pool.resting = u.pool.resting := by rw [hd]; exact hr
  have ht : u.taken.Perm (l.leased.slot :: v.taken) :=
    taken_perm_gone hl (by rw [hd]) (by rw [hd])
  obtain ⟨hblock, hactive⟩ := h.freed hv hr' ht
  exact
    { tornDown := by rw [hd]
      resting := hr'
      idleCount := by rw [hv.idleCount, h.idleCount, hr']
      active := hactive
      blocks := by
        funext s
        by_cases hs : s = l.leased.slot
        · rw [hs, Function.update_self, hblock]
        · rw [Function.update_of_ne hs]
          refine h.block_congr hv (fun x _ => by rw [hr']) ?_
          rw [ht.mem_iff, List.mem_cons, or_iff_right hs] }

theorem Owned.restores (h : u.Owned) (hl : u.leases[i]? = some l)
    (hk : u.pool.keeps l.discarded l.leased.session = true)
    (hroom : ∀ limit, u.pool.options.idleLimit = some limit → u.pool.resting.length < limit) :
    u.Restores l (u.step (.drop i)) := by
  obtain ⟨p, rest, gone, -, hr, hsplit, hd, ⟨rfl, -⟩ | ⟨last, limit, -, hlim, hle⟩⟩ :=
    h.drop_kept hl hk
  · have hv := h.step (.drop i)
    generalize u.step (.drop i) = v at hv hd
    have hkept : u.Readmits l v rest [] := h.readmits hv hl (by rw [hd]) (by rw [hd]) hsplit
      (by rw [hd]) (by rw [hd]; exact hr)
    rw [List.append_nil] at hsplit
    exact
      { tornDown := by rw [hkept.tornDown]; exact List.append_nil _
        resting := by rw [hkept.resting, hsplit]
        idleCount := by rw [hv.idleCount, h.idleCount, hkept.resting, hsplit, List.length_cons]
        active := hkept.active
        blocks := by
          funext s
          by_cases hs : s = l.leased.slot
          · rw [hs, Function.update_self, hkept.own]
          · rw [Function.update_of_ne hs, hkept.others s hs List.not_mem_nil] }
  · exact absurd (hroom limit hlim) (not_lt.2 hle)

theorem Owned.displaces {limit : Nat} (h : u.Owned) (hset : u.Settled)
    (hl : u.leases[i]? = some l) (hk : u.pool.keeps l.discarded l.leased.session = true)
    (hlim : u.pool.options.idleLimit = some limit) (hfull : u.pool.resting.length = limit) :
    ∃ init last, u.Displaces l (u.step (.drop i)) init last := by
  obtain ⟨p, init, gone, -, hr, hsplit, hd, ⟨-, hroom⟩ | ⟨last, -, rfl, -, -⟩⟩ := h.drop_kept hl hk
  · exact absurd (hroom limit hlim) hfull.not_lt
  · have hv := h.step (.drop i)
    generalize u.step (.drop i) = v at hv hd
    have hkept : u.Readmits l v init [last] := h.readmits hv hl (by rw [hd]) (by rw [hd]) hsplit
      (by rw [hd]) (by rw [hd]; exact hr)
    have hlast : last ∈ u.pool.resting := hsplit ▸ List.mem_append_right init List.mem_cons_self
    have hrec := hset.recency.ordered
    rw [hsplit, List.pairwise_append] at hrec
    exact ⟨init, last,
      { split := hsplit
        returned := hset.recency.returned last hlast
        longest := fun x hx => hrec.2.2 x hx last List.mem_cons_self
        other := fun heq => hset.accounted.lease_not_idle hl (heq ▸ List.mem_map_of_mem hlast)
        tornDown := hkept.tornDown
        resting := hkept.resting
        idleCount := by rw [hv.idleCount, h.idleCount, hkept.resting, hsplit]; simp
        active := hkept.active
        blocks := by
          funext s
          by_cases hs : s = last.slot
          · rw [hs, Function.update_self, hkept.vacated last List.mem_cons_self]
          · rw [Function.update_of_ne hs]
            by_cases hsl : s = l.leased.slot
            · rw [hsl, Function.update_self, hkept.own]
            · rw [Function.update_of_ne hsl, hkept.others s hsl (by simpa using hs)] }⟩

/-! ## Replies -/

theorem Owned.drop_congr {w : Usage κ} {l' : Lease κ} (h : u.Owned) (hw : w.Owned)
    (hp : w.pool = u.pool) (ht : w.tornDown = u.tornDown) (hl : u.leases[i]? = some l)
    (hl' : w.leases[i]? = some l') (hd : l'.discarded = l.discarded)
    (hid : l'.leased.id = l.leased.id)
    (hentry : (l'.leased.resting w.now).entry = (l.leased.resting u.now).entry)
    (hhealth : Transport.isHealthy l'.leased.session = Transport.isHealthy l.leased.session) :
    (w.step (.drop i)).tornDown.map Member.id = (u.step (.drop i)).tornDown.map Member.id ∧
      (w.step (.drop i)).pool.idle.entries = (u.step (.drop i)).pool.idle.entries := by
  rw [(h.step (.drop i)).listed.entries, (hw.step (.drop i)).listed.entries]
  have hkeeps : w.pool.keeps l'.discarded l'.leased.session =
      u.pool.keeps l.discarded l.leased.session := by
    rw [Pool.keeps, Pool.keeps, hp, hd, hhealth]
  cases hk : u.pool.keeps l.discarded l.leased.session with
  | false =>
    have hs := h.spends hl hk
    have hs' := hw.spends hl' (hkeeps.trans hk)
    rw [hs.tornDown, hs'.tornDown, hs.resting, hs'.resting, hp, ht, List.map_append,
      List.map_append]
    exact ⟨congrArg _ (congrArg (fun n => [n]) hid), rfl⟩
  | true =>
    obtain ⟨p, rest, gone, -, hr, hsplit, hv, hgone⟩ := h.drop_kept hl hk
    obtain ⟨p', rest', gone', -, hr', hsplit', hv', hgone'⟩ :=
      hw.drop_kept hl' (hkeeps.trans hk)
    rw [hp] at hsplit' hgone'
    have hlength : gone'.length = gone.length := by
      rcases hgone with ⟨rfl, hroom⟩ | ⟨last, limit, rfl, hlim, hle⟩
      · rcases hgone' with ⟨rfl, -⟩ | ⟨last, limit, -, hlim, hle⟩
        · rfl
        · exact absurd (hroom limit hlim) (not_lt.2 hle)
      · rcases hgone' with ⟨-, hroom⟩ | ⟨last', limit', rfl, -, -⟩
        · exact absurd (hroom limit hlim) (not_lt.2 hle)
        · rfl
    obtain ⟨rfl, rfl⟩ := List.append_inj' (hsplit'.symm.trans hsplit) hlength
    rw [hv, hv']
    change (w.tornDown ++ _).map _ = (u.tornDown ++ _).map _ ∧ p'.resting.map _ = p.resting.map _
    rw [ht, hr, hr', List.map_cons, List.map_cons, hentry]
    exact ⟨rfl, rfl⟩

end Usage

theorem Session.healthy_of_reply {c : Command} {s : Session} {r : Reply}
    (h : (s.execute c).1 = .ok r) : (s.execute c).2.healthy = s.healthy := by
  cases hs : s.healthy with
  | false =>
    rw [execute_of_failed hs] at h
    cases h
  | true =>
    refine (healthy_perform hs [c]).2 fun result hresult => ⟨r, ?_⟩
    rw [← h]
    exact List.mem_singleton.1 hresult

namespace Usage

/-- A session that is given back to a pool is torn down at once if it was marked or is unhealthy, if
the pool is closed, or if it keeps no idle sessions, and the idle list stays as it is. Otherwise it
becomes the first idle one; if as many were idle as are allowed, the one returned longest ago is
torn down for it. So never are more idle than are allowed. The replies that a session gave do not
matter for any of this, and a server's error reply does not make one of the library's sessions
unhealthy. -/
theorem play_returns {κ : Type} [Transport κ] (name : String) (options : PoolOptions)
    (ts : List (Turn κ)) :
    let u := (start name options none).play ts
    (u.pool.idle.entries = u.pool.resting.map Resting.entry ∧
      ∀ limit, options.maxIdle = some limit → u.pool.idleCount ≤ limit.toNat) ∧
    (∀ i l, u.leases[i]? = some l →
      let v := u.step (.drop i)
      let spent := l.discarded = true ∨ Transport.isHealthy l.leased.session = false ∨
        u.pool.closed = true ∨ options.maxIdle = some 0
      (v.leases = u.leases.eraseIdx i ∧ v.opening = u.opening ∧ v.pool.header = u.pool.header ∧
        v.pool.idle.entries = v.pool.resting.map Resting.entry) ∧
      (spent → u.Spends l v) ∧
      (¬ spent → (∀ limit, options.maxIdle = some limit → u.pool.idleCount ≠ limit.toNat) →
        u.Restores l v) ∧
      (¬ spent → ∀ limit, options.maxIdle = some limit → u.pool.idleCount = limit.toNat →
        ∃ init last, u.Displaces l v init last) ∧
      ∀ c,
        let w := u.step (.execute i c)
        let l' := (l.execute c).2
        w.pool = u.pool ∧ w.tornDown = u.tornDown ∧ w.leases[i]? = some l' ∧
        l'.discarded = l.discarded ∧
        (Transport.isHealthy l'.leased.session = Transport.isHealthy l.leased.session →
          (w.step (.drop i)).tornDown.map Member.id = v.tornDown.map Member.id ∧
          (w.step (.drop i)).pool.idle.entries = v.pool.idle.entries)) ∧
    ∀ (s : Session) (c : Command) (r : Reply), (Transport.execute c s).1 = .ok r →
      Transport.isHealthy (Transport.execute c s).2 = Transport.isHealthy s := by
  intro u
  have h : u.Owned := (owned_start name options none).play ts
  have hset : u.Settled := play_settled name options ts
  have hopt : u.pool.options = options := (play_bounded name options ts).sameOptions
  have hidle : ∀ limit, options.maxIdle = some limit → u.pool.idleCount ≤ limit.toNat := by
    intro limit hlim
    rw [h.idleCount]
    exact play_idle_le name options ts (by rw [PoolOptions.idleLimit, hlim]; rfl)
  refine ⟨⟨h.listed.entries, hidle⟩, fun i l hl => ?_, fun s c r hr => Session.healthy_of_reply hr⟩
  intro v spent
  have hkeeps : u.pool.keeps l.discarded l.leased.session = false ↔ spent := by
    rw [Pool.keeps_eq_false, hopt, or_assoc]
  obtain ⟨hleases, hopening, -, -, -, hheader⟩ := h.drop_lease hl
  refine ⟨⟨hleases, hopening, hheader, (h.step (.drop i)).listed.entries⟩,
    fun hspent => h.spends hl (hkeeps.2 hspent), fun hspent hroom => ?_,
    fun hspent limit hlim hfull => ?_, fun c => ?_⟩
  · refine h.restores hl (Bool.not_eq_false _ ▸ mt hkeeps.1 hspent) fun limit hlim => ?_
    rw [hopt] at hlim
    obtain ⟨max, hmax, rfl⟩ := Option.map_eq_some_iff.1 hlim
    rw [← h.idleCount]
    exact lt_of_le_of_ne (hidle max hmax) (hroom max hmax)
  · refine h.displaces hset hl (Bool.not_eq_false _ ▸ mt hkeeps.1 hspent) ?_ (h.idleCount ▸ hfull)
    rw [hopt, PoolOptions.idleLimit, hlim]
    rfl
  · intro w l'
    have hw : w = u.put i l' := by
      change u.step (.execute i c) = _
      simp only [step, hl]
      rfl
    have hl' : w.leases[i]? = some l' := by
      rw [hw]
      exact List.getElem?_set_self (List.getElem?_eq_some_iff.1 hl).1
    have hpool : w.pool = u.pool ∧ w.tornDown = u.tornDown ∧ w.now = u.now := by
      rw [hw]
      exact ⟨rfl, rfl, rfl⟩
    refine ⟨hpool.1, hpool.2.1, hl', rfl, fun hhealth => ?_⟩
    exact h.drop_congr (h.step (.execute i c)) hpool.1 hpool.2.1 hl hl' rfl rfl
      (by rw [show w.now = u.now from hpool.2.2]; rfl) hhealth

/-- Three sessions come back to a pool that keeps two idle, and the first one of them has to go. -/
example :
    let u := (start "p" { maxIdle := some 2 } none : Usage Scenario.Stub).run
      [.get, .finish 0 (.ok ⟨1, true⟩), .get, .finish 1 (.ok ⟨2, true⟩), .get,
        .finish 2 (.ok ⟨3, true⟩), .drop 2, .setClock 5, .drop 0, .setClock 7, .drop 0]
    u.pool.resting = [⟨1, 2, 0, 7, ⟨2, true⟩⟩, ⟨2, 3, 0, 5, ⟨3, true⟩⟩] ∧
      u.tornDown.map Member.id = [1] ∧ u.pool.stats = ⟨2, 2, 0⟩ := by
  decide +kernel

end Usage

end SessionPool
