import SessionPool.Proofs.Pool.Failing
import SessionPool.Proofs.Pool.Returning

/-!
# Reassigning a lease

To reassign a lease is to drop it and to get a session again, so there always is room for one. If
the session that was dropped can be used again it is the first idle one, and the get takes it back.
If the get comes to nothing, the holder has no lease any more, and the old one was given back once.
-/

namespace SessionPool

theorem Pool.usable_cons {κ : Type} {o : PoolOptions} {now : Nat} {x : Resting κ}
    (hstale : Pool.stale o now x = false) (haged : Pool.aged o now x = false)
    (idle : List (Resting κ)) : ∃ rest, Pool.usable o now (x :: idle) = x :: rest := by
  obtain ⟨gone, hgone⟩ := List.rdropWhile_prefix (Pool.stale o now) (x :: idle)
  rw [Pool.usable]
  cases hkept : (x :: idle).rdropWhile (Pool.stale o now) with
  | nil =>
    have hall := List.rdropWhile_eq_nil_iff.1 hkept x List.mem_cons_self
    rw [hstale] at hall
    cases hall
  | cons y rest =>
    rw [hkept, List.cons_append, List.cons.injEq] at hgone
    rw [hgone.1]
    exact ⟨rest, List.dropWhile_cons_of_neg (by simp [haged])⟩

namespace Usage

variable {κ : Type} {u v : Usage κ} {i : Nat} {l : Lease κ}

/-- The holder of the lease `l` of `u` has none in `v`, and its session came back once. -/
structure Forgone (u : Usage κ) (l : Lease κ) (v : Usage κ) : Prop where
  empty : l.leased.id ∉ v.leases.map fun l => l.leased.id
  once : v.returns.count l.leased.id = u.returns.count l.leased.id + 1

/-- The session with this number was torn down, and had come back so many times. -/
structure Buried (n times : Nat) (u : Usage κ) : Prop where
  settled : u.Settled
  tornDown : n ∈ u.tornDown.map Member.id
  returns : u.returns.count n = times

theorem Buried.unlent {n times : Nat} (h : u.Buried n times) :
    n ∉ u.leases.map fun l => l.leased.id := by
  obtain ⟨m, hm, rfl⟩ := List.mem_map.1 h.tornDown
  exact (h.settled.accounted.apart hm).1

theorem Buried.within {n times : Nat} (h : u.Buried n times) (blocks : Option Nat) :
    (u.within blocks).Buried n times :=
  ⟨h.settled.within blocks, h.tornDown, h.returns⟩

theorem Accounted.torn {n : Nat} (h : u.Accounted) (hn : n ∈ u.opened.map Leased.id)
    (hlent : n ∉ u.leases.map fun l => l.leased.id) (hidle : n ∉ u.pool.resting.map Resting.id) :
    n ∈ u.tornDown.map Member.id := by
  have hids := h.members.map Member.id
  rw [List.map_append, List.map_append, List.map_map, List.map_map, List.map_map] at hids
  have hmem := hids.mem_iff.2 hn
  rw [List.mem_append, List.mem_append] at hmem
  exact (hmem.resolve_left hlent).resolve_left hidle

theorem Accounted.lease_opened (h : u.Accounted) (hl : u.leases[i]? = some l) :
    l.leased.id ∈ u.opened.map Leased.id := by
  have hmem := h.members.subset
    (List.mem_append_left _ (List.mem_map_of_mem (List.mem_of_getElem? hl)))
  obtain ⟨o, ho, heq⟩ := List.mem_map.1 hmem
  exact List.mem_map.2 ⟨o, ho, congrArg Member.id heq⟩

theorem Accounted.lease_alone (h : u.Accounted) (hl : u.leases[i]? = some l) :
    l.leased.id ∉ (u.leases.eraseIdx i).map fun l => l.leased.id := by
  have hnd := (((held_perm hl).map Leased.id).nodup_iff).1 h.held_nodup
  rw [List.map_cons, List.nodup_cons, List.map_append, List.map_map] at hnd
  exact fun hmem => hnd.1 (List.mem_append_left _ hmem)

variable [Transport κ]

theorem Change.returns {a : Action κ} (h : u.Change a v) : v.returns = u.returns ∨
    ∃ (i : Nat) (l : Lease κ), u.leases[i]? = some l ∧ v.returns = l.leased.id :: u.returns := by
  cases h with
  | destroyed hl | kept hl | evicted hl => exact .inr ⟨_, _, hl, rfl⟩
  | _ => exact .inl rfl

theorem Buried.change {n times : Nat} {a : Action κ} (h : u.Buried n times) (hc : u.Change a v) :
    v.Buried n times where
  settled := h.settled.change hc
  tornDown := (hc.moved.grown.tornDown.map _).subset h.tornDown
  returns := by
    obtain hsame | ⟨i, l, hl, hret⟩ := hc.returns
    · rw [hsame, h.returns]
    · -- whoever comes back was lent, and this one is not
      have hne : l.leased.id ≠ n := by
        rintro rfl
        exact h.unlent (List.mem_map_of_mem (List.mem_of_getElem? hl))
      rw [hret, List.count_cons_of_ne hne, h.returns]

theorem Owned.buried_play {n times : Nat} (h : u.Owned) (hb : u.Buried n times)
    (ts : List (Turn κ)) : (u.play ts).Buried n times :=
  h.play_keeps (fun _ hb hc => hb.change hc) (fun blocks hb => hb.within blocks) hb ts

/-! ## Room -/

theorem Owned.room_again {name : String} {options : PoolOptions} (h : u.Owned)
    (hb : u.Bounded name options) (hl : u.leases[i]? = some l) (n : String) (limit : Nat) :
    (u.step (.drop i)).answer .get ≠ some (.error (.overload n limit)) := by
  intro ha
  obtain ⟨-, -, hlim, hle⟩ := (h.step (.drop i)).overload_get ha
  rw [(hb.step h (.drop i)).sameOptions] at hlim
  obtain ⟨hleases, hopening, -⟩ := h.drop_lease hl
  have hlength := (taken_perm_gone hl hleases hopening).length_eq
  have hamount := hb.bounded limit hlim
  rw [List.length_cons, taken_length] at hlength
  rw [Usage.amount] at hamount
  omega

/-! ## The session is taken back -/

theorem Owned.regained (h : u.Owned) (ho : u.pool.closed = false) (hl : u.leases[i]? = some l)
    (hk : u.pool.keeps l.discarded l.leased.session = true)
    (hage : ∀ limit, u.pool.options.maxLifetime = some limit →
      u.now - l.leased.createdAt ≤ limit.nanos) :
    let v := (u.step (.drop i)).step .get
    (u.step (.drop i)).answer .get = some (.ok l.leased) ∧
      v.leases = ⟨l.leased, 0, false⟩ :: u.leases.eraseIdx i ∧ v.opening = u.opening ∧
      v.opened = u.opened := by
  intro v
  obtain ⟨p, rest, gone, hh, hr, -, hd, -⟩ := h.drop_kept hl hk
  have hw := h.step (.drop i)
  have hget : v = (u.step (.drop i)).step .get := rfl
  clear_value v
  generalize u.step (.drop i) = w at hw hget hd
  subst hd
  obtain ⟨-, hopt, -, -, hclosed⟩ := Pool.header_inj hh
  have hstale : Pool.stale p.options u.now (l.leased.resting u.now) = false := by
    rw [Bool.eq_false_iff]
    intro hstale
    obtain ⟨limit, -, he⟩ := (Option.any_eq_true _ _).1 hstale
    have hlt : limit.nanos < u.now - u.now := of_decide_eq_true he
    omega
  have haged : Pool.aged p.options u.now (l.leased.resting u.now) = false := by
    rw [Bool.eq_false_iff]
    intro haged
    obtain ⟨limit, hlim, he⟩ := (Option.any_eq_true _ _).1 haged
    have hlt : limit.nanos < u.now - l.leased.createdAt := of_decide_eq_true he
    exact absurd (hage limit (hopt ▸ hlim)) (not_le.2 hlt)
  obtain ⟨behind, hu⟩ := Pool.usable_cons hstale haged rest
  rw [← hr] at hu
  obtain ⟨hanswer, q, hstep, -⟩ := hw.get_reused (hclosed.trans ho) hu
  rw [hget, hstep]
  exact ⟨hanswer, rfl, rfl, rfl⟩

/-! ## Nothing comes in its place -/

theorem Settled.forgone {p : Pool κ} {opening : List Nat} (h : u.Owned) (hs : u.Settled)
    (hl : u.leases[i]? = some l)
    (hv : v = { (u.step (.drop i)).retire p with opening }) :
    v.leases = u.leases.eraseIdx i ∧ u.Forgone l v := by
  obtain ⟨hleases, -, -, -, hreturns, -⟩ := h.drop_lease hl
  have hl' : v.leases = u.leases.eraseIdx i := by rw [hv]; exact hleases
  have hr' : v.returns = l.leased.id :: u.returns := by rw [hv]; exact hreturns
  refine ⟨hl', ?_, ?_⟩
  · rw [hl']
    exact hs.accounted.lease_alone hl
  · rw [hr', List.count_cons_self]

theorem Owned.reassign_error {name : String} {options : PoolOptions} {f : Fault} (h : u.Owned)
    (hb : u.Bounded name options) (ho : u.pool.closed = false) (hl : u.leases[i]? = some l)
    (ha : (u.step (.drop i)).answer .get = some (.error f)) :
    f = .allocation ∧ ∃ p, (u.step (.drop i)).step .get = (u.step (.drop i)).retire p := by
  have hopen : (u.step (.drop i)).pool.closed = false := by
    rw [← ho]
    exact congrArg Pool.Header.closed (h.drop_lease hl).2.2.2.2.2
  have hg := (h.step (.drop i)).got
  rw [ha] at hg
  generalize (u.step (.drop i)).step .get = v at hg
  cases hg with
  | closed hc => simp [hopen] at hc
  | overload => exact absurd ha (h.room_again hb hl _ _)
  | allocation => exact ⟨rfl, _, rfl⟩

theorem Settled.buried {p : Pool κ} {opening : List Nat} (h : u.Owned) (hs : u.Settled)
    (hl : u.leases[i]? = some l) (hv : v = { (u.step (.drop i)).retire p with opening })
    (hset : v.Settled) (hr : v.pool.resting = []) :
    v.Buried l.leased.id (u.returns.count l.leased.id + 1) := by
  obtain ⟨-, hforgone⟩ := hs.forgone h hl hv
  have hopened : v.opened = u.opened := by
    rw [hv]
    exact (h.drop_lease hl).2.2.1
  refine ⟨hset, hset.accounted.torn ?_ hforgone.empty ?_, hforgone.once⟩
  · rw [hopened]
    exact hs.accounted.lease_opened hl
  · rw [hr]
    exact List.not_mem_nil

/-- To reassign a lease of an open pool never fails for lack of capacity. If the session is healthy,
not marked and not too old, and the pool keeps idle sessions, the new lease is on the same session,
at once. If the get fails, at once or when its handshake ends, the holder has no lease any more and
the session of the old one was given back once, whatever is done with the pool meanwhile. -/
theorem play_reassign (name : String) (options : PoolOptions) (ts : List (Turn κ)) :
    let u : Usage κ := (start name options none).play ts
    u.pool.closed = false → ∀ i l, u.leases[i]? = some l →
      let v := u.step (.reassign i)
      (∀ n limit, u.answer (.reassign i) ≠ some (.error (.overload n limit))) ∧
      (l.discarded = false → Transport.isHealthy l.leased.session = true →
        options.maxIdle ≠ some 0 →
        (∀ limit, options.maxLifetime = some limit →
          u.now - l.leased.createdAt ≤ limit.nanos) →
        u.answer (.reassign i) = some (.ok l.leased) ∧
        v.leases = ⟨l.leased, 0, false⟩ :: u.leases.eraseIdx i ∧ v.opening = u.opening ∧
        v.opened = u.opened) ∧
      (∀ f, u.answer (.reassign i) = some (.error f) →
        f = .allocation ∧ v.leases = u.leases.eraseIdx i ∧ v.opening = u.opening ∧
        u.Forgone l v) ∧
      (u.answer (.reassign i) = none →
        ∃ slot, v.leases = u.leases.eraseIdx i ∧ v.opening = slot :: u.opening ∧
          ∀ nested cause, (∀ result, .act (.finish slot result) ∉ nested) →
            let w := v.play nested
            let w' := w.step (.finish slot (.error cause))
            w.answer (.finish slot (.error cause)) = some (.error (.handshake name cause)) ∧
            w'.leases = w.leases ∧ u.Forgone l w') := by
  intro u ho i l hl v
  have h : u.Owned := (owned_start name options none).play ts
  have hs : u.Settled := play_settled name options ts
  have hb : u.Bounded name options := play_bounded name options ts
  have hd : (u.step (.drop i)).Owned := h.step (.drop i)
  obtain ⟨-, hopening, -, -, -, -⟩ := h.drop_lease hl
  have hv : v = (u.step (.drop i)).step .get := u.step_reassign i
  rw [u.answer_reassign i]
  refine ⟨h.room_again hb hl, fun hdiscard hhealthy hmax hage => ?_, fun f ha => ?_, fun ha => ?_⟩
  · rw [hv]
    refine h.regained ho hl ?_ (hb.sameOptions ▸ hage)
    rw [← Bool.not_eq_false, Pool.keeps_eq_false, hdiscard, hhealthy, ho, hb.sameOptions]
    simpa using hmax
  · obtain ⟨rfl, p, hstep⟩ := h.reassign_error hb ho hl ha
    obtain ⟨hleases, hforgone⟩ := hs.forgone h hl (hv.trans hstep)
    exact ⟨rfl, hleases, (congrArg Usage.opening (hv.trans hstep)).trans hopening, hforgone⟩
  · obtain ⟨-, slot, p, -, hr, -, hstep⟩ := hd.get_pending ha
    have hv' := hv.trans hstep
    have hopening' : v.opening = slot :: u.opening := by
      rw [hv', ← hopening]
    obtain ⟨hleases, -⟩ := hs.forgone h hl hv'
    refine ⟨slot, hleases, hopening', fun nested cause hnested => ?_⟩
    intro w w'
    have hvo : v.Owned := h.step (.reassign i)
    have hvs : v.Settled := hs.step h (.reassign i)
    have hw : w.Owned := hvo.play nested
    have hslot : slot ∈ w.opening :=
      hvo.play_still_opening (hopening' ▸ List.mem_cons_self) hnested
    have hwb : w.Bounded name options := (hb.step h (.reassign i)).play hvo nested
    have hburied : w.Buried l.leased.id (u.returns.count l.leased.id + 1) :=
      hvo.buried_play (hs.buried h hl hv' hvs (by rw [hv']; exact hr)) nested
    have hburied' := hburied.change (hw.change_finish slot (.error cause)).1
    obtain ⟨hanswer, hsame, -⟩ := hw.finish_error hslot cause
    rw [hwb.sameName] at hanswer
    exact ⟨hanswer, hsame, hburied'.unlent, hburied'.returns⟩

theorem play_reassign_full :
    let options : PoolOptions := { maxActive := some 1, maxLifetimeMs := some 100 }
    let ts : List (Turn Scenario.Stub) := [.act .get, .act (.finish 0 (.ok ⟨1, true⟩)),
      .act (.execute 0 (Command.ofName "PING")), .act (.setClock 100000000)]
    let u := (start "cache" options none).play ts
    let l : Leased Scenario.Stub := ⟨0, 1, 0, ⟨1, true⟩⟩
    u.pool.closed = false ∧ u.leases = [⟨l, 1, false⟩] ∧
      u.answer .get = some (.error (.overload "cache" 1)) ∧ u.answer (.reassign 0) = some (.ok l) ∧
      (u.step (.reassign 0)).leases = [⟨l, 0, false⟩] := by
  intro options ts u l
  have hopen : u.pool.closed = false := by decide +kernel
  have hlease : u.leases[0]? = some ⟨l, 1, false⟩ := rfl
  obtain ⟨-, hagain, -⟩ := play_reassign "cache" options ts hopen 0 _ hlease
  obtain ⟨hanswer, hleases, -⟩ := hagain rfl rfl (by decide) fun limit hlimit => by
    cases hlimit
    decide +kernel
  exact ⟨hopen, rfl, rfl, hanswer, hleases⟩

end Usage

end SessionPool
