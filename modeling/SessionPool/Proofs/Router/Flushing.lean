import SessionPool.Proofs.Pool.Closing
import SessionPool.Proofs.Router.Frame
import SessionPool.Scenario.Basic

/-!
# Flushing takes a table down for good

A flushed table is never installed again, since only a table that waits for its warm-up can be; it
is closed, so it makes no pool; and all its pools are closed, so none of them keeps a session. What
is outstanding at its places can still be used, and is torn down when it is given back
(`flush_isolates`).
-/

namespace SessionPool

namespace Traffic

variable {κ : Type} {i : Nat} {t t' : Traffic κ} {place : Place} {p : Pool κ}

def warming (hs : List Handshake) : List Nat :=
  (hs.filter fun h => h.call.isNone).map fun h => h.place.table

theorem mem_warming {hs : List Handshake} :
    i ∈ warming hs ↔ ∃ h ∈ hs, h.call = none ∧ h.place.table = i := by
  simp [warming, and_assoc]

theorem warming_sublist {hs hs' : List Handshake} (h : hs'.Sublist hs) :
    (warming hs').Sublist (warming hs) := (h.filter _).map _

theorem warming_eraseP {hs : List Handshake} (hnd : (warming hs).Nodup) {slot : Nat}
    {h : Handshake} (hfind : hs.find? (Handshake.isAt place slot) = some h)
    (hcall : h.call = none) :
    h.place.table ∉ warming (hs.eraseP (Handshake.isAt place slot)) := by
  obtain ⟨hat, before, after, rfl, hbefore⟩ := List.find?_eq_some_iff_append.1 hfind
  rw [List.eraseP_append_right _ (by simpa using hbefore), List.eraseP_cons_of_pos hat]
  simp only [warming, List.filter_append, List.map_append, List.filter_cons, hcall,
    Option.isNone_none, if_true, List.map_cons] at hnd ⊢
  exact (List.nodup_cons.1 (List.perm_middle.nodup_iff.1 hnd)).1

variable [Transport κ]

theorem Sound.settled (h : t.Sound) (hp : t.router.pool? place = some p) :
    (t.usage place).Owned ∧ (t.usage place).Settled := by
  obtain ⟨s, hs, -⟩ := h.served place (Option.isSome_of_eq_some hp)
  obtain ⟨as, ha⟩ := h.history place s hs
  rw [ha]
  exact ⟨(Usage.owned_start _ _ none).run as, Usage.run_settled _ _ none as⟩

theorem Sound.shows (h : t.Sound) (hp : t.router.pool? place = some p) :
    p.Shows p.resting [] (t.usage place).taken := by
  have ho := (h.settled hp).1
  rwa [Usage.Owned, show (t.usage place).pool = p from Router.poolAt_of_some hp] at ho

theorem Sound.resting_of_closed (h : t.Sound) (hp : t.router.pool? place = some p)
    (hclosed : p.closed = true) : p.resting = [] := by
  have hd := (h.settled hp).2.drained
  rw [show (t.usage place).pool = p from Router.poolAt_of_some hp] at hd
  exact hd hclosed

theorem Sound.cleared (h : t.Sound) (hleases : ∀ x ∈ t.leases, x.1.table ≠ i)
    (hidle : ∀ place p, place.table = i → t.router.pool? place = some p → p.resting = [])
    (hplace : place.table = i) :
    ((pick place t.opened).map Leased.member).Perm (pick place t.tornDown) := by
  have hnone : (t.usage place).leases = [] :=
    pick_eq_nil fun x hx heq => hleases x hx (heq ▸ hplace)
  cases hp : t.router.pool? place with
  | none =>
    have hu := h.unmade place hp
    have hopened : pick place t.opened = [] := congrArg Usage.opened hu
    have htorn : pick place t.tornDown = [] := congrArg Usage.tornDown hu
    rw [hopened, htorn]
    exact .nil
  | some p =>
    have hmembers := (h.settled hp).2.accounted.members
    rw [hnone, show (t.usage place).pool = p from Router.poolAt_of_some hp, hidle place p hplace hp]
      at hmembers
    exact hmembers.symm

theorem Sound.release_closed (h : t.Sound) (hp : t.router.pool? place = some p)
    (hclosed : p.closed = true) {k : Nat} {l : Lease κ} (hl : t.leases[k]? = some (place, l)) :
    (l.release t.now p).tornDown = [l.leased.member] := by
  obtain ⟨j, hj, -⟩ := usage_giveUp hl
  obtain ⟨idle', hr, -⟩ := Pool.Shows.giveBack
    ((h.shows hp).perm (.refl _) (Usage.taken_perm_of_lease hj)) l.discarded t.now
  have hk : p.keeps l.discarded l.leased.session = false :=
    Pool.keeps_eq_false.2 (.inr (.inl hclosed))
  rw [Lease.release]
  generalize p.giveBack l.leased l.discarded t.now = done at hr
  cases hr with
  | destroyed _ hh => rfl
  | kept hk' | evicted hk' => cases hk.symm.trans hk'

/-! ## Which tables may be installed -/

/-- A table waits for one warm-up, and is not installed while it waits. -/
structure Staged (t : Traffic κ) : Prop where
  installed_lt : ∀ i, t.router.installed = some i → i < t.router.tables.size
  warming_lt : ∀ i ∈ warming t.opening, i < t.router.tables.size
  apart : ∀ i ∈ warming t.opening, t.router.installed ≠ some i
  nodup : (warming t.opening).Nodup

omit [Transport κ] in
theorem staged_start (replicaLimit : Nat) : (start replicaLimit : Traffic κ).Staged where
  installed_lt _ hi := by cases hi
  warming_lt _ hi := by cases hi
  apart _ hi := by cases hi
  nodup := .nil

theorem Sound.size_step (h : t.Sound) {a : Action κ} (ha : ∀ c, a ≠ .configure c) :
    (t.step a).router.tables.size = t.router.tables.size :=
  Router.size_congr (h.step_along ha).plans

theorem Sound.size_configure (h : t.Sound) (c : RouterConfig) :
    t.configure c = t ∨ (t.configure c).router.tables.size = t.router.tables.size + 1 := by
  have hc := h.configured c
  generalize t.configure c = t' at hc
  cases hc with
  | refused => exact .inl rfl
  | drawn hd ho | warming hd _ ho =>
    refine .inr ((Router.size_congr ho.plans).trans ?_)
    rw [← hd.number]
    exact hd.size

theorem Sound.size_le (h : t.Sound) (a : Action κ) :
    t.router.tables.size ≤ (t.step a).router.tables.size := by
  by_cases ha : ∃ c, a = .configure c
  · obtain ⟨c, rfl⟩ := ha
    rcases h.size_configure c with hc | hc
    · exact Nat.le_of_eq (congrArg (fun t : Traffic κ => t.router.tables.size) hc.symm)
    · exact hc ▸ Nat.le_succ _
  · exact Nat.le_of_eq (h.size_step fun c hc => ha ⟨c, hc⟩).symm

theorem Staged.installed_ok (hs : t.Staged) (h : t.Sound) {a : Action κ}
    (ha : t.verdict a = some (.ok ())) : ∃ i, (t.step a).router.installed = some i ∧
      i < (t.step a).router.tables.size ∧ i ∉ warming (t.step a).opening := by
  have hinst := installed_of_ok ha
  cases a with
  | configure c =>
    refine ⟨_, hinst, ?_, ?_⟩
    · rcases h.size_configure c with hc | hc
      · change (t.configure c).router.installed = _ at hinst
        rw [hc] at hinst
        exact absurd (hs.installed_lt _ hinst) (Nat.lt_irrefl _)
      · exact hc ▸ Nat.lt_succ_self _
    · intro hmem
      rcases opening_step t (.configure c) with hsub | ⟨_, -, -, hnone, -⟩
      · exact Nat.lt_irrefl _ (hs.warming_lt _ ((warming_sublist hsub).subset hmem))
      · rw [hnone] at ha
        cases ha
  | finish place slot result =>
    rw [verdict] at ha
    split at ha
    · next hand hfind =>
      obtain ⟨rfl, rfl⟩ := Handshake.eq_of_isAt (List.find?_some hfind)
      split at ha
      · next hcall =>
        refine ⟨hand.place.table, by rw [hinst, touched, hfind]; rfl, ?_, ?_⟩
        · exact Nat.lt_of_lt_of_le
            (hs.warming_lt _ (mem_warming.2 ⟨hand, List.mem_of_find?_eq_some hfind, hcall, rfl⟩))
            (h.size_le _)
        · have hw := warming_eraseP hs.nodup hfind hcall
          rw [step, hfind]
          simp only [hcall]
          rwa [opening_finishWarmUp]
      · cases ha
    · cases ha
  | _ => cases ha

theorem Staged.step (hs : t.Staged) (h : t.Sound) (a : Action κ) : (t.step a).Staged := by
  have hle := h.size_le a
  -- a table that begins to wait is a new one
  obtain ⟨hnew, hnodup⟩ : (∀ j ∈ warming (t.step a).opening, j ∈ warming t.opening ∨
      j = t.router.tables.size ∧ j < (t.step a).router.tables.size ∧ t.verdict a = none) ∧
      (warming (t.step a).opening).Nodup := by
    obtain hsub | ⟨hand, hopen, htouched, hnone, hconf⟩ := opening_step t a
    · have hw := warming_sublist hsub
      exact ⟨fun j hj => .inl (hw.subset hj), hs.nodup.sublist hw⟩
    · rw [hopen]
      cases hcall : hand.call with
      | some call =>
        have hw : warming (hand :: t.opening) = warming t.opening := by simp [warming, hcall]
        rw [hw]
        exact ⟨fun j hj => .inl hj, hs.nodup⟩
      | none =>
        obtain ⟨c, rfl⟩ := hconf hcall
        have htable : hand.place.table = t.router.tables.size := (Option.some_inj.1 htouched).symm
        have hsize : (t.configure c).router.tables.size = t.router.tables.size + 1 := by
          refine (h.size_configure c).resolve_left fun hsame => ?_
          change (t.configure c).opening = _ at hopen
          rw [hsame] at hopen
          exact absurd (congrArg List.length hopen) (by simp)
        have hw : warming (hand :: t.opening) = t.router.tables.size :: warming t.opening := by
          simp [warming, hcall, htable]
        rw [hw]
        refine ⟨fun j hj => ?_, List.nodup_cons.2 ⟨fun hmem => ?_, hs.nodup⟩⟩
        · rcases List.mem_cons.1 hj with rfl | hj
          · exact .inr ⟨rfl, hsize ▸ Nat.lt_succ_self _, hnone⟩
          · exact .inl hj
        · exact Nat.lt_irrefl _ (hs.warming_lt _ hmem)
  have hinst : (∃ j, (t.step a).router.installed = some j ∧ j < (t.step a).router.tables.size ∧
      j ∉ warming (t.step a).opening) ∨ t.verdict a ≠ some (.ok ()) ∧
      ((t.step a).router.installed = t.router.installed ∨ (t.step a).router.installed = none) := by
    by_cases hok : t.verdict a = some (.ok ())
    · exact .inl (hs.installed_ok h hok)
    · exact .inr ⟨hok, (installed_of_not_ok hok).imp_right And.right⟩
  refine ⟨fun j hj => ?_, fun j hj => ?_, fun j hj hj' => ?_, hnodup⟩
  · obtain ⟨k, hk, hlt, -⟩ | ⟨-, hsame | hnone⟩ := hinst
    · cases hk.symm.trans hj
      exact hlt
    · exact Nat.lt_of_lt_of_le (hs.installed_lt j (hsame ▸ hj)) hle
    · cases hnone.symm.trans hj
  · obtain hold | ⟨-, hlt, -⟩ := hnew j hj
    · exact Nat.lt_of_lt_of_le (hs.warming_lt j hold) hle
    · exact hlt
  · obtain ⟨k, hk, -, hnot⟩ | ⟨-, hsame | hnone⟩ := hinst
    · cases hk.symm.trans hj'
      exact hnot hj
    · obtain hold | ⟨rfl, -, -⟩ := hnew j hj
      · exact hs.apart j hold (hsame ▸ hj')
      · exact Nat.lt_irrefl _ (hs.installed_lt _ (hsame ▸ hj'))
    · cases hnone.symm.trans hj'

theorem run_staged (replicaLimit : Nat) (as : List (Action κ)) :
    ((start replicaLimit).run as).Sound ∧ ((start replicaLimit).run as).Staged := by
  induction as using List.reverseRecOn with
  | nil => exact ⟨sound_start replicaLimit, staged_start replicaLimit⟩
  | append_singleton as a ih =>
    rw [run_append]
    exact ⟨(ih.1.step a).sound, ih.2.step ih.1 a⟩

/-! ## Tables that were taken down -/

structure Unwarmed (i : Nat) (t : Traffic κ) : Prop where
  lt : i < t.router.tables.size
  unwarmed : i ∉ warming t.opening

theorem Unwarmed.step (hu : Unwarmed i t) (h : t.Sound) (a : Action κ) : Unwarmed i (t.step a) := by
  refine ⟨Nat.lt_of_lt_of_le hu.lt (h.size_le a), fun hmem => ?_⟩
  obtain hsub | ⟨hnew, hopen, htouched, -, hconf⟩ := opening_step t a
  · exact hu.unwarmed ((warming_sublist hsub).subset hmem)
  · obtain ⟨hand, hhand, hcall, hi⟩ := mem_warming.1 hmem
    rw [hopen] at hhand
    rcases List.mem_cons.1 hhand with rfl | hhand
    · obtain ⟨c, rfl⟩ := hconf hcall
      rw [hi] at htouched
      cases htouched
      exact Nat.lt_irrefl _ hu.lt
    · exact hu.unwarmed (mem_warming.2 ⟨hand, hhand, hcall, hi⟩)

theorem Unwarmed.uninstalled_step (hu : Unwarmed i t) (hi : t.router.installed ≠ some i)
    (a : Action κ) : (t.step a).router.installed ≠ some i := by
  intro hinst
  by_cases hok : t.verdict a = some (.ok ())
  · have ha : t.touched a = some i := (installed_of_ok hok).symm.trans hinst
    cases a with
    | configure c => exact Nat.ne_of_lt hu.lt (Option.some_inj.1 ha).symm
    | finish place slot result =>
      obtain ⟨hand, hfind, htable⟩ := Option.map_eq_some_iff.1 ha
      rw [verdict, hfind] at hok
      dsimp only at hok
      split at hok
      · next hcall =>
        exact hu.unwarmed (mem_warming.2 ⟨hand, List.mem_of_find?_eq_some hfind, hcall, htable⟩)
      · cases hok
    | _ => cases hok
  · rcases installed_of_not_ok hok with hsame | ⟨-, hnone⟩
    · exact hi (hsame ▸ hinst)
    · cases hnone.symm.trans hinst

/-- A table that is closed with all its pools, and that no action will install. -/
structure Retired (i : Nat) (t : Traffic κ) : Prop where
  closed : ∃ s, t.router.tables[i]? = some s ∧ s.closed = true
  pools : ∀ place p, place.table = i → t.router.pool? place = some p → p.closed = true
  uninstalled : t.router.installed ≠ some i
  unwarmed : i ∉ warming t.opening

theorem Staged.flushed (hs : t.Staged) (h : t.Sound) (hi : t.router.installed = some i) :
    Retired i (t.step .flush) := by
  have hflush : (t.step .flush).router =
      (({ t.router with installed := none } : Router κ).closeTable i).2 := by
    change t.router.flush.2 = _
    rw [Router.flush, hi]
  refine ⟨?_, fun place p hplace hp => ?_, ?_, fun hmem => hs.apart i hmem hi⟩
  · obtain ⟨s, hs'⟩ : ∃ s, t.router.tables[i]? = some s :=
      ⟨_, Array.getElem?_eq_getElem (hs.installed_lt i hi)⟩
    refine ⟨s.close.2, ?_, rfl⟩
    rw [hflush, Router.closeTable_router, Array.getElem?_modify, if_pos rfl, hs']
    rfl
  · rw [hflush, Router.pool?_closeTable, if_pos hplace.symm] at hp
    obtain ⟨q, hq, rfl⟩ := Option.map_eq_some_iff.1 hp
    exact (h.shows (t := t) hq).closed_close
  · rw [hflush, Router.installed_closeTable]
    simp

theorem Retired.router_step (hr : Retired i t) {a : Action κ} (ha : t.touched a = some i) :
    (t.step a).router = t.router ∨
      ∃ place p, place.table = i ∧ (t.step a).router = t.router.setPool place p := by
  cases a with
  | configure c =>
    obtain ⟨s, hs, -⟩ := hr.closed
    cases ha
    exact absurd (Array.getElem?_eq_some_iff.1 hs).1 (Nat.lt_irrefl _)
  | get partition role replica draw => exact absurd ha hr.uninstalled
  | flush => exact absurd ha hr.uninstalled
  | setClock now => cases ha
  | finish place slot result =>
    rw [touched] at ha
    obtain ⟨hand, hfind, htable⟩ := Option.map_eq_some_iff.1 ha
    obtain ⟨rfl, rfl⟩ := Handshake.eq_of_isAt (List.find?_some hfind)
    rw [step, hfind]
    cases hcall : hand.call with
    | none =>
      exact absurd (mem_warming.2 ⟨hand, List.mem_of_find?_eq_some hfind, hcall, htable⟩)
        hr.unwarmed
    | some call =>
      simp only [hcall]
      rw [router_finishGet, Router.finishGet]
      refine (Router.router_onPool_cases _ _ _).imp_right ?_
      rintro ⟨p, hp⟩
      exact ⟨_, p, htable, hp⟩
  | execute k c | discard k =>
    left
    rw [step]
    split <;> rfl
  | drop k =>
    rw [touched] at ha
    obtain ⟨⟨place, l⟩, hl, htable⟩ := Option.map_eq_some_iff.1 ha
    rw [step, hl]
    refine (Router.router_onPool_cases place () _).imp_right ?_
    rintro ⟨p, hp⟩
    exact ⟨place, p, htable, hp⟩

theorem Retired.step (hr : Retired i t) (h : t.Sound) (a : Action κ) : Retired i (t.step a) ∧
    ∀ place, place.table = i →
      ((t.step a).router.pool? place).isSome = (t.router.pool? place).isSome := by
  obtain ⟨s, hs, hclosed⟩ := hr.closed
  have hlt : i < t.router.tables.size := (Array.getElem?_eq_some_iff.1 hs).1
  obtain ⟨htable, hmade⟩ : (∃ s, (t.step a).router.tables[i]? = some s ∧ s.closed = true) ∧
      ∀ place, place.table = i →
        ((t.step a).router.pool? place).isSome = (t.router.pool? place).isSome := by
    by_cases ha : t.touched a = some i
    · rcases hr.router_step ha with hsame | ⟨place, p, hplace, hset⟩
      · rw [hsame]
        exact ⟨hr.closed, fun _ _ => rfl⟩
      · rw [hset]
        refine ⟨⟨s.setPool place.key p, ?_, hclosed⟩, fun other _ => ?_⟩
        · rw [Router.setPool]
          simp only [hplace, Array.getElem?_modify, if_true, hs]
          rfl
        · rw [Router.pool?_setPool]
          split
          · next hother => rw [hother, Option.isSome_map]
          · rfl
    · have hstill := still_step ha
      refine ⟨⟨s, hstill.table.trans hs, hclosed⟩, fun place hplace => ?_⟩
      rw [Router.pool?, Router.pool?, hplace, hstill.table]
  have hu : Unwarmed i t := ⟨hlt, hr.unwarmed⟩
  refine ⟨⟨htable, fun place p hplace hp => ?_, hu.uninstalled_step hr.uninstalled a,
    (hu.step h a).unwarmed⟩, hmade⟩
  -- the pool was there before, and its history goes on
  obtain ⟨q, hq⟩ := Option.isSome_iff_exists.1
    ((hmade place hplace).symm.trans (Option.isSome_of_eq_some hp))
  have hplan : (t.router.plan? place.table).isSome := by
    rw [hplace]
    exact Router.plan?_isSome_iff.2 hlt
  obtain ⟨as, hu⟩ := (h.step a).usages place hplan
  have hpool : (t.usage place).pool = q := Router.poolAt_of_some hq
  have hrun := (h.settled hq).1.run_closed (hpool ▸ hr.pools place q hplace hq) as
  rwa [← hu, show ((t.step a).usage place).pool = p from Router.poolAt_of_some hp] at hrun

theorem lease_step {k : Nat} {l : Lease κ} (hl : t.leases[k]? = some (place, l)) {a : Action κ}
    (ha : a ≠ .drop k) : ∃ (k' : Nat) (l' : Lease κ),
      (t.step a).leases[k']? = some (place, l') ∧ l'.leased.id = l.leased.id := by
  have hset {k' : Nat} {place' : Place} {l₁ l₂ : Lease κ} (hl' : t.leases[k']? = some (place', l₁))
      (hid : l₂.leased.id = l₁.leased.id) : ∃ l',
        (t.leases.set k' (place', l₂))[k]? = some (place, l') ∧ l'.leased.id = l.leased.id := by
    by_cases hk : k' = k
    · subst hk
      cases hl.symm.trans hl'
      exact ⟨l₂, List.getElem?_set_self (List.getElem?_eq_some_iff.1 hl).1, hid⟩
    · exact ⟨l, by rw [List.getElem?_set_ne hk, hl], rfl⟩
  cases a with
  | configure c =>
    refine ⟨k, l, ?_, rfl⟩
    rw [step, configure]
    dsimp only
    split <;> exact hl
  | get partition role replica draw =>
    rw [step]
    split
    · rw [begin]
      split
      · exact ⟨k, l, hl, rfl⟩
      · exact ⟨k + 1, l, hl, rfl⟩
      · exact ⟨k, l, hl, rfl⟩
    · exact ⟨k, l, hl, rfl⟩
  | finish place' slot result =>
    rw [step]
    split
    · split
      · rw [finishGet]
        split
        · exact ⟨k + 1, l, hl, rfl⟩
        · exact ⟨k, l, hl, rfl⟩
      · refine ⟨k, l, ?_, rfl⟩
        rw [finishWarmUp]
        split <;> exact hl
    · exact ⟨k, l, hl, rfl⟩
  | execute k' c =>
    rw [step]
    split
    · next place' l₁ hl' =>
      obtain ⟨l', h⟩ := hset hl' (rfl : (l₁.execute c).2.leased.id = l₁.leased.id)
      exact ⟨k, l', h⟩
    · exact ⟨k, l, hl, rfl⟩
  | discard k' =>
    rw [step]
    split
    · next place' l₁ hl' =>
      obtain ⟨l', h⟩ := hset hl' (rfl : l₁.discard.leased.id = l₁.leased.id)
      exact ⟨k, l', h⟩
    · exact ⟨k, l, hl, rfl⟩
  | drop k' =>
    have hne : k' ≠ k := fun hk => ha (hk ▸ rfl)
    rw [step]
    split
    · rcases Nat.lt_or_gt_of_ne hne with hlt | hlt
      · refine ⟨k - 1, l, ?_, rfl⟩
        change (t.leases.eraseIdx k')[k - 1]? = _
        rw [List.getElem?_eraseIdx_of_ge (Nat.le_sub_one_of_lt hlt),
          Nat.sub_add_cancel (by omega), hl]
      · refine ⟨k, l, ?_, rfl⟩
        change (t.leases.eraseIdx k')[k]? = _
        rw [List.getElem?_eraseIdx_of_lt hlt, hl]
    · exact ⟨k, l, hl, rfl⟩
  | flush | setClock now => exact ⟨k, l, hl, rfl⟩

/-- What is found at table `i` in the traffic `u`, if the table was flushed in `t`, or before. -/
structure Isolated (i : Nat) (t u : Traffic κ) : Prop where
  pools : ∀ place, place.table = i →
    (u.router.pool? place).isSome = (t.router.pool? place).isSome
  idle : ∀ place p, place.table = i → u.router.pool? place = some p →
    p.idle.entries = [] ∧ p.idleCount = 0
  lent : ∀ place k l, place.table = i → u.leases[k]? = some (place, l) →
    l.leased.id ∉ (pick place u.tornDown).map Member.id ∧
    ∀ c, (u.step (.execute k c)).leases[k]? = some (place, (l.execute c).2) ∧
      ((l.execute c).1, (l.execute c).2.leased.session) = Transport.execute c l.leased.session
  stays : ∀ place k l, place.table = i → u.leases[k]? = some (place, l) → ∀ a, a ≠ .drop k →
    ∃ (k' : Nat) (l' : Lease κ),
      (u.step a).leases[k']? = some (place, l') ∧ l'.leased.id = l.leased.id
  opens : ∀ place slot h call result session, place.table = i →
    u.opening.find? (Handshake.isAt place slot) = some h → h.call = some call →
    result h = .ok session → ∃ l : Leased κ, l.session = session ∧
      (u.step (.finish place slot result)).leases = (place, .ofLeased l) :: u.leases
  drops : ∀ place k l, place.table = i → u.leases[k]? = some (place, l) →
    (u.step (.drop k)).tornDown = u.tornDown ++ [(place, l.leased.member)] ∧
    (u.step (.drop k)).leases = u.leases.eraseIdx k ∧
    (u.step (.drop k)).router.installed = u.router.installed ∧
    (u.step (.drop k)).router.table? = u.router.table? ∧
    ∀ j ≠ i, (u.step (.drop k)).router.tables[j]? = u.router.tables[j]?
  ended : (∀ x ∈ u.leases, x.1.table ≠ i) → ∀ place, place.table = i →
    ((pick place u.opened).map Leased.member).Perm (pick place u.tornDown)

theorem Retired.isolated (hr : Retired i t) (h : t.Sound) : Isolated i t t where
  pools _ _ := rfl
  idle place p hplace hp := by
    have hs := h.shows hp
    rw [h.resting_of_closed hp (hr.pools place p hplace hp)] at hs
    exact ⟨hs.listed.entries, hs.idleCount⟩
  lent place k l hplace hl := by
    obtain ⟨p, hp⟩ := h.lease hl
    refine ⟨fun hmem => ?_, fun c => ⟨?_, rfl⟩⟩
    · obtain ⟨m, hm, hid⟩ := List.mem_map.1 hmem
      refine ((h.settled hp).2.accounted.apart hm).1 ?_
      rw [hid]
      exact List.mem_map_of_mem (f := fun l : Lease κ => l.leased.id)
        (mem_pick.2 (List.mem_of_getElem? hl))
    · rw [Traffic.step, hl]
      exact List.getElem?_set_self (List.getElem?_eq_some_iff.1 hl).1
  stays place k l _ hl a ha := lease_step hl ha
  opens place slot hand call result session hplace hfind hcall hresult := by
    obtain ⟨rfl, rfl⟩ := Handshake.eq_of_isAt (List.find?_some hfind)
    have hmem := mem_opening (List.mem_of_find?_eq_some hfind)
    obtain ⟨p, hp⟩ := h.made (.inr (List.ne_nil_of_mem hmem))
    have ha : (t.router.finishGet hand.place hand.slot (.ok session) t.now).answer =
        .ok ⟨hand.slot, p.nextId, t.now, session⟩ := Router.answer_onPool hp _ _
    refine ⟨⟨hand.slot, p.nextId, t.now, session⟩, rfl, ?_⟩
    rw [Traffic.step, hfind]
    simp only [hcall, hresult]
    rw [finishGet, ha]
    rfl
  drops place k l hplace hl := by
    obtain ⟨p, hp⟩ := h.lease hl
    have htorn := h.release_closed hp (hr.pools place p hplace hp) hl
    have hstep : t.step (.drop k) = (t.giveUp k place l).take (t.router.release place l t.now) := by
      rw [Traffic.step, hl]
    have hrelease : t.router.release place l t.now =
        ⟨(), [(place, l.leased.member)], t.router.setPool place (l.release t.now p).pool⟩ := by
      rw [Router.release, Router.onPool_of_some hp, htorn]
      rfl
    have htables : ∀ j ≠ i, (t.step (.drop k)).router.tables[j]? = t.router.tables[j]? := by
      intro j hj
      rw [hstep, hrelease]
      exact Router.getElem?_modify_of_ne (by rw [hplace]; exact hj.symm) _
    have hinstalled : (t.step (.drop k)).router.installed = t.router.installed := by
      rw [hstep, hrelease]
      rfl
    refine ⟨by rw [hstep, hrelease]; rfl, by rw [hstep]; rfl, hinstalled, ?_, htables⟩
    rw [Router.table?, Router.table?, hinstalled]
    cases hi : t.router.installed with
    | none => rfl
    | some j => exact htables j fun hij => hr.uninstalled (hij ▸ hi)
  ended hnone _ hplace := h.cleared hnone
    (fun place p hplace hp => h.resting_of_closed hp (hr.pools place p hplace hp)) hplace

theorem Retired.run (hr : Retired i t) (h : t.Sound) (as : List (Action κ)) :
    Isolated i t (t.run as) := by
  suffices hrun : Retired i (t.run as) ∧ ∀ place, place.table = i →
      ((t.run as).router.pool? place).isSome = (t.router.pool? place).isSome from
    { hrun.1.isolated (h.run as).sound with pools := hrun.2 }
  induction as generalizing t with
  | nil => exact ⟨hr, fun _ _ => rfl⟩
  | cons a as ih =>
    obtain ⟨hr', hmade⟩ := hr.step h a
    obtain ⟨hlast, hrest⟩ := ih hr' (h.step a).sound
    exact ⟨hlast, fun place hplace => (hrest place hplace).trans (hmade place hplace)⟩

/-! ## A router without a configuration -/

def Unsuccessful : Traffic κ → List (Action κ) → Prop
  | _, [] => True
  | t, a :: as => t.verdict a ≠ some (.ok ()) ∧ (t.step a).Unsuccessful as

theorem Unsuccessful.installed {as : List (Action κ)} (h : t.Unsuccessful as)
    (hnone : t.router.installed = none) : (t.run as).router.installed = none := by
  induction as generalizing t with
  | nil => exact hnone
  | cons a as ih =>
    refine ih h.2 ?_
    rcases installed_of_not_ok h.1 with hsame | ⟨-, hnone'⟩
    · exact hsame.trans hnone
    · exact hnone'

structure Unconfigured (t : Traffic κ) : Prop where
  isConfigured : t.router.isConfigured = false
  poolCount : t.router.poolCount = 0
  stats : ∀ role, t.router.stats role = 0
  get : ∀ partition role replica draw, partition < maxPartitions →
    t.router.route partition role replica draw = .error .notConfigured ∧
    t.step (.get partition role replica draw) = t

theorem unconfigured_of_none (h : t.router.installed = none) : t.Unconfigured := by
  have htable : t.router.table? = none := by rw [Router.table?, h]; rfl
  have hroute : ∀ partition role replica draw, partition < maxPartitions →
      t.router.route partition role replica draw = .error .notConfigured := by
    intro partition role replica draw hlt
    rw [Router.route, if_neg (Nat.not_le.2 hlt), h]
  refine ⟨by rw [Router.isConfigured, h]; rfl, by rw [Router.poolCount, htable]; rfl,
    fun role => by rw [Router.stats, htable]; rfl, fun partition role replica draw hlt => ?_⟩
  have hr := hroute partition role replica draw hlt
  exact ⟨hr, by rw [step, hr]⟩

theorem flush_of_none (h : t.router.installed = none) : t.step .flush = t := by
  have hflush : t.router.flush = ([], t.router) := by rw [Router.flush, h]
  rw [step, hflush]
  simp [take]

/-- From a flush on and until a call to configure succeeds, the router is as if it was never
configured; and in every later state the flushed table is closed for good. -/
theorem flush_isolates (replicaLimit : Nat) (as : List (Action κ)) :
    let t := (start replicaLimit).run as
    let flushed := t.step .flush
    (t.router.installed = none → flushed = t) ∧
    (∀ bs, flushed.Unsuccessful bs → (flushed.run bs).Unconfigured) ∧
    ∀ i, t.router.installed = some i → flushed.leases = t.leases ∧ flushed.opening = t.opening ∧
      ∀ bs, Isolated i flushed (flushed.run bs) := by
  intro t flushed
  obtain ⟨h, hs⟩ := run_staged replicaLimit as
  refine ⟨flush_of_none, fun bs hbs =>
    unconfigured_of_none (hbs.installed (Router.installed_flush _)),
    fun i hi => ⟨rfl, rfl, fun bs => ?_⟩⟩
  exact (hs.flushed h hi).run (h.step .flush).sound bs

/-- A request that waits for its handshake during the flush gets its session, which is torn down
when it comes back; a table for the same server that is configured meanwhile has nothing to do with
it. -/
theorem flush_isolates_pending_handshake :
    let as : List (Action Scenario.Stub) := [.configure { master := "m:1" }, .get 0 .master none 0]
    let bs : List (Action Scenario.Stub) := [.configure { master := "m:1" }, .get 0 .master none 0,
      .finish ⟨1, .ofMaster 0⟩ 0 fun _ => .ok ⟨1, true⟩,
      .finish ⟨0, .ofMaster 0⟩ 0 fun _ => .ok ⟨2, true⟩]
    let flushed := ((start 15).run as).step .flush
    let t := flushed.run bs
    Isolated 0 flushed t ∧ t.leases.map (fun x => (x.1, x.2.leased.session.serial)) =
        [(⟨0, .ofMaster 0⟩, 2), (⟨1, .ofMaster 0⟩, 1)] ∧
      (t.step (.drop 0)).tornDown.map (fun x => (x.1, x.2.session.serial)) =
        [(⟨0, .ofMaster 0⟩, 2)] ∧
      (t.step (.drop 0)).router.stats .master = ⟨1, 0, 1⟩ := by
  intro as bs flushed t
  obtain ⟨-, -, hisolated⟩ := flush_isolates 15 as
  exact ⟨(hisolated 0 (by decide +kernel)).2.2 bs, by decide +kernel, by decide +kernel,
    by decide +kernel⟩

end Traffic

end SessionPool
