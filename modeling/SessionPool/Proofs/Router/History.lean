import SessionPool.Proofs.Router.Traffic

/-!
# Every place has its own history

Whatever is done with a router, at each place the pool, the leases and the handshakes are those of
some history of one pool. A step of the router acts on a place as some actions of that history, and
no step changes the plan of a table.
-/

namespace SessionPool.Traffic

variable {κ : Type} [Transport κ]

structure Sound (t : Traffic κ) : Prop where
  keyed : t.router.Keyed
  unmade : ∀ place, t.router.pool? place = none →
    t.usage place = { pool := (t.usage place).pool, now := (t.usage place).now }
  history : ∀ place s, t.router.plan? place.table = some s →
    ∃ as, t.usage place = (Usage.start (s.poolName place.key) s.options none).run as
  served : ∀ place, (t.router.pool? place).isSome →
    ∃ s, t.router.plan? place.table = some s ∧ s.Has place.key

theorem sound_start (replicaLimit : Nat) : (start replicaLimit : Traffic κ).Sound where
  keyed i s hs := by simp [start] at hs
  unmade _ _ := rfl
  history place s hs := by simp [start, Router.plan?] at hs
  served place hp := by simp [start, Router.pool?] at hp

/-- From `t` on every place goes on with its history, under the same tables. -/
structure Along (t t' : Traffic κ) : Prop where
  sound : t'.Sound
  plans : t'.router.plan? = t.router.plan?
  usages : ∀ place, ∃ as, t'.usage place = (t.usage place).run as

variable {t t' t'' : Traffic κ} {place : Place} {p : Pool κ}

theorem Along.refl (h : t.Sound) : Along t t := ⟨h, rfl, fun _ => ⟨[], rfl⟩⟩

theorem Along.trans (h : Along t t') (h' : Along t' t'') : Along t t'' := by
  refine ⟨h'.sound, h'.plans.trans h.plans, fun place => ?_⟩
  obtain ⟨as, ha⟩ := h.usages place
  obtain ⟨bs, hb⟩ := h'.usages place
  exact ⟨as ++ bs, by rw [hb, ha, Usage.run_append]⟩

theorem Along.noting (h : Along t t') (granted : List (Grant κ)) (configs : List RouterConfig) :
    Along t { t' with granted, configs } :=
  ⟨⟨h.sound.keyed, h.sound.unmade, h.sound.history, h.sound.served⟩, h.plans, h.usages⟩

structure Onward (t t' : Traffic κ) : Prop where
  sound : t'.Sound
  plans : ∀ i s, t.router.plan? i = some s → t'.router.plan? i = some s
  usages : ∀ place, (t.router.plan? place.table).isSome →
    ∃ as, t'.usage place = (t.usage place).run as

theorem Along.onward (h : Along t t') : Onward t t' :=
  ⟨h.sound, fun _ _ hs => h.plans ▸ hs, fun place _ => h.usages place⟩

theorem Onward.trans (h : Onward t t') (h' : Onward t' t'') : Onward t t'' := by
  refine ⟨h'.sound, fun i s hs => h'.plans i s (h.plans i s hs), fun place hplace => ?_⟩
  obtain ⟨s, hs⟩ := Option.isSome_iff_exists.1 hplace
  obtain ⟨as, ha⟩ := h.usages place hplace
  obtain ⟨bs, hb⟩ := h'.usages place (Option.isSome_of_eq_some (h.plans _ s hs))
  exact ⟨as ++ bs, by rw [hb, ha, Usage.run_append]⟩

theorem Sound.along (h : t.Sound) (hk : t'.router.Keyed) (hs : t'.router.plan? = t.router.plan?)
    (hp : ∀ place, (t'.router.pool? place).isSome = (t.router.pool? place).isSome)
    (hn : ∀ place, t.router.pool? place = none → ∃ now, t'.usage place = { t.usage place with now })
    (hu : ∀ place, ∃ as, t'.usage place = (t.usage place).run as) : Along t t' := by
  refine ⟨⟨hk, fun place hnone => ?_, fun place s hplan => ?_, fun place hsome => ?_⟩, hs, hu⟩
  · have hp' : t.router.pool? place = none := by
      rw [← Option.isNone_iff_eq_none, ← Option.not_isSome, ← hp place, hnone]
      rfl
    obtain ⟨now, hnow⟩ := hn place hp'
    rw [hnow, h.unmade place hp']
  · obtain ⟨as, ha⟩ := h.history place s (hs ▸ hplan)
    obtain ⟨bs, hb⟩ := hu place
    exact ⟨as ++ bs, by rw [hb, ha, Usage.run_append]⟩
  · rw [hs]
    exact h.served place (hp place ▸ hsome)

/-- From `t` on one place goes on with some actions, and the others stay as they are. -/
structure At (place : Place) (as : List (Usage.Action κ)) (t t' : Traffic κ) : Prop extends
    Along t t' where
  here : t'.usage place = (t.usage place).run as
  others : ∀ other ≠ place, t'.usage other = t.usage other

theorem At.noting {as : List (Usage.Action κ)} (h : At place as t t') (granted : List (Grant κ)) :
    At place as t { t' with granted } :=
  ⟨h.toAlong.noting granted t'.configs, h.here, h.others⟩

theorem Sound.within {as : List (Usage.Action κ)} (h : t.Sound) (hk : t'.router.Keyed)
    (hs : t'.router.plan? = t.router.plan?)
    (hp : ∀ place, (t'.router.pool? place).isSome = (t.router.pool? place).isSome)
    (hmade : t.router.pool? place = some p)
    (hu : t'.usage place = (t.usage place).run as)
    (ho : ∀ other ≠ place, t'.usage other = t.usage other) : At place as t t' := by
  refine ⟨h.along hk hs hp (fun other hnone => ⟨t.now, ho other ?_⟩) fun other => ?_, hu, ho⟩
  · rintro rfl
    exact absurd (hmade.symm.trans hnone) (Option.some_ne_none p)
  · by_cases hother : other = place
    · exact ⟨as, hother ▸ hu⟩
    · exact ⟨[], ho other hother⟩

theorem Sound.one {as : List (Usage.Action κ)} {p' : Pool κ} (h : t.Sound)
    (hp : t.router.pool? place = some p) (hr : t'.router = t.router.setPool place p')
    (hu : t'.usage place = (t.usage place).run as)
    (ho : ∀ other ≠ place, t'.usage other = t.usage other) : At place as t t' := by
  refine h.within (hr ▸ h.keyed.setPool) (hr ▸ Router.plan?_setPool) (fun other => ?_) hp hu ho
  rw [hr, Router.pool?_setPool]
  split
  · next hother => rw [hother, hp]; rfl
  · rfl

theorem Sound.made (h : t.Sound)
    (hat : (t.usage place).leases ≠ [] ∨ (t.usage place).opening ≠ []) :
    ∃ p, t.router.pool? place = some p := by
  refine Option.ne_none_iff_exists'.1 fun hnone => ?_
  rw [h.unmade place hnone] at hat
  exact hat.elim (· rfl) (· rfl)

/-! ## Getting a session -/

theorem run_get (hp : t.router.pool? place = some p) :
    (t.usage place).run [.get] = (t.usage place).begin (p.beginGet t.now) := by
  rw [← Router.poolAt_of_some hp]
  rfl

theorem Sound.refused (h : t.Sound) (hp : t.router.pool? place = some p) {f : Fault}
    (ha : (p.beginGet t.now).answer = .refused f) :
    At place [.get] t (t.take (t.router.beginGet place t.now)) := by
  refine h.one hp (Router.router_onPool hp _ _) ?_
    fun other hne => usage_take_of_ne hne hp _ _
  rw [run_get hp, Usage.begin, ha]
  exact usage_take hp _ _

theorem Sound.reused (h : t.Sound) (hp : t.router.pool? place = some p) {l : Leased κ}
    (ha : (p.beginGet t.now).answer = .reused l) :
    At place [.get] t ((t.take (t.router.beginGet place t.now)).lend place l) := by
  refine h.one hp (Router.router_onPool hp _ _) ?_
    fun other hne => (usage_lend_of_ne hne l).trans (usage_take_of_ne hne hp _ _)
  rw [run_get hp, Usage.begin, ha, usage_lend]
  exact congrArg (Usage.lend l) (usage_take hp _ _)

theorem Sound.awaited (h : t.Sound) (hp : t.router.pool? place = some p) {slot : Nat}
    (ha : (p.beginGet t.now).answer = .opening slot) (call : Option Call) :
    At place [.get] t ((t.take (t.router.beginGet place t.now)).await place slot call) := by
  refine h.one hp (Router.router_onPool hp _ _) ?_
    fun other hne => (usage_await_of_ne hne slot call).trans (usage_take_of_ne hne hp _ _)
  rw [run_get hp, Usage.begin, ha, usage_await, Router.beginGet, usage_take hp]
  rfl

theorem Sound.begin (h : t.Sound) (hp : t.router.pool? place = some p) (call : Call) :
    At place [.get] t (t.begin call place) := by
  have hb : (t.router.beginGet place t.now).answer = (p.beginGet t.now).answer :=
    Router.answer_onPool hp _ _
  rw [Traffic.begin, hb]
  split
  · next f ha => exact h.refused hp ha
  · next l ha => exact (h.reused hp ha).noting _
  · next slot ha => exact h.awaited hp ha _

/-! ## Ending a handshake -/

theorem run_finish (hp : t.router.pool? place = some p) {slot : Nat}
    (hslot : slot ∈ (t.usage place).opening) (result : Except Fault κ) :
    (t.usage place).run [.finish slot result] =
      (t.usage place).finish slot (p.finishGet slot result t.now) := by
  rw [← Router.poolAt_of_some hp]
  exact if_pos hslot

theorem Sound.opened (h : t.Sound) (hp : t.router.pool? place = some p) {slot : Nat}
    (hslot : slot ∈ (t.usage place).opening) {result : Except Fault κ} {l : Leased κ}
    (ha : (p.finishGet slot result t.now).answer = .ok l) :
    At place [.finish slot result] t
      ((((t.ended place slot).take (t.router.finishGet place slot result t.now)).lend
        place l).record place l) := by
  refine h.one hp (Router.router_onPool hp _ _) ?_
    fun other hne => ?_
  · rw [run_finish hp hslot, Usage.finish, ha, usage_record, usage_lend, usage_finished hp]
    rfl
  · rw [usage_record_of_ne hne, usage_lend_of_ne hne, usage_finished_of_ne hne hp]

theorem Sound.failed (h : t.Sound) (hp : t.router.pool? place = some p) {slot : Nat}
    (hslot : slot ∈ (t.usage place).opening) {result : Except Fault κ} {f : Fault}
    (ha : (p.finishGet slot result t.now).answer = .error f) :
    At place [.finish slot result] t
      ((t.ended place slot).take (t.router.finishGet place slot result t.now)) := by
  refine h.one hp (Router.router_onPool hp _ _) ?_
    fun other hne => usage_finished_of_ne hne hp slot result
  rw [run_finish hp hslot, Usage.finish, ha, usage_finished hp]
  rfl

theorem Sound.finishGet (h : t.Sound) (hp : t.router.pool? place = some p) {slot : Nat}
    (hslot : slot ∈ (t.usage place).opening) (call : Call) (result : Except Fault κ) :
    At place [.finish slot result] t (t.finishGet call place slot result) := by
  have hf : (t.router.finishGet place slot result t.now).answer =
      (p.finishGet slot result t.now).answer := Router.answer_onPool hp _ _
  rw [Traffic.finishGet, hf]
  split
  · next l ha => exact (h.opened hp hslot ha).noting _
  · next f ha => exact h.failed hp hslot ha

/-! ## Leases -/

theorem Sound.lease {i : Nat} {l : Lease κ} (h : t.Sound) (hl : t.leases[i]? = some (place, l)) :
    ∃ p, t.router.pool? place = some p := by
  refine h.made (.inl (List.ne_nil_of_mem (a := l) ?_))
  exact mem_pick.2 (List.mem_of_getElem? hl)

theorem Sound.drop {i : Nat} {l : Lease κ} (h : t.Sound) (hl : t.leases[i]? = some (place, l)) :
    ∃ j : Nat, (t.usage place).leases[j]? = some l ∧
      At place [.drop j] t ((t.giveUp i place l).take (t.router.release place l t.now)) := by
  obtain ⟨p, hp⟩ := h.lease hl
  obtain ⟨j, hj, hu⟩ := usage_giveUp hl
  refine ⟨j, hj, h.one hp (Router.router_onPool hp _ _) ?_ fun other hne => ?_⟩
  · have hstep : (t.usage place).run [.drop j] =
        ((t.usage place).giveUp j).take (l.release t.now p) := by
      rw [← Router.poolAt_of_some hp]
      simp only [Usage.run, List.foldl_cons, List.foldl_nil, Usage.step, hj]
      rfl
    rw [hstep, ← hu]
    exact usage_take (t := t.giveUp i place l) hp _ _
  · exact (usage_take_of_ne (t := t.giveUp i place l) hne hp _ _).trans (usage_giveUp_of_ne hl hne)

theorem Sound.put {i : Nat} {l : Lease κ} (h : t.Sound) (hl : t.leases[i]? = some (place, l))
    (c : Command) : ∃ j : Nat, (t.usage place).leases[j]? = some l ∧
      At place [.execute j c] t (t.put i place (l.execute c).2) := by
  obtain ⟨j, hj, hu⟩ := usage_put hl (l.execute c).2
  obtain ⟨p, hp⟩ := h.lease hl
  refine ⟨j, hj, h.within h.keyed rfl (fun _ => rfl) hp (hu.trans ?_)
    fun _ hne => usage_put_of_ne hl hne _⟩
  simp only [Usage.run, List.foldl_cons, List.foldl_nil, Usage.step, hj]

theorem Sound.discard {i : Nat} {l : Lease κ} (h : t.Sound) (hl : t.leases[i]? = some (place, l)) :
    ∃ j : Nat, (t.usage place).leases[j]? = some l ∧
      At place [.discard j] t { t with leases := t.leases.set i (place, l.discard) } := by
  obtain ⟨j, hj, hu⟩ := usage_discard hl
  obtain ⟨p, hp⟩ := h.lease hl
  refine ⟨j, hj, h.within h.keyed rfl (fun _ => rfl) hp (hu.trans ?_)
    fun _ hne => usage_discard_of_ne hl hne⟩
  simp only [Usage.run, List.foldl_cons, List.foldl_nil, Usage.step, hj]

/-! ## Tables -/

theorem Sound.claimed {i : Nat} {key : PoolKey} {r : Router κ} {s : RoutingTable κ} (h : t.Sound)
    (hc : Router.Claimed i key t.router place r) (hs : t.router.plan? i = some s)
    (hkey : s.Has key) :
    Along t { t with router := r } := by
  have hu : ∀ other, ({ t with router := r } : Traffic κ).usage other = t.usage other := by
    intro other
    simp only [usage, hc.poolAt_eq]
  refine ⟨⟨hc.keyed h.keyed, fun other hnone => ?_, fun other s hplan => ?_, fun other hsome => ?_⟩,
    hc.plans, fun other => ⟨[], hu other⟩⟩
  · have hne : other ≠ place := by
      rintro rfl
      exact absurd (hc.made.symm.trans hnone) (Option.some_ne_none _)
    rw [hu other]
    exact h.unmade other ((hc.others other hne).symm.trans hnone)
  · rw [hu other]
    exact h.history other s (hc.plans ▸ hplan)
  · have hplan : r.plan? = t.router.plan? := hc.plans
    change ∃ s, r.plan? other.table = some s ∧ s.Has other.key
    rw [hplan]
    by_cases hne : other = place
    · rw [hne, hc.place_eq]
      exact ⟨s, hs, hkey⟩
    · exact h.served other (hc.others other hne ▸ hsome)

def takenDown (i : Nat) (t : Traffic κ) : Traffic κ :=
  t.take ⟨(), (t.router.closeTable i).1, (t.router.closeTable i).2⟩

theorem Sound.usage_takenDown (h : t.Sound) {i : Nat} (hi : i = place.table)
    (hp : t.router.pool? place = some p) :
    (t.takenDown i).usage place = (t.usage place).take p.close := by
  subst hi
  have hat : (t.router.closeTable place.table).2.poolAt place = p.close.pool := by
    refine Router.poolAt_of_some ?_
    rw [Router.pool?_closeTable, if_pos rfl, hp]
    rfl
  simp [usage, takenDown, take, hat, h.keyed.pick_closeTable, hp, Usage.take]

theorem Sound.usage_takenDown_of_not (h : t.Sound) {i : Nat}
    (hplace : i = place.table → t.router.pool? place = none) :
    (t.takenDown i).usage place = t.usage place := by
  have hat : (t.router.closeTable i).2.poolAt place = t.router.poolAt place := by
    refine Router.poolAt_congr ?_ Router.plan?_closeTable
    rw [Router.pool?_closeTable]
    split
    · next hi => rw [hplace hi]; rfl
    · rfl
  have htorn : pick place (t.router.closeTable i).1 = [] := by
    rw [h.keyed.pick_closeTable]
    split
    · next hi => rw [hplace hi]; rfl
    · rfl
  simp [usage, takenDown, take, hat, htorn]

theorem Sound.takenDown (h : t.Sound) (i : Nat) : Along t (t.takenDown i) := by
  refine h.along h.keyed.closeTable Router.plan?_closeTable (fun place => ?_)
    (fun place hp => ⟨t.now, h.usage_takenDown_of_not fun _ => hp⟩) fun place => ?_
  · change ((t.router.closeTable i).2.pool? place).isSome = _
    rw [Router.pool?_closeTable]
    split
    · exact Option.isSome_map
    · rfl
  · cases hp : t.router.pool? place with
    | none => exact ⟨[], h.usage_takenDown_of_not fun _ => hp⟩
    | some p =>
      by_cases hi : i = place.table
      · refine ⟨[.close], (h.usage_takenDown hi hp).trans ?_⟩
        rw [← Router.poolAt_of_some hp]
        rfl
      · exact ⟨[], h.usage_takenDown_of_not fun hi' => absurd hi' hi⟩

theorem Sound.install (h : t.Sound) (i : Nat) : Along t (t.take (t.router.install i)) := by
  rw [Router.install]
  split
  · exact h.takenDown i
  · have hu : ∀ place, (t.take ⟨(.ok () : Except Fault Unit), [],
        { t.router with installed := some i }⟩).usage place = t.usage place := by
      intro place
      simp only [usage, take, List.append_nil]
      rfl
    exact h.along h.keyed rfl (fun _ => rfl) (fun place _ => ⟨t.now, hu place⟩)
      fun place => ⟨[], hu place⟩

theorem Sound.flush (h : t.Sound) : Along t (t.step .flush) := by
  rw [Traffic.step, Router.flush]
  split
  · next i hi =>
    have h₁ : Along t { t with router := { t.router with installed := none } } :=
      h.along h.keyed rfl (fun _ => rfl) (fun _ _ => ⟨t.now, rfl⟩) fun _ => ⟨[], rfl⟩
    exact h₁.trans (h₁.sound.takenDown i)
  · have hu : t.take (⟨(), [], t.router⟩ : Routed κ Unit) = t := by simp [take]
    rw [hu]
    exact .refl h

theorem Sound.drafted (h : t.Sound) {c : RouterConfig} {i : Nat} {r : Router κ}
    (hd : Router.Drafted c t.router i r) : Onward t { t with router := r } := by
  have hunmade : ∀ place, t.router.pool? place = none →
      ({ t with router := r } : Traffic κ).usage place =
        { pool := r.poolAt place, now := t.now } := by
    intro place hp
    have hu : ({ t with router := r } : Traffic κ).usage place =
        { t.usage place with pool := r.poolAt place } := rfl
    rw [hu, h.unmade place hp]
    rfl
  have hsame : ∀ place : Place, place.table ≠ i →
      ({ t with router := r } : Traffic κ).usage place = t.usage place := by
    intro place hi
    have hat : r.poolAt place = t.router.poolAt place := by
      simp only [Router.poolAt, Router.blank, hd.pools, hd.others _ hi]
    simp only [usage, hat]
  refine ⟨⟨hd.keyed h.keyed, fun place hp => ?_, fun place s hs => ?_, fun place hp => ?_⟩,
    fun _ _ => hd.plans, fun place hplace => ⟨[], hsame place (hd.ne_of_isSome hplace)⟩⟩
  · rw [hunmade place (hd.pools ▸ hp)]
  · by_cases hi : place.table = i
    · have hp : t.router.pool? place = none := Router.pool?_eq_none_of_plan? (hi ▸ hd.absent)
      refine ⟨[.setClock t.now], ?_⟩
      rw [hunmade place hp, hd.poolAt_eq hi (hi ▸ hs)]
      rfl
    · rw [hsame place hi]
      exact h.history place s ((hd.others _ hi).symm.trans hs)
  · obtain ⟨s, hs, hkey⟩ := h.served place (hd.pools ▸ hp)
    exact ⟨s, hd.plans hs, hkey⟩

/-! ## Configuring -/

/-- What an attempt to configure does: nothing, or it draws a table up and goes on with it. -/
inductive Configured (c : RouterConfig) (t : Traffic κ) : Traffic κ → Prop
  | refused : Configured c t t
  | drawn {i r r' tornDown} (hd : Router.Drafted c t.router i r)
      (ho : Along { t with router := r } { t with router := r', tornDown }) :
    Configured c t { t with router := r', tornDown, configs := t.configs ++ [c] }
  | warming {i r r' tornDown place slot} (hd : Router.Drafted c t.router i r) (hi : place.table = i)
      (ho : Along { t with router := r } { t with
        router := r', tornDown, opening := ⟨place, slot, r'.target? place, none⟩ :: t.opening }) :
    Configured c t { t with
      router := r', tornDown, opening := ⟨place, slot, r'.target? place, none⟩ :: t.opening
      configs := t.configs ++ [c] }

theorem configure_of_draft {c : RouterConfig} {f : Fault} (hd : t.router.draft c = .error f) :
    t.configure c = t := by
  simp [configure, Traffic.drawn, Router.beginConfigure, hd, take]

theorem Sound.configured (h : t.Sound) (c : RouterConfig) : Configured c t (t.configure c) := by
  cases hd : t.router.draft c with
  | error f =>
    rw [configure_of_draft hd]
    exact .refused
  | ok drawn =>
    obtain ⟨i, r⟩ := drawn
    have hdraft := Router.drafted hd
    have h₁ := (h.drafted hdraft).sound
    cases hw : c.warmUp with
    | false =>
      have hc : t.configure c = { ({ t with router := r } : Traffic κ).take (r.install i) with
          configs := t.configs ++ [c] } := by
        simp only [configure, Traffic.drawn, Router.beginConfigure, hd, hw, Router.installNow]
        cases (r.install i).answer <;> rfl
      rw [hc]
      exact .drawn hdraft (h₁.install i)
    | true =>
      have hbegin : t.router.beginConfigure c t.now = r.beginWarmUp i t.now := by
        simp only [Router.beginConfigure, hd, hw]
        rfl
      obtain ⟨s, -, hs⟩ := hdraft.described
      have hclaimed := fun {place r₂} (hc : Router.Claimed i _ r place r₂) =>
        h₁.claimed hc hs (RoutingTable.has_master s)
      have hwarm := hdraft.beginWarmUp t.now
      rw [configure, Traffic.drawn, hbegin, hd]
      generalize r.beginWarmUp i t.now = begun at hwarm
      cases hwarm with
      | unclaimed => exact .drawn hdraft (by simpa [take] using Along.refl h₁)
      | refused hc ha =>
        exact .drawn hdraft ((hclaimed hc).trans ((hclaimed hc).sound.refused hc.made ha).toAlong)
      | warming hc ha =>
        exact .warming hdraft (congrArg Place.table hc.place_eq)
          ((hclaimed hc).trans ((hclaimed hc).sound.awaited hc.made ha none).toAlong)

theorem Sound.configure (h : t.Sound) (c : RouterConfig) : Onward t (t.configure c) := by
  have hc := h.configured c
  generalize t.configure c = t' at hc
  cases hc with
  | refused => exact (Along.refl h).onward
  | drawn hd ho => exact (h.drafted hd).trans (ho.noting _ _).onward
  | warming hd hi ho => exact (h.drafted hd).trans (ho.noting _ _).onward

theorem finishWarmUp_ok {slot : Nat} {result : Except Fault κ} {l : Leased κ}
    (ha : (t.router.finishGet place slot result t.now).answer = .ok l) :
    let t₁ := (((t.ended place slot).take (t.router.finishGet place slot result t.now)).lend
      place l).record place l
    let t₂ := (t₁.giveUp 0 place (.ofLeased l)).take (t₁.router.release place (.ofLeased l) t₁.now)
    t.finishWarmUp place slot result = t₂.take (t₂.router.install place.table) := by
  intro t₁ t₂
  simp only [finishWarmUp, Router.finishConfigure, ha]
  simp [t₁, t₂, take, record, lend, giveUp, ended, Lease.ofLeased]

theorem Sound.finishWarmUp (h : t.Sound) (hp : t.router.pool? place = some p) {slot : Nat}
    (hslot : slot ∈ (t.usage place).opening) (result : Except Fault κ) :
    Along t (t.finishWarmUp place slot result) := by
  have hf : (t.router.finishGet place slot result t.now).answer =
      (p.finishGet slot result t.now).answer := Router.answer_onPool hp _ _
  cases ha : (p.finishGet slot result t.now).answer with
  | error f =>
    have hw : t.finishWarmUp place slot result =
        (t.ended place slot).take (t.router.finishGet place slot result t.now) := by
      simp only [Traffic.finishWarmUp, Router.finishConfigure, hf, ha]
      rfl
    rw [hw]
    exact (h.failed hp hslot ha).toAlong
  | ok l =>
    rw [finishWarmUp_ok (hf.trans ha)]
    have h₁ := h.opened hp hslot ha
    obtain ⟨_, _, h₂⟩ := h₁.sound.drop (i := 0) (l := .ofLeased l) rfl
    exact h₁.toAlong.trans (h₂.toAlong.trans (h₂.sound.install _))

/-! ## Steps and runs -/

theorem Sound.get (h : t.Sound) (partition : Nat) (role : Role) (replica : Option Nat)
    (draw : Nat) : Along t (t.step (.get partition role replica draw)) := by
  rw [Traffic.step]
  split
  · next place r hr =>
    obtain ⟨hlt, i, s, -, hs, hclaimed⟩ := Router.route_eq_ok hr
    have h₁ := h.claimed hclaimed hs (RoutingTable.has_resolve hlt role replica draw)
    exact h₁.trans (h₁.sound.begin hclaimed.made _).toAlong
  · exact .refl h

theorem Sound.finish (h : t.Sound) (place : Place) (slot : Nat)
    (result : Handshake → Except Fault κ) : Along t (t.step (.finish place slot result)) := by
  rw [Traffic.step]
  split
  · next hs hfind =>
    have hmem := mem_opening (List.mem_of_find?_eq_some hfind)
    obtain ⟨rfl, rfl⟩ := Handshake.eq_of_isAt (List.find?_some hfind)
    obtain ⟨p, hp⟩ := h.made (.inr (List.ne_nil_of_mem hmem))
    split
    · exact (h.finishGet hp hmem _ _).toAlong
    · exact h.finishWarmUp hp hmem _
  · exact .refl h

theorem Sound.setClock (h : t.Sound) (now : Nat) : Along t (t.step (.setClock now)) :=
  h.along h.keyed rfl (fun _ => rfl) (fun _ _ => ⟨now, rfl⟩) fun _ => ⟨[.setClock now], rfl⟩

theorem Sound.step_along (h : t.Sound) {a : Action κ} (ha : ∀ c, a ≠ .configure c) :
    Along t (t.step a) := by
  cases a with
  | configure c => exact absurd rfl (ha c)
  | get partition role replica draw => exact h.get partition role replica draw
  | finish place slot result => exact h.finish place slot result
  | execute i c =>
    rw [Traffic.step]
    split
    · next place l hl =>
      obtain ⟨_, _, hat⟩ := h.put hl c
      exact hat.toAlong
    · exact .refl h
  | discard i =>
    rw [Traffic.step]
    split
    · next place l hl =>
      obtain ⟨_, _, hat⟩ := h.discard hl
      exact hat.toAlong
    · exact .refl h
  | drop i =>
    rw [Traffic.step]
    split
    · next place l hl =>
      obtain ⟨_, _, hat⟩ := h.drop hl
      exact hat.toAlong
    · exact .refl h
  | flush => exact h.flush
  | setClock now => exact h.setClock now

theorem Sound.step (h : t.Sound) (a : Action κ) : Onward t (t.step a) := by
  by_cases ha : ∃ c, a = .configure c
  · obtain ⟨c, rfl⟩ := ha
    exact h.configure c
  · exact (h.step_along fun c hc => ha ⟨c, hc⟩).onward

theorem Sound.run (h : t.Sound) (as : List (Action κ)) : Onward t (t.run as) := by
  induction as generalizing t with
  | nil => exact (Along.refl h).onward
  | cons a as ih =>
    have ha := h.step a
    exact ha.trans (ih ha.sound)

/-- After any run of a router each of its places is in the state that a history of its pool leads
to. -/
theorem run_history (replicaLimit : Nat) (as : List (Action κ)) (place : Place) (s : RoutingTable κ)
    (hs : ((start replicaLimit).run as).router.plan? place.table = some s) :
    ∃ bs, ((start replicaLimit).run as).usage place =
      (Usage.start (s.poolName place.key) s.options none).run bs :=
  ((sound_start replicaLimit).run as).sound.history place s hs

end SessionPool.Traffic
