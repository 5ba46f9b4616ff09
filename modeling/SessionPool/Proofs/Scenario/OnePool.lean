import SessionPool.Proofs.Pool.Ownership
import SessionPool.Proofs.Scenario.Named
import SessionPool.Scenario.OnePool

/-!
# Scenarios are histories

The interpreter of scenarios runs nested steps inside handshakes and keeps leases under names. As
long as anything refers to the pool, what it does to the pool is what some history does, with the
same leases, clock and handshakes in progress; so the laws of histories hold in every scenario.
-/

namespace SessionPool.Scenario.OnePool

open Usage (Action)

/-- A usage in the state of a world; the world holds some leases that are under no name. -/
structure Mirrors (w : World) (loose : List (Lease Stub)) (u : Usage Stub) : Prop where
  pool : u.pool = w.pool
  now : u.now = w.stage.now
  underWay : u.opening.length = w.underWay
  leases : u.leases.Perm (loose ++ w.leases.values)
  ordered : w.leases.Ordered

structure Gone (w : World) : Prop where
  present : w.present = false
  underWay : w.underWay = 0
  leases : w.leases = []

/-- From `u` on some actions lead to the state of the world, and begin and end the same handshakes.
-/
def Reaches (u : Usage Stub) (w : World) (loose : List (Lease Stub)) : Prop :=
  ∃ as, Mirrors w loose (u.run as) ∧ (u.run as).opening = u.opening

variable {w : World} {u v : Usage Stub} {loose : List (Lease Stub)}

theorem Reaches.refl (h : Mirrors w loose u) : Reaches u w loose := ⟨[], h, rfl⟩

theorem Reaches.after {w' : World} {loose' : List (Lease Stub)} {as : List (Action Stub)}
    (ho : (u.run as).opening = u.opening) (h : Reaches (u.run as) w' loose') :
    Reaches u w' loose' := by
  obtain ⟨bs, hb, hbo⟩ := h
  refine ⟨as ++ bs, ?_⟩
  rw [Usage.run_append]
  exact ⟨hb, hbo.trans ho⟩

theorem Reaches.single {w' : World} {loose' : List (Lease Stub)} (a : Action Stub)
    (h : Mirrors w' loose' (u.step a)) (ho : (u.step a).opening = u.opening) :
    Reaches u w' loose' :=
  ⟨[a], h, ho⟩

/-! ## Worlds -/

theorem Mirrors.note (h : Mirrors w loose u) (e : Event Stub) : Mirrors (w.note e) loose u :=
  ⟨h.pool, h.now, h.underWay, h.leases, h.ordered⟩

def Continues (u : Usage Stub) (w : World) : Prop := Reaches u w [] ∨ Gone w ∧ u.opening = []

theorem Continues.after {w' : World} {as : List (Action Stub)} (ho : (u.run as).opening = u.opening)
    (h : Continues (u.run as) w') : Continues u w' := by
  rcases h with hr | ⟨hg, hempty⟩
  · exact .inl (hr.after ho)
  · exact .inr ⟨hg, ho.symm.trans hempty⟩

theorem Mirrors.settle (h : Mirrors w [] u) : Continues u w.settle := by
  rw [World.settle]
  split
  · next hend =>
    simp only [Bool.and_eq_true, Bool.not_eq_true', List.isEmpty_iff, beq_iff_eq] at hend
    refine .inr ⟨⟨hend.1.1, hend.2, hend.1.2⟩, ?_⟩
    exact List.length_eq_zero_iff.1 (h.underWay.trans hend.2)
  · exact .inl (.refl h)

theorem Mirrors.others {l : Lease Stub} (h : Mirrors w (l :: loose) u) : ∃ i : Nat,
    u.leases[i]? = some l ∧ (u.leases.eraseIdx i).Perm (loose ++ w.leases.values) := by
  obtain ⟨i, hi⟩ := List.mem_iff_getElem?.1 (h.leases.mem_iff.2 List.mem_cons_self)
  exact ⟨i, hi, (List.perm_cons l).1 ((Usage.perm_lease hi).symm.trans h.leases)⟩

theorem Mirrors.giveBack {l : Lease Stub} (h : Mirrors w (l :: loose) u) :
    Reaches u (w.giveBack l) loose := by
  obtain ⟨i, hi, hothers⟩ := h.others
  refine .single (.drop i) ?_ ?_
  · simp only [Usage.step, hi]
    refine ⟨?_, h.now, h.underWay, hothers, h.ordered⟩
    simp only [Usage.take, h.pool, h.now]
    rfl
  · simp only [Usage.step, hi]
    rfl

theorem Mirrors.release {name : String} {l : Lease Stub} (h : Mirrors w [] u)
    (hget : w.leases.get? name = some l) :
    Mirrors { w with leases := w.leases.erase name } [l] u :=
  ⟨h.pool, h.now, h.underWay, h.leases.trans (Named.perm_of_get? h.ordered hget),
    Named.ordered_erase h.ordered name⟩

theorem Mirrors.drop (h : Mirrors w [] u) (name : String) : Continues u (w.drop name) := by
  rw [World.drop]
  split
  · next l hget =>
    obtain ⟨as, has, ho⟩ := (h.release hget).giveBack
    exact .after ho has.settle
  · exact .inl (.refl h)

theorem Mirrors.store {l : Lease Stub} (h : Mirrors w [l] u) (name : String) :
    Reaches u (w.store name l) [] := by
  have hinsert := Named.insert_perm h.ordered name l
  have hordered := Named.ordered_insert h.ordered name l
  rw [World.store]
  split
  · next before hget =>
    have hbefore := Named.perm_of_get? h.ordered hget
    have hm : Mirrors { w with leases := w.leases.insert name l } [before] u := by
      refine ⟨h.pool, h.now, h.underWay, ?_, hordered⟩
      refine h.leases.trans (((hbefore.cons l).trans (.swap before l _)).trans ?_)
      exact (hinsert.symm.cons before)
    exact hm.giveBack
  · next hget =>
    rw [Named.erase_of_get?_eq_none hget] at hinsert
    exact .refl ⟨h.pool, h.now, h.underWay, h.leases.trans hinsert.symm, hordered⟩

/-! ## Handshakes -/

def Follows (run : List Step → World → World) : Prop :=
  ∀ {w : World} {u : Usage Stub} (steps : List Step), Mirrors w [] u → 0 < w.underWay →
    Reaches u (run steps w) []

def unnamed : Except Fault (Lease Stub) → List (Lease Stub)
  | .ok l => [l]
  | .error _ => []

theorem Mirrors.take {α : Type} (h : Mirrors w loose u) (done : Outcome Stub α) :
    Mirrors (w.take done).2 loose (u.take done) :=
  ⟨rfl, h.now, h.underWay, h.leases, h.ordered⟩

theorem Mirrors.tick (h : Mirrors w loose u) (stage : Stage Step Stub) :
    Mirrors { w with stage } loose (u.step (.setClock stage.now)) :=
  ⟨h.pool, rfl, h.underWay, h.leases, h.ordered⟩

theorem Mirrors.finishGet {slot : Nat} {opening : List Nat} (h : Mirrors w [] u)
    (hu : u.opening = slot :: opening) (result : Except Fault Stub) :
    let done := w.pool.finishGet slot result w.stage.now
    Mirrors { (w.take done).2 with underWay := w.underWay - 1 }
      (unnamed (done.answer.map .ofLeased))
      (u.step (.finish slot result)) ∧ (u.step (.finish slot result)).opening = opening := by
  intro done
  have hslot : slot ∈ u.opening := hu ▸ List.mem_cons_self
  have hstep : u.step (.finish slot result) = u.finish slot done := by
    rw [Usage.step, if_pos hslot, h.pool, h.now]
  have herase : u.opening.erase slot = opening := by rw [hu, List.erase_cons_head]
  have hlen : (u.opening.erase slot).length = w.underWay - 1 := by
    rw [List.length_erase_of_mem hslot, h.underWay]
  rw [hstep, Usage.finish]
  generalize done = finished
  obtain ⟨answer, tornDown, pool⟩ := finished
  cases answer with
  | ok l => exact ⟨⟨rfl, h.now, hlen, h.leases.cons _, h.ordered⟩, herase⟩
  | error f => exact ⟨⟨rfl, h.now, hlen, h.leases, h.ordered⟩, herase⟩

theorem Mirrors.acquire {run : List Step → World → World} (hrun : Follows run) (h : Mirrors w [] v)
    (begun : Outcome Stub (Attempt Stub)) :
    ∃ as, Mirrors (w.acquire run begun).2 (unnamed (w.acquire run begun).1)
      ((v.begin begun).run as) ∧ ((v.begin begun).run as).opening = v.opening := by
  obtain ⟨attempt, tornDown, pool⟩ := begun
  cases attempt with
  | refused f => exact ⟨[], h.take _, rfl⟩
  | reused l =>
    refine ⟨[], ⟨rfl, h.now, h.underWay, ?_, h.ordered⟩, rfl⟩
    exact h.leases.cons _
  | opening slot =>
    set begun : Outcome Stub (Attempt Stub) := ⟨.opening slot, tornDown, pool⟩
    have h₁ := h.take begun
    set w₁ := (w.take begun).2
    set plan := w₁.stage.nextPlan.1
    have h₂ : Mirrors { w₁ with stage := w₁.stage.nextPlan.2, underWay := w₁.underWay + 1 } []
        (v.begin begun) :=
      ⟨h₁.pool, h₁.now.trans (Stage.now_nextPlan _).symm, congrArg (· + 1) h₁.underWay,
        h₁.leases, h₁.ordered⟩
    obtain ⟨as, h₃, ho⟩ := hrun plan.nested h₂ (Nat.succ_pos _)
    set w₂ := run plan.nested { w₁ with stage := w₁.stage.nextPlan.2, underWay := w₁.underWay + 1 }
    have h₄ := h₃.tick (w₂.stage.connect plan).2
    have h₅ := h₄.finishGet (ho : _ = slot :: v.opening) (w₂.stage.connect plan).1
    refine ⟨as ++ [.setClock (w₂.stage.connect plan).2.now,
      .finish slot (w₂.stage.connect plan).1], ?_⟩
    rw [Usage.run_append]
    exact h₅

theorem Mirrors.acquireAs {run : List Step → World → World} (hrun : Follows run)
    (h : Mirrors w [] v) (begun : Outcome Stub (Attempt Stub)) (name : String) {a : Action Stub}
    (ha : u.step a = v.begin begun) (hv : v.opening = u.opening) :
    Continues u (w.acquireAs run name begun).2 := by
  obtain ⟨as, has, ho⟩ := h.acquire hrun begun
  rw [← ha] at has ho
  have hrunning : (u.run (a :: as)).opening = u.opening := ho.trans hv
  rw [World.acquireAs]
  generalize w.acquire run begun = got at has
  obtain ⟨result, w'⟩ := got
  cases result with
  | ok l => exact .inl (.after hrunning (Mirrors.store has name))
  | error f => exact .after hrunning (Mirrors.settle has)

/-! ## Steps -/

theorem Mirrors.get {run : List Step → World → World} (hrun : Follows run) (h : Mirrors w [] u)
    (name : String) : Continues u (w.acquireAs run name (w.pool.beginGet w.stage.now)).2 := by
  refine h.acquireAs hrun _ name (a := .get) ?_ rfl
  rw [← h.pool, ← h.now]
  rfl

theorem Mirrors.reassign {run : List Step → World → World} (hrun : Follows run)
    (h : Mirrors w [] u) (name : String) :
    Continues u ({ w with leases := w.leases.erase name }.acquireAs run name
      (Lease.beginReassign (w.leases.get? name) w.stage.now w.pool)).2 := by
  cases hget : w.leases.get? name with
  | none =>
    rw [Named.erase_of_get?_eq_none hget]
    exact h.get hrun name
  | some l =>
    have hloose := h.release hget
    obtain ⟨i, hi, hothers⟩ := hloose.others
    have hgiven : Mirrors { w with leases := w.leases.erase name } [] (u.giveUp i) :=
      ⟨h.pool, h.now, h.underWay, hothers, hloose.ordered⟩
    refine hgiven.acquireAs hrun _ name (a := .reassign i) ?_ rfl
    rw [Usage.step, hi, h.pool, h.now]

theorem Mirrors.replace {name : String} {l : Lease Stub} (h : Mirrors w [] u)
    (hget : w.leases.get? name = some l) (l' : Lease Stub) :
    ∃ i : Nat, u.leases[i]? = some l ∧
      (u.leases.set i l').Perm (w.leases.insert name l').values := by
  obtain ⟨i, hi, hothers⟩ := (h.release hget).others
  refine ⟨i, hi, (Usage.perm_set_lease hi l').trans ((hothers.cons l').trans ?_)⟩
  exact (Named.insert_perm h.ordered name l').symm

theorem Mirrors.execute {name : String} {l : Lease Stub} (h : Mirrors w [] u)
    (hget : w.leases.get? name = some l) (c : Command) :
    Reaches u { w with leases := w.leases.insert name (l.execute c).2 } [] := by
  obtain ⟨i, hi, hperm⟩ := h.replace hget (l.execute c).2
  have hstep : u.step (.execute i c) = u.put i (l.execute c).2 := by simp only [Usage.step, hi]
  refine .single (.execute i c) ?_ (by rw [hstep]; rfl)
  rw [hstep]
  exact ⟨h.pool, h.now, h.underWay, hperm, Named.ordered_insert h.ordered name _⟩

theorem Mirrors.discard {name : String} {l : Lease Stub} (h : Mirrors w [] u)
    (hget : w.leases.get? name = some l) :
    Reaches u { w with leases := w.leases.insert name l.discard } [] := by
  obtain ⟨i, hi, hperm⟩ := h.replace hget l.discard
  have hstep : u.step (.discard i) = { u with leases := u.leases.set i l.discard } := by
    simp only [Usage.step, hi]
  refine .single (.discard i) ?_ (by rw [hstep])
  rw [hstep]
  exact ⟨h.pool, h.now, h.underWay, hperm, Named.ordered_insert h.ordered name _⟩

theorem Mirrors.step {run : List Step → World → World} (hrun : Follows run) (h : Mirrors w [] u)
    (s : Step) : Continues u (w.step run s).2 := by
  have hstay : Continues u w := .inl (.refl h)
  cases s with
  | get name =>
    rw [World.step]
    split
    · exact h.get hrun name
    · exact hstay
  | reassign name =>
    rw [World.step]
    split
    · exact h.reassign hrun name
    · exact hstay
  | execute name c =>
    rw [World.step, World.withLease]
    split
    · next l hget => exact .inl (h.execute hget c)
    · exact hstay
  | discard name =>
    rw [World.step, World.withLease]
    split
    · next l hget => exact .inl (h.discard hget)
    · exact hstay
  | info name =>
    rw [World.step, World.withLease]
    split <;> exact hstay
  | release name =>
    rw [World.step, World.withLease]
    split
    · exact h.drop name
    · exact hstay
  | close =>
    rw [World.step]
    split
    · have hclose : u.step .close = u.take w.pool.close := by rw [Usage.step, h.pool]
      refine .inl (.single .close ?_ (by rw [hclose]; rfl))
      rw [hclose]
      exact h.take w.pool.close
    · exact hstay
  | dropPool =>
    have habsent : Mirrors { w with present := false } [] u :=
      ⟨h.pool, h.now, h.underWay, h.leases, h.ordered⟩
    exact habsent.settle
  | advance ns => exact .inl (.single _ (h.tick (w.stage.advance ns)) rfl)
  | stats => exact hstay

theorem follows_runNested (depth : Nat) : Follows (World.runNested depth) := by
  -- by recursion on the depth: inside a handshake every step goes on with the history
  induction depth with
  | zero => exact fun _ h _ => .refl h
  | succ depth ih =>
    intro w u steps h hpos
    rw [World.runNested]
    induction steps generalizing w u with
    | nil => exact .refl h
    | cons s steps ihs =>
      rcases h.step ih s with ⟨as, has, ho⟩ | ⟨-, hempty⟩
      · rw [List.foldl_cons]
        refine .after ho (ihs (has.note _) ?_)
        have hlen := has.underWay
        rw [ho, h.underWay] at hlen
        exact hlen ▸ hpos
      · rw [← h.underWay, hempty] at hpos
        exact absurd hpos (Nat.lt_irrefl 0)

theorem Gone.step (h : Gone w) (run : List Step → World → World) (s : Step) :
    Gone (w.step run s).2 := by
  have hnone : ∀ name, w.leases.get? name = none := fun name => by rw [h.leases]; rfl
  cases s with
  | get name => simpa [World.step, h.present] using h
  | reassign name => simpa [World.step, h.present] using h
  | execute name c => simpa [World.step, World.withLease, hnone] using h
  | discard name => simpa [World.step, World.withLease, hnone] using h
  | info name => simpa [World.step, World.withLease, hnone] using h
  | release name => simpa [World.step, World.withLease, hnone] using h
  | close => simpa [World.step, h.present] using h
  | dropPool =>
    rw [World.step, World.settle]
    split <;> exact ⟨rfl, h.underWay, h.leases⟩
  | advance ns => exact ⟨h.present, h.underWay, h.leases⟩
  | stats => exact h

theorem run_continues (acc : List Record) (steps : List Step)
    (h : Gone w ∨ ∃ as, Mirrors w [] (u.run as)) :
    Gone (run acc w steps).2 ∨ ∃ as, Mirrors (run acc w steps).2 [] (u.run as) := by
  induction steps generalizing acc w with
  | nil => exact h
  | cons s steps ih =>
    refine ih _ ?_
    rcases h with hg | ⟨as, hm⟩
    · have hg' := hg.step (World.runNested w.stage.plans.length) s
      exact .inl ⟨hg'.present, hg'.underWay, hg'.leases⟩
    · rcases hm.step (follows_runNested w.stage.plans.length) s with ⟨bs, hb, -⟩ | ⟨hg', -⟩
      · refine .inr ⟨as ++ bs, ?_⟩
        rw [Usage.run_append]
        exact ⟨hb.pool, hb.now, hb.underWay, hb.leases, hb.ordered⟩
      · exact .inl ⟨hg'.present, hg'.underWay, hg'.leases⟩

/-- After any scenario the pool is in the state that some history leads to, as long as anything
refers to it. -/
theorem run_mirrors (name : String) (options : PoolOptions) (plans : List (Plan Step))
    (steps : List Step) :
    let w := (run [] { pool := .new name options, stage := { plans } } steps).2
    Gone w ∨ ∃ as, Mirrors w [] ((Usage.start name options none).run as) :=
  run_continues [] steps (.inr ⟨[], Pool.fresh_none name options, rfl, rfl, .refl [], .nil⟩)

theorem run_inUse (name : String) (options : PoolOptions) (plans : List (Plan Step))
    (steps : List Step) :
    let w := (run [] { pool := .new name options, stage := { plans } } steps).2
    w.present = true → w.pool.stats.inUse = w.leases.length + w.underWay := by
  intro w hpresent
  rcases run_mirrors name options plans steps with hg | ⟨as, h⟩
  · rw [hg.present] at hpresent
    cases hpresent
  · have hin := ((Usage.owned_start name options none).run as).counters.2.2.2
    have hlen := h.leases.length_eq
    rw [List.nil_append, Named.values, List.length_map] at hlen
    rw [h.pool, h.underWay, hlen] at hin
    exact hin

end SessionPool.Scenario.OnePool
