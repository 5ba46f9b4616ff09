import SessionPool.Proofs.Router.History
import SessionPool.Proofs.Scenario.Named
import SessionPool.Scenario.Routed

/-!
# Scenarios of a router are runs

The interpreter of scenarios runs nested steps inside handshakes and keeps leases under names. What
it does to the router is what some run does, with the same leases and the same clock, and every
handshake ends before the step that began it; so the laws of runs hold in every scenario.
-/

namespace SessionPool.Scenario.Routed

open Traffic (Action)

variable {κ : Type}

def Held.entry (h : Held κ) : Place × Lease κ := (h.place, h.lease)

/-- A traffic in the state of a world; the world holds some leases that are under no name. -/
structure Mirrors (w : World κ) (loose : List (Held κ)) (t : Traffic κ) : Prop where
  router : t.router = w.router
  now : t.now = w.stage.now
  leases : t.leases.Perm ((loose ++ w.leases.values).map Held.entry)
  ordered : w.leases.Ordered

variable [Transport κ]

def Reaches (t : Traffic κ) (w : World κ) (loose : List (Held κ)) : Prop :=
  ∃ as, Mirrors w loose (t.run as) ∧ (t.run as).opening = t.opening

variable {w w' : World κ} {t : Traffic κ} {loose loose' : List (Held κ)} {h : Held κ}

theorem Reaches.refl (hm : Mirrors w loose t) : Reaches t w loose := ⟨[], hm, rfl⟩

theorem Reaches.trans (hr : Reaches t w loose)
    (hn : ∀ {t' : Traffic κ}, Mirrors w loose t' → Reaches t' w' loose') : Reaches t w' loose' := by
  obtain ⟨as, hm, ho⟩ := hr
  obtain ⟨bs, hm', ho'⟩ := hn hm
  refine ⟨as ++ bs, ?_⟩
  rw [Traffic.run_append]
  exact ⟨hm', ho'.trans ho⟩

theorem Reaches.single (a : Action κ) (hm : Mirrors w loose (t.step a))
    (ho : (t.step a).opening = t.opening) : Reaches t w loose := ⟨[a], hm, ho⟩

omit [Transport κ] in
theorem Mirrors.perm (hm : Mirrors w loose t) (hl : loose.Perm loose') : Mirrors w loose' t :=
  ⟨hm.router, hm.now, hm.leases.trans ((hl.append_right _).map _), hm.ordered⟩

omit [Transport κ] in
theorem Mirrors.take {α : Type} (hm : Mirrors w loose t) (done : Routed κ α) :
    Mirrors (w.take done).2 loose (t.take done) := ⟨rfl, hm.now, hm.leases, hm.ordered⟩

omit [Transport κ] in
theorem Mirrors.await (hm : Mirrors w loose t) (place : Place) (slot : Nat) (call : Option Call) :
    Mirrors w loose (t.await place slot call) := ⟨hm.router, hm.now, hm.leases, hm.ordered⟩

theorem Mirrors.tick (hm : Mirrors w loose t) (stage : Stage Step κ) :
    Mirrors { w with stage } loose (t.step (.setClock stage.now)) :=
  ⟨hm.router, rfl, hm.leases, hm.ordered⟩

theorem Mirrors.flush (hm : Mirrors w loose t) : Reaches t w.flush loose := by
  refine .single .flush ⟨?_, hm.now, hm.leases, hm.ordered⟩ rfl
  rw [Traffic.step, hm.router]
  rfl

theorem Mirrors.settle (hm : Mirrors w loose t) : Reaches t w.settle loose := by
  rw [World.settle]
  split
  · exact hm.flush
  · exact .refl hm

/-! ## Leases -/

omit [Transport κ] in
theorem Mirrors.others (hm : Mirrors w (h :: loose) t) : ∃ i : Nat,
    t.leases[i]? = some (h.place, h.lease) ∧
      (t.leases.eraseIdx i).Perm ((loose ++ w.leases.values).map Held.entry) := by
  obtain ⟨i, hi⟩ := List.mem_iff_getElem?.1 (hm.leases.mem_iff.2 List.mem_cons_self)
  have hall := (Usage.perm_lease hi).symm.trans hm.leases
  exact ⟨i, hi, (List.perm_cons (h.place, h.lease)).1 hall⟩

theorem Mirrors.giveBack (hm : Mirrors w (h :: loose) t) : Reaches t (w.giveBack h) loose := by
  obtain ⟨i, hi, hothers⟩ := hm.others
  have hstep : t.step (.drop i) =
      (t.giveUp i h.place h.lease).take (t.router.release h.place h.lease t.now) := by
    simp only [Traffic.step, hi]
  refine .single (.drop i) ?_ (by rw [hstep]; rfl)
  rw [hstep, hm.router, hm.now]
  exact ⟨rfl, hm.now, hothers, hm.ordered⟩

omit [Transport κ] in
theorem Mirrors.release {name : String} (hm : Mirrors w loose t)
    (hget : w.leases.get? name = some h) :
    Mirrors { w with leases := w.leases.erase name } (h :: loose) t := by
  refine ⟨hm.router, hm.now, hm.leases.trans ?_, Named.ordered_erase hm.ordered name⟩
  refine List.Perm.map _ ((Named.perm_of_get? hm.ordered hget).append_left loose |>.trans ?_)
  exact List.perm_middle

theorem Mirrors.drop (hm : Mirrors w loose t) (name : String) : Reaches t (w.drop name) loose := by
  rw [World.drop]
  split
  · next h hget => exact (hm.release hget).giveBack
  · exact .refl hm

theorem Mirrors.store (hm : Mirrors w (h :: loose) t) (name : String) :
    Reaches t (w.store name h) loose := by
  have hinsert := Named.insert_perm hm.ordered name h
  have hordered := Named.ordered_insert hm.ordered name h
  rw [World.store]
  split
  · next before hget =>
    have hbefore := Named.perm_of_get? hm.ordered hget
    have hold := ((hbefore.append_left loose).trans List.perm_middle).cons h
    have hnew := ((hinsert.append_left loose).trans List.perm_middle).cons before
    have hm' : Mirrors { w with leases := w.leases.insert name h } (before :: loose) t := by
      refine ⟨hm.router, hm.now, hm.leases.trans (List.Perm.map _ ?_), hordered⟩
      exact hold.trans ((List.Perm.swap _ _ _).trans hnew.symm)
    exact hm'.giveBack
  · next hget =>
    rw [Named.erase_of_get?_eq_none hget] at hinsert
    refine .refl ⟨hm.router, hm.now, hm.leases.trans (List.Perm.map _ ?_), hordered⟩
    exact List.perm_middle.symm.trans (hinsert.symm.append_left loose)

omit [Transport κ] in
theorem Mirrors.replace {name : String} (hm : Mirrors w loose t)
    (hget : w.leases.get? name = some h)
    (l : Lease κ) : ∃ i : Nat, t.leases[i]? = some (h.place, h.lease) ∧
      (t.leases.set i (h.place, l)).Perm
        ((loose ++ (w.leases.insert name { h with lease := l }).values).map Held.entry) := by
  obtain ⟨i, hi, hothers⟩ := (hm.release hget).others
  have hinsert := Named.insert_perm hm.ordered name { h with lease := l }
  have hnew := (((hinsert.append_left loose).trans List.perm_middle).map Held.entry).symm
  exact ⟨i, hi, (Usage.perm_set_lease hi _).trans ((hothers.cons _).trans hnew)⟩

theorem Mirrors.execute {name : String} (hm : Mirrors w loose t)
    (hget : w.leases.get? name = some h) (c : Command) :
    Reaches t { w with
      leases := w.leases.insert name { h with lease := (h.lease.execute c).2 } } loose := by
  obtain ⟨i, hi, hperm⟩ := hm.replace hget (h.lease.execute c).2
  have hstep : t.step (.execute i c) = t.put i h.place (h.lease.execute c).2 := by
    simp only [Traffic.step, hi]
  refine .single (.execute i c) ?_ (by rw [hstep]; rfl)
  rw [hstep]
  exact ⟨hm.router, hm.now, hperm, Named.ordered_insert hm.ordered name _⟩

theorem step_discard {i : Nat} {place : Place} {l : Lease κ} (hi : t.leases[i]? = some (place, l)) :
    t.step (.discard i) = { t with leases := t.leases.set i (place, l.discard) } := by
  simp only [Traffic.step, hi]

theorem Mirrors.discard {name : String} (hm : Mirrors w loose t)
    (hget : w.leases.get? name = some h) :
    Reaches t
      { w with leases := w.leases.insert name { h with lease := h.lease.discard } } loose := by
  obtain ⟨i, hi, hperm⟩ := hm.replace hget h.lease.discard
  refine .single (.discard i) ?_ (by rw [step_discard hi])
  rw [step_discard hi]
  exact ⟨hm.router, hm.now, hperm, Named.ordered_insert hm.ordered name _⟩

theorem Mirrors.discardLoose (hm : Mirrors w (h :: loose) t) :
    Reaches t (w.giveBack { h with lease := h.lease.discard }) loose := by
  obtain ⟨i, hi, hothers⟩ := hm.others
  have hmarked : Mirrors w ({ h with lease := h.lease.discard } :: loose)
      (t.step (.discard i)) := by
    rw [step_discard hi]
    exact ⟨hm.router, hm.now, (Usage.perm_set_lease hi _).trans (hothers.cons _), hm.ordered⟩
  exact (Reaches.single _ hmarked (by rw [step_discard hi])).trans fun hm' => hm'.giveBack

/-! ## Handshakes -/

def Follows (inner : List Step → World κ → World κ) : Prop :=
  ∀ {w : World κ} {t : Traffic κ} {loose} (steps : List Step), Mirrors w loose t →
    Reaches t (inner steps w) loose

/-- What is known of a way to open sessions: apart from the steps it runs, it leaves the router
alone. -/
def Tame (setting : Setting κ) : Prop :=
  ∀ {inner : List Step → World κ → World κ}, Follows inner → ∀ {w : World κ} {t : Traffic κ} {loose}
    (target : Target), Mirrors w loose t → Reaches t (setting.connect inner target w).2 loose

variable {setting : Setting κ} {inner : List Step → World κ → World κ}

theorem Mirrors.shakeHands (hs : Tame setting) (hi : Follows inner) (hm : Mirrors w loose t)
    (place : Place) : Reaches t (w.shakeHands setting inner place).2 loose := by
  rw [World.shakeHands]
  split
  · next target _ =>
    have hm' : Mirrors { w with underWay := w.underWay + 1 } loose t :=
      ⟨hm.router, hm.now, hm.leases, hm.ordered⟩
    obtain ⟨as, hc, ho⟩ := hs hi target hm'
    exact ⟨as, ⟨hc.router, hc.now, hc.leases, hc.ordered⟩, ho⟩
  · exact .refl hm

def unnamed : Except Fault (Held κ) → List (Held κ)
  | .ok h => [h]
  | .error _ => []

theorem Mirrors.finishGet {place : Place} {slot : Nat} {target : Option Target} {call : Call}
    {rest : List Handshake} (hm : Mirrors w loose t)
    (ho : t.opening = ⟨place, slot, target, some call⟩ :: rest) (session : Except Fault κ) :
    let done := w.router.finishGet place slot session w.stage.now
    let t' := t.step (.finish place slot fun _ => session)
    Mirrors (w.take done).2 (unnamed (done.answer.map fun l => ⟨place, .ofLeased l⟩) ++ loose) t' ∧
      t'.opening = rest := by
  intro done t'
  obtain ⟨hstep, hended⟩ := Traffic.step_finish ho session
  have ht' : t' = t.finishGet call place slot session := hstep
  rw [ht', Traffic.finishGet, hm.router, hm.now]
  split
  · next l hl =>
    have hok : done.answer = .ok l := hl
    rw [hok]
    exact ⟨⟨rfl, hm.now, hm.leases.cons _, hm.ordered⟩, hended⟩
  · next f hf =>
    have hfailed : done.answer = .error f := hf
    rw [hfailed]
    exact ⟨⟨rfl, hm.now, hm.leases, hm.ordered⟩, hended⟩

theorem Mirrors.finishWarmUp {place : Place} {slot : Nat} {target : Option Target}
    {rest : List Handshake} (hm : Mirrors w loose t)
    (ho : t.opening = ⟨place, slot, target, none⟩ :: rest) (session : Except Fault κ) :
    let t' := t.step (.finish place slot fun _ => session)
    Mirrors (w.take (w.router.finishConfigure place slot session w.stage.now)).2 loose t' ∧
      t'.opening = rest := by
  intro t'
  obtain ⟨hstep, hended⟩ := Traffic.step_finish ho session
  have ht' : t' = t.finishWarmUp place slot session := hstep
  rw [ht', Traffic.finishWarmUp, hm.router, hm.now]
  split
  · exact ⟨⟨rfl, hm.now, hm.leases, hm.ordered⟩, hended⟩
  · exact ⟨⟨rfl, hm.now, hm.leases, hm.ordered⟩, hended⟩

theorem Mirrors.acquireAt (hs : Tame setting) (hi : Follows inner) (hm : Mirrors w loose t)
    (place : Place) (call : Call) :
    ∃ as, Mirrors (w.acquireAt setting inner place).2
        (unnamed (w.acquireAt setting inner place).1 ++ loose) ((t.begin call place).run as) ∧
      ((t.begin call place).run as).opening = t.opening := by
  rw [World.acquireAt, Traffic.begin, hm.router, hm.now]
  have htaken := hm.take (w.router.beginGet place w.stage.now)
  generalize w.router.beginGet place w.stage.now = begun at htaken
  obtain ⟨attempt, tornDown, router⟩ := begun
  cases attempt with
  | refused f => exact ⟨[], htaken, rfl⟩
  | reused l => exact ⟨[], ⟨rfl, hm.now, hm.leases.cons _, hm.ordered⟩, rfl⟩
  | opening slot =>
    set w₁ := (w.take (⟨.opening slot, tornDown, router⟩ : Routed κ (Attempt κ))).2
    obtain ⟨as, hshaken, ho⟩ := (htaken.await place slot (some call)).shakeHands hs hi place
    refine ⟨as ++ [.finish place slot fun _ => (w₁.shakeHands setting inner place).1], ?_⟩
    rw [Traffic.run_append]
    exact hshaken.finishGet ho _

theorem Mirrors.acquire (hs : Tame setting) (hi : Follows inner) (hm : Mirrors w loose t)
    (q : Request) (draw : Nat) :
    Reaches t (w.acquire setting inner q draw).2
      (unnamed (w.acquire setting inner q draw).1 ++ loose) := by
  rw [World.acquire]
  split
  · next place router hr =>
    set call : Call := ⟨q.partition, q.role, q.replica, w.router.installed⟩
    have hstep : t.step (.get q.partition q.role q.replica draw) =
        ({ t with router } : Traffic κ).begin call place := by
      simp only [Traffic.step, hm.router, hr, call]
    have hm' : Mirrors { w with router } loose { t with router } :=
      ⟨rfl, hm.now, hm.leases, hm.ordered⟩
    obtain ⟨as, has, ho⟩ := hm'.acquireAt hs hi place call
    rw [← hstep] at has ho
    exact ⟨.get q.partition q.role q.replica draw :: as, has, ho⟩
  · exact .refl hm

theorem Mirrors.acquireAs (hs : Tame setting) (hi : Follows inner) (hm : Mirrors w loose t)
    (name : String) (q : Request) : Reaches t (w.acquireAs setting inner name q).2 loose := by
  have hgot := hm.acquire hs hi q 0
  rw [World.acquireAs]
  generalize w.acquire setting inner q 0 = got at hgot
  obtain ⟨result, w'⟩ := got
  cases result with
  | ok h => exact hgot.trans fun hm' => hm'.store name
  | error f => exact hgot

theorem Mirrors.configure (hs : Tame setting) (hi : Follows inner) (hm : Mirrors w loose t)
    (c : RouterConfig) : Reaches t (w.configure setting inner c).2 loose := by
  have hstep : t.step (.configure c) = t.configure c := rfl
  rw [Traffic.configure, hm.router, hm.now] at hstep
  rw [World.configure]
  generalize w.router.beginConfigure c w.stage.now = begun at hstep
  obtain ⟨answer, tornDown, router⟩ := begun
  cases answer with
  | refused f =>
    refine .single (.configure c) ?_ (by rw [hstep]; rfl)
    rw [hstep]
    exact ⟨rfl, hm.now, hm.leases, hm.ordered⟩
  | installed =>
    refine .single (.configure c) ?_ (by rw [hstep]; rfl)
    rw [hstep]
    exact ⟨rfl, hm.now, hm.leases, hm.ordered⟩
  | warming place slot =>
    set w₁ := (w.take (⟨.warming place slot, tornDown, router⟩ : Routed κ Router.Configuring)).2
    have hawait : Mirrors w₁ loose (t.step (.configure c)) := by
      rw [hstep]
      exact ⟨rfl, hm.now, hm.leases, hm.ordered⟩
    have hopening : (t.step (.configure c)).opening =
        ⟨place, slot, router.target? place, none⟩ :: t.opening := by
      rw [hstep]
      rfl
    obtain ⟨as, hshaken, ho⟩ := hawait.shakeHands hs hi place
    refine ⟨.configure c ::
      (as ++ [.finish place slot fun _ => (w₁.shakeHands setting inner place).1]), ?_⟩
    rw [← List.cons_append, Traffic.run_append]
    exact hshaken.finishWarmUp (ho.trans hopening) _

/-! ## Many sessions at a time -/

theorem Mirrors.acquireMany (hs : Tame setting) (hi : Follows inner) (hm : Mirrors w loose t)
    (q : Request) (count : Nat) :
    Reaches t (w.acquireMany setting inner q count).2
      ((w.acquireMany setting inner q count).1.flatMap unnamed ++ loose) := by
  induction count generalizing w t loose with
  | zero => exact .refl hm
  | succ count ih =>
    refine (hm.acquire hs hi q count).trans fun hm' => ?_
    obtain ⟨as, hothers, ho⟩ := ih hm'
    refine ⟨as, hothers.perm ?_, ho⟩
    rw [← List.append_assoc]
    exact List.perm_append_comm.append_right loose

theorem Mirrors.discardAll (held : List (Held κ)) (hm : Mirrors w (held ++ loose) t) :
    Reaches t (held.foldl (fun w h => w.giveBack { h with lease := h.lease.discard }) w) loose := by
  induction held generalizing w t with
  | nil => exact .refl hm
  | cons h held ih => exact hm.discardLoose.trans fun hm' => ih hm'

omit [Transport κ] in
theorem flatMap_unnamed (results : List (Except Fault (Held κ))) :
    results.flatMap unnamed = results.filterMap fun
      | .ok h => some h
      | .error _ => none := by
  induction results with
  | nil => rfl
  | cons result results ih => cases result <;> simp [unnamed, ih]

theorem Mirrors.spread (hs : Tame setting) (hi : Follows inner) (hm : Mirrors w loose t)
    (count : Nat) (q : Request) : Reaches t (w.spread setting inner count q).2 loose := by
  have hgot := hm.acquireMany hs hi q count
  rw [World.spread]
  generalize w.acquireMany setting inner q count = got at hgot
  obtain ⟨results, w'⟩ := got
  rw [flatMap_unnamed] at hgot
  obtain ⟨as, hall, ho⟩ := hgot.trans fun hm' => hm'.discardAll _
  exact ⟨as, ⟨hall.router, hall.now, hall.leases, hall.ordered⟩, ho⟩

/-! ## Steps -/

theorem Mirrors.withLease (hm : Mirrors w loose t) (name : String)
    {use : Held κ → Answer κ × World κ}
    (huse : ∀ h, w.leases.get? name = some h → Reaches t (use h).2 loose) :
    Reaches t (w.withLease name use).2 loose := by
  rw [World.withLease]
  split
  · next h hget => exact huse h hget
  · exact .refl hm

theorem Mirrors.step (hs : Tame setting) (hi : Follows inner) (hm : Mirrors w loose t) (s : Step) :
    Reaches t (w.step setting inner s).2 loose := by
  have hneed : ∀ got : Answer κ × World κ, Reaches t got.2 loose →
      Reaches t (if w.present then (got.1, got.2.settle) else (.noManager, w)).2 loose := by
    intro got hgot
    split
    · exact hgot.trans fun hm' => hm'.settle
    · exact .refl hm
  cases s with
  | configure c =>
    have hconfigured := hm.configure hs hi c
    rw [World.step]
    refine hneed _ ?_
    split
    · next w' heq =>
      rw [heq] at hconfigured
      exact hconfigured
    · next f w' heq =>
      rw [heq] at hconfigured
      exact hconfigured
  | get name q => exact hneed (w.acquireAs setting inner name q) (hm.acquireAs hs hi name q)
  | reassign name q =>
    exact hneed ((w.drop name).acquireAs setting inner name q)
      ((hm.drop name).trans fun hm' => hm'.acquireAs hs hi name q)
  | execute name c => exact hm.withLease name fun h hget => hm.execute hget c
  | discard name => exact hm.withLease name fun h hget => hm.discard hget
  | info name => exact hm.withLease name fun h hget => .refl hm
  | release name => exact hm.withLease name fun h hget => hm.drop name
  | advance ns => exact .single _ (hm.tick (w.stage.advance ns)) rfl
  | spread count q => exact hneed (w.spread setting inner count q) (hm.spread hs hi count q)
  | flush => exact hneed (.nothing, w.flush) hm.flush
  | dropRouter =>
    have hm' : Mirrors { w with present := false } loose t :=
      ⟨hm.router, hm.now, hm.leases, hm.ordered⟩
    exact hm'.settle

theorem follows_runNested (hs : Tame setting) (depth : Nat) :
    Follows (World.runNested setting depth) := by
  -- by recursion on the depth: inside a handshake every step goes on with the run
  induction depth with
  | zero => exact fun _ hm => .refl hm
  | succ depth ih =>
    intro w t loose steps hm
    rw [World.runNested]
    induction steps generalizing w t with
    | nil => exact .refl hm
    | cons s steps ihs =>
      refine (hm.step hs ih s).trans fun hm' => ?_
      rw [List.foldl_cons]
      exact ihs ⟨hm'.router, hm'.now, hm'.leases, hm'.ordered⟩

theorem run_reaches (hs : Tame setting) (acc : List (Record κ)) (steps : List Step)
    (hm : Mirrors w [] t) : Reaches t (run setting acc w steps).2 [] := by
  induction steps generalizing acc w t with
  | nil => exact .refl hm
  | cons s steps ih =>
    refine (hm.step hs (follows_runNested hs w.stage.plans.length) s).trans fun hm' => ?_
    exact ih _ ⟨hm'.router, hm'.now, hm'.leases, hm'.ordered⟩

/-- After any scenario the router is in the state that some run leads to, with no handshake left in
progress. -/
theorem run_mirrors (hs : Tame setting) (replicaLimit : Nat) (plans : List (Plan Step))
    (steps : List Step) :
    ∃ as, Mirrors (run setting [] { router := { replicaLimit }, stage := { plans } } steps).2 []
        ((Traffic.start replicaLimit).run as) ∧
      ((Traffic.start replicaLimit).run as).opening = [] :=
  run_reaches hs [] steps ⟨rfl, rfl, .refl [], .nil⟩

/-! ## The two ways to open sessions -/

theorem tame_sessions (network : Network) : Tame (sessions network) := fun _ _ _ _ _ hm => .refl hm

theorem tame_stubs (refused : List String) : Tame (stubs refused) := by
  intro inner hi w t loose target hm
  have hnoted : Mirrors (w.note (.target target)) loose t :=
    ⟨hm.router, hm.now, hm.leases, hm.ordered⟩
  simp only [stubs]
  split
  · exact .refl hnoted
  · set plan := (w.note (.target target)).stage.nextPlan.1
    have hplanned : Mirrors { w.note (.target target) with
        stage := (w.note (.target target)).stage.nextPlan.2 } loose t :=
      ⟨hm.router, hnoted.now.trans (Stage.now_nextPlan _).symm, hm.leases, hm.ordered⟩
    refine (hi plan.nested hplanned).trans fun hm' => ?_
    exact .single _ (hm'.tick _) rfl

end SessionPool.Scenario.Routed
