import SessionPool.Proofs.Router.History

/-!
# What is left alone

An action works on one table: the installed one, the one of a lease or of a handshake, or a new one.
At every other table it changes nothing: not the table itself, and nothing that is outstanding or
recorded at its places. Only configuring installs a table, one that is new or that was waiting for
its warm-up.
-/

namespace SessionPool

variable {κ : Type} {i : Nat}

namespace Router

/-- An operation that works elsewhere than at table `i`. -/
structure Spares {α : Type} (i : Nat) (r : Router κ) (done : Routed κ α) : Prop where
  table : done.router.tables[i]? = r.tables[i]?
  tornDown : ∀ x ∈ done.tornDown, x.1.table ≠ i

variable {r r' : Router κ} {place : Place}

theorem getElem?_modify_of_ne {j : Nat} (h : j ≠ i) (f : RoutingTable κ → RoutingTable κ) :
    (r.tables.modify j f)[i]? = r.tables[i]? := by rw [Array.getElem?_modify, if_neg h]

theorem spares_onPool {α : Type} (h : place.table ≠ i) (absent : α) (op : Pool κ → Outcome κ α) :
    Spares i r (r.onPool place absent op) := by
  rw [onPool]
  split
  · refine ⟨getElem?_modify_of_ne h _, fun x hx => ?_⟩
    obtain ⟨m, -, rfl⟩ := List.mem_map.1 hx
    exact h
  · exact ⟨rfl, fun x hx => absurd hx List.not_mem_nil⟩

theorem router_onPool_cases {α : Type} (place : Place) (absent : α) (op : Pool κ → Outcome κ α) :
    (r.onPool place absent op).router = r ∨
      ∃ p, (r.onPool place absent op).router = r.setPool place p := by
  cases h : r.pool? place with
  | none => exact .inl (by rw [onPool, h])
  | some p => exact .inr ⟨_, router_onPool h absent op⟩

theorem table_claim {j : Nat} {key : PoolKey} (h : r.claim j key = .ok (place, r')) (hj : j ≠ i) :
    r'.tables[i]? = r.tables[i]? := by
  rw [claim] at h
  split at h
  · split at h
    · cases h
    · cases h
      exact getElem?_modify_of_ne hj _
  · cases h

theorem table_route {partition draw : Nat} {role : Role} {replica : Option Nat}
    (h : r.route partition role replica draw = .ok (place, r')) (hi : r.installed ≠ some i) :
    r'.tables[i]? = r.tables[i]? := by
  rw [route] at h
  split at h
  · cases h
  · split at h
    · next j _ hj _ =>
      refine table_claim h ?_
      rintro rfl
      exact hi hj
    · cases h

theorem spares_closeTable {j : Nat} (h : j ≠ i) :
    Spares i r ⟨(), (r.closeTable j).1, (r.closeTable j).2⟩ := by
  refine ⟨?_, ?_⟩
  · rw [closeTable_router]
    exact getElem?_modify_of_ne h _
  · intro x hx
    rw [closeTable] at hx
    split at hx
    · obtain ⟨y, -, rfl⟩ := List.mem_map.1 hx
      exact h
    · exact absurd hx List.not_mem_nil

theorem spares_install {j : Nat} (h : j ≠ i) : Spares i r (r.install j) := by
  rw [install]
  split
  · have hc := spares_closeTable (r := r) h
    exact ⟨hc.table, hc.tornDown⟩
  · exact ⟨rfl, fun x hx => absurd hx List.not_mem_nil⟩

theorem Spares.then {α β : Type} {first : Routed κ α} {second : Routed κ β} (h : Spares i r first)
    (h' : Spares i first.router second) :
    Spares i r { second with tornDown := first.tornDown ++ second.tornDown } := by
  refine ⟨h'.table.trans h.table, fun x hx => ?_⟩
  rcases List.mem_append.1 hx with hx | hx
  · exact h.tornDown x hx
  · exact h'.tornDown x hx

theorem Spares.answer {α β : Type} {done : Routed κ α} (h : Spares i r done) (answer : β) :
    Spares i r ⟨answer, done.tornDown, done.router⟩ := ⟨h.table, h.tornDown⟩

theorem spares_finishConfigure [Transport κ] (h : place.table ≠ i) (slot : Nat)
    (handshake : Except Fault κ) (now : Nat) :
    Spares i r (r.finishConfigure place slot handshake now) := by
  have hf : Spares i r (r.finishGet place slot handshake now) := spares_onPool h _ _
  rw [finishConfigure]
  dsimp only
  split
  · exact hf.answer _
  · next l _ =>
    have hr : Spares i r _ := hf.then (spares_onPool h () fun p => (Lease.ofLeased l).release now p)
    exact hr.then (spares_install h)

theorem table_draft {c : RouterConfig} {j : Nat} (h : r.draft c = .ok (j, r')) (hj : j ≠ i) :
    r'.tables[i]? = r.tables[i]? := by
  rw [draft] at h
  split at h
  · cases h
  · split at h
    · cases h
      rw [Array.getElem?_push, if_neg (Ne.symm hj)]
    · cases h

theorem Spares.of_table {α : Type} {done : Routed κ α} (h : Spares i r' done)
    (ht : r'.tables[i]? = r.tables[i]?) : Spares i r done := ⟨h.table.trans ht, h.tornDown⟩

theorem spares_installNow {j : Nat} (h : j ≠ i) : Spares i r (r.installNow j) :=
  (spares_install h).answer _

theorem spares_beginWarmUp [Transport κ] {j : Nat} (h : j ≠ i) (now : Nat) :
    Spares i r (r.beginWarmUp j now) := by
  rw [beginWarmUp]
  split
  · exact ⟨rfl, fun x hx => absurd hx List.not_mem_nil⟩
  · next place r' hclaim =>
    have hplace : place.table ≠ i := by rwa [(claimed hclaim).place_eq]
    have hb : Spares i r (r'.beginGet place now) :=
      (spares_onPool hplace _ _).of_table (table_claim hclaim h)
    dsimp only
    split
    · exact hb.answer _
    · exact hb.answer _
    · next l _ =>
      have hr : Spares i r _ :=
        hb.then (spares_onPool hplace () fun p => (Lease.ofLeased l).release now p)
      exact hr.then (spares_installNow h)

theorem spares_beginConfigure [Transport κ] {c : RouterConfig} (h : r.tables.size ≠ i) (now : Nat) :
    Spares i r (r.beginConfigure c now) := by
  rw [beginConfigure]
  split
  · exact ⟨rfl, fun x hx => absurd hx List.not_mem_nil⟩
  · next j r' hd =>
    have hj : j ≠ i := by rwa [(drafted hd).number]
    split
    · exact (spares_beginWarmUp hj now).of_table (table_draft hd hj)
    · exact (spares_installNow hj).of_table (table_draft hd hj)

theorem beginConfigure_warming [Transport κ] {c : RouterConfig} {now slot : Nat}
    (h : (r.beginConfigure c now).answer = .warming place slot) :
    place = ⟨r.tables.size, .ofMaster defaultPartition⟩ := by
  rw [beginConfigure] at h
  split at h
  · cases h
  · next j r' hd =>
    have hdraft := drafted hd
    rw [← hdraft.number]
    split at h
    · have hwarm := hdraft.beginWarmUp now
      generalize r'.beginWarmUp j now = begun at h hwarm
      cases hwarm with
      | unclaimed | refused => cases h
      | warming hc ha =>
        cases h
        exact hc.place_eq
    · rw [installNow] at h
      dsimp only at h
      split at h <;> cases h

theorem spares_flush (h : r.installed ≠ some i) : Spares i r ⟨(), r.flush.1, r.flush.2⟩ := by
  rw [flush]
  split
  · next j hj =>
    have hne : j ≠ i := by
      rintro rfl
      exact h hj
    exact (spares_closeTable hne).of_table rfl
  · exact ⟨rfl, fun x hx => absurd hx List.not_mem_nil⟩

/-! ## Installing -/

theorem installed_onPool {α : Type} (absent : α) (op : Pool κ → Outcome κ α) :
    (r.onPool place absent op).router.installed = r.installed := by
  rw [onPool]
  split <;> rfl

theorem installed_closeTable (j : Nat) : (r.closeTable j).2.installed = r.installed := by
  rw [closeTable_router]

theorem installed_flush (r : Router κ) : r.flush.2.installed = none := by
  rw [flush]
  split
  · exact installed_closeTable _
  · next hi => exact hi

theorem install_of_none (h : r.installed = none) (j : Nat) :
    r.install j = ⟨.ok (), [], { r with installed := some j }⟩ := by
  rw [install, isConfigured, h]
  rfl

theorem install_of_some (h : r.installed ≠ none) (j : Nat) :
    r.install j = ⟨.error .alreadyConfigured, (r.closeTable j).1, (r.closeTable j).2⟩ := by
  rw [install, isConfigured, if_pos (Option.isSome_iff_ne_none.2 h)]

theorem installed_installNow (j : Nat) : (r.installNow j).router.installed =
    match (r.installNow j).answer with
    | .installed => some j
    | _ => r.installed := by
  rw [installNow]
  by_cases h : r.installed = none
  · rw [install_of_none h]
  · rw [install_of_some h]
    exact installed_closeTable j

theorem installed_beginConfigure [Transport κ] (c : RouterConfig) (now : Nat) :
    (r.beginConfigure c now).router.installed =
      match (r.beginConfigure c now).answer with
      | .installed => some r.tables.size
      | _ => r.installed := by
  rw [beginConfigure]
  split
  · rfl
  · next j r' hd =>
    have hdraft := drafted hd
    rw [← hdraft.number, ← hdraft.installed]
    split
    · have hwarm := hdraft.beginWarmUp now
      generalize r'.beginWarmUp j now = begun at hwarm
      cases hwarm with
      | unclaimed => rfl
      | refused hc ha | warming hc ha => exact (installed_onPool _ _).trans hc.installed
    · exact installed_installNow j

theorem installed_finishConfigure [Transport κ] (place : Place) (slot : Nat)
    (handshake : Except Fault κ) (now : Nat) :
    (r.finishConfigure place slot handshake now).router.installed =
      match (r.finishConfigure place slot handshake now).answer with
      | .ok () => some place.table
      | .error _ => r.installed := by
  have hf : (r.finishGet place slot handshake now).router.installed = r.installed :=
    installed_onPool _ _
  rw [finishConfigure]
  dsimp only
  split
  · exact hf
  · next l _ =>
    have hr : ((r.finishGet place slot handshake now).router.release place (.ofLeased l)
        now).router.installed = r.installed := (installed_onPool _ _).trans hf
    by_cases h : ((r.finishGet place slot handshake now).router.release place (.ofLeased l)
        now).router.installed = none
    · rw [install_of_none h]
    · rw [install_of_some h]
      exact (installed_closeTable _).trans hr

theorem poolAt_of_table (h : r'.tables[place.table]? = r.tables[place.table]?) :
    r'.poolAt place = r.poolAt place := by
  rw [poolAt, poolAt, pool?, pool?, blank, blank, plan?, plan?, h]

end Router

namespace Traffic

variable {t t' t'' : Traffic κ} {place : Place}

/-- From `t` to `t'` nothing happened at table `i`. -/
structure Still (i : Nat) (t t' : Traffic κ) : Prop where
  table : t'.router.tables[i]? = t.router.tables[i]?
  usages : ∀ place, place.table = i → t'.usage place = { t.usage place with now := t'.now }

theorem Still.refl (i : Nat) (t : Traffic κ) : Still i t t := ⟨rfl, fun _ _ => rfl⟩

theorem Still.trans (h : Still i t t') (h' : Still i t' t'') : Still i t t'' := by
  refine ⟨h'.table.trans h.table, fun place hplace => ?_⟩
  rw [h'.usages place hplace, h.usages place hplace]

theorem pick_eq_nil {α : Type} {xs : List (Place × α)} (h : ∀ x ∈ xs, x.1 ≠ place) :
    pick place xs = [] := List.filterMap_eq_nil_iff.2 fun x hx => if_neg (h x hx)

theorem still_take {α : Type} {done : Routed κ α} (h : Router.Spares i t.router done) :
    Still i t (t.take done) := by
  refine ⟨h.table, fun place hplace => ?_⟩
  have htorn : pick place done.tornDown = [] := by
    refine pick_eq_nil fun x hx heq => h.tornDown x hx ?_
    rw [heq, hplace]
  simp [usage, take, htorn, Router.poolAt_of_table (hplace ▸ h.table)]

theorem still_of_ne (h : place.table ≠ i) (hr : t'.router = t.router) (hn : t'.now = t.now)
    (hu : ∀ other ≠ place, t'.usage other = t.usage other) : Still i t t' := by
  refine ⟨by rw [hr], fun other hother => ?_⟩
  rw [hu other fun heq => h (by rw [← heq, hother]), hn]
  rfl

theorem still_await (h : place.table ≠ i) (slot : Nat) (call : Option Call) :
    Still i t (t.await place slot call) :=
  still_of_ne h rfl rfl fun _ hne => usage_await_of_ne hne slot call

theorem still_ended (h : place.table ≠ i) (slot : Nat) : Still i t (t.ended place slot) :=
  still_of_ne h rfl rfl fun _ hne => usage_ended_of_ne hne slot

theorem still_grant (h : place.table ≠ i) (call : Call) (l : Leased κ) :
    Still i t (t.grant call place l) :=
  still_of_ne h rfl rfl fun _ hne => usage_lend_of_ne (t := t) hne l

theorem still_record (h : place.table ≠ i) (l : Leased κ) : Still i t (t.record place l) :=
  still_of_ne h rfl rfl fun _ hne => usage_record_of_ne hne l

theorem still_returned (h : place.table ≠ i) (n : Nat) :
    Still i t { t with returns := (place, n) :: t.returns } :=
  still_of_ne h rfl rfl fun _ hne => by simp [usage, pick_cons_of_ne (Ne.symm hne)]

theorem still_giveUp {k : Nat} {l : Lease κ} (hl : t.leases[k]? = some (place, l))
    (h : place.table ≠ i) : Still i t (t.giveUp k place l) :=
  still_of_ne h rfl rfl fun _ hne => usage_giveUp_of_ne hl hne

def touched (t : Traffic κ) : Action κ → Option Nat
  | .configure _ => some t.router.tables.size
  | .get .. | .flush => t.router.installed
  | .finish place slot _ => (t.opening.find? (Handshake.isAt place slot)).map fun h => h.place.table
  | .execute k _ | .discard k | .drop k => (t.leases[k]?).map fun x => x.1.table
  | .setClock _ => none

theorem still_begin (h : place.table ≠ i) (call : Call) : Still i t (t.begin call place) := by
  have hb : Router.Spares i t.router (t.router.beginGet place t.now) := Router.spares_onPool h _ _
  rw [begin]
  split
  · exact still_take hb
  · exact (still_take hb).trans (still_grant h _ _)
  · exact (still_take hb).trans (still_await h _ _)

theorem still_finishGet (h : place.table ≠ i) (call : Call) (slot : Nat) (result : Except Fault κ) :
    Still i t (t.finishGet call place slot result) := by
  have hf : Router.Spares i (t.ended place slot).router
      (t.router.finishGet place slot result t.now) :=
    Router.spares_onPool h _ _
  have hended := (still_ended (t := t) h slot).trans (still_take hf)
  rw [finishGet]
  split
  · exact hended.trans ((still_grant h _ _).trans (still_record h _))
  · exact hended

variable [Transport κ]

theorem still_finishWarmUp (h : place.table ≠ i) (slot : Nat) (result : Except Fault κ) :
    Still i t (t.finishWarmUp place slot result) := by
  have hf : Router.Spares i (t.ended place slot).router
      (t.router.finishConfigure place slot result t.now) := Router.spares_finishConfigure h _ _ _
  have hended := (still_ended (t := t) h slot).trans (still_take hf)
  rw [finishWarmUp]
  split
  · next l _ => exact hended.trans ((still_record h l).trans (still_returned h l.id))
  · exact hended

theorem still_configure (h : t.router.tables.size ≠ i) (c : RouterConfig) :
    Still i t (t.configure c) := by
  have hb : Still i t { t.take (t.router.beginConfigure c t.now) with configs := t.drawn c } :=
    (still_take (Router.spares_beginConfigure h t.now)).trans ⟨rfl, fun _ _ => rfl⟩
  rw [configure]
  dsimp only
  split
  · next place slot ha =>
    have hplace : place.table ≠ i := by rwa [Router.beginConfigure_warming ha]
    exact hb.trans (still_await hplace slot none)
  · exact hb

theorem still_step {a : Action κ} (h : t.touched a ≠ some i) : Still i t (t.step a) := by
  cases a with
  | configure c => exact still_configure (fun hi => h (congrArg some hi)) c
  | get partition role replica draw =>
    rw [step]
    split
    · next place r hroute =>
      obtain ⟨-, j, s, hj, -, hc⟩ := Router.route_eq_ok hroute
      have hplace : place.table ≠ i := by
        rw [hc.place_eq]
        rintro rfl
        exact h hj
      have htable : r.tables[i]? = t.router.tables[i]? := Router.table_route hroute h
      refine Still.trans ⟨htable, fun other hother => ?_⟩ (still_begin hplace _)
      simp [usage, Router.poolAt_of_table (hother ▸ htable)]
    · exact .refl i t
  | finish place slot result =>
    rw [step]
    split
    · next hs hfind =>
      obtain ⟨rfl, rfl⟩ := Handshake.eq_of_isAt (List.find?_some hfind)
      have hplace : hs.place.table ≠ i := fun hi => h (by simp [touched, hfind, hi])
      split
      · exact still_finishGet hplace _ _ _
      · exact still_finishWarmUp hplace _ _
    · exact .refl i t
  | execute k c =>
    rw [step]
    split
    · next place l hl =>
      have hplace : place.table ≠ i := fun hi => h (by simp [touched, hl, hi])
      exact still_of_ne hplace rfl rfl fun _ hne => usage_put_of_ne hl hne _
    · exact .refl i t
  | discard k =>
    rw [step]
    split
    · next place l hl =>
      have hplace : place.table ≠ i := fun hi => h (by simp [touched, hl, hi])
      exact still_of_ne hplace rfl rfl fun _ hne => usage_discard_of_ne hl hne
    · exact .refl i t
  | drop k =>
    rw [step]
    split
    · next place l hl =>
      have hplace : place.table ≠ i := fun hi => h (by simp [touched, hl, hi])
      have hr : Router.Spares i (t.giveUp k place l).router (t.router.release place l t.now) :=
        Router.spares_onPool hplace _ _
      exact (still_giveUp hl hplace).trans (still_take hr)
    · exact .refl i t
  | flush => exact still_take (Router.spares_flush h)
  | setClock now => exact ⟨rfl, fun _ _ => rfl⟩

/-! ## Which table is installed -/

/-- What a call to configure returns, if the action is its end. -/
def verdict (t : Traffic κ) : Action κ → Option (Except Fault Unit)
  | .configure c =>
    match (t.router.beginConfigure c t.now).answer with
    | .refused f => some (.error f)
    | .installed => some (.ok ())
    | .warming .. => none
  | .finish place slot result =>
    match t.opening.find? (Handshake.isAt place slot) with
    | some h =>
      match h.call with
      | none => some (t.router.finishConfigure place slot (result h) t.now).answer
      | some _ => none
    | none => none
  | _ => none

theorem router_configure (t : Traffic κ) (c : RouterConfig) :
    (t.configure c).router = (t.router.beginConfigure c t.now).router := by
  rw [configure]
  dsimp only
  split <;> rfl

theorem router_finishWarmUp (t : Traffic κ) (place : Place) (slot : Nat) (result : Except Fault κ) :
    (t.finishWarmUp place slot result).router =
      (t.router.finishConfigure place slot result t.now).router := by
  rw [finishWarmUp]
  split <;> rfl

omit [Transport κ] in
theorem router_begin (t : Traffic κ) (call : Call) (place : Place) :
    (t.begin call place).router = (t.router.beginGet place t.now).router := by
  rw [begin]
  split <;> rfl

omit [Transport κ] in
theorem router_finishGet (t : Traffic κ) (call : Call) (place : Place) (slot : Nat)
    (result : Except Fault κ) : (t.finishGet call place slot result).router =
      (t.router.finishGet place slot result t.now).router := by
  rw [finishGet]
  split <;> rfl

theorem installed_of_ok {a : Action κ} (h : t.verdict a = some (.ok ())) :
    (t.step a).router.installed = t.touched a := by
  cases a with
  | configure c =>
    rw [verdict] at h
    rw [step, router_configure, Router.installed_beginConfigure]
    split at h
    · cases h
    · next ha =>
      rw [ha]
      rfl
    · cases h
  | finish place slot result =>
    rw [verdict] at h
    rw [step, touched]
    split at h
    · next hs hfind =>
      obtain ⟨rfl, rfl⟩ := Handshake.eq_of_isAt (List.find?_some hfind)
      rw [hfind]
      split at h
      · next hcall =>
        simp only [hcall]
        rw [router_finishWarmUp, Router.installed_finishConfigure, Option.some_inj.1 h]
        rfl
      · cases h
    · cases h
  | _ => cases h

theorem installed_of_not_ok {a : Action κ} (h : t.verdict a ≠ some (.ok ())) :
    (t.step a).router.installed = t.router.installed ∨
      a = .flush ∧ (t.step a).router.installed = none := by
  cases a with
  | configure c =>
    left
    rw [step, router_configure, Router.installed_beginConfigure]
    split
    · next ha =>
      rw [verdict, ha] at h
      exact absurd rfl h
    · rfl
  | finish place slot result =>
    left
    rw [verdict] at h
    rw [step]
    split
    · next hs hfind =>
      rw [hfind] at h
      dsimp only at h
      split
      · rw [router_finishGet]
        exact Router.installed_onPool _ _
      · next hcall =>
        rw [hcall] at h
        rw [router_finishWarmUp, Router.installed_finishConfigure]
        split
        · next ha =>
          rw [ha] at h
          exact absurd rfl h
        · rfl
    · rfl
  | get partition role replica draw =>
    left
    rw [step]
    split
    · next place r hroute =>
      obtain ⟨-, j, s, -, -, hc⟩ := Router.route_eq_ok hroute
      rw [router_begin]
      exact (Router.installed_onPool _ _).trans hc.installed
    · rfl
  | execute k c | discard k =>
    left
    rw [step]
    split <;> rfl
  | drop k =>
    left
    rw [step]
    split
    · exact Router.installed_onPool _ _
    · rfl
  | flush => exact .inr ⟨rfl, Router.installed_flush _⟩
  | setClock now => exact .inl rfl

/-! ## Which handshakes are in progress -/

theorem opening_finishWarmUp (t : Traffic κ) (place : Place) (slot : Nat)
    (result : Except Fault κ) :
    (t.finishWarmUp place slot result).opening = t.opening.eraseP (Handshake.isAt place slot) := by
  rw [finishWarmUp]
  split <;> rfl

theorem opening_step (t : Traffic κ) (a : Action κ) :
    (t.step a).opening.Sublist t.opening ∨
      ∃ h, (t.step a).opening = h :: t.opening ∧ t.touched a = some h.place.table ∧
        t.verdict a = none ∧ (h.call = none → ∃ c, a = .configure c) := by
  cases a with
  | configure c =>
    rw [step, configure]
    dsimp only
    split
    · next place slot ha =>
      refine .inr ⟨_, rfl, ?_, ?_, fun _ => ⟨c, rfl⟩⟩
      · rw [Router.beginConfigure_warming ha]
        rfl
      · rw [verdict, ha]
    · exact .inl (.refl _)
  | get partition role replica draw =>
    rw [step]
    split
    · next place r hroute =>
      obtain ⟨-, j, s, hj, -, hc⟩ := Router.route_eq_ok hroute
      rw [begin]
      split
      · exact .inl (.refl _)
      · exact .inl (.refl _)
      · refine .inr ⟨_, rfl, ?_, rfl, fun hcall => by cases hcall⟩
        rw [hc.place_eq]
        exact hj
    · exact .inl (.refl _)
  | finish place slot result =>
    left
    have hended : (t.ended place slot).opening.Sublist t.opening := List.eraseP_sublist
    rw [step]
    split
    · split
      · rw [finishGet]
        split <;> exact hended
      · rw [finishWarmUp]
        split <;> exact hended
    · exact .refl _
  | execute k c | discard k | drop k =>
    left
    rw [step]
    split <;> exact .refl _
  | flush | setClock now => exact .inl (.refl _)

end Traffic

end SessionPool
