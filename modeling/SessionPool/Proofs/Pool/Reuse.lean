import SessionPool.Proofs.Pool.Capacity
import SessionPool.Scenario.Basic

/-!
# Which session a get hands out

A get looks at the back of the idle list for sessions that lay idle too long, and at its front for
sessions that are too old. As long as the clock is not set back the list is ordered by the time of
return, so looking at the back finds all that lay idle too long, and the session handed out is the
first one within both limits.
-/

namespace SessionPool

section

variable {α : Type} {test : α → Bool} {l : List α}

theorem rdropWhile_eq_filter (h : l.Pairwise fun x y => test x = true → test y = true) :
    l.rdropWhile test = l.filter fun x => !test x := by
  induction l using List.reverseRecOn with
  | nil => rfl
  | append_singleton l a ih =>
    rw [List.pairwise_append] at h
    rw [List.filter_append]
    by_cases ha : test a = true
    · rw [List.rdropWhile_concat_pos _ _ _ ha, ih h.1]
      simp [ha]
    · have hl : ∀ x ∈ l, (!test x) = true := by
        intro x hx
        rw [Bool.not_eq_true']
        by_contra hne
        exact ha (h.2.2 x hx a List.mem_cons_self (by simpa using hne))
      rw [List.rdropWhile_concat_neg _ _ _ ha, List.filter_eq_self.2 hl]
      simp [ha]

theorem rtakeWhile_eq_filter (h : l.Pairwise fun x y => test x = true → test y = true) :
    l.rtakeWhile test = l.filter test := by
  have hdrop : (l.rdropWhile test).filter test = [] := by
    rw [rdropWhile_eq_filter h, List.filter_filter]
    simp
  have htake : (l.rtakeWhile test).filter test = l.rtakeWhile test := by
    apply List.filter_eq_self.2
    intro x hx
    exact List.mem_rtakeWhile_imp hx
  have hsplit : l.filter test = (l.rdropWhile test ++ l.rtakeWhile test).filter test := by
    rw [List.rdropWhile_append_rtakeWhile]
  rw [hsplit, List.filter_append, hdrop, htake, List.nil_append]

end

namespace Usage

variable {κ : Type} {u u' : Usage κ}

/-! ## The clock -/

def Forward [Transport κ] (u : Usage κ) : List (Action κ) → Prop
  | [] => True
  | a :: as => u.now ≤ (u.step a).now ∧ (u.step a).Forward as

/-- The idle sessions were returned one before the other, and none in the future. -/
structure Timed (u : Usage κ) : Prop where
  past : ∀ x ∈ u.pool.resting, x.idleSince ≤ u.now
  ordered : u.pool.resting.Pairwise fun x y => y.idleSince ≤ x.idleSince

theorem timed_start (name : String) (options : PoolOptions) (bound : Option Nat) :
    (start name options bound : Usage κ).Timed := by
  constructor
  · intro x hx
    rw [start_resting] at hx
    cases hx
  · rw [start_resting]
    exact .nil

theorem Timed.change [Transport κ] {a : Action κ} (h : u.Timed) (hc : u.Change a u')
    (hnow : u.now ≤ u'.now) : u'.Timed := by
  rcases hc.resting with hs | ⟨i, l, rest, rfl, -, hs, hr⟩
  · constructor
    · intro x hx
      exact (h.past x (hs.subset hx)).trans hnow
    · exact h.ordered.sublist hs
  · have hrest : ∀ x ∈ rest, x.idleSince ≤ u.now := fun x hx => h.past x (hs.subset hx)
    constructor
    · intro x hx
      rw [hr, List.mem_cons] at hx
      rcases hx with rfl | hx
      · exact hnow
      · exact (hrest x hx).trans hnow
    · rw [hr]
      exact List.pairwise_cons.2 ⟨hrest, h.ordered.sublist hs⟩

theorem Timed.step [Transport κ] (ho : u.Owned) (h : u.Timed) (a : Action κ)
    (hnow : u.now ≤ (u.step a).now) : (u.step a).Timed := by
  by_cases ha : ∃ i, a = .reassign i
  · obtain ⟨i, rfl⟩ := ha
    obtain ⟨hd, ho'⟩ := ho.change_drop i
    have hg := ho'.change_get.1
    have hnow₁ : (u.step (.drop i)).now = u.now := hd.now_eq (by simp)
    have hnow₂ := hg.now_eq (by simp)
    rw [step_reassign]
    exact (h.change hd hnow₁.ge).change hg hnow₂.ge
  · exact h.change (ho.change fun i hi => ha ⟨i, hi⟩).1 hnow

theorem Timed.run [Transport κ] {as : List (Action κ)} (ho : u.Owned) (h : u.Timed)
    (hf : u.Forward as) : (u.run as).Timed := by
  induction as generalizing u with
  | nil => exact h
  | cons a as ih => exact ih (ho.step a) (h.step ho a hf.1) hf.2

/-! ## What a get does -/

theorem stale_of_earlier {o : PoolOptions} {now : Nat} {x y : Resting κ}
    (hxy : y.idleSince ≤ x.idleSince) (hx : Pool.stale o now x = true) :
    Pool.stale o now y = true := by
  obtain ⟨limit, hl, he⟩ := (Option.any_eq_true _ _).1 hx
  apply (Option.any_eq_true _ _).2
  refine ⟨limit, hl, ?_⟩
  have hlt : limit.nanos < now - x.idleSince := of_decide_eq_true he
  apply decide_eq_true
  change limit.nanos < now - y.idleSince
  omega

theorem Timed.split (h : u.Timed) (o : PoolOptions) :
    u.pool.resting.rdropWhile (Pool.stale o u.now) =
        u.pool.resting.filter (fun x => !Pool.stale o u.now x) ∧
      u.pool.resting.rtakeWhile (Pool.stale o u.now) =
        u.pool.resting.filter (Pool.stale o u.now) := by
  have hstale : u.pool.resting.Pairwise fun x y =>
      Pool.stale o u.now x = true → Pool.stale o u.now y = true :=
    h.ordered.imp fun hxy => stale_of_earlier hxy
  exact ⟨rdropWhile_eq_filter hstale, rtakeWhile_eq_filter hstale⟩

theorem Owned.get_reused [Transport κ] {x : Resting κ} {rest : List (Resting κ)} (h : u.Owned)
    (ho : u.pool.closed = false)
    (hu : Pool.usable u.pool.options u.now u.pool.resting = x :: rest) :
    u.answer .get = some (.ok x.leased) ∧
      ∃ p, u.step .get = (u.retire p).lend x.leased ∧ p.resting = rest := by
  have hg := h.got
  generalize u.answer .get = result, u.step .get = v at hg
  cases hg with
  | closed hc => simp [hc] at ho
  | reused ho' hu' hr =>
    rw [hu] at hu'
    cases hu'
    exact ⟨rfl, _, rfl, hr⟩
  | overload ho' hu' | allocation ho' hu' | began ho' hu' =>
    rw [hu] at hu'
    cases hu'

theorem Owned.get_unused [Transport κ] (h : u.Owned) (ho : u.pool.closed = false)
    (hu : Pool.usable u.pool.options u.now u.pool.resting = []) :
    ∃ p, p.resting = [] ∧
      ((∃ slot, u.answer .get = none ∧
          u.step .get = { u.retire p with opening := slot :: u.opening }) ∨
        ∃ f, u.answer .get = some (.error f) ∧ u.step .get = u.retire p ∧
          (f = .allocation ∨ ∃ limit, f = .overload u.pool.name limit)) := by
  have hg := h.got
  generalize u.answer .get = result, u.step .get = v at hg
  cases hg with
  | closed hc => simp [hc] at ho
  | reused ho' hu' =>
    rw [hu] at hu'
    cases hu'
  | overload _ _ _ _ hr => exact ⟨_, hr, .inr ⟨_, rfl, rfl, .inr ⟨_, rfl⟩⟩⟩
  | allocation _ _ hr => exact ⟨_, hr, .inr ⟨_, rfl, rfl, .inl rfl⟩⟩
  | began _ _ hr => exact ⟨_, hr, .inl ⟨_, rfl, rfl⟩⟩

theorem Owned.get_ok [Transport κ] {l : Leased κ} (h : u.Owned)
    (ha : u.answer .get = some (.ok l)) : u.pool.closed = false ∧ ∃ x rest, l = x.leased ∧
      Pool.usable u.pool.options u.now u.pool.resting = x :: rest := by
  have hg := h.got
  rw [ha] at hg
  generalize u.step .get = v at hg
  cases hg with
  | reused ho hu => exact ⟨ho, _, _, rfl, hu⟩

theorem answer_finish_ok [Transport κ] {slot : Nat} {result : Except Fault κ} {l : Leased κ}
    (ha : u.answer (.finish slot result) = some (.ok l)) : slot ∈ u.opening ∧
      ∃ session, result = .ok session ∧ l = ⟨slot, u.pool.nextId, u.now, session⟩ := by
  simp only [answer] at ha
  split at ha
  · next hs =>
    cases result with
    | ok session =>
      cases ha
      exact ⟨hs, session, rfl, rfl⟩
    | error cause => cases ha
  · cases ha

theorem dropWhile_front {α : Type} {test : α → Bool} {front : List α} {x : α}
    (hfront : ∀ y ∈ front, test y = true) (hx : test x = false) (back : List α) :
    (front ++ x :: back).takeWhile test = front ∧
      (front ++ x :: back).dropWhile test = x :: back := by
  rw [List.takeWhile_append_of_pos hfront, List.dropWhile_append_of_pos hfront,
    List.takeWhile_cons_of_neg (by simp [hx]), List.dropWhile_cons_of_neg (by simp [hx]),
    List.append_nil]
  exact ⟨rfl, rfl⟩

/-- Without a clock that is set back, the sessions that lay idle too long are the last ones of the
idle list. A get hands out the first of the others that is not too old, tears down the former and
those in front of it, and leaves those behind it; if there is none it tears all down and goes on to
open a new session. So no session is handed out beyond its limits. -/
theorem run_reuse [Transport κ] (name : String) (options : PoolOptions) (bound : Option Nat)
    (as : List (Action κ)) (hf : (start name options bound).Forward as) :
    let u := (start name options bound).run as
    let v := u.step .get
    let idleTooLong (x : Resting κ) : Bool :=
      options.idleTimeout.any fun limit => limit.nanos < u.now - x.idleSince
    let tooOld (x : Resting κ) : Bool :=
      options.maxLifetime.any fun limit => limit.nanos < u.now - x.createdAt
    let fresh := u.pool.resting.filter fun x => !idleTooLong x
    let overdue := u.pool.resting.filter idleTooLong
    u.pool.idle.entries = u.pool.resting.map Resting.entry ∧
    v.pool.idle.entries = v.pool.resting.map Resting.entry ∧
    u.pool.resting = fresh ++ overdue ∧
    (u.pool.closed = false → ∀ front x back, fresh = front ++ x :: back →
      (∀ y ∈ front, tooOld y = true) → tooOld x = false →
      u.answer .get = some (.ok x.leased) ∧ v.leases = .ofLeased x.leased :: u.leases ∧
      v.opening = u.opening ∧
      v.tornDown = u.tornDown ++ (overdue.reverse ++ front).map Resting.member ∧
      v.pool.resting = back) ∧
    (u.pool.closed = false → (∀ x ∈ fresh, tooOld x = true) →
      v.leases = u.leases ∧ v.pool.resting = [] ∧
      v.tornDown = u.tornDown ++ (overdue.reverse ++ fresh).map Resting.member ∧
      ((∃ slot, u.answer .get = none ∧ v.opening = slot :: u.opening) ∨
        ∃ f, u.answer .get = some (.error f) ∧ v.opening = u.opening ∧
          (f = .allocation ∨ ∃ limit, f = .overload name limit))) ∧
    (∀ i, u.answer (.reassign i) = (u.step (.drop i)).answer .get) ∧
    (∀ l, u.answer .get = some (.ok l) →
      ∃ x ∈ fresh, l = x.leased ∧ idleTooLong x = false ∧ tooOld x = false) ∧
    ∀ slot result l, u.answer (.finish slot result) = some (.ok l) → l.createdAt = u.now := by
  intro u v idleTooLong tooOld fresh overdue
  have h : u.Owned := (owned_start name options bound).run as
  have ht : u.Timed := (timed_start name options bound).run (owned_start name options bound) hf
  have hopt : u.pool.options = options := (run_bounded name options bound as).sameOptions
  have hname : u.pool.name = name := (run_bounded name options bound as).sameName
  have hstale : Pool.stale u.pool.options u.now = idleTooLong := by rw [hopt]; rfl
  have haged : Pool.aged u.pool.options u.now = tooOld := by rw [hopt]; rfl
  obtain ⟨hfresh, hoverdue⟩ : u.pool.resting.rdropWhile idleTooLong = fresh ∧
      u.pool.resting.rtakeWhile idleTooLong = overdue := by
    have hsplit := ht.split u.pool.options
    rwa [hstale] at hsplit
  have hretired : Pool.retired u.pool.options u.now u.pool.resting =
      overdue.reverse ++ fresh.takeWhile tooOld := by
    rw [Pool.retired, hstale, haged, hfresh, hoverdue]
  have husable : Pool.usable u.pool.options u.now u.pool.resting = fresh.dropWhile tooOld := by
    rw [Pool.usable, hstale, haged, hfresh]
  refine ⟨h.listed.entries, (h.step .get).listed.entries, ?_, ?_, ?_, u.answer_reassign, ?_, ?_⟩
  · rw [← hfresh, ← hoverdue, List.rdropWhile_append_rtakeWhile]
  · intro ho front x back hsplit hfront hx
    obtain ⟨htake, hdrop⟩ := dropWhile_front hfront hx back
    rw [hsplit, hdrop] at husable
    rw [hsplit, htake] at hretired
    obtain ⟨hanswer, p, hstep, hp⟩ := h.get_reused ho husable
    have hv : v = (u.retire p).lend x.leased := hstep
    rw [hv, ← hretired]
    exact ⟨hanswer, rfl, rfl, rfl, hp⟩
  · intro ho hall
    rw [List.dropWhile_eq_nil_iff.2 hall] at husable
    rw [List.takeWhile_eq_self_iff.2 hall] at hretired
    obtain ⟨p, hp, ⟨slot, hanswer, hstep⟩ | ⟨f, hanswer, hstep, hfault⟩⟩ := h.get_unused ho husable
    · have hv : v = { u.retire p with opening := slot :: u.opening } := hstep
      rw [hv, ← hretired]
      exact ⟨rfl, hp, rfl, .inl ⟨slot, hanswer, rfl⟩⟩
    · have hv : v = u.retire p := hstep
      rw [hname] at hfault
      rw [hv, ← hretired]
      exact ⟨rfl, hp, rfl, .inr ⟨f, hanswer, rfl, hfault⟩⟩
  · intro l ha
    obtain ⟨-, x, rest, rfl, hu⟩ := h.get_ok ha
    rw [husable] at hu
    have hmem : x ∈ fresh := (List.dropWhile_sublist tooOld).subset (hu ▸ List.mem_cons_self)
    have hold : tooOld x = false := by
      have hhead := List.head?_dropWhile_not tooOld fresh
      rw [hu] at hhead
      simpa using hhead
    have hlong : idleTooLong x = false := by simpa using (List.mem_filter.1 hmem).2
    exact ⟨x, hmem, rfl, hlong, hold⟩
  · intro slot result l ha
    obtain ⟨-, session, -, rfl⟩ := answer_finish_ok ha
    rfl

theorem run_reuse_second :
    let options : PoolOptions := { idleTimeoutMs := some 30, maxLifetimeMs := some 100 }
    let as : List (Action Scenario.Stub) :=
      [.get, .finish 0 (.ok ⟨1, true⟩), .setClock 60000000, .get,
      .finish 1 (.ok ⟨2, true⟩), .get, .finish 2 (.ok ⟨3, true⟩), .get, .finish 3 (.ok ⟨4, true⟩),
      .setClock 70000000, .drop 0, .setClock 90000000, .drop 0, .setClock 95000000, .drop 0,
      .setClock 100000000, .drop 0, .setClock 110000000]
    let u := (start "cache" options none).run as
    (start "cache" options none).Forward as ∧ u.pool.closed = false ∧
      u.pool.resting.map Resting.id = [1, 2, 3, 4] ∧
      u.answer .get = some (.ok ⟨1, 2, 60000000, ⟨2, true⟩⟩) ∧
      (u.step .get).tornDown.map Member.id = [4, 1] ∧
      (u.step .get).pool.resting = [⟨2, 3, 60000000, 90000000, ⟨3, true⟩⟩] := by
  intro options as u
  have hforward : (start "cache" options none).Forward as := by
    simp only [as, Forward]
    decide +kernel
  have hopen : u.pool.closed = false := by decide +kernel
  obtain ⟨-, -, -, hreused, -⟩ := run_reuse "cache" options none as hforward
  obtain ⟨hanswer, -, -, htorn, hrest⟩ := hreused hopen
    [⟨0, 1, 0, 100000000, ⟨1, true⟩⟩] ⟨1, 2, 60000000, 95000000, ⟨2, true⟩⟩
    [⟨2, 3, 60000000, 90000000, ⟨3, true⟩⟩] (by decide +kernel) (by decide +kernel)
    (by decide +kernel)
  exact ⟨hforward, hopen, by decide +kernel, hanswer, by rw [htorn]; decide +kernel, hrest⟩

end Usage

end SessionPool
