import SessionPool.Proofs.Pool.Usage

/-!
# The capacity of a pool

The pool counts its idle sessions too, but a get that finds none to reuse has torn all of them down
before it looks at the limit. So a get is refused for lack of capacity exactly if the leases and the
handshakes in progress fill the pool, and then there was nothing to tear down either.
-/

namespace SessionPool

def Attempt.outcome? {κ : Type} : Attempt κ → Option (Except Fault (Leased κ))
  | .refused f => some (.error f)
  | .reused l => some (.ok l)
  | .opening _ => none

namespace Pool

variable {κ : Type} {p : Pool κ}

theorem scanIdle_nil (now : Nat) (h : p.idle.size = 0) : p.scanIdle now = (none, [], p) := by
  simp [scanIdle, h, IdleList.takeBack, IdleList.takeFront]

theorem Shows.beginGet_full {reserved : List Nat} {limit : Nat} (h : p.Shows [] [] reserved)
    (now : Nat) (ho : p.closed = false) (hl : p.options.activeLimit = some limit)
    (hle : limit ≤ reserved.length) :
    p.beginGet now = ⟨.refused (.overload p.name limit), [], p⟩ := by
  have hact : p.active = reserved.length := by simpa using h.active
  have hlim : p.limitReached? = some limit := limitReached?_eq_some.2 ⟨hl, by omega⟩
  have hres : p.reserve = (.refused (.overload p.name limit), p) := by
    simp only [reserve, hlim]
  simp [Pool.beginGet, ho, scanIdle_nil now h.listed.size, Pool.destroyAll, hres]

end Pool

namespace Usage

variable {κ : Type} {u : Usage κ}

def answer [Transport κ] (u : Usage κ) : Action κ → Option (Except Fault (Leased κ))
  | .get => (u.pool.beginGet u.now).answer.outcome?
  | .finish slot result =>
    if slot ∈ u.opening then some (u.pool.finishGet slot result u.now).answer else none
  | .reassign i => (Lease.beginReassign u.leases[i]? u.now u.pool).answer.outcome?
  | _ => none

theorem answer_reassign [Transport κ] (u : Usage κ) (i : Nat) :
    u.answer (.reassign i) = (u.step (.drop i)).answer .get := by
  cases hl : u.leases[i]? with
  | none =>
    simp only [answer, step, hl]
    rfl
  | some l =>
    simp only [answer, step, hl]
    rfl

inductive Got (u : Usage κ) : Option (Except Fault (Leased κ)) → Usage κ → Prop
  | closed (hc : u.pool.closed = true) : Got u (some (.error (.poolClosed u.pool.name))) u
  | reused {x rest p} (ho : u.pool.closed = false)
      (hu : Pool.usable u.pool.options u.now u.pool.resting = x :: rest)
      (hr : p.resting = rest) (hh : p.header = u.pool.header) :
    Got u (some (.ok x.leased)) ((u.retire p).lend x.leased)
  | overload {limit p} (ho : u.pool.closed = false)
      (hu : Pool.usable u.pool.options u.now u.pool.resting = [])
      (hl : u.pool.options.activeLimit = some limit) (hle : limit ≤ u.taken.length)
      (hr : p.resting = []) (hh : p.header = u.pool.header) :
    Got u (some (.error (.overload u.pool.name limit))) (u.retire p)
  | allocation {p} (ho : u.pool.closed = false)
      (hu : Pool.usable u.pool.options u.now u.pool.resting = []) (hr : p.resting = [])
      (hh : p.header = { u.pool.header with failures := u.pool.failures + 1 }) :
    Got u (some (.error .allocation)) (u.retire p)
  | began {slot p} (ho : u.pool.closed = false)
      (hu : Pool.usable u.pool.options u.now u.pool.resting = []) (hr : p.resting = [])
      (hh : p.header = u.pool.header) :
    Got u none { u.retire p with opening := slot :: u.opening }

theorem Owned.got [Transport κ] (h : u.Owned) : u.Got (u.answer .get) (u.step .get) := by
  obtain ⟨idle', reserved', hb, hs⟩ := Pool.Shows.beginGet h u.now
  simp only [answer, Usage.step]
  generalize u.pool.beginGet u.now = done at hb hs
  cases hb with
  | closed hc =>
    have hu : u.begin ⟨.refused (.poolClosed u.pool.name), [], u.pool⟩ = u := by
      simp [begin, take]
    rw [hu]
    exact .closed hc
  | reused ho hu hh => exact .reused ho hu hs.resting hh
  | overload ho hu hl hle hh => exact .overload ho hu hl hle hs.resting hh
  | allocation ho hu hroom hh => exact .allocation ho hu hs.resting hh
  | opening ho hu hroom hh => exact .began ho hu hs.resting hh

def amount (u : Usage κ) : Nat := u.pool.resting.length + u.leases.length + u.opening.length

theorem Owned.amount (h : u.Owned) : u.pool.active = u.amount := by
  have hact := h.active
  simp only [List.length_nil, taken_length] at hact
  rw [Usage.amount]
  omega

/-- Only a handshake adds a session, and where it begins there is room for one more than those that
are lent or being opened. -/
theorem Change.amount_le [Transport κ] {a : Action κ} {u' : Usage κ} (h : u.Change a u') :
    u'.amount ≤ u.amount ∨
      u'.amount = u.taken.length + 1 ∧ Pool.Room u.pool.options u.taken.length := by
  have hplace : ∀ {i l}, u.leases[i]? = some l →
      (u.leases.eraseIdx i).length + 1 = u.leases.length :=
    fun hl => (perm_lease hl).length_eq.symm
  cases h with
  | closed | noHandshake | unused | unmarked | undropped | already | clock => exact .inl le_rfl
  | reused ho hu hr hh =>
    have hle := (Pool.usable_sublist u.pool.options u.now u.pool.resting).length_le
    rw [hu, List.length_cons] at hle
    simp only [amount, retire, lend, hr, List.length_cons]
    omega
  | overload ho hu hl hle hr hh =>
    simp only [amount, retire, hr, List.length_nil]
    omega
  | allocation ho hu hroom hr hh =>
    simp only [amount, retire, hr, List.length_nil]
    omega
  | began ho hu hroom hr hh =>
    refine .inr ⟨?_, hroom⟩
    simp only [amount, retire, hr, taken_length, List.length_cons, List.length_nil]
    omega
  | opened hs hr hh =>
    have hpos := List.length_pos_of_mem hs
    simp only [amount, hr, List.length_cons, List.length_erase_of_mem hs]
    omega
  | failed hs hr hh =>
    simp only [amount, hr, List.length_erase_of_mem hs]
    omega
  | executed hl => exact .inl (by simp [amount, put])
  | marked hl => exact .inl (by simp [amount])
  | destroyed hl hk hr hh =>
    have := hplace hl
    simp only [amount, hr]
    omega
  | kept hl hk hroom hr hh =>
    have := hplace hl
    simp only [amount, hr, List.length_cons]
    omega
  | evicted hl hk hlim hle hi hr hh =>
    have := hplace hl
    simp only [amount, hi, hr, List.length_cons, List.length_append]
    omega
  | drained ho hr hh =>
    simp only [amount, hr, List.length_nil]
    omega

structure Bounded (name : String) (options : PoolOptions) (u : Usage κ) : Prop where
  sameName : u.pool.name = name
  sameOptions : u.pool.options = options
  bounded : ∀ limit, options.activeLimit = some limit → u.amount ≤ limit

theorem bounded_start (name : String) (options : PoolOptions) (bound : Option Nat) :
    Bounded name options (start name options bound : Usage κ) where
  sameName := rfl
  sameOptions := rfl
  bounded limit _ := by
    rw [amount, start_resting]
    exact Nat.zero_le limit

theorem Change.same [Transport κ] {a : Action κ} {u' : Usage κ} (h : u.Change a u') :
    u'.pool.name = u.pool.name ∧ u'.pool.options = u.pool.options := by
  cases h with
  | closed | noHandshake | unused | executed | unmarked | marked | undropped | already | clock =>
    exact ⟨rfl, rfl⟩
  | reused ho hu hr hh | overload ho hu hl hle hr hh | allocation ho hu hroom hr hh
  | began ho hu hroom hr hh | opened hs hr hh | failed hs hr hh | destroyed hl hk hr hh
  | kept hl hk hroom hr hh | evicted hl hk hlim hle hi hr hh | drained ho hr hh =>
    exact ⟨congrArg Pool.Header.name hh, congrArg Pool.Header.options hh⟩

theorem Bounded.change [Transport κ] {name : String} {options : PoolOptions} {a : Action κ}
    {u' : Usage κ} (h : u.Bounded name options) (hc : u.Change a u') : u'.Bounded name options where
  sameName := hc.same.1.trans h.sameName
  sameOptions := hc.same.2.trans h.sameOptions
  bounded limit hl := by
    rcases hc.amount_le with hle | ⟨heq, hroom⟩
    · exact hle.trans (h.bounded limit hl)
    · rw [h.sameOptions] at hroom
      rw [heq]
      exact hroom limit hl

theorem Bounded.step [Transport κ] {name : String} {options : PoolOptions}
    (hb : u.Bounded name options) (h : u.Owned) (a : Action κ) : (u.step a).Bounded name options :=
  h.step_keeps (fun _ hb hc => hb.change hc) hb a

theorem run_bounded [Transport κ] (name : String) (options : PoolOptions) (bound : Option Nat)
    (as : List (Action κ)) : ((start name options bound).run as).Bounded name options :=
  (owned_start name options bound).run_keeps (fun _ hb hc => hb.change hc)
    (bounded_start name options bound) as

theorem Owned.get_full [Transport κ] {limit : Nat} (h : u.Owned) (ho : u.pool.closed = false)
    (hl : u.pool.options.activeLimit = some limit) (hb : u.amount ≤ limit)
    (hle : limit ≤ u.taken.length) :
    u.answer .get = some (.error (.overload u.pool.name limit)) ∧ u.step .get = u := by
  have hnil : u.pool.resting = [] := by
    rw [taken_length] at hle
    rw [Usage.amount] at hb
    exact List.length_eq_zero_iff.1 (by omega)
  have hs : u.pool.Shows [] [] u.taken := by
    have hs := h
    rwa [Owned, hnil] at hs
  have hb := hs.beginGet_full u.now ho hl hle
  constructor
  · simp only [answer, hb, Attempt.outcome?]
  · simp [Usage.step, hb, begin, take]

theorem Owned.overload_get [Transport κ] {n : String} {limit : Nat} (h : u.Owned)
    (ha : u.answer .get = some (.error (.overload n limit))) :
    n = u.pool.name ∧ u.pool.closed = false ∧ u.pool.options.activeLimit = some limit ∧
      limit ≤ u.taken.length := by
  have hg := h.got
  rw [ha] at hg
  generalize u.step .get = v at hg
  cases hg with
  | overload ho hu hl hle => exact ⟨rfl, ho, hl, hle⟩

theorem Owned.overload [Transport κ] {a : Action κ} {name n : String} {options : PoolOptions}
    {limit : Nat} (h : u.Owned) (hb : u.Bounded name options)
    (ha : u.answer a = some (.error (.overload n limit))) :
    n = name ∧ options.activeLimit = some limit := by
  have hget : ∀ {u : Usage κ}, u.Owned → u.Bounded name options →
      u.answer .get = some (.error (.overload n limit)) →
      n = name ∧ options.activeLimit = some limit := by
    intro u h hb ha
    obtain ⟨hn, -, hl, -⟩ := h.overload_get ha
    exact ⟨hn.trans hb.sameName, hb.sameOptions ▸ hl⟩
  cases a with
  | get => exact hget h hb ha
  | reassign i =>
    rw [answer_reassign] at ha
    exact hget (h.step _) (hb.step h _) ha
  | finish slot result =>
    simp only [answer] at ha
    split at ha
    · cases result with
      | ok session => cases ha
      | error cause => cases ha
    · cases ha
  | execute | discard | drop | close | setClock => cases ha

/-- An open pool refuses a get for lack of capacity exactly if its leases and the handshakes in
progress reach the limit, and then nothing changes; a pool without a limit never refuses so. -/
theorem run_capacity [Transport κ] (name : String) (options : PoolOptions) (bound : Option Nat)
    (as : List (Action κ)) :
    let u := (start name options bound).run as
    (∀ limit, options.maxActive = some limit →
      u.pool.active ≤ limit.toNat ∧
      (u.pool.closed = false →
        (u.answer .get = some (.error (.overload name limit.toNat)) ↔
          limit.toNat ≤ u.leases.length + u.opening.length)) ∧
      (u.answer .get = some (.error (.overload name limit.toNat)) → u.step .get = u)) ∧
    (∀ i, u.answer (.reassign i) = (u.step (.drop i)).answer .get) ∧
    (∀ a n limit, u.answer a = some (.error (.overload n limit)) →
      n = name ∧ options.maxActive.map UInt64.toNat = some limit) ∧
    (options.maxActive = none →
      ∀ a n limit, u.answer a ≠ some (.error (.overload n limit))) := by
  intro u
  have h : u.Owned := (owned_start name options bound).run as
  have hb : u.Bounded name options := run_bounded name options bound as
  have hover : ∀ a n limit, u.answer a = some (.error (.overload n limit)) →
      n = name ∧ options.activeLimit = some limit := fun a n limit ha => h.overload hb ha
  refine ⟨fun limit hl => ?_, u.answer_reassign, hover, fun hnone a n limit ha => ?_⟩
  · have hl' : options.activeLimit = some limit.toNat := by rw [PoolOptions.activeLimit, hl]; rfl
    have hfull : u.pool.closed = false → limit.toNat ≤ u.taken.length →
        u.answer .get = some (.error (.overload name limit.toNat)) ∧ u.step .get = u := by
      intro ho hle
      have hg := h.get_full ho (hb.sameOptions ▸ hl') (hb.bounded _ hl') hle
      rwa [hb.sameName] at hg
    refine ⟨h.amount ▸ hb.bounded _ hl', fun ho => ?_, fun ha => ?_⟩
    · rw [← taken_length]
      exact ⟨fun ha => (h.overload_get ha).2.2.2, fun hle => (hfull ho hle).1⟩
    · obtain ⟨-, ho, -, hle⟩ := h.overload_get ha
      exact (hfull ho hle).2
  · have hl := (hover a n limit ha).2
    rw [PoolOptions.activeLimit, hnone] at hl
    cases hl

end Usage

end SessionPool
