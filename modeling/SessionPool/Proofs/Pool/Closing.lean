import SessionPool.Proofs.Pool.Capacity
import SessionPool.Proofs.Pool.Ownership
import SessionPool.Proofs.Pool.Teardown
import SessionPool.Scenario.Basic

/-!
# A closed pool

A pool that was closed stays closed, and no action adds to it: a get is refused before anything is
looked at, so no handshake begins. What is left are the leases and the handshakes that were in
progress when it was closed. These end like those of an open pool; but whatever comes back is torn
down.
-/

namespace SessionPool

namespace Pool

variable {κ : Type} {p : Pool κ}

theorem Shows.closed_close {idle : List (Resting κ)} {reserved : List Nat}
    (h : p.Shows idle [] reserved) : p.close.pool.closed = true := by
  obtain ⟨idle', hc, -⟩ := h.close
  generalize p.close = done at hc
  cases hc with
  | already hc => exact hc
  | drained _ hh => exact congrArg Header.closed hh

theorem beginGet_closed (now : Nat) (hc : p.closed = true) :
    p.beginGet now = ⟨.refused (.poolClosed p.name), [], p⟩ := by
  rw [beginGet, if_pos hc]

theorem close_closed (hc : p.closed = true) : p.close = ⟨(), [], p⟩ := by
  rw [close, if_pos hc]

end Pool

namespace Usage

variable {κ : Type} {u u' : Usage κ}

theorem take_close_closed (hc : u.pool.closed = true) : u.take u.pool.close = u := by
  simp [take, Pool.close_closed hc]

theorem Owned.active_closed (h : u.Owned) (hs : u.Settled) (hc : u.pool.closed = true) :
    u.pool.active = u.taken.length := by
  rw [h.amount, Usage.amount, hs.drained hc, taken_length, List.length_nil, Nat.zero_add]

theorem Owned.freed {v : Usage κ} (h : u.Owned) (hv : v.Owned) {slot : Nat}
    (hr : v.pool.resting = u.pool.resting) (ht : u.taken.Perm (slot :: v.taken)) :
    v.pool.arena.block slot = .vacant ∧ v.pool.active + 1 = u.pool.active := by
  have hidle : v.pool.idle.entries.map IdleEntry.slot = u.pool.idle.entries.map IdleEntry.slot := by
    rw [hv.entries, h.entries, hr]
  constructor
  · by_contra hblock
    have hnd := ((ht.append_left _).trans List.perm_middle).nodup_iff.1 h.nodup
    have howner := (hv.block_ne_vacant_iff slot).1 hblock
    rw [hidle] at howner
    exact (List.nodup_cons.1 hnd).1 howner
  · have hlen := ht.length_eq
    have hentries := congrArg List.length hidle
    have hu := h.active
    have hv := hv.active
    simp only [List.length_cons, List.length_map, taken_length] at hlen hentries
    omega

variable [Transport κ]

theorem Change.stays_closed {a : Action κ} (h : u.Change a u') (hc : u.pool.closed = true) :
    u'.pool.closed = true := by
  cases h with
  | closed | noHandshake | unused | executed | unmarked | marked | undropped | already | clock =>
    exact hc
  | reused _ _ _ hh | overload _ _ _ _ _ hh | allocation _ _ _ _ hh | began _ _ _ _ hh
  | opened _ _ hh | failed _ _ hh | destroyed _ _ _ hh | kept _ _ _ _ hh | evicted _ _ _ _ _ _ hh =>
    exact (congrArg Pool.Header.closed hh).trans hc
  | drained _ _ hh => exact congrArg Pool.Header.closed hh

theorem Owned.run_closed (h : u.Owned) (hc : u.pool.closed = true) (as : List (Action κ)) :
    (u.run as).pool.closed = true :=
  h.run_keeps (fun _ hv hchange => hchange.stays_closed hv) hc as

theorem get_closed (hc : u.pool.closed = true) :
    u.answer .get = some (.error (.poolClosed u.pool.name)) ∧ u.step .get = u := by
  have hb := Pool.beginGet_closed u.now hc
  constructor
  · rw [answer, hb]
    rfl
  · simp [step, hb, begin, take]

theorem Change.taken_closed {a : Action κ} (h : u.Change a u') (hc : u.pool.closed = true) :
    u'.opening.Sublist u.opening ∧ u'.taken.length ≤ u.taken.length := by
  rw [taken_length, taken_length]
  cases h with
  | closed | noHandshake | unused | unmarked | undropped | already | clock =>
    exact ⟨.refl _, le_rfl⟩
  | reused ho | overload ho | allocation ho | began ho | drained ho =>
    rw [hc] at ho
    cases ho
  | opened hs hr hh =>
    have hlen := List.length_erase_of_mem hs
    have hpos := List.length_pos_of_mem hs
    refine ⟨List.erase_sublist, ?_⟩
    simp only [List.length_cons]
    omega
  | failed hs hr hh => exact ⟨List.erase_sublist, Nat.add_le_add_left List.length_erase_le _⟩
  | executed hl => exact ⟨.refl _, by simp [put]⟩
  | marked hl => exact ⟨.refl _, by simp⟩
  | destroyed hl hk hr hh | kept hl hk hroom hr hh | evicted hl hk hlim hle hi hr hh =>
    exact ⟨.refl _, Nat.add_le_add_right (List.length_eraseIdx_le _ _) _⟩

theorem Owned.run_taken_closed (h : u.Owned) (hc : u.pool.closed = true) (as : List (Action κ)) :
    (u.run as).opening.Sublist u.opening ∧ (u.run as).taken.length ≤ u.taken.length := by
  have hkeeps := h.run_keeps (P := fun v => v.pool.closed = true ∧
    v.opening.Sublist u.opening ∧ v.taken.length ≤ u.taken.length) ?_ ⟨hc, .refl _, le_rfl⟩ as
  · exact hkeeps.2
  · rintro v v' a - ⟨hcv, hsub, hle⟩ hchange
    obtain ⟨hsub', hle'⟩ := hchange.taken_closed hcv
    exact ⟨hchange.stays_closed hcv, hsub'.trans hsub, hle'.trans hle⟩

theorem finish_ok {slot : Nat} (hs : slot ∈ u.opening) (session : κ) :
    let l : Leased κ := ⟨slot, u.pool.nextId, u.now, session⟩
    let v := u.step (.finish slot (.ok session))
    u.answer (.finish slot (.ok session)) = some (.ok l) ∧ v.leases = .ofLeased l :: u.leases ∧
      v.opening = u.opening.erase slot ∧ v.pool.active = u.pool.active := by
  intro l v
  have hv : v = u.finish slot (u.pool.finishGet slot (.ok session) u.now) := if_pos hs
  rw [hv]
  exact ⟨by rw [answer, if_pos hs]; rfl, rfl, rfl, rfl⟩

theorem Owned.finish_error (h : u.Owned) {slot : Nat} (hs : slot ∈ u.opening) (cause : Fault) :
    let v := u.step (.finish slot (.error cause))
    u.answer (.finish slot (.error cause)) = some (.error (.handshake u.pool.name cause)) ∧
      v.leases = u.leases ∧ v.opening = u.opening.erase slot ∧ v.tornDown = u.tornDown ∧
      v.pool.header = { u.pool.header with failures := u.pool.failures + 1 } ∧
      v.pool.arena.block slot = .vacant ∧ v.pool.active + 1 = u.pool.active := by
  intro v
  refine ⟨by rw [answer, if_pos hs]; rfl, ?_⟩
  obtain ⟨hc, hv⟩ : u.Change (.finish slot (.error cause)) v ∧ v.Owned := h.change_finish slot _
  generalize v = v at hc hv
  cases hc with
  | noHandshake hs' => exact absurd hs hs'
  | @failed _ _ p _ hr hh => exact ⟨rfl, rfl, rfl, hh, h.freed hv hr (taken_perm_of_opening hs)⟩

theorem Owned.drop_closed (h : u.Owned) (hc : u.pool.closed = true) {i : Nat} {l : Lease κ}
    (hl : u.leases[i]? = some l) :
    let v := u.step (.drop i)
    v.tornDown = u.tornDown ++ [l.leased.member] ∧ v.leases = u.leases.eraseIdx i ∧
      v.opening = u.opening ∧ v.pool.arena.block l.leased.slot = .vacant ∧
      v.pool.active + 1 = u.pool.active := by
  intro v
  obtain ⟨p, hr, -, hd⟩ := h.drop_destroyed hl (Pool.keeps_eq_false.2 (.inr (.inl hc)))
  have hv : v.Owned := h.step (.drop i)
  have hv' : v = _ := hd
  generalize v = v at hv hv'
  subst hv'
  exact ⟨rfl, rfl, rfl, h.freed hv hr (taken_perm_of_lease hl)⟩

/-- What is found in a state `u` of the pool `name` if handshakes for the blocks `pending` were in
progress when it was closed. -/
structure Shut (name : String) (pending : List Nat) (u : Usage κ) : Prop where
  idle : u.pool.idle.entries = [] ∧ u.pool.idle.isEmpty = true ∧ u.pool.idleCount = 0
  get : u.pool.beginGet u.now = ⟨.refused (.poolClosed name), [], u.pool⟩ ∧
    u.answer .get = some (.error (.poolClosed name)) ∧ u.step .get = u
  reassign : ∀ i, u.answer (.reassign i) = some (.error (.poolClosed name)) ∧
    u.step (.reassign i) = u.step (.drop i)
  active : u.pool.active = u.leases.length + u.opening.length
  pending : u.opening.Sublist pending
  shrinks : ∀ a, (u.step a).opening.Sublist u.opening ∧ (u.step a).pool.active ≤ u.pool.active
  opens : ∀ slot ∈ u.opening, ∀ session,
    let l : Leased κ := ⟨slot, u.pool.nextId, u.now, session⟩
    let v := u.step (.finish slot (.ok session))
    u.answer (.finish slot (.ok session)) = some (.ok l) ∧ v.leases = .ofLeased l :: u.leases ∧
      v.opening = u.opening.erase slot ∧ v.pool.active = u.pool.active
  fails : ∀ slot ∈ u.opening, ∀ cause,
    let v := u.step (.finish slot (.error cause))
    u.answer (.finish slot (.error cause)) = some (.error (.handshake name cause)) ∧
      v.leases = u.leases ∧ v.opening = u.opening.erase slot ∧ v.tornDown = u.tornDown ∧
      v.pool.header = { u.pool.header with failures := u.pool.failures + 1 } ∧
      v.pool.arena.block slot = .vacant ∧ v.pool.active + 1 = u.pool.active
  drops : ∀ i l, u.leases[i]? = some l →
    let v := u.step (.drop i)
    v.tornDown = u.tornDown ++ [l.leased.member] ∧ v.leases = u.leases.eraseIdx i ∧
      v.opening = u.opening ∧ v.pool.arena.block l.leased.slot = .vacant ∧
      v.pool.active + 1 = u.pool.active
  ended : u.leases = [] → u.opening = [] →
    u.pool.active = 0 ∧ (u.opened.map Leased.member).Perm u.tornDown
  again : u.pool.close = ⟨(), [], u.pool⟩ ∧ u.step .close = u

theorem Owned.shut {name : String} {options : PoolOptions} {pending : List Nat} (h : u.Owned)
    (hs : u.Settled) (hb : u.Bounded name options) (hc : u.pool.closed = true)
    (hp : u.opening.Sublist pending) : u.Shut name pending := by
  obtain rfl := hb.sameName
  have hnil := hs.drained hc
  have hentries : u.pool.idle.entries = [] := by rw [h.listed.entries, hnil]; rfl
  obtain ⟨-, hcount, hsize, -⟩ := h.counters
  have hactive : u.pool.active = u.leases.length + u.opening.length := by
    rw [h.active_closed hs hc, taken_length]
  have hget := get_closed hc
  exact
    { idle := by
        rw [hentries, List.length_nil] at hcount hsize
        exact ⟨hentries, by rw [IdleList.isEmpty, hsize]; rfl, hcount⟩
      get := ⟨Pool.beginGet_closed u.now hc, hget⟩
      reassign := fun i => by
        have hd := (h.change_drop i).1
        have hdrop := get_closed (hd.stays_closed hc)
        rw [answer_reassign, step_reassign]
        rwa [hd.same.1] at hdrop
      active := hactive
      pending := hp
      shrinks := fun a => by
        obtain ⟨hsub, hle⟩ := h.run_taken_closed hc [a]
        have hstep : (u.step a).pool.active = (u.step a).taken.length :=
          (h.step a).active_closed (hs.step h a) (h.run_closed hc [a])
        rw [hstep, h.active_closed hs hc]
        exact ⟨hsub, hle⟩
      opens := fun _ hslot session => finish_ok hslot session
      fails := fun _ hslot cause => h.finish_error hslot cause
      drops := fun _ _ hl => h.drop_closed hc hl
      ended := fun hl ho => ⟨by rw [hactive, hl, ho]; rfl, by
        have hmembers := hs.accounted.members
        rw [hl, hnil] at hmembers
        exact hmembers.symm⟩
      again := ⟨Pool.close_closed hc, take_close_closed hc⟩ }

/-- Closing a pool is final, whatever was done before and whatever is done after it. -/
theorem run_closing (name : String) (options : PoolOptions) (bound : Option Nat)
    (as bs : List (Action κ)) :
    let u := (start name options bound).run as
    Shut name u.opening ((u.step .close).run bs) := by
  intro u
  have h : u.Owned := (owned_start name options bound).run as
  have hclosed : (u.step .close).pool.closed = true := Pool.Shows.closed_close h
  have hpending : ((u.step .close).run bs).opening.Sublist u.opening :=
    ((h.step .close).run_taken_closed hclosed bs).1
  have hrun : (start name options bound).run (as ++ .close :: bs) = (u.step .close).run bs :=
    run_append _ as _
  rw [← hrun] at hpending ⊢
  refine ((owned_start name options bound).run _).shut (run_settled name options bound _)
    (run_bounded name options bound _) ?_ hpending
  rw [hrun]
  exact (h.step .close).run_closed hclosed bs

/-- A request whose own handshake closes the pool still gets its session, and no other request does.
-/
example :
    let u := (start "p" {} none : Usage Scenario.Stub).run
      [.get, .close, .get, .finish 0 (.ok ⟨1, true⟩), .get]
    u.leases.map (fun l => l.leased.session.serial) = [1] ∧ u.opening = [] ∧
      u.pool.stats = ⟨1, 0, 1⟩ ∧ (u.step (.drop 0)).tornDown.map (fun m => m.session.serial) = [1] ∧
      (u.step (.drop 0)).pool.stats = 0 := by
  decide +kernel

end Usage

end SessionPool
