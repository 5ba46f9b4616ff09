import SessionPool.Proofs.Pool.Closing
import SessionPool.Proofs.Pool.Memory
import SessionPool.Proofs.Pool.Reuse

/-!
# A get that comes to nothing

A get takes things in stages: the idle sessions that are overdue, a unit of capacity, a block. If it
comes to nothing in the end, what it took for itself is given back, and only the count of failures
tells of it, or not even that.
-/

namespace SessionPool

theorem Pool.retired_of_unusable {κ : Type} {o : PoolOptions} {now : Nat} {idle : List (Resting κ)}
    (hu : Pool.usable o now idle = []) :
    (Pool.retired o now idle).Perm idle ∧
      ∀ x ∈ idle, Pool.stale o now x = true ∨ Pool.aged o now x = true := by
  have hperm := Pool.retired_append_usable_perm o now idle
  rw [hu, List.append_nil] at hperm
  exact ⟨hperm, fun x hx => (Pool.mem_retired (hperm.symm.subset hx)).2⟩

namespace Usage

variable {κ : Type} {u v : Usage κ}

/-- A get was begun in `u`, and in `v` it has come to nothing. The idle sessions, all overdue, are
gone, no number was used up, and the blocks in use are those of the leases and the handshakes that
there were. -/
structure Fruitless (u v : Usage κ) : Prop where
  leases : v.leases = u.leases
  opening : v.opening = u.opening
  opened : v.opened = u.opened
  returns : v.returns = u.returns
  idle : v.pool.idle.entries = [] ∧ v.pool.idleCount = 0
  tornDown : ∃ gone : List (Resting κ), gone.Perm u.pool.resting ∧
    v.tornDown = u.tornDown ++ gone.map Resting.member
  header : v.pool.header = { u.pool.header with failures := u.pool.failures + 1 }
  active : v.pool.active = u.leases.length + u.opening.length
  blocks : ∀ s, v.pool.arena.block s = if s ∈ u.taken then .reserved else .vacant
  freeNodup : v.pool.arena.free.Nodup
  free : ∀ s, s ∈ v.pool.arena.free ↔ s < v.pool.arena.capacity ∧ s ∉ u.taken

theorem Owned.fruitless (hv : v.Owned) (hu : Pool.usable u.pool.options u.now u.pool.resting = [])
    (hl : v.leases = u.leases) (ho : v.opening = u.opening) (hopened : v.opened = u.opened)
    (hreturns : v.returns = u.returns) (hr : v.pool.resting = [])
    (ht : v.tornDown = (u.retire v.pool).tornDown)
    (hh : v.pool.header = { u.pool.header with failures := u.pool.failures + 1 }) :
    u.Fruitless v := by
  have hentries : v.pool.idle.entries = [] := by
    rw [hv.listed.entries, hr]
    rfl
  have htaken : v.taken = u.taken := by rw [taken, taken, hl, ho]
  have hblocks : ∀ s, v.pool.arena.block s = if s ∈ u.taken then .reserved else .vacant := by
    intro s
    rw [← htaken]
    split
    · next hs => exact hv.block_reserved hs
    · next hs => exact hv.block_vacant (by rw [hr]; exact List.not_mem_nil) hs
  exact
    { leases := hl
      opening := ho
      opened := hopened
      returns := hreturns
      idle := ⟨hentries, by rw [hv.counters.2.1, hentries]; rfl⟩
      tornDown := ⟨_, (Pool.retired_of_unusable hu).1, ht⟩
      header := hh
      active := by rw [hv.amount, Usage.amount, hr, hl, ho, List.length_nil, Nat.zero_add]
      blocks := hblocks
      freeNodup := hv.keeps.sound.free_nodup
      free := fun s => by
        rw [hv.keeps.sound.mem_free, hblocks]
        by_cases hs : s ∈ u.taken <;> simp [hs] }

def counted : Except Fault (Leased κ) → Bool
  | .error .allocation => true
  | .error (.handshake _ _) => true
  | _ => false

variable [Transport κ]

/-! ## The first half -/

theorem Owned.get_error {name : String} {options : PoolOptions} {f : Fault} (h : u.Owned)
    (hb : u.Bounded name options) (ha : u.answer .get = some (.error f)) :
    (f = .poolClosed name ∨ ∃ limit, options.activeLimit = some limit ∧ f = .overload name limit) ∧
        u.step .get = u ∨
      f = .allocation ∧ Pool.usable u.pool.options u.now u.pool.resting = [] ∧
        u.Fruitless (u.step .get) := by
  obtain rfl := hb.sameName
  obtain rfl := hb.sameOptions
  have hg := h.got
  have hv := h.step .get
  rw [ha] at hg
  generalize hstep : u.step .get = v at hg hv
  cases hg with
  | closed => exact .inl ⟨.inl rfl, rfl⟩
  | @overload limit p ho hu hl hle =>
    rw [← hstep]
    exact .inl ⟨.inr ⟨limit, hl, rfl⟩, (h.get_full ho hl (hb.bounded limit hl) hle).2⟩
  | allocation ho hu hr hh => exact .inr ⟨rfl, hu, hv.fruitless hu rfl rfl rfl rfl hr rfl hh⟩

theorem Owned.get_pending (h : u.Owned) (ha : u.answer .get = none) :
    Pool.usable u.pool.options u.now u.pool.resting = [] ∧ ∃ slot p, slot ∉ u.taken ∧
      p.resting = [] ∧ p.header = u.pool.header ∧
      u.step .get = { u.retire p with opening := slot :: u.opening } := by
  have hg := h.got
  have hv := h.step .get
  rw [ha] at hg
  generalize u.step .get = v at hg hv
  cases hg with
  | @began slot p ho hu hr hh =>
    refine ⟨hu, slot, p, fun hmem => ?_, hr, hh, rfl⟩
    have hnd := (List.nodup_append.1 hv.slots_nodup).2.1
    exact (List.nodup_cons.1 (List.perm_middle.nodup_iff.1 hnd)).1 hmem

/-! ## The second half -/

theorem Owned.finish_failed (h : u.Owned) {slot : Nat} (hs : slot ∈ u.opening) (cause : Fault) :
    u.step (.finish slot (.error cause)) = { u with
      pool := { u.pool with
        arena := u.pool.arena.vacate slot
        active := u.pool.active - 1
        failures := u.pool.failures + 1 }
      opening := u.opening.erase slot } := by
  have hblock := h.block_reserved (List.mem_append_right _ hs)
  simp [Usage.step, hs, Usage.finish, take, Pool.finishGet, Pool.destroy, Arena.release, hblock]

theorem Change.still_opening {a : Action κ} (h : u.Change a v) {slot : Nat} (hs : slot ∈ u.opening)
    (ha : ∀ result, a ≠ .finish slot result) : slot ∈ v.opening := by
  cases h with
  | closed | noHandshake | unused | unmarked | undropped | already | clock | reused | overload
  | allocation | executed | marked | destroyed | kept | evicted | drained => exact hs
  | began => exact List.mem_cons_of_mem _ hs
  | opened | failed =>
    refine (List.mem_erase_of_ne ?_).2 hs
    rintro rfl
    exact ha _ rfl

theorem Owned.step_still_opening (h : u.Owned) {slot : Nat} (hs : slot ∈ u.opening) {a : Action κ}
    (ha : ∀ result, a ≠ .finish slot result) : slot ∈ (u.step a).opening := by
  by_cases hr : ∃ i, a = .reassign i
  · obtain ⟨i, rfl⟩ := hr
    obtain ⟨hd, ho⟩ := h.change_drop i
    rw [step_reassign]
    exact ho.change_get.1.still_opening (hd.still_opening hs (by simp)) (by simp)
  · exact (h.change fun i hi => hr ⟨i, hi⟩).1.still_opening hs ha

theorem Owned.play_still_opening (h : u.Owned) {slot : Nat} (hs : slot ∈ u.opening)
    {ts : List (Turn κ)} (hts : ∀ result, .act (.finish slot result) ∉ ts) :
    slot ∈ (u.play ts).opening := by
  induction ts generalizing u with
  | nil => exact hs
  | cons t ts ih =>
    have hrest : ∀ result, .act (.finish slot result) ∉ ts := fun result hmem =>
      hts result (List.mem_cons_of_mem _ hmem)
    refine ih (h.turn t) ?_ hrest
    cases t with
    | act a =>
      refine h.step_still_opening hs fun result ha => hts result ?_
      rw [ha]
      exact List.mem_cons_self
    | memory blocks => exact hs

/-! ## The count of failures -/

def answers (u : Usage κ) : List (Turn κ) → List (Except Fault (Leased κ))
  | [] => []
  | .act a :: ts => (u.answer a).toList ++ (u.step a).answers ts
  | .memory blocks :: ts => (u.within blocks).answers ts

theorem Owned.failures_get (h : u.Owned) : (u.step .get).pool.failures =
    u.pool.failures + (u.answer .get).toList.countP counted := by
  have hg := h.got
  generalize u.answer .get = result, u.step .get = v at hg
  cases hg with
  | closed => rfl
  | reused _ _ _ hh | overload _ _ _ _ _ hh | allocation _ _ _ hh | began _ _ _ hh =>
    exact congrArg Pool.Header.failures hh

theorem Owned.failures_finish (h : u.Owned) (slot : Nat) (result : Except Fault κ) :
    (u.step (.finish slot result)).pool.failures =
      u.pool.failures + (u.answer (.finish slot result)).toList.countP counted := by
  by_cases hs : slot ∈ u.opening
  · cases result with
    | ok session => simp [Usage.step, hs, answer, Usage.finish, take, lend, Pool.finishGet, counted]
    | error cause =>
      rw [h.finish_failed hs]
      simp [hs, answer, Pool.finishGet, counted]
  · simp [Usage.step, hs, answer]

theorem Change.failures {a : Action κ} (h : u.Change a v) (hget : a ≠ .get)
    (hfinish : ∀ slot result, a ≠ .finish slot result) : v.pool.failures = u.pool.failures := by
  cases h with
  | closed | reused | overload | allocation | began => exact absurd rfl hget
  | noHandshake | opened | failed => exact absurd rfl (hfinish _ _)
  | unused | executed | unmarked | marked | undropped | already | clock => rfl
  | destroyed _ _ _ hh | kept _ _ _ _ hh | evicted _ _ _ _ _ _ hh | drained _ _ hh =>
    exact congrArg Pool.Header.failures hh

theorem Owned.failures_step (h : u.Owned) (a : Action κ) : (u.step a).pool.failures =
    u.pool.failures + (u.answer a).toList.countP counted := by
  cases a with
  | get => exact h.failures_get
  | finish slot result => exact h.failures_finish slot result
  | reassign i =>
    have hdrop := (h.change_drop i).1.failures (by simp) (by simp)
    rw [step_reassign, answer_reassign, (h.step (.drop i)).failures_get, hdrop]
  | execute | discard | drop | close | setClock =>
    exact (h.change (by simp)).1.failures (by simp) (by simp)

theorem Owned.failures_play (h : u.Owned) (ts : List (Turn κ)) : (u.play ts).pool.failures =
    u.pool.failures + (u.answers ts).countP counted := by
  induction ts generalizing u with
  | nil => rfl
  | cons t ts ih =>
    refine (ih (h.turn t)).trans ?_
    cases t with
    | act a =>
      rw [answers, List.countP_append, ← Nat.add_assoc, ← h.failures_step a]
      rfl
    | memory blocks => rfl

/-! ## The law -/

theorem Owned.fruitless_finish (h : u.Owned) {slot : Nat} {p : Pool κ}
    (hu : Pool.usable u.pool.options u.now u.pool.resting = []) (hr : p.resting = [])
    (hh : p.header = u.pool.header)
    (hstep : u.step .get = { u.retire p with opening := slot :: u.opening }) (now : Nat)
    (cause : Fault) :
    u.Fruitless (((u.step .get).step (.setClock now)).step (.finish slot (.error cause))) := by
  have hw := (h.step .get).step (.setClock now)
  have hwait : (u.step .get).step (.setClock now) =
      { u.retire p with opening := slot :: u.opening, now } := by rw [hstep]; rfl
  generalize (u.step .get).step (.setClock now) = w at hw hwait ⊢
  obtain ⟨hc, hv⟩ := hw.change_finish slot (.error cause)
  generalize w.step (.finish slot (.error cause)) = v at hc hv ⊢
  subst hwait
  cases hc with
  | noHandshake hs => exact absurd List.mem_cons_self hs
  | failed hs hr' hh' =>
    refine hv.fruitless hu rfl (List.erase_cons_head ..) rfl rfl (hr'.trans hr) rfl ?_
    obtain ⟨-, -, hfailures, -⟩ := Pool.header_inj hh
    refine hh'.trans ?_
    change { p.header with failures := p.failures + 1 } = _
    rw [hh, hfailures]

/-- A get on a closed or a full pool is refused and changes nothing. Any other get that fails found
that every idle session was overdue, and all it leaves behind is that they are gone and that one
more failure is counted. If the pool is used while a handshake is in progress, the block of the
handshake is reserved all the time, and when it fails this block is given back and the rest stays as
it is. Over every history the count of failures is the number of gets that failed to open a session.
-/
theorem play_failures (name : String) (options : PoolOptions) (ts : List (Turn κ)) :
    let u := (start name options none).play ts
    let v := u.step .get
    let overdue (x : Resting κ) : Prop :=
      (∃ limit, options.idleTimeout = some limit ∧ limit.nanos < u.now - x.idleSince) ∨
        ∃ limit, options.maxLifetime = some limit ∧ limit.nanos < u.now - x.createdAt
    u.pool.failures = ((start name options none : Usage κ).answers ts).countP counted ∧
    (∀ f, u.answer .get = some (.error f) →
      (f = .poolClosed name ∨
          ∃ limit, options.activeLimit = some limit ∧ f = .overload name limit) ∧ v = u ∨
        f = .allocation ∧ (∀ x ∈ u.pool.resting, overdue x) ∧ u.Fruitless v) ∧
    (u.answer .get = none → (∀ x ∈ u.pool.resting, overdue x) ∧
      ∃ slot ∉ u.taken, v.opening = slot :: u.opening ∧
        (∀ now cause,
          u.Fruitless ((v.step (.setClock now)).step (.finish slot (.error cause)))) ∧
        ∀ nested cause, (∀ result, .act (.finish slot result) ∉ nested) →
          let w := v.play nested
          let w' := w.step (.finish slot (.error cause))
          slot ∈ w.opening ∧ w.pool.arena.block slot = .reserved ∧
          w.answer (.finish slot (.error cause)) = some (.error (.handshake name cause)) ∧
          w' = { w with
            pool := { w.pool with
              arena := w.pool.arena.vacate slot
              active := w.pool.active - 1
              failures := w.pool.failures + 1 }
            opening := w.opening.erase slot } ∧
          w'.pool.active + 1 = w.pool.active ∧ w'.pool.arena.block slot = .vacant ∧
          slot ∈ w'.pool.arena.free) ∧
    (∀ slot result f, u.answer (.finish slot result) = some (.error f) →
      ∃ cause, result = .error cause ∧ f = .handshake name cause) ∧
    ∀ i, u.answer (.reassign i) = (u.step (.drop i)).answer .get ∧
      u.step (.reassign i) = (u.step (.drop i)).step .get := by
  intro u v overdue
  have h : u.Owned := (owned_start name options none).play ts
  have hb : u.Bounded name options := play_bounded name options ts
  have hfailures :
      u.pool.failures = ((start name options none : Usage κ).answers ts).countP counted := by
    have hplay := (owned_start name options none).failures_play ts
    rwa [show (start name options none : Usage κ).pool.failures = 0 from rfl, Nat.zero_add] at hplay
  have hoverdue : Pool.usable u.pool.options u.now u.pool.resting = [] →
      ∀ x ∈ u.pool.resting, overdue x := by
    intro hu x hx
    obtain hstale | haged := (Pool.retired_of_unusable hu).2 x hx
    · obtain ⟨limit, hlim, he⟩ := (Option.any_eq_true _ _).1 hstale
      exact .inl ⟨limit, hb.sameOptions ▸ hlim, of_decide_eq_true he⟩
    · obtain ⟨limit, hlim, he⟩ := (Option.any_eq_true _ _).1 haged
      exact .inr ⟨limit, hb.sameOptions ▸ hlim, of_decide_eq_true he⟩
  refine ⟨hfailures, fun f ha => ?_, fun ha => ?_, fun slot result f ha => ?_,
    fun i => ⟨u.answer_reassign i, u.step_reassign i⟩⟩
  · exact (h.get_error hb ha).imp_right fun ⟨hf, hu, hfruitless⟩ => ⟨hf, hoverdue hu, hfruitless⟩
  · obtain ⟨hu, slot, p, hslot, hr, hh, hv⟩ := h.get_pending ha
    have hopening : v.opening = slot :: u.opening := congrArg Usage.opening hv
    refine ⟨hoverdue hu, slot, hslot, hopening,
      fun now cause => h.fruitless_finish hu hr hh hv now cause, fun nested cause hnested => ?_⟩
    intro w w'
    have hw : w.Owned := (h.step .get).play nested
    have hs : slot ∈ w.opening :=
      (h.step .get).play_still_opening (hopening ▸ List.mem_cons_self) hnested
    have hwb : w.Bounded name options := (hb.step h .get).play (h.step .get) nested
    obtain ⟨hanswer, -, -, -, -, hvacant, hactive⟩ := hw.finish_error hs cause
    rw [hwb.sameName] at hanswer
    have hlt : slot < w'.pool.arena.capacity := by
      have hlt := Arena.lt_capacity_of_block_ne_vacant (a := w.pool.arena) (s := slot)
        (by rw [hw.block_reserved (List.mem_append_right _ hs)]; simp)
      rw [show w' = _ from hw.finish_failed hs cause]
      exact hlt.trans_eq (Arena.size_blocks_setBlock w.pool.arena slot .vacant).symm
    refine ⟨hs, hw.block_reserved (List.mem_append_right _ hs), hanswer, hw.finish_failed hs cause,
      hactive, hvacant, ?_⟩
    exact ((hw.step (.finish slot (.error cause))).keeps.sound.mem_free slot).2 ⟨hlt, hvacant⟩
  · simp only [answer] at ha
    split at ha
    · cases result with
      | ok session => cases ha
      | error cause =>
        cases ha
        exact ⟨cause, rfl, congrArg (fun n => Fault.handshake n cause) hb.sameName⟩
    · cases ha

/-- A handshake fails during which another one gave a session. Its block is the next one to be
handed out, and then there is no memory for a third. -/
example :
    let ts : List (Turn Scenario.Stub) := [.act .get, .act .get, .act (.finish 1 (.ok ⟨1, true⟩)),
      .act (.finish 0 (.error .notConfigured)), .memory (some 2), .act .get, .act .get]
    let u := (start "p" {} none).play ts
    u.pool.failures = 2 ∧ u.opening = [0] ∧ u.taken = [1, 0] ∧ u.pool.arena.free = [] ∧
      u.pool.stats = ⟨2, 0, 2⟩ ∧
      (u.step (.finish 0 (.error .notConfigured))).pool.arena.free = [0] := by
  decide +kernel

end Usage

end SessionPool
