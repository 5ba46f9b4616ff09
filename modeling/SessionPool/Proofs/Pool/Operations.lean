import SessionPool.Proofs.Pool.View

/-!
# The operations of a pool

One theorem for each operation says everything it can do: what it answers, which sessions it tears
down and in which order, and what the pool holds and which of its numbers changed afterwards. Later
proofs use these and never open an operation again.
-/

namespace SessionPool.Pool

variable {κ : Type} {p : Pool κ} {idle loose : List (Resting κ)} {reserved : List Nat}

section scan

variable (o : PoolOptions) (now : Nat)

def stale (x : Resting κ) : Bool := timedOut o now x.entry
def aged (x : Resting κ) : Bool := tooOld o now x.entry

/-- The sessions a scan gives up, in the order in which it meets them: the stale ones at the back
from the last one on, then the aged ones at the front. -/
def retired (idle : List (Resting κ)) : List (Resting κ) :=
  (idle.rtakeWhile (stale o now)).reverse ++ (idle.rdropWhile (stale o now)).takeWhile (aged o now)

def usable (idle : List (Resting κ)) : List (Resting κ) :=
  (idle.rdropWhile (stale o now)).dropWhile (aged o now)

theorem retired_append_usable_perm (idle : List (Resting κ)) :
    (retired o now idle ++ usable o now idle).Perm idle := by
  rw [retired, usable, List.append_assoc, List.takeWhile_append_dropWhile]
  refine ((List.reverse_perm _).append_right _).trans (List.perm_append_comm.trans ?_)
  rw [List.rdropWhile_append_rtakeWhile]

theorem usable_sublist (idle : List (Resting κ)) : (usable o now idle).Sublist idle :=
  (List.dropWhile_sublist _).trans (List.rdropWhile_prefix _ _).sublist

theorem takeBack_resting {l : IdleList} (h : l.Holds (idle.map Resting.entry))
    (test : IdleEntry → Bool) :
    ∃ l', l.takeBack test [] l.size =
        ((idle.rtakeWhile fun x => test x.entry).reverse.map Resting.slot, l') ∧
      l'.Holds ((idle.rdropWhile fun x => test x.entry).map Resting.entry) := by
  obtain ⟨l', hl', h'⟩ := h.takeBack test [] h.size.ge
  refine ⟨l', ?_, ?_⟩
  · rw [hl', ← List.map_reverse, List.takeWhile_map, List.map_map, List.rtakeWhile,
      List.reverse_reverse]
    rfl
  · rw [List.rdropWhile, ← List.map_reverse, List.dropWhile_map, ← List.map_reverse] at h'
    exact h'

theorem takeFront_resting {l : IdleList} (h : l.Holds (idle.map Resting.entry))
    (test : IdleEntry → Bool) :
    ∃ l', l.takeFront test [] l.size =
        ((idle.dropWhile fun x => test x.entry).head?.map Resting.entry,
        (idle.takeWhile fun x => test x.entry).map Resting.slot, l') ∧
      l'.Holds ((idle.dropWhile fun x => test x.entry).tail.map Resting.entry) := by
  obtain ⟨l', hl', h'⟩ := h.takeFront test [] h.size.ge
  refine ⟨l', ?_, ?_⟩
  · rw [hl', List.dropWhile_map, List.takeWhile_map, List.map_map, List.head?_map]
    rfl
  · rw [List.dropWhile_map, ← List.map_tail] at h'
    exact h'

theorem Shows.scanIdle (h : p.Shows idle [] reserved) :
    ∃ p', p.scanIdle now = ((usable p.options now idle).head?.map Resting.entry,
        (retired p.options now idle).map Resting.slot, p') ∧ p'.header = p.header ∧
      p'.Shows (usable p.options now idle).tail
        (retired p.options now idle ++ (usable p.options now idle).head?.toList) reserved := by
  obtain ⟨l₁, hl₁, h₁⟩ := takeBack_resting h.listed (timedOut p.options now)
  obtain ⟨l₂, hl₂, h₂⟩ := takeFront_resting h₁ (tooOld p.options now)
  have hperm := retired_append_usable_perm p.options now idle
  have hsplit : ((usable p.options now idle).tail ++ (retired p.options now idle ++
      (usable p.options now idle).head?.toList)).Perm idle := by
    refine List.Perm.trans ?_ hperm
    cases usable p.options now idle with
    | nil => simp
    | cons x rest => exact List.perm_append_comm.trans (by simp)
  have hlen := hsplit.length_eq
  simp only [List.length_append] at hlen
  refine ⟨{ p with
      idle := l₂
      idleCount := p.idleCount - ((retired p.options now idle).length +
        (usable p.options now idle).head?.toList.length) }, ?_, rfl, h₂, ?_, ?_, ?_⟩
  · have hslots : ((idle.rtakeWhile fun x => timedOut p.options now x.entry).reverse.map
          Resting.slot) ++ (((idle.rdropWhile fun x => timedOut p.options now x.entry).takeWhile
          fun x => tooOld p.options now x.entry).map Resting.slot) =
        (retired p.options now idle).map Resting.slot := List.map_append.symm
    have hchosen : (usable p.options now idle).head?.toList.length =
        ((usable p.options now idle).head?.map Resting.entry).toList.length := by
      rw [Option.toList_map, List.length_map]
    rw [hchosen]
    simp only [Pool.scanIdle, hl₁, hl₂, hslots, List.length_map]
    rfl
  · refine h.keeps.perm ?_ (.refl _)
    rw [List.append_nil]
    exact (hsplit.map _).symm
  · have hact := h.active
    simp only [List.length_nil, List.length_append] at hact ⊢
    omega
  · have hcount := h.idleCount
    change p.idleCount - _ = _
    omega

end scan

def Room (o : PoolOptions) (n : Nat) : Prop := ∀ limit, o.activeLimit = some limit → n < limit

theorem limitReached?_eq_some {limit : Nat} :
    p.limitReached? = some limit ↔ p.options.activeLimit = some limit ∧ limit ≤ p.active := by
  rw [limitReached?, Option.filter_eq_some_iff, decide_eq_true_eq]

theorem limitReached?_eq_none : p.limitReached? = none ↔ Room p.options p.active := by
  rw [limitReached?, Option.filter_eq_none_iff]
  exact forall₂_congr fun limit _ => by rw [decide_eq_true_eq, not_le]

/-- How an attempt to get a session begins when `idle` is listed and `reserved` is taken: what it
answers and tears down, and what is listed and taken afterwards. -/
inductive Begun (now : Nat) (p : Pool κ) (idle : List (Resting κ)) (reserved : List Nat) :
    Outcome κ (Attempt κ) → List (Resting κ) → List Nat → Prop
  | closed (hc : p.closed = true) :
    Begun now p idle reserved ⟨.refused (.poolClosed p.name), [], p⟩ idle reserved
  | reused {x rest p'} (ho : p.closed = false) (hu : usable p.options now idle = x :: rest)
      (hh : p'.header = p.header) :
    Begun now p idle reserved
      ⟨.reused x.leased, (retired p.options now idle).map Resting.member, p'⟩
      rest (x.slot :: reserved)
  | overload {limit p'} (ho : p.closed = false) (hu : usable p.options now idle = [])
      (hl : p.options.activeLimit = some limit) (hle : limit ≤ reserved.length)
      (hh : p'.header = p.header) :
    Begun now p idle reserved ⟨.refused (.overload p.name limit),
      (retired p.options now idle).map Resting.member, p'⟩ [] reserved
  | allocation {p'} (ho : p.closed = false) (hu : usable p.options now idle = [])
      (hr : Room p.options reserved.length)
      (hh : p'.header = { p.header with failures := p.failures + 1 }) :
    Begun now p idle reserved ⟨.refused .allocation,
      (retired p.options now idle).map Resting.member, p'⟩ [] reserved
  | opening {slot p'} (ho : p.closed = false) (hu : usable p.options now idle = [])
      (hr : Room p.options reserved.length) (hh : p'.header = p.header) :
    Begun now p idle reserved ⟨.opening slot, (retired p.options now idle).map Resting.member, p'⟩
      [] (slot :: reserved)

theorem header_inj {p p' : Pool κ} (h : p'.header = p.header) :
    p'.name = p.name ∧ p'.options = p.options ∧ p'.failures = p.failures ∧ p'.nextId = p.nextId ∧
      p'.closed = p.closed :=
  ⟨congrArg Header.name h, congrArg Header.options h, congrArg Header.failures h,
    congrArg Header.nextId h, congrArg Header.closed h⟩

theorem Shows.reserve_begun {now : Nat} {p₁ : Pool κ} (h : p₁.Shows [] [] reserved)
    (hh : p₁.header = p.header) (ho : p.closed = false) (hu : usable p.options now idle = []) :
    ∃ idle' reserved', Begun now p idle reserved
        ⟨p₁.reserve.1, (retired p.options now idle).map Resting.member, p₁.reserve.2⟩
        idle' reserved' ∧
      p₁.reserve.2.Shows idle' [] reserved' := by
  obtain ⟨hname, hopt, hfail, -, -⟩ := header_inj hh
  have hact : p₁.active = reserved.length := by simpa using h.active
  cases hl : p₁.limitReached? with
  | some limit =>
    obtain ⟨hlim, hle⟩ := limitReached?_eq_some.1 hl
    have hr : p₁.reserve = (.refused (.overload p.name limit), p₁) := by
      simp only [reserve, hl, hname]
    rw [hr]
    exact ⟨[], reserved, .overload ho hu (hopt ▸ hlim) (hact ▸ hle) hh, h⟩
  | none =>
    have hroom : Room p.options reserved.length := by
      rw [← hopt, ← hact]
      exact limitReached?_eq_none.1 hl
    cases ha : p₁.arena.acquire? with
    | some got =>
      obtain ⟨slot, arena⟩ := got
      have hr : p₁.reserve = (.opening slot, { p₁ with arena, active := p₁.active + 1 }) := by
        simp only [reserve, hl, ha]
      rw [hr]
      refine ⟨[], slot :: reserved, .opening ho hu hroom hh, h.listed, h.keeps.acquire ha, ?_,
        h.idleCount⟩
      change p₁.active + 1 = _
      simp [hact]
    | none =>
      have hr : p₁.reserve = (.refused .allocation, { p₁ with failures := p₁.failures + 1 }) := by
        simp only [reserve, hl, ha]
      rw [hr]
      refine ⟨[], reserved, .allocation ho hu hroom ?_, h.listed, h.keeps, h.active, h.idleCount⟩
      rw [← hh, ← hfail]
      rfl

theorem Shows.beginGet (h : p.Shows idle [] reserved) (now : Nat) :
    ∃ idle' reserved', Begun now p idle reserved (p.beginGet now) idle' reserved' ∧
      (p.beginGet now).pool.Shows idle' [] reserved' := by
  cases ho : p.closed with
  | true =>
    have hb : p.beginGet now = ⟨.refused (.poolClosed p.name), [], p⟩ := by
      rw [Pool.beginGet, if_pos ho]
    rw [hb]
    exact ⟨idle, reserved, .closed ho, h⟩
  | false =>
    obtain ⟨p₁, hscan, hh₁, h₁⟩ := h.scanIdle now
    obtain ⟨p₂, hdestroy, h₂, hh₂⟩ := h₁.destroyAll
    have hh := hh₂.trans hh₁
    cases hu : usable p.options now idle with
    | nil =>
      rw [hu] at hscan h₂
      have hb : p.beginGet now =
          ⟨p₂.reserve.1, (retired p.options now idle).map Resting.member, p₂.reserve.2⟩ := by
        simp [Pool.beginGet, ho, hscan, hdestroy]
      rw [hb]
      exact h₂.reserve_begun hh ho hu
    | cons x rest =>
      rw [hu] at hscan h₂
      obtain ⟨arena, ha, hk⟩ := h₂.keeps_loose.take
      have hb : p.beginGet now =
          ⟨.reused x.leased, (retired p.options now idle).map Resting.member,
            { p₂ with arena }⟩ := by
        have hslot : p₂.arena.take? x.entry.slot = some (x.member, arena) := ha
        simp only [Pool.beginGet, ho, hscan, hdestroy, List.head?_cons, Option.map_some, hslot]
        rfl
      rw [hb]
      refine ⟨rest, x.slot :: reserved, .reused ho hu hh, h₂.listed, hk, ?_, h₂.idleCount⟩
      have hact := h₂.active
      simp only [List.head?_cons, Option.toList_some, List.length_cons, List.length_nil,
        List.tail_cons]
        at hact ⊢
      omega

theorem beginGet_new (name : String) (options : PoolOptions) (now : Nat) (l : Leased κ) :
    ((new name options : Pool κ).beginGet now).answer ≠ .reused l := by
  obtain ⟨idle, reserved, hb, -⟩ := (shows_fresh (κ := κ) name options none).beginGet now
  rw [fresh_none] at hb
  intro ha
  generalize (new name options : Pool κ).beginGet now = done at hb ha
  cases hb with
  | reused ho hu hh => cases hu
  | _ => cases ha

inductive Finished (slot : Nat) (now : Nat) (p : Pool κ) (reserved : List Nat) :
    Except Fault κ → Outcome κ (Except Fault (Leased κ)) → List Nat → Prop
  | opened {session p'} (hh : p'.header = { p.header with nextId := p.nextId + 1 }) :
    Finished slot now p reserved (.ok session) ⟨.ok ⟨slot, p.nextId, now, session⟩, [], p'⟩
      (slot :: reserved)
  | failed {cause p'} (hh : p'.header = { p.header with failures := p.failures + 1 }) :
    Finished slot now p reserved (.error cause) ⟨.error (.handshake p.name cause), [], p'⟩ reserved

theorem Shows.finishGet {slot : Nat} (h : p.Shows idle [] (slot :: reserved))
    (result : Except Fault κ) (now : Nat) :
    ∃ reserved', Finished slot now p reserved result (p.finishGet slot result now) reserved' ∧
      (p.finishGet slot result now).pool.Shows idle [] reserved' := by
  cases result with
  | ok session =>
    exact ⟨slot :: reserved, .opened rfl, h.listed, h.keeps, h.active, h.idleCount⟩
  | error cause =>
    obtain ⟨p₁, hdestroy, h₁, hh₁⟩ := h.destroy_reserved
    have hf : p.finishGet slot (.error cause) now =
        ⟨.error (.handshake p.name cause), [], { p₁ with failures := p.failures + 1 }⟩ := by
      obtain ⟨hname, -, hfail, -⟩ := header_inj hh₁
      simp only [Pool.finishGet, hdestroy, hname, hfail]
    rw [hf]
    refine ⟨reserved, .failed ?_, h₁.listed, h₁.keeps, h₁.active, h₁.idleCount⟩
    rw [← hh₁]
    rfl

inductive Returned [Transport κ] (l : Leased κ) (discarded : Bool) (now : Nat) (p : Pool κ)
    (idle : List (Resting κ)) : Outcome κ Unit → List (Resting κ) → Prop
  | destroyed {p'} (hk : p.keeps discarded l.session = false) (hh : p'.header = p.header) :
    Returned l discarded now p idle ⟨(), [l.member], p'⟩ idle
  | kept {p'} (hk : p.keeps discarded l.session = true) (hr : ∀ limit,
      p.options.idleLimit = some limit → idle.length < limit) (hh : p'.header = p.header) :
    Returned l discarded now p idle ⟨(), [], p'⟩ (l.resting now :: idle)
  | evicted {limit init last p'} (hk : p.keeps discarded l.session = true)
      (hl : p.options.idleLimit = some limit) (hle : limit ≤ idle.length)
      (hi : idle = init ++ [last])
      (hh : p'.header = p.header) :
    Returned l discarded now p idle ⟨(), [last.member], p'⟩ (l.resting now :: init)

theorem Shows.enter {l : Leased κ} (h : p.Shows idle [] (l.slot :: reserved)) (now : Nat) :
    ∃ arena, p.arena.park? l.slot l.member = some arena ∧
      ({ p with arena }.enter ⟨l.slot, l.createdAt, now⟩).Shows
        (l.resting now :: idle) [] reserved := by
  obtain ⟨arena, ha, hk⟩ := h.keeps.park l.member
  have hnd := hk.nodup
  rw [List.map_cons, List.cons_append, List.nodup_cons] at hnd
  have hslot : ∀ e ∈ idle.map Resting.entry, (e.slot != l.slot) = true := by
    intro e he
    obtain ⟨x, hx, rfl⟩ := List.mem_map.1 he
    refine bne_iff_ne.2 fun hxl => hnd.1 (List.mem_append_left _ ?_)
    rw [List.append_nil, List.map_map]
    exact List.mem_map.2 ⟨x, hx, hxl⟩
  have hpush := h.listed.pushFront ⟨l.slot, l.createdAt, now⟩
  rw [List.filter_eq_self.2 hslot] at hpush
  refine ⟨arena, ha, hpush, hk, ?_, congrArg (· + 1) h.idleCount⟩
  have hact := h.active
  simp only [List.length_cons, List.length_nil] at hact ⊢
  change p.active = _
  omega

theorem Shows.evict_none (h : p.Shows idle [] reserved)
    (hr : ∀ limit, p.options.idleLimit = some limit → idle.length ≤ limit) : p.evict = ([], p) := by
  have hany : (p.options.idleLimit.any fun limit => limit < p.idle.size) = false := by
    rw [h.listed.size, List.length_map]
    cases hl : p.options.idleLimit with
    | none => rfl
    | some limit => simpa using hr limit hl
  rw [evict, hany]
  rfl

theorem Shows.pop_last {init : List (Resting κ)} {last : Resting κ}
    (h : p.Shows (init ++ [last]) [] reserved) :
    ∃ l', p.idle.popBack? = some (last.entry, l') ∧
      Shows { p with idle := l', idleCount := p.idleCount - 1 } init [last] reserved := by
  have hlisted := h.listed
  rw [List.map_append] at hlisted
  obtain ⟨l', hpop, hl'⟩ := hlisted.popBack_concat
  have hcount := h.idleCount
  have hact := h.active
  simp only [List.length_append, List.length_cons, List.length_nil] at hcount hact
  refine ⟨l', hpop, hl', h.keeps.perm ?_ (.refl _), ?_, ?_⟩
  · rw [List.append_nil]
  · simpa using hact
  · change p.idleCount - 1 = _
    omega

theorem Shows.evict_concat {init : List (Resting κ)} {last : Resting κ} {limit : Nat}
    (h : p.Shows (init ++ [last]) [] reserved) (hl : p.options.idleLimit = some limit)
    (hle : limit < (init ++ [last]).length) :
    ∃ p', p.evict = ([last.member], p') ∧ p'.Shows init [] reserved ∧ p'.header = p.header := by
  obtain ⟨l', hpop, h₁⟩ := h.pop_last
  obtain ⟨p', hdestroy, h', hh⟩ := h₁.destroy_loose
  refine ⟨p', ?_, h', hh⟩
  have hany : (p.options.idleLimit.any fun limit => limit < p.idle.size) = true := by
    rw [hl, h.listed.size, List.length_map]
    simpa using hle
  rw [evict, if_pos hany, hpop]
  exact hdestroy

theorem Shows.giveBack [Transport κ] {l : Leased κ} (h : p.Shows idle [] (l.slot :: reserved))
    (discarded : Bool) (now : Nat) :
    ∃ idle', Returned l discarded now p idle (p.giveBack l discarded now) idle' ∧
      (p.giveBack l discarded now).pool.Shows idle' [] reserved := by
  cases hk : p.keeps discarded l.session with
  | false =>
    obtain ⟨p', hdestroy, h', hh⟩ := h.destroy_reserved
    have hg : p.giveBack l discarded now = ⟨(), [l.member], p'⟩ := by
      simp only [Pool.giveBack, hk, hdestroy]
      rfl
    rw [hg]
    exact ⟨idle, .destroyed hk hh, h'⟩
  | true =>
    obtain ⟨arena, ha, h₁⟩ := h.enter now
    set p₁ := { p with arena }.enter ⟨l.slot, l.createdAt, now⟩
    have hg : p.giveBack l discarded now = ⟨(), p₁.evict.1, p₁.evict.2⟩ := by
      simp only [Pool.giveBack, hk, ha]
      rfl
    rw [hg]
    by_cases hroom : ∀ limit, p.options.idleLimit = some limit → idle.length < limit
    · have he : p₁.evict = ([], p₁) := h₁.evict_none fun limit hl => hroom limit hl
      rw [he]
      exact ⟨_, .kept hk hroom rfl, h₁⟩
    · push Not at hroom
      obtain ⟨limit, hl, hle⟩ := hroom
      -- the limit is not zero, so the session that came back is not the one that has to go
      have hne : idle ≠ [] := by
        rintro rfl
        obtain rfl := Nat.le_zero.1 hle
        simp [Pool.keeps, hl] at hk
      obtain ⟨init, last, rfl⟩ := (List.eq_nil_or_concat idle).resolve_left hne
      rw [List.concat_eq_append] at h₁ hle ⊢
      have h₂ : p₁.Shows ((l.resting now :: init) ++ [last]) [] reserved := h₁
      obtain ⟨p', he, h', hh⟩ := h₂.evict_concat hl (Nat.lt_succ_of_le hle)
      rw [he]
      exact ⟨_, .evicted hk hl hle rfl hh, h'⟩

inductive Closed (p : Pool κ) (idle : List (Resting κ)) : Outcome κ Unit → List (Resting κ) → Prop
  | already (hc : p.closed = true) : Closed p idle ⟨(), [], p⟩ idle
  | drained {p'} (ho : p.closed = false) (hh : p'.header = { p.header with closed := true }) :
    Closed p idle ⟨(), idle.map Resting.member, p'⟩ []

theorem Shows.drain (h : p.Shows idle [] reserved) :
    ∃ l', p.idle.takeFront (fun _ => true) [] p.idle.size = (none, idle.map Resting.slot, l') ∧
      Shows { p with closed := true, idle := l', idleCount := p.idleCount - idle.length } []
        (idle ++ []) reserved := by
  obtain ⟨l', hl', h'⟩ := takeFront_resting h.listed fun _ => true
  have hall : (idle.takeWhile fun _ => true) = idle := List.takeWhile_eq_self_iff.2 fun _ _ => rfl
  have hnone : (idle.dropWhile fun _ => true) = [] := List.dropWhile_eq_nil_iff.2 fun _ _ => rfl
  rw [hnone] at hl' h'
  rw [hall] at hl'
  have hcount := h.idleCount
  refine ⟨l', hl', h', h.keeps, ?_, ?_⟩
  · simpa using h.active
  · change p.idleCount - idle.length = 0
    omega

theorem Shows.close (h : p.Shows idle [] reserved) :
    ∃ idle', Closed p idle p.close idle' ∧ p.close.pool.Shows idle' [] reserved := by
  cases ho : p.closed with
  | true =>
    have hc : p.close = ⟨(), [], p⟩ := by rw [Pool.close, if_pos ho]
    rw [hc]
    exact ⟨idle, .already ho, h⟩
  | false =>
    obtain ⟨l', hl', h₁⟩ := h.drain
    obtain ⟨p', hdestroy, h₂, hh⟩ := h₁.destroyAll
    have hc : p.close = ⟨(), idle.map Resting.member, p'⟩ := by
      simp [Pool.close, ho, hl', hdestroy]
    rw [hc]
    exact ⟨[], .drained ho hh, h₂⟩

end SessionPool.Pool
