import SessionPool.Proofs.Pool.Accounts

/-!
# When sessions are torn down

What was torn down stays so. A session is torn down at once if it comes back spoiled, or if the pool
is closed or keeps no idle sessions; otherwise only when it is idle, because the pool is closed, a
get finds it beyond its limits, or too many were returned after it.
-/

namespace SessionPool

namespace Pool

variable {κ : Type} {p : Pool κ}

theorem idleLimit_eq_zero {o : PoolOptions} : o.idleLimit = some 0 ↔ o.maxIdle = some 0 := by
  rw [PoolOptions.idleLimit, Option.map_eq_some_iff]
  constructor
  · rintro ⟨limit, hlimit, hzero⟩
    rw [hlimit, UInt64.toNat_inj.1 (hzero.trans UInt64.toNat_zero.symm)]
  · rintro hzero
    exact ⟨0, hzero, UInt64.toNat_zero⟩

theorem keeps_eq_false [Transport κ] {discarded : Bool} {session : κ} :
    p.keeps discarded session = false ↔
      (discarded = true ∨ Transport.isHealthy session = false) ∨ p.closed = true ∨
        p.options.maxIdle = some 0 := by
  rw [← idleLimit_eq_zero]
  cases discarded <;> cases hs : Transport.isHealthy session <;> cases hc : p.closed <;>
    simp [Pool.keeps, hs, hc]

theorem mem_retired {o : PoolOptions} {now : Nat} {idle : List (Resting κ)} {x : Resting κ}
    (hx : x ∈ retired o now idle) : x ∈ idle ∧ (stale o now x = true ∨ aged o now x = true) := by
  refine ⟨(retired_append_usable_perm o now idle).subset (List.mem_append_left _ hx), ?_⟩
  rcases List.mem_append.1 hx with hx | hx
  · exact .inl (List.mem_rtakeWhile_imp (List.mem_reverse.1 hx))
  · exact .inr (List.mem_takeWhile_imp hx)

end Pool

namespace Usage

variable {κ : Type} {u u' : Usage κ}

/-- The idle sessions stand in the order of their latest returns, the latest first. -/
structure Recency (returns : List Nat) (idle : List (Resting κ)) : Prop where
  returned : ∀ x ∈ idle, x.id ∈ returns
  ordered : idle.Pairwise fun x y => returns.idxOf x.id < returns.idxOf y.id

variable {returns : List Nat} {idle : List (Resting κ)}

theorem Recency.sublist (h : Recency returns idle) {idle' : List (Resting κ)}
    (hs : idle'.Sublist idle) : Recency returns idle' :=
  ⟨fun x hx => h.returned x (hs.subset hx), h.ordered.sublist hs⟩

theorem idxOf_of_later {n : Nat} (hn : n ∉ idle.map Resting.id) {x : Resting κ} (hx : x ∈ idle) :
    (n :: returns).idxOf x.id = returns.idxOf x.id + 1 :=
  List.idxOf_cons_ne returns fun heq => hn (heq ▸ List.mem_map_of_mem hx)

theorem Recency.later (h : Recency returns idle) {n : Nat} (hn : n ∉ idle.map Resting.id) :
    Recency (n :: returns) idle where
  returned x hx := List.mem_cons_of_mem n (h.returned x hx)
  ordered := by
    refine h.ordered.imp_of_mem fun hx hy hxy => ?_
    rw [idxOf_of_later hn hx, idxOf_of_later hn hy]
    omega

theorem Recency.push (h : Recency returns idle) {x : Resting κ} (hn : x.id ∉ idle.map Resting.id) :
    Recency (x.id :: returns) (x :: idle) where
  returned := List.forall_mem_cons.2 ⟨List.mem_cons_self, (h.later hn).returned⟩
  ordered := by
    refine List.pairwise_cons.2 ⟨fun y hy => ?_, (h.later hn).ordered⟩
    rw [List.idxOf_cons_self, idxOf_of_later hn hy]
    exact Nat.succ_pos _

theorem Accounted.held_nodup (h : u.Accounted) : (u.held.map Leased.id).Nodup := by
  obtain ⟨gone, -, hperm⟩ := h.accounts
  have hnd := ((hperm.map Leased.id).nodup_iff).2 h.nodup
  rw [List.map_append] at hnd
  exact (List.nodup_append.1 hnd).1

theorem Accounted.lease_not_idle (h : u.Accounted) {i : Nat} {l : Lease κ}
    (hl : u.leases[i]? = some l) : l.leased.id ∉ u.pool.resting.map Resting.id := by
  have hnd := (((held_perm hl).map Leased.id).nodup_iff).1 h.held_nodup
  rw [List.map_cons, List.nodup_cons, List.map_append] at hnd
  intro hmem
  refine hnd.1 (List.mem_append_right _ ?_)
  rw [List.map_map]
  exact hmem

structure Settled (u : Usage κ) : Prop where
  accounted : u.Accounted
  recency : Recency u.returns u.pool.resting
  drained : u.pool.closed = true → u.pool.resting = []

theorem settled_start (name : String) (options : PoolOptions) (bound : Option Nat) :
    (start name options bound : Usage κ).Settled where
  accounted := accounted_start name options bound
  recency := by
    rw [start_resting]
    exact ⟨fun x hx => absurd hx List.not_mem_nil, .nil⟩
  drained _ := start_resting name options bound

theorem Settled.shrunk (h : u.Settled) (hacc : u'.Accounted) (hr : u'.returns = u.returns)
    (hs : u'.pool.resting.Sublist u.pool.resting) (hc : u'.pool.closed = u.pool.closed) :
    u'.Settled where
  accounted := hacc
  recency := hr ▸ h.recency.sublist hs
  drained hclosed := by
    rw [h.drained (hc.symm.trans hclosed)] at hs
    exact List.sublist_nil.1 hs

theorem Settled.pushed [Transport κ] (h : u.Settled) (hacc : u'.Accounted) {i : Nat} {l : Lease κ}
    {now : Nat} {rest : List (Resting κ)} (hl : u.leases[i]? = some l)
    (hk : u.pool.keeps l.discarded l.leased.session = true)
    (hr : u'.returns = l.leased.id :: u.returns)
    (hp : u'.pool.resting = l.leased.resting now :: rest) (hs : rest.Sublist u.pool.resting)
    (hc : u'.pool.closed = u.pool.closed) : u'.Settled where
  accounted := hacc
  recency := by
    have hn : l.leased.id ∉ rest.map Resting.id := fun hmem =>
      h.accounted.lease_not_idle hl ((hs.map _).subset hmem)
    rw [hr, hp]
    exact (h.recency.sublist hs).push (x := l.leased.resting now) hn
  drained hclosed := by
    rw [Pool.keeps_eq_false.2 (.inr (.inl (hc.symm.trans hclosed)))] at hk
    cases hk

theorem Settled.change [Transport κ] {a : Action κ} (h : u.Settled) (hc : u.Change a u') :
    u'.Settled := by
  have hacc := h.accounted.moved hc.moved
  cases hc with
  | closed | noHandshake | unused | unmarked | undropped | already | clock | executed | marked =>
    exact ⟨hacc, h.recency, h.drained⟩
  | @reused x rest p ho hu hr hh =>
    have hs : (x :: rest).Sublist u.pool.resting := hu ▸ Pool.usable_sublist _ _ _
    have hrest : p.resting.Sublist u.pool.resting := hr ▸ (List.sublist_cons_self x rest).trans hs
    exact h.shrunk hacc rfl hrest (congrArg Pool.Header.closed hh)
  | overload ho hu hl hle hr hh | allocation ho hu hroom hr hh | began ho hu hroom hr hh =>
    exact h.shrunk hacc rfl (hr ▸ List.nil_sublist _) (congrArg Pool.Header.closed hh)
  | opened hs hr hh | failed hs hr hh =>
    exact h.shrunk hacc rfl (hr ▸ List.Sublist.refl _) (congrArg Pool.Header.closed hh)
  | @destroyed i l p hl hk hr hh =>
    refine ⟨hacc, ?_, fun hclosed => hr.trans (h.drained ?_)⟩
    · have hrec := h.recency.later (h.accounted.lease_not_idle hl)
      rwa [← hr] at hrec
    · rw [← hclosed]
      exact (congrArg Pool.Header.closed hh).symm
  | kept hl hk hroom hr hh =>
    exact h.pushed hacc hl hk rfl hr (List.Sublist.refl _) (congrArg Pool.Header.closed hh)
  | evicted hl hk hlim hle hi hr hh =>
    exact h.pushed hacc hl hk rfl hr (hi ▸ List.sublist_append_left _ _)
      (congrArg Pool.Header.closed hh)
  | @drained p ho hr hh =>
    refine ⟨hacc, ?_, fun _ => hr⟩
    have hs : p.resting.Sublist u.pool.resting := hr ▸ List.nil_sublist _
    exact h.recency.sublist hs

theorem Settled.step [Transport κ] (hs : u.Settled) (h : u.Owned) (a : Action κ) :
    (u.step a).Settled :=
  h.step_keeps (fun _ hs hc => hs.change hc) hs a

theorem run_settled [Transport κ] (name : String) (options : PoolOptions) (bound : Option Nat)
    (as : List (Action κ)) : ((start name options bound).run as).Settled :=
  (owned_start name options bound).run_keeps (fun _ hs hc => hs.change hc)
    (settled_start name options bound) as

/-- Why an action tears a session down. One is `evicted` if too many are idle with the session that
comes back, and of these it was returned first. -/
inductive Cause [Transport κ] : Usage κ → Action κ → Member κ → Prop
  | spoiled {u : Usage κ} {i : Nat} {l : Lease κ} (hl : u.leases[i]? = some l)
      (hs : l.discarded = true ∨ Transport.isHealthy l.leased.session = false) :
    Cause u (.drop i) l.leased.member
  | poolClosed {u : Usage κ} {i : Nat} {l : Lease κ} (hl : u.leases[i]? = some l)
      (hc : u.pool.closed = true) : Cause u (.drop i) l.leased.member
  | noneKept {u : Usage κ} {i : Nat} {l : Lease κ} (hl : u.leases[i]? = some l)
      (hm : u.pool.options.maxIdle = some 0) : Cause u (.drop i) l.leased.member
  | evicted {u : Usage κ} {i : Nat} {l : Lease κ} {x : Resting κ} {limit : UInt64}
      (hl : u.leases[i]? = some l) (hx : x ∈ u.pool.resting)
      (hlim : u.pool.options.maxIdle = some limit) (hle : limit.toNat < u.pool.resting.length + 1)
      (hret : x.id ∈ u.returns)
      (hfirst : ∀ y ∈ u.pool.resting, u.returns.idxOf y.id ≤ u.returns.idxOf x.id) :
    Cause u (.drop i) x.member
  | timedOut {u : Usage κ} {x : Resting κ} {limit : Duration} (ho : u.pool.closed = false)
      (hx : x ∈ u.pool.resting) (hlim : u.pool.options.idleTimeout = some limit)
      (he : limit.expired x.idleSince u.now = true) : Cause u .get x.member
  | tooOld {u : Usage κ} {x : Resting κ} {limit : Duration} (ho : u.pool.closed = false)
      (hx : x ∈ u.pool.resting) (hlim : u.pool.options.maxLifetime = some limit)
      (he : limit.expired x.createdAt u.now = true) : Cause u .get x.member
  | closing {u : Usage κ} {x : Resting κ} (hx : x ∈ u.pool.resting) : Cause u .close x.member
  | givenUp {u : Usage κ} {i : Nat} {m : Member κ} (h : Cause u (.drop i) m) :
    Cause u (.reassign i) m
  | replaced {u : Usage κ} {i : Nat} {m : Member κ} (h : Cause (u.step (.drop i)) .get m) :
    Cause u (.reassign i) m

def Caused [Transport κ] (u : Usage κ) (a : Action κ) (u' : Usage κ) : Prop :=
  ∃ gone, u'.tornDown = u.tornDown ++ gone ∧ ∀ m ∈ gone, Cause u a m

theorem caused_none [Transport κ] {a : Action κ} (h : u'.tornDown = u.tornDown) : Caused u a u' :=
  ⟨[], by rw [h, List.append_nil], fun m hm => absurd hm List.not_mem_nil⟩

theorem caused_retired [Transport κ] (ho : u.pool.closed = false)
    (h : u'.tornDown = u.tornDown ++
      (Pool.retired u.pool.options u.now u.pool.resting).map Resting.member) :
    Caused u .get u' := by
  refine ⟨_, h, fun m hm => ?_⟩
  obtain ⟨x, hx, rfl⟩ := List.mem_map.1 hm
  obtain ⟨hmem, hstale | haged⟩ := Pool.mem_retired hx
  · obtain ⟨limit, hlim, he⟩ := (Option.any_eq_true _ _).1 hstale
    exact .timedOut ho hmem hlim he
  · obtain ⟨limit, hlim, he⟩ := (Option.any_eq_true _ _).1 haged
    exact .tooOld ho hmem hlim he

theorem evicted_cause [Transport κ] {i limit : Nat} {l : Lease κ} {init : List (Resting κ)}
    {last : Resting κ} (h : u.Settled) (hl : u.leases[i]? = some l)
    (hlim : u.pool.options.idleLimit = some limit) (hle : limit ≤ u.pool.resting.length)
    (hi : u.pool.resting = init ++ [last]) : Cause u (.drop i) last.member := by
  obtain ⟨max, hmax, rfl⟩ := Option.map_eq_some_iff.1 hlim
  have hlast : last ∈ u.pool.resting := hi ▸ List.mem_append_right init List.mem_cons_self
  have hrec := h.recency.ordered
  rw [hi, List.pairwise_append] at hrec
  refine .evicted hl hlast hmax (Nat.lt_succ_of_le hle) (h.recency.returned last hlast)
    fun y hy => ?_
  rw [hi] at hy
  rcases List.mem_append.1 hy with hy | hy
  · exact (hrec.2.2 y hy last List.mem_cons_self).le
  · rw [List.mem_singleton.1 hy]

theorem Change.caused [Transport κ] {a : Action κ} (h : u.Settled) (hc : u.Change a u') :
    Caused u a u' := by
  cases hc with
  | closed | noHandshake | unused | unmarked | undropped | already | clock | executed | marked
  | opened | failed | kept => exact caused_none rfl
  | reused ho | overload ho | allocation ho | began ho => exact caused_retired ho rfl
  | @destroyed i l p hl hk hr hh =>
    refine ⟨[l.leased.member], rfl, fun m hm => ?_⟩
    rw [List.mem_singleton.1 hm]
    rcases Pool.keeps_eq_false.1 hk with hs | hclosed | hmax
    · exact .spoiled hl hs
    · exact .poolClosed hl hclosed
    · exact .noneKept hl hmax
  | @evicted i l p limit init last hl hk hlim hle hi hr hh =>
    refine ⟨[last.member], rfl, fun m hm => ?_⟩
    rw [List.mem_singleton.1 hm]
    exact evicted_cause h hl hlim hle hi
  | drained ho hr hh =>
    refine ⟨_, rfl, fun m hm => ?_⟩
    obtain ⟨x, hx, rfl⟩ := List.mem_map.1 hm
    exact .closing hx

theorem Settled.caused [Transport κ] (h : u.Settled) (ho : u.Owned) (a : Action κ) :
    Caused u a (u.step a) := by
  by_cases ha : ∃ i, a = .reassign i
  · obtain ⟨i, rfl⟩ := ha
    obtain ⟨hd, ho'⟩ := ho.change_drop i
    obtain ⟨first, hfirst, hcause⟩ := hd.caused h
    obtain ⟨more, hmore, hcause'⟩ := ho'.change_get.1.caused (h.change hd)
    refine ⟨first ++ more, ?_, fun m hm => ?_⟩
    · rw [step_reassign, hmore, hfirst, List.append_assoc]
    · rcases List.mem_append.1 hm with hm | hm
      · exact .givenUp (hcause m hm)
      · exact .replaced (hcause' m hm)
  · exact (ho.change fun i hi => ha ⟨i, hi⟩).1.caused h

theorem Owned.drop_destroyed [Transport κ] {i : Nat} {l : Lease κ} (h : u.Owned)
    (hl : u.leases[i]? = some l) (hk : u.pool.keeps l.discarded l.leased.session = false) :
    ∃ p : Pool κ, p.resting = u.pool.resting ∧ p.header = u.pool.header ∧ u.step (.drop i) =
      { u with
        pool := p
        leases := u.leases.eraseIdx i
        tornDown := u.tornDown ++ [l.leased.member]
        returns := l.leased.id :: u.returns } := by
  have hc := (h.change_drop i).1
  generalize u.step (.drop i) = u' at hc
  cases hc with
  | undropped hl' => simp [hl] at hl'
  | @destroyed _ _ p hl' hk' hr hh =>
    rw [hl, Option.some_inj] at hl'
    rw [hl']
    exact ⟨p, hr, hh, rfl⟩
  | kept hl' hk' | evicted hl' hk' =>
    rw [hl, Option.some_inj] at hl'
    rw [← hl', hk] at hk'
    cases hk'

theorem Owned.drop_spoiled [Transport κ] {i : Nat} {l : Lease κ} (h : u.Owned)
    (hl : u.leases[i]? = some l)
    (hs : l.discarded = true ∨ Transport.isHealthy l.leased.session = false) :
    (u.step (.drop i)).tornDown = u.tornDown ++ [l.leased.member] := by
  obtain ⟨p, -, -, hd⟩ := h.drop_destroyed hl (Pool.keeps_eq_false.2 (.inl hs))
  rw [hd]

theorem Accounted.members (h : u.Accounted) :
    (u.leases.map (fun l => l.leased.member) ++
      (u.pool.resting.map Resting.member ++ u.tornDown)).Perm (u.opened.map Leased.member) := by
  obtain ⟨gone, hgone, hperm⟩ := h.accounts
  have hmap := hperm.map Leased.member
  rw [held, List.map_append, List.map_append, List.map_map, List.map_map, hgone,
    List.append_assoc] at hmap
  exact hmap

theorem Accounted.apart (h : u.Accounted) {m : Member κ} (hm : m ∈ u.tornDown) :
    m.id ∉ u.leases.map (fun l => l.leased.id) ∧ m.id ∉ u.pool.resting.map Resting.id := by
  have hids := (h.members.map Member.id).nodup_iff.2 (by rw [List.map_map]; exact h.nodup)
  rw [List.map_append, List.map_append, List.map_map, List.map_map] at hids
  obtain ⟨-, hrest, hleased⟩ := List.nodup_append.1 hids
  obtain ⟨-, -, hidle⟩ := List.nodup_append.1 hrest
  have hid : m.id ∈ u.tornDown.map Member.id := List.mem_map_of_mem hm
  exact ⟨fun hl => hleased _ hl _ (List.mem_append_right _ hid) rfl, fun hi => hidle _ hi _ hid rfl⟩

/-- Every session that was opened is lent, idle or torn down, and only one of these; it is torn down
for a cause, and at once if it comes back spoiled. When a closed pool has all its sessions back, all
of them are torn down. -/
theorem run_teardown [Transport κ] (name : String) (options : PoolOptions) (bound : Option Nat)
    (as : List (Action κ)) :
    let u := (start name options bound).run as
    u.opened.map Leased.id = List.range' 1 u.opened.length ∧
    (u.leases.map (fun l => l.leased.member) ++
      (u.pool.resting.map Resting.member ++ u.tornDown)).Perm (u.opened.map Leased.member) ∧
    u.pool.idle.entries = u.pool.resting.map Resting.entry ∧
    (∀ bs, let v := u.run bs
      u.opened.map Leased.id <+: v.opened.map Leased.id ∧ u.tornDown <+: v.tornDown ∧
      ∀ m ∈ u.tornDown, m.id ∉ v.leases.map (fun l => l.leased.id) ∧
        m.id ∉ v.pool.resting.map Resting.id) ∧
    (∀ a, ∃ gone, (u.step a).tornDown = u.tornDown ++ gone ∧ ∀ m ∈ gone, Cause u a m) ∧
    (∀ i l, u.leases[i]? = some l →
      l.discarded = true ∨ Transport.isHealthy l.leased.session = false →
      (u.step (.drop i)).tornDown = u.tornDown ++ [l.leased.member] ∧
      u.tornDown ++ [l.leased.member] <+: (u.step (.reassign i)).tornDown) ∧
    (u.pool.closed = true → u.leases = [] → u.tornDown.length = u.opened.length) := by
  intro u
  have ho : u.Owned := (owned_start name options bound).run as
  have h : u.Settled := run_settled name options bound as
  refine ⟨h.accounted.numbers, h.accounted.members, ho.listed.entries, fun bs => ?_, h.caused ho,
    fun i l hl hs => ?_, fun hclosed hleases => ?_⟩
  · have hg := ho.run_grown bs
    have hv : (u.run bs).Settled := ho.run_keeps (fun _ hs hc => hs.change hc) h bs
    exact ⟨hg.opened, hg.tornDown, fun m hm => hv.accounted.apart (hg.tornDown.subset hm)⟩
  · have hd := ho.drop_spoiled hl hs
    refine ⟨hd, ?_⟩
    rw [step_reassign, ← hd]
    exact (ho.change_drop i).2.change_get.1.moved.grown.tornDown
  · have hlen := h.accounted.members.length_eq
    simpa [hleases, h.drained hclosed] using hlen

end Usage

end SessionPool
