import SessionPool.Proofs.Pool.Usage

/-!
# Where the sessions are

Every session that a handshake returned is lent, idle or torn down. An action hands sessions on,
brings in a new one, or changes one that is lent; none is lost on the way and none is counted twice.
-/

namespace SessionPool

namespace Usage

variable {κ : Type} {u u' : Usage κ}

def held (u : Usage κ) : List (Leased κ) :=
  u.leases.map Lease.leased ++ u.pool.resting.map Resting.leased

inductive Moved (u u' : Usage κ) : Prop
  | handed (gone : List (Leased κ)) (htorn : u'.tornDown = u.tornDown ++ gone.map Leased.member)
      (hheld : (u'.held ++ gone).Perm u.held) (hopened : u'.opened = u.opened)
      (hnext : u'.pool.nextId = u.pool.nextId)
  | opened (l : Leased κ) (hid : l.id = u.pool.nextId) (htorn : u'.tornDown = u.tornDown)
      (hheld : u'.held = l :: u.held) (hopened : u'.opened = u.opened ++ [l])
      (hnext : u'.pool.nextId = u.pool.nextId + 1)
  | changed {i : Nat} {l : Lease κ} (l' : Lease κ) (hl : u.leases[i]? = some l)
      (hid : l'.leased.id = l.leased.id) (hput : u' = u.put i l')

theorem Moved.still (hl : u'.leases.map Lease.leased = u.leases.map Lease.leased)
    (hp : u'.pool = u.pool) (ht : u'.tornDown = u.tornDown) (ho : u'.opened = u.opened) :
    u.Moved u' :=
  .handed [] (by simpa using ht) (by simp [held, hl, hp]) ho (by rw [hp])

theorem Moved.emptied (hu : Pool.usable u.pool.options u.now u.pool.resting = [])
    (hl : u'.leases = u.leases) (hr : u'.pool.resting = [])
    (ht : u'.tornDown = (u.retire u'.pool).tornDown) (ho : u'.opened = u.opened)
    (hn : u'.pool.nextId = u.pool.nextId) : u.Moved u' := by
  have hperm := Pool.retired_append_usable_perm u.pool.options u.now u.pool.resting
  rw [hu, List.append_nil] at hperm
  refine .handed ((Pool.retired u.pool.options u.now u.pool.resting).map Resting.leased) ?_ ?_ ho hn
  · rw [ht, List.map_map]
    rfl
  · simp only [held, hl, hr, List.map_nil, List.append_nil]
    exact (hperm.map _).append_left _

theorem held_perm {i : Nat} {l : Lease κ} (hl : u.leases[i]? = some l) :
    u.held.Perm (l.leased ::
      ((u.leases.eraseIdx i).map Lease.leased ++ u.pool.resting.map Resting.leased)) :=
  ((perm_lease hl).map Lease.leased).append_right _

theorem Change.moved [Transport κ] {a : Action κ} (h : u.Change a u') : u.Moved u' := by
  cases h with
  | closed | noHandshake | unused | unmarked | undropped | already | clock =>
    exact .still rfl rfl rfl rfl
  | @reused x rest p ho hu hr hh =>
    have hperm := Pool.retired_append_usable_perm u.pool.options u.now u.pool.resting
    rw [hu] at hperm
    refine .handed ((Pool.retired u.pool.options u.now u.pool.resting).map Resting.leased) ?_ ?_ rfl
      (congrArg Pool.Header.nextId hh)
    · rw [List.map_map]
      rfl
    · -- the session that is lent goes back in front of those that stay
      refine List.Perm.trans ?_ (((List.perm_append_comm.trans hperm).map _).append_left _)
      simp only [held, lend, retire, Lease.ofLeased, hr, List.map_cons, List.map_append]
      rw [← List.append_assoc]
      exact List.perm_middle.symm.append_right _
  | overload ho hu hl hle hr hh => exact .emptied hu rfl hr rfl rfl (congrArg Pool.Header.nextId hh)
  | allocation ho hu hroom hr hh =>
    exact .emptied hu rfl hr rfl rfl (congrArg Pool.Header.nextId hh)
  | began ho hu hroom hr hh => exact .emptied hu rfl hr rfl rfl (congrArg Pool.Header.nextId hh)
  | opened hs hr hh =>
    refine .opened _ rfl rfl ?_ rfl (congrArg Pool.Header.nextId hh)
    simp [held, hr, Lease.ofLeased]
  | failed hs hr hh =>
    exact .handed [] (List.append_nil _).symm (by simp [held, hr]) rfl
      (congrArg Pool.Header.nextId hh)
  | @executed i c l hl => exact .changed (l.execute c).2 hl rfl rfl
  | @marked i l hl =>
    refine .still ?_ rfl rfl rfl
    obtain ⟨hi, rfl⟩ := List.getElem?_eq_some_iff.1 hl
    have hlen : i < (u.leases.map Lease.leased).length := by rwa [List.length_map]
    have hsame := List.set_getElem_self hlen
    rw [List.getElem_map] at hsame
    rw [List.map_set]
    exact hsame
  | @destroyed i l p hl hk hr hh =>
    refine .handed [l.leased] rfl ?_ rfl (congrArg Pool.Header.nextId hh)
    refine List.Perm.trans ?_ (held_perm hl).symm
    simp only [held, hr]
    exact List.perm_append_singleton _ _
  | @kept i l p hl hk hroom hr hh =>
    refine .handed [] (List.append_nil _).symm ?_ rfl (congrArg Pool.Header.nextId hh)
    refine List.Perm.trans ?_ (held_perm hl).symm
    simp only [held, hr, List.map_cons, List.append_nil]
    exact List.perm_middle
  | @evicted i l p limit init last hl hk hlim hle hi hr hh =>
    refine .handed [last.leased] rfl ?_ rfl (congrArg Pool.Header.nextId hh)
    refine List.Perm.trans ?_ (held_perm hl).symm
    simp only [held, hr, hi, List.map_cons, List.map_append, List.map_nil]
    rw [← List.append_assoc]
    exact List.perm_middle.append_right _
  | @drained p ho hr hh =>
    refine .handed (u.pool.resting.map Resting.leased) ?_ ?_ rfl (congrArg Pool.Header.nextId hh)
    · rw [List.map_map]
      rfl
    · simp [held, hr]

/-- Every session that was opened is lent, idle or torn down, and the sessions are numbered in the
order in which they were opened. -/
structure Accounted (u : Usage κ) : Prop where
  accounts : ∃ gone : List (Leased κ), gone.map Leased.member = u.tornDown ∧
    (u.held ++ gone).Perm u.opened
  numbers : u.opened.map Leased.id = List.range' 1 u.opened.length
  nextId : u.pool.nextId = u.opened.length + 1

theorem accounted_start (name : String) (options : PoolOptions) (bound : Option Nat) :
    (start name options bound : Usage κ).Accounted where
  accounts := ⟨[], rfl, by simp [held, start_resting]; rfl⟩
  numbers := rfl
  nextId := rfl

theorem Accounted.nodup (h : u.Accounted) : (u.opened.map Leased.id).Nodup := by
  rw [h.numbers]
  exact List.nodup_range'

theorem put_numbers (u : Usage κ) (i : Nat) (l : Lease κ) :
    (u.put i l).opened.map Leased.id = u.opened.map Leased.id := by
  rw [put, List.map_map]
  refine List.map_congr_left fun o _ => ?_
  by_cases ho : o.id = l.leased.id <;> simp [ho]

theorem Accounted.put (h : u.Accounted) {i : Nat} {l l' : Lease κ} (hl : u.leases[i]? = some l)
    (hid : l'.leased.id = l.leased.id) : (u.put i l').Accounted := by
  obtain ⟨gone, hgone, hperm⟩ := h.accounts
  set f : Leased κ → Leased κ := fun o => if o.id = l'.leased.id then l'.leased else o
  refine ⟨⟨gone, hgone, ?_⟩, ?_, ?_⟩
  · set others := (u.leases.eraseIdx i).map Lease.leased ++ u.pool.resting.map Resting.leased
    have hall : (l.leased :: (others ++ gone)).Perm u.opened :=
      ((held_perm hl).append_right gone).symm.trans hperm
    have hnd : ((l.leased :: (others ++ gone)).map Leased.id).Nodup :=
      (hall.map _).nodup_iff.2 h.nodup
    rw [List.map_cons, List.nodup_cons] at hnd
    have hothers : (others ++ gone).map f = others ++ gone := by
      refine (List.map_congr_left fun o ho => if_neg fun heq => hnd.1 ?_).trans (List.map_id _)
      rw [← hid, ← heq]
      exact List.mem_map_of_mem ho
    have hlease : f l.leased = l'.leased := if_pos hid.symm
    have hset : ((u.leases.set i l').map Lease.leased ++ u.pool.resting.map Resting.leased).Perm
        (l'.leased :: others) := ((perm_set_lease hl l').map Lease.leased).append_right _
    have hmapped := hall.map f
    rw [List.map_cons, hothers, hlease] at hmapped
    exact (hset.append_right gone).trans hmapped
  · rw [put_numbers, h.numbers, Usage.put, List.length_map]
  · rw [Usage.put, List.length_map]
    exact h.nextId

theorem Accounted.moved (h : u.Accounted) (hm : u.Moved u') : u'.Accounted := by
  obtain ⟨gone, hgone, hperm⟩ := h.accounts
  cases hm with
  | handed more htorn hheld hopened hnext =>
    refine ⟨⟨gone ++ more, ?_, ?_⟩, hopened ▸ h.numbers, by rw [hnext, hopened, h.nextId]⟩
    · rw [List.map_append, hgone, htorn]
    · rw [hopened]
      refine List.Perm.trans ?_ hperm
      refine (List.perm_append_comm.append_left _).trans ?_
      rw [← List.append_assoc]
      exact hheld.append_right gone
  | opened l hid htorn hheld hopened hnext =>
    refine ⟨⟨gone, hgone.trans htorn.symm, ?_⟩, ?_, ?_⟩
    · rw [hheld, hopened]
      exact (hperm.cons l).trans (List.perm_append_singleton _ _).symm
    · rw [hopened, List.map_append, h.numbers, List.length_append, List.length_singleton,
        List.range'_1_concat, List.map_singleton, hid, h.nextId, Nat.add_comm]
    · rw [hnext, hopened, h.nextId, List.length_append]
      rfl
  | changed l' hl hid hput =>
    rw [hput]
    exact h.put hl hid

structure Grown (u u' : Usage κ) : Prop where
  opened : u.opened.map Leased.id <+: u'.opened.map Leased.id
  tornDown : u.tornDown <+: u'.tornDown

theorem Moved.grown (hm : u.Moved u') : u.Grown u' := by
  cases hm with
  | handed gone htorn hheld hopened hnext =>
    exact ⟨hopened ▸ List.prefix_rfl, htorn ▸ List.prefix_append _ _⟩
  | opened l hid htorn hheld hopened hnext =>
    refine ⟨?_, htorn ▸ List.prefix_rfl⟩
    rw [hopened, List.map_append]
    exact List.prefix_append _ _
  | @changed i l l' hl hid hput =>
    rw [hput]
    exact ⟨(put_numbers u i l').symm ▸ List.prefix_rfl, List.prefix_rfl⟩

theorem Owned.run_grown [Transport κ] (h : u.Owned) (as : List (Action κ)) :
    u.Grown (u.run as) := by
  have hrefl : u.Grown u := ⟨List.prefix_rfl, List.prefix_rfl⟩
  refine h.run_keeps (fun {v v' a} _ hg hc => ?_) hrefl as
  have hv := hc.moved.grown
  exact ⟨hg.opened.trans hv.opened, hg.tornDown.trans hv.tornDown⟩

end Usage

end SessionPool
