import Mathlib.Data.List.Nodup
import SessionPool.Proofs.Pool.Ownership
import SessionPool.Proofs.Pool.Reuse
import SessionPool.Proofs.Pool.Teardown

/-!
# A session is the same whenever it is lent

A history is told by what the holders of leases see: which sessions were lent, and which commands
were issued through the lease on which session. Parking takes a session apart and a later get puts
it together again by its slot, yet each session lent has the number and the time of birth that its
handshake gave it, and is in the state that the commands issued to this number have left.
-/

namespace SessionPool

namespace Usage

/-- What the holders of leases see: the session of a handshake is lent, an idle session is lent
again, and a command is issued through the lease on the session with a number. -/
inductive Event (κ : Type)
  | opened (l : Leased κ)
  | reused (l : Leased κ)
  | issued (id : Nat) (c : Command)

namespace Event

variable {κ : Type}

def birth? : Event κ → Option (Leased κ)
  | opened l => some l
  | _ => none

def loan? : Event κ → Option (Leased κ)
  | opened l => some l
  | reused l => some l
  | issued _ _ => none

def command? (n : Nat) : Event κ → Option Command
  | issued id c => if id = n then some c else none
  | _ => none

def lends (n : Nat) (e : Event κ) : Bool := e.loan?.any fun l => l.id == n

end Event

variable {κ : Type} {u u' : Usage κ}

def births (past : List (Event κ)) : List (Leased κ) := past.filterMap Event.birth?

def loans (past : List (Event κ)) : List (Leased κ) := past.filterMap Event.loan?

def commands (n : Nat) (past : List (Event κ)) : List Command := past.filterMap (Event.command? n)

def sinceLent (n : Nat) (past : List (Event κ)) : List (Event κ) :=
  past.rtakeWhile fun e => !e.lends n

def lent : Option (Except Fault (Leased κ)) → List (Leased κ)
  | some (.ok l) => [l]
  | _ => []

def events [Transport κ] (u : Usage κ) : Action κ → List (Event κ)
  | .get => (lent (u.answer .get)).map .reused
  | .reassign i => (lent (u.answer (.reassign i))).map .reused
  | .finish slot result => (lent (u.answer (.finish slot result))).map .opened
  | .execute i c => u.leases[i]?.toList.map fun l => .issued l.leased.id c
  | _ => []

def history [Transport κ] (u : Usage κ) : List (Action κ) → List (Event κ)
  | [] => []
  | a :: as => u.events a ++ (u.step a).history as

theorem history_concat [Transport κ] (u : Usage κ) (as : List (Action κ)) (a : Action κ) :
    u.history (as ++ [a]) = u.history as ++ (u.run as).events a := by
  induction as generalizing u with
  | nil => simp [history, run]
  | cons b as ih =>
    rw [List.cons_append, history, ih, history, List.append_assoc]
    rfl

theorem events_reassign [Transport κ] (u : Usage κ) (i : Nat) :
    u.events (.reassign i) = (u.step (.drop i)).events .get := by
  rw [events, events, answer_reassign]

def evolve [Transport κ] (s : κ) (cs : List Command) : κ :=
  cs.foldl (fun s c => (Transport.execute c s).2) s

/-! ## What an action tells -/

inductive Told [Transport κ] (u u' : Usage κ) : List (Event κ) → Prop
  | silent (hheld : u'.held ⊆ u.held)
      (hleases : ∀ l ∈ u'.leases, ∃ l₀ ∈ u.leases, l₀.leased = l.leased ∧
        l₀.operations = l.operations)
      (hopened : u'.opened = u.opened) : Told u u' []
  | reused {x : Resting κ} (hx : x ∈ u.pool.resting) (hheld : u'.held ⊆ u.held)
      (hleases : u'.leases = .ofLeased x.leased :: u.leases) (hopened : u'.opened = u.opened) :
    Told u u' [.reused x.leased]
  | opened {l : Leased κ} (hid : l.id = u.pool.nextId) (hheld : u'.held = l :: u.held)
      (hleases : u'.leases = .ofLeased l :: u.leases) (hopened : u'.opened = u.opened ++ [l]) :
    Told u u' [.opened l]
  | issued {i : Nat} {l : Lease κ} {c : Command} (hl : u.leases[i]? = some l)
      (hput : u' = u.put i (l.execute c).2) : Told u u' [.issued l.leased.id c]

theorem Told.still [Transport κ] (hl : u'.leases = u.leases)
    (hr : u'.pool.resting ⊆ u.pool.resting) (ho : u'.opened = u.opened) : u.Told u' [] := by
  refine .silent ?_ (fun l hmem => ⟨l, hl ▸ hmem, rfl, rfl⟩) ho
  intro l hmem
  rw [held, List.mem_append] at hmem ⊢
  rw [hl] at hmem
  exact hmem.imp_right fun hidle => List.map_subset _ hr hidle

theorem Owned.told_get [Transport κ] (h : u.Owned) : u.Told (u.step .get) (u.events .get) := by
  by_cases hok : ∃ l, u.answer .get = some (.ok l)
  · obtain ⟨l, hl⟩ := hok
    obtain ⟨ho, x, rest, rfl, hu⟩ := h.get_ok hl
    obtain ⟨-, p, hstep, hp⟩ := h.get_reused ho hu
    have hs : x :: rest ⊆ u.pool.resting :=
      (hu ▸ Pool.usable_sublist _ _ _ : List.Sublist _ _).subset
    rw [List.cons_subset] at hs
    have he : u.events .get = [.reused x.leased] := by simp [events, hl, lent]
    rw [he, hstep]
    refine .reused hs.1 ?_ rfl rfl
    intro l hmem
    simp only [held, lend, retire, Lease.ofLeased, hp, List.map_cons, List.cons_append,
      List.mem_cons, List.mem_append] at hmem ⊢
    rcases hmem with rfl | hmem | hmem
    · exact .inr (List.mem_map_of_mem hs.1)
    · exact .inl hmem
    · exact .inr (List.map_subset _ hs.2 hmem)
  · have he : u.events .get = [] := by
      rw [events]
      cases ha : u.answer .get with
      | none => rfl
      | some result =>
        cases result with
        | ok l => exact absurd ⟨l, ha⟩ hok
        | error f => rfl
    have hc := h.change_get.1
    rw [he]
    generalize u.step .get = u' at hc
    cases hc with
    | closed => exact .still rfl (List.Subset.refl _) rfl
    | reused ho hu => exact absurd ⟨_, (h.get_reused ho hu).1⟩ hok
    | overload ho hu hl hle hr | allocation ho hu hroom hr | began ho hu hroom hr =>
      exact .still rfl (hr ▸ List.nil_subset _) rfl

theorem Told.dropped [Transport κ] {i : Nat} {l : Lease κ} (hl : u.leases[i]? = some l)
    (hleases : u'.leases = u.leases.eraseIdx i)
    (hr : u'.pool.resting ⊆ l.leased.resting u.now :: u.pool.resting) (ho : u'.opened = u.opened) :
    u.Told u' [] := by
  have hkept : u'.leases ⊆ u.leases := hleases ▸ (List.eraseIdx_sublist _ _).subset
  refine .silent ?_ (fun l hmem => ⟨l, hkept hmem, rfl, rfl⟩) ho
  intro m hmem
  rw [held, List.mem_append] at hmem ⊢
  rcases hmem with hmem | hmem
  · exact .inl (List.map_subset _ hkept hmem)
  · obtain ⟨x, hx, rfl⟩ := List.mem_map.1 hmem
    rcases List.mem_cons.1 (hr hx) with rfl | hx
    · exact .inl (List.mem_map.2 ⟨l, List.mem_of_getElem? hl, rfl⟩)
    · exact .inr (List.mem_map_of_mem hx)

theorem Owned.told [Transport κ] (h : u.Owned) {a : Action κ} (ha : ∀ i, a ≠ .reassign i) :
    u.Told (u.step a) (u.events a) := by
  by_cases hget : a = .get
  · rw [hget]
    exact h.told_get
  have hc := (h.change ha).1
  generalize u.step a = u' at hc
  cases hc with
  | closed | reused | overload | allocation | began => exact absurd rfl hget
  | noHandshake hs =>
    simp only [events, answer, if_neg hs]
    exact .still rfl (List.Subset.refl _) rfl
  | opened hs hr hh =>
    simp only [events, answer, if_pos hs]
    exact .opened rfl (by simp [held, hr, Lease.ofLeased]) rfl rfl
  | failed hs hr hh =>
    simp only [events, answer, if_pos hs]
    exact .still rfl (hr ▸ List.Subset.refl _) rfl
  | unused hl =>
    simp only [events, hl]
    exact .still rfl (List.Subset.refl _) rfl
  | executed hl =>
    simp only [events, hl]
    exact .issued hl rfl
  | unmarked | undropped | already | clock => exact .still rfl (List.Subset.refl _) rfl
  | @marked i l hl =>
    have hmem := List.mem_of_getElem? hl
    have hset : ∀ m ∈ u.leases.set i l.discard,
        ∃ m₀ ∈ u.leases, m₀.leased = m.leased ∧ m₀.operations = m.operations := by
      intro m hm
      rcases List.mem_or_eq_of_mem_set hm with hm | rfl
      · exact ⟨m, hm, rfl, rfl⟩
      · exact ⟨l, hmem, rfl, rfl⟩
    refine .silent ?_ hset rfl
    intro m hm
    rw [held, List.mem_append] at hm ⊢
    refine hm.imp_left fun hlent => ?_
    obtain ⟨l', hl', rfl⟩ := List.mem_map.1 hlent
    obtain ⟨l₀, hl₀, hleased, -⟩ := hset l' hl'
    exact List.mem_map.2 ⟨l₀, hl₀, hleased⟩
  | destroyed hl hk hr hh => exact .dropped hl rfl (hr ▸ List.subset_cons_self _ _) rfl
  | kept hl hk hroom hr hh => exact .dropped hl rfl (hr ▸ List.Subset.refl _) rfl
  | evicted hl hk hlim hle hi hr hh =>
    refine .dropped hl rfl ?_ rfl
    rw [hr, hi]
    exact List.cons_subset_cons _ (List.subset_append_left _ _)
  | drained ho hr hh => exact .still rfl (hr ▸ List.nil_subset _) rfl

/-! ## The law -/

section

variable {past : List (Event κ)} {n : Nat} {l : Leased κ} {c : Command}

theorem births_reused : births (past ++ [.reused l]) = births past := by simp [births, Event.birth?]

theorem births_opened : births (past ++ [.opened l]) = births past ++ [l] := by
  simp [births, Event.birth?]

theorem births_issued : births (past ++ [.issued n c]) = births past := by
  simp [births, Event.birth?]

theorem loans_reused : loans (past ++ [.reused l]) = loans past ++ [l] := by
  simp [loans, Event.loan?]

theorem loans_opened : loans (past ++ [.opened l]) = loans past ++ [l] := by
  simp [loans, Event.loan?]

theorem loans_issued : loans (past ++ [.issued n c]) = loans past := by simp [loans, Event.loan?]

theorem commands_reused : commands n (past ++ [.reused l]) = commands n past := by
  simp [commands, Event.command?]

theorem commands_opened : commands n (past ++ [.opened l]) = commands n past := by
  simp [commands, Event.command?]

theorem commands_issued : commands n (past ++ [.issued n c]) = commands n past ++ [c] := by
  simp [commands, Event.command?]

theorem commands_issued_of_ne {m : Nat} (h : m ≠ n) :
    commands n (past ++ [.issued m c]) = commands n past := by
  simp [commands, Event.command?, h]

theorem sinceLent_of_lends {e : Event κ} (h : e.lends n = true) :
    sinceLent n (past ++ [e]) = [] := by
  rw [sinceLent, List.rtakeWhile_concat_neg _ _ _ (by simp [h])]

theorem sinceLent_concat {e : Event κ} (h : e.lends n = false) :
    sinceLent n (past ++ [e]) = sinceLent n past ++ [e] := by
  rw [sinceLent, List.rtakeWhile_concat_pos _ _ _ (by simp [h]), sinceLent]

end

/-- The session is the one that some handshake gave, after the commands issued to its number. -/
def Descends [Transport κ] (past : List (Event κ)) (l : Leased κ) : Prop :=
  ∃ b ∈ births past, b.id = l.id ∧ b.createdAt = l.createdAt ∧
    l.session = evolve b.session (commands l.id past)

structure Faithful [Transport κ] (past : List (Event κ)) (u : Usage κ) : Prop where
  numbers : (births past).map Leased.id = u.opened.map Leased.id
  descends : ∀ l ∈ u.held, Descends past l
  loans : ∀ l ∈ loans past, ∃ b ∈ births past, b.id = l.id ∧ ∃ cs, l.session = evolve b.session cs
  unborn : ∀ n, u.pool.nextId ≤ n → commands n past = []
  operations : ∀ l ∈ u.leases,
    l.operations = (commands l.leased.id (sinceLent l.leased.id past)).length

theorem faithful_start [Transport κ] (name : String) (options : PoolOptions) (bound : Option Nat) :
    Faithful [] (start name options bound : Usage κ) where
  numbers := rfl
  descends l hl := by
    rw [held, start_resting] at hl
    cases hl
  loans l hl := by cases hl
  unborn n _ := rfl
  operations l hl := by cases hl

theorem evolve_concat [Transport κ] (s : κ) (cs : List Command) (c : Command) :
    evolve s (cs ++ [c]) = (Transport.execute c (evolve s cs)).2 := by
  rw [evolve, List.foldl_append]
  rfl

theorem Descends.reused [Transport κ] {past : List (Event κ)} {l m : Leased κ}
    (h : Descends past l) : Descends (past ++ [.reused m]) l := by
  rw [Descends, births_reused, commands_reused]
  exact h

theorem Descends.opened [Transport κ] {past : List (Event κ)} {l m : Leased κ}
    (h : Descends past l) : Descends (past ++ [.opened m]) l := by
  obtain ⟨b, hb, heq⟩ := h
  rw [Descends, births_opened, commands_opened]
  exact ⟨b, List.mem_append_left _ hb, heq⟩

theorem Descends.issued [Transport κ] {past : List (Event κ)} {l m : Leased κ} {c : Command}
    (h : Descends past l) (hid : m.id = l.id) (hat : m.createdAt = l.createdAt)
    (hs : m.session = (Transport.execute c l.session).2) :
    Descends (past ++ [.issued l.id c]) m := by
  obtain ⟨b, hb, hbid, hbat, hsession⟩ := h
  rw [Descends, births_issued, hid, commands_issued, hat]
  refine ⟨b, hb, hbid, hbat, ?_⟩
  rw [hs, evolve_concat, hsession]

theorem Accounted.id_lt (h : u.Accounted) {l : Leased κ} (hl : l ∈ u.held) :
    l.id < u.pool.nextId := by
  obtain ⟨gone, -, hperm⟩ := h.accounts
  have hmem : l.id ∈ u.opened.map Leased.id :=
    List.mem_map_of_mem (hperm.subset (List.mem_append_left _ hl))
  rw [h.numbers, List.mem_range'_1] at hmem
  rw [h.nextId]
  omega

theorem mem_held {l : Lease κ} (hl : l ∈ u.leases) : l.leased ∈ u.held :=
  List.mem_append_left _ (List.mem_map_of_mem hl)

theorem Faithful.lent_apart [Transport κ] {past : List (Event κ)} (h : Faithful past u)
    {l : Lease κ} (hl : l ∈ u.leases) {m : Leased κ} (hne : m.id ≠ l.leased.id) {e : Event κ}
    (he : e.loan? = some m) (hc : ∀ n past, commands n (past ++ [e]) = commands n past) :
    l.operations = (commands l.leased.id (sinceLent l.leased.id (past ++ [e]))).length := by
  have hlends : e.lends l.leased.id = false := by
    rw [Event.lends, he]
    simpa using hne
  rw [sinceLent_concat hlends, hc]
  exact h.operations l hl

theorem Faithful.reused [Transport κ] {past : List (Event κ)} {x : Resting κ} (h : Faithful past u)
    (ha : u.Accounted) (ha' : u'.Accounted) (hx : x ∈ u.pool.resting) (hheld : u'.held ⊆ u.held)
    (hleases : u'.leases = .ofLeased x.leased :: u.leases) (hopened : u'.opened = u.opened) :
    Faithful (past ++ [.reused x.leased]) u' where
  numbers := by rw [births_reused, hopened, h.numbers]
  descends l hl := (h.descends l (hheld hl)).reused
  loans l hl := by
    rw [births_reused]
    rw [loans_reused, List.mem_append, List.mem_singleton] at hl
    rcases hl with hl | rfl
    · exact h.loans l hl
    · obtain ⟨b, hb, hid, -, hs⟩ :=
        h.descends x.leased (List.mem_append_right _ (List.mem_map_of_mem hx))
      exact ⟨b, hb, hid, _, hs⟩
  unborn n hn := by
    rw [commands_reused]
    refine h.unborn n ?_
    rwa [ha.nextId, ← hopened, ← ha'.nextId]
  operations l hl := by
    rw [hleases, List.mem_cons] at hl
    rcases hl with rfl | hl
    · rw [sinceLent_of_lends (by simp [Event.lends, Event.loan?, Lease.ofLeased])]
      rfl
    · obtain ⟨i, hi⟩ := List.mem_iff_getElem?.1 hl
      have hne : x.leased.id ≠ l.leased.id := fun heq =>
        ha.lease_not_idle hi (heq ▸ List.mem_map_of_mem hx)
      exact h.lent_apart hl hne rfl fun _ _ => commands_reused

theorem Faithful.opened [Transport κ] {past : List (Event κ)} {l : Leased κ} (h : Faithful past u)
    (ha : u.Accounted) (ha' : u'.Accounted) (hid : l.id = u.pool.nextId)
    (hheld : u'.held = l :: u.held) (hleases : u'.leases = .ofLeased l :: u.leases)
    (hopened : u'.opened = u.opened ++ [l]) : Faithful (past ++ [.opened l]) u' where
  numbers := by rw [births_opened, List.map_append, h.numbers, hopened, List.map_append]
  descends m hm := by
    rw [hheld, List.mem_cons] at hm
    rcases hm with rfl | hm
    · refine ⟨m, ?_, rfl, rfl, ?_⟩
      · rw [births_opened]
        exact List.mem_append_right _ List.mem_cons_self
      · rw [commands_opened, h.unborn _ hid.ge]
        rfl
    · exact (h.descends m hm).opened
  loans m hm := by
    rw [births_opened]
    rw [loans_opened, List.mem_append, List.mem_singleton] at hm
    rcases hm with hm | rfl
    · obtain ⟨b, hb, heq⟩ := h.loans m hm
      exact ⟨b, List.mem_append_left _ hb, heq⟩
    · exact ⟨m, List.mem_append_right _ List.mem_cons_self, rfl, [], rfl⟩
  unborn n hn := by
    rw [commands_opened]
    refine h.unborn n ?_
    rw [ha'.nextId, hopened, List.length_append] at hn
    rw [ha.nextId]
    omega
  operations m hm := by
    rw [hleases, List.mem_cons] at hm
    rcases hm with rfl | hm
    · rw [sinceLent_of_lends (by simp [Event.lends, Event.loan?, Lease.ofLeased])]
      rfl
    · have hne : l.id ≠ m.leased.id := (hid ▸ ha.id_lt (mem_held hm)).ne'
      exact h.lent_apart hm hne rfl fun _ _ => commands_opened

theorem Faithful.issued [Transport κ] {past : List (Event κ)} {i : Nat} {l : Lease κ} {c : Command}
    (h : Faithful past u) (ha : u.Accounted) (hl : u.leases[i]? = some l) :
    Faithful (past ++ [.issued l.leased.id c]) (u.put i (l.execute c).2) := by
  have hid : (l.execute c).2.leased.id = l.leased.id := rfl
  have hlmem := List.mem_of_getElem? hl
  -- no other session that is held has the number of this one
  have hothers := ((held_perm hl).map Leased.id).nodup_iff.1 ha.held_nodup
  rw [List.map_cons, List.nodup_cons] at hothers
  constructor
  · rw [births_issued, put_numbers, h.numbers]
  · intro m hm
    have hset := ((perm_set_lease hl (l.execute c).2).map Lease.leased).append_right
      (u.pool.resting.map Resting.leased)
    have hmem := hset.subset hm
    rw [List.map_cons, List.cons_append, List.mem_cons] at hmem
    rcases hmem with rfl | hmem
    · exact (h.descends l.leased (mem_held hlmem)).issued rfl rfl rfl
    · have hne : l.leased.id ≠ m.id := fun heq => hothers.1 (heq ▸ List.mem_map_of_mem hmem)
      have hold := h.descends m ((held_perm hl).symm.subset (List.mem_cons_of_mem _ hmem))
      rwa [Descends, births_issued, commands_issued_of_ne hne]
  · intro m hm
    rw [loans_issued] at hm
    rw [births_issued]
    exact h.loans m hm
  · intro n hn
    have hlt := ha.id_lt (mem_held hlmem)
    rw [commands_issued_of_ne (by change u.pool.nextId ≤ n at hn; omega)]
    exact h.unborn n hn
  · intro m hm
    have hmem := (perm_set_lease hl (l.execute c).2).subset hm
    rw [sinceLent_concat rfl]
    rcases List.mem_cons.1 hmem with rfl | hmem
    · rw [hid, commands_issued, List.length_append, ← h.operations l hlmem]
      rfl
    · have hne : l.leased.id ≠ m.leased.id := fun heq =>
        hothers.1 (heq ▸ List.mem_map_of_mem (List.mem_append_left _ (List.mem_map_of_mem hmem)))
      rw [commands_issued_of_ne hne]
      exact h.operations m ((List.eraseIdx_sublist _ _).subset hmem)

theorem Faithful.told [Transport κ] {past es : List (Event κ)} (h : Faithful past u)
    (ha : u.Accounted) (ha' : u'.Accounted) (ht : u.Told u' es) : Faithful (past ++ es) u' := by
  cases ht with
  | silent hheld hleases hopened =>
    rw [List.append_nil]
    constructor
    · rw [hopened, h.numbers]
    · exact fun l hl => h.descends l (hheld hl)
    · exact h.loans
    · intro n hn
      refine h.unborn n ?_
      rwa [ha.nextId, ← hopened, ← ha'.nextId]
    · intro l hl
      obtain ⟨l₀, hl₀, hleased, hops⟩ := hleases l hl
      rw [← hleased, ← hops]
      exact h.operations l₀ hl₀
  | reused hx hheld hleases hopened => exact h.reused ha ha' hx hheld hleases hopened
  | opened hid hheld hleases hopened => exact h.opened ha ha' hid hheld hleases hopened
  | issued hl hput =>
    rw [hput]
    exact h.issued ha hl

theorem Faithful.step [Transport κ] {past : List (Event κ)} (h : Faithful past u) (ho : u.Owned)
    (ha : u.Accounted) (a : Action κ) : Faithful (past ++ u.events a) (u.step a) := by
  by_cases hre : ∃ i, a = .reassign i
  · obtain ⟨i, rfl⟩ := hre
    obtain ⟨hd, ho'⟩ := ho.change_drop i
    have had := ha.moved hd.moved
    have hdropped : Faithful (past ++ []) (u.step (.drop i)) :=
      h.told ha had (ho.told (a := .drop i) (by simp))
    rw [List.append_nil] at hdropped
    rw [events_reassign, step_reassign]
    exact hdropped.told had (had.moved ho'.change_get.1.moved) ho'.told_get
  · have hne : ∀ i, a ≠ .reassign i := fun i hi => hre ⟨i, hi⟩
    exact h.told ha (ha.moved (ho.change hne).1.moved) (ho.told hne)

theorem run_faithful [Transport κ] (name : String) (options : PoolOptions) (bound : Option Nat)
    (as : List (Action κ)) :
    Faithful ((start name options bound).history as) ((start name options bound).run as) := by
  induction as using List.reverseRecOn with
  | nil => exact faithful_start name options bound
  | append_singleton as a ih =>
    have ho : ((start name options bound).run as).Owned := (owned_start name options bound).run as
    have ha := (run_settled name options bound as).accounted
    rw [history_concat, run_append]
    exact ih.step ho ha a

theorem Owned.descends_answer [Transport κ] {past : List (Event κ)} {a : Action κ} {l : Leased κ}
    (ho : u.Owned) (ha : u.Accounted) (h : Faithful past u) (hl : u.answer a = some (.ok l)) :
    ∃ b ∈ births (past ++ u.events a), b.id = l.id ∧ b.createdAt = l.createdAt ∧
      l.session = evolve b.session (commands l.id past) := by
  have hget : ∀ {v : Usage κ}, v.Owned → Faithful past v → v.answer .get = some (.ok l) →
      Descends past l := by
    intro v ho h hl
    obtain ⟨-, x, rest, rfl, hu⟩ := ho.get_ok hl
    have hx : x ∈ v.pool.resting := (Pool.usable_sublist _ _ _).subset (hu ▸ List.mem_cons_self)
    exact h.descends _ (List.mem_append_right _ (List.mem_map_of_mem hx))
  have hborn : births past ⊆ births (past ++ u.events a) := by
    rw [births, births, List.filterMap_append]
    exact List.subset_append_left _ _
  cases a with
  | get =>
    obtain ⟨b, hb, heq⟩ := hget ho h hl
    exact ⟨b, hborn hb, heq⟩
  | reassign i =>
    obtain ⟨hd, ho'⟩ := ho.change_drop i
    have hdropped : Faithful (past ++ []) (u.step (.drop i)) :=
      h.told ha (ha.moved hd.moved) (ho.told (a := .drop i) (by simp))
    rw [List.append_nil] at hdropped
    rw [answer_reassign] at hl
    obtain ⟨b, hb, heq⟩ := hget ho' hdropped hl
    exact ⟨b, hborn hb, heq⟩
  | finish slot result =>
    obtain ⟨hs, session, rfl, rfl⟩ := answer_finish_ok hl
    refine ⟨_, ?_, rfl, rfl, ?_⟩
    · rw [events, hl]
      exact births_opened ▸ List.mem_append_right _ List.mem_cons_self
    · rw [h.unborn _ le_rfl]
      rfl
  | execute | discard | drop | close | setClock => cases hl

theorem mark_evolve [Transport κ] {τ : Type} {mark : κ → τ}
    (hmark : ∀ c s, mark (Transport.execute c s).2 = mark s) (s : κ) (cs : List Command) :
    mark (evolve s cs) = mark s := by
  induction cs generalizing s with
  | nil => rfl
  | cons c cs ih => exact (ih _).trans (hmark c s)

/-- Whenever a session is lent it has the number and the time of birth that its handshake gave it,
and is in the state in which the commands issued to its number left it. Sessions are numbered in the
order of their births, so two of them have the same number only if they are the same one: a mark
that no command changes, and that is different for every birth, tells them apart just as their
numbers do. No two leases at one time have the same number or slot, and a lease counts the commands
that were issued through it. -/
theorem run_identity [Transport κ] (name : String) (options : PoolOptions) (bound : Option Nat)
    (as : List (Action κ)) :
    let u := (start name options bound).run as
    let past := (start name options bound).history as
    (births past).map Leased.id = List.range' 1 (births past).length ∧
    (∀ slot result l, u.answer (.finish slot result) = some (.ok l) →
      result = .ok l.session ∧ l.id = (births past).length + 1 ∧ l.createdAt = u.now ∧
        births (past ++ u.events (.finish slot result)) = births past ++ [l]) ∧
    (∀ a l, u.answer a = some (.ok l) →
      ∃ b ∈ births (past ++ u.events a), b.id = l.id ∧ b.createdAt = l.createdAt ∧
        l.session = evolve b.session (commands l.id past)) ∧
    (∀ l ∈ u.leases, ∃ b ∈ births past, b.id = l.leased.id ∧ b.createdAt = l.leased.createdAt ∧
      l.leased.session = evolve b.session (commands l.leased.id past)) ∧
    (∀ (τ : Type) (mark : κ → τ), (∀ c s, mark (Transport.execute c s).2 = mark s) →
      ((births past).map fun b => mark b.session).Nodup →
      ∀ l ∈ loans past, ∀ m ∈ loans past, l.id = m.id ↔ mark l.session = mark m.session) ∧
    (u.leases.map fun l => l.leased.id).Nodup ∧ (u.leases.map fun l => l.leased.slot).Nodup ∧
    ∀ l ∈ u.leases, l.operations = (commands l.leased.id (sinceLent l.leased.id past)).length := by
  intro u past
  have ho : u.Owned := (owned_start name options bound).run as
  have ha : u.Accounted := (run_settled name options bound as).accounted
  have h : Faithful past u := run_faithful name options bound as
  have hlen : (births past).length = u.opened.length := by
    simpa using congrArg List.length h.numbers
  have hnumbers : (births past).map Leased.id = List.range' 1 (births past).length := by
    rw [h.numbers, ha.numbers, hlen]
  refine ⟨hnumbers, ?_, fun a l hl => ho.descends_answer ha h hl,
    fun l hl => h.descends _ (mem_held hl), ?_, ?_, ?_, h.operations⟩
  · intro slot result l hl
    obtain ⟨-, session, rfl, rfl⟩ := answer_finish_ok hl
    refine ⟨rfl, ?_, rfl, ?_⟩
    · rw [hlen]
      exact ha.nextId
    · rw [events, hl]
      exact births_opened
  · intro τ mark hmark hdistinct l hl m hm
    obtain ⟨b, hb, hbl, cs, hcs⟩ := h.loans l hl
    obtain ⟨b', hb', hbm, cs', hcs'⟩ := h.loans m hm
    rw [hcs, hcs', mark_evolve hmark, mark_evolve hmark, ← hbl, ← hbm]
    have hids : ((births past).map Leased.id).Nodup := by
      rw [hnumbers]
      exact List.nodup_range'
    constructor
    · intro heq
      rw [List.inj_on_of_nodup_map hids hb hb' heq]
    · intro heq
      rw [List.inj_on_of_nodup_map hdistinct hb hb' heq]
  · have hnd := ha.held_nodup
    rw [held, List.map_append, List.map_map] at hnd
    exact (List.nodup_append.1 hnd).1
  · have hnd := (List.nodup_append.1 ho.nodup).2.1
    exact (List.nodup_append.1 hnd).1

theorem serial_execute (c : Command) (s : Scenario.Stub) :
    (Transport.execute c s).2.serial = s.serial := by
  change (Scenario.Stub.execute c s).2.serial = s.serial
  simp only [Scenario.Stub.execute]
  split_ifs <;> rfl

theorem run_identity_recycled_slot :
    let as : List (Action Scenario.Stub) :=
      [.get, .finish 0 (.ok ⟨1, true⟩), .execute 0 ⟨[0x50], []⟩,
      .drop 0, .get, .discard 0, .drop 0, .get, .finish 0 (.ok ⟨2, true⟩)]
    let past := (start "cache" {} none).history as
    (loans past).map (fun l => (l.slot, l.id)) = [(0, 1), (0, 1), (0, 2)] ∧
      ∀ l ∈ loans past, ∀ m ∈ loans past, l.id = m.id ↔ l.session.serial = m.session.serial := by
  intro as past
  obtain ⟨-, -, -, -, hmark, -⟩ := run_identity "cache" {} none as
  exact ⟨by decide +kernel, hmark Nat Scenario.Stub.serial serial_execute (by decide +kernel)⟩

end Usage

end SessionPool
