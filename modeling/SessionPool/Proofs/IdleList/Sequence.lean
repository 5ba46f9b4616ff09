import Mathlib.Data.List.DropRight
import SessionPool.IdleList

/-!
# The idle list is a sequence

`l.Holds es` states that the links of `l` visit the entries `es` in order, both ways, and that no
other slot has a node. Pushing adds an entry at the front, popping removes the first or the last
one, and the two scans split the sequence at the first entry that does not satisfy their test.
-/

namespace SessionPool.IdleList

def firstSlot : List IdleEntry → Option Nat → Option Nat
  | [], next => next
  | e :: _, _ => some e.slot

def lastSlot : Option Nat → List IdleEntry → Option Nat
  | prev, [] => prev
  | _, e :: es => lastSlot (some e.slot) es

/-- The entries stand in this order between two neighbours. -/
def Segment (l : IdleList) : Option Nat → List IdleEntry → Option Nat → Prop
  | _, [], _ => True
  | prev, e :: es, next =>
    l.node? e.slot = some ⟨e.createdAt, e.idleSince, prev, firstSlot es next⟩ ∧
      l.Segment (some e.slot) es next

structure Holds (l : IdleList) (es : List IdleEntry) : Prop where
  linked : l.Segment none es none
  head : l.head = firstSlot es none
  tail : l.tail = lastSlot none es
  size : l.size = es.length
  nodup : (es.map IdleEntry.slot).Nodup
  only : ∀ s, s ∉ es.map IdleEntry.slot → l.node? s = none

theorem lastSlot_append (prev : Option Nat) (as bs : List IdleEntry) :
    lastSlot prev (as ++ bs) = lastSlot (lastSlot prev as) bs := by
  induction as generalizing prev with
  | nil => rfl
  | cons a as ih => exact ih _

theorem firstSlot_append (as bs : List IdleEntry) (next : Option Nat) :
    firstSlot (as ++ bs) next = firstSlot as (firstSlot bs next) := by
  cases as <;> rfl

theorem segment_append {l : IdleList} {prev next : Option Nat} {as bs : List IdleEntry} :
    l.Segment prev (as ++ bs) next ↔
      l.Segment prev as (firstSlot bs next) ∧ l.Segment (lastSlot prev as) bs next := by
  induction as generalizing prev with
  | nil => simp [Segment, lastSlot]
  | cons a as ih => simp only [List.cons_append, Segment, lastSlot, ih, firstSlot_append, and_assoc]

theorem Segment.congr {l l' : IdleList} {prev next : Option Nat} {es : List IdleEntry}
    (h : l.Segment prev es next) (same : ∀ e ∈ es, l'.node? e.slot = l.node? e.slot) :
    l'.Segment prev es next := by
  induction es generalizing prev with
  | nil => trivial
  | cons e es ih =>
    obtain ⟨hn, hs⟩ := h
    refine ⟨?_, ih hs fun x hx => same x (List.mem_cons_of_mem _ hx)⟩
    rw [same e List.mem_cons_self, hn]

theorem Segment.node {l : IdleList} {prev next : Option Nat} {as bs : List IdleEntry}
    {e : IdleEntry} (h : l.Segment prev (as ++ e :: bs) next) :
    l.node? e.slot =
      some ⟨e.createdAt, e.idleSince, lastSlot prev as, firstSlot bs next⟩ :=
  (segment_append.1 h).2.1

theorem node?_updateNode (l : IdleList) (s t : Nat) (f : IdleNode → IdleNode) :
    (l.updateNode s f).node? t = if s = t then (l.node? t).map f else l.node? t := by
  unfold updateNode
  split
  · rename_i n hn
    rw [node?_setNode]
    split
    · rename_i hst; subst hst; rw [hn]; rfl
    · rfl
  · rename_i hn
    split
    · rename_i hst; subst hst; rw [hn]; rfl
    · rfl

theorem updateNode_ends (l : IdleList) (s : Nat) (f : IdleNode → IdleNode) :
    (l.updateNode s f).head = l.head ∧ (l.updateNode s f).tail = l.tail ∧
      (l.updateNode s f).size = l.size := by
  unfold updateNode
  split <;> exact ⟨rfl, rfl, rfl⟩

theorem Segment.linkAfter {l : IdleList} {as : List IdleEntry} {old : Option Nat}
    (h : l.Segment none as old) (new : Option Nat) (nodup : (as.map IdleEntry.slot).Nodup)
    (head : l.head = firstSlot as old) :
    let l' := l.linkAfter (lastSlot none as) new
    l'.Segment none as new ∧ l'.head = firstSlot as new ∧ l'.tail = l.tail ∧ l'.size = l.size ∧
      ∀ s, s ∉ as.map IdleEntry.slot → l'.node? s = l.node? s := by
  intro l'
  rcases List.eq_nil_or_concat as with rfl | ⟨init, a, rfl⟩
  · exact ⟨trivial, rfl, rfl, rfl, fun _ _ => rfl⟩
  · rw [List.concat_eq_append] at h nodup head ⊢
    have hl : l' = l.updateNode a.slot fun n => { n with next := new } := by
      simp only [l', List.concat_eq_append, lastSlot_append]; rfl
    have ha : a.slot ∉ init.map IdleEntry.slot := by
      rw [List.map_append, List.nodup_append] at nodup
      exact fun hm => nodup.2.2 _ hm _ (by simp) rfl
    obtain ⟨hinit, hnode, -⟩ := segment_append.1 h
    obtain ⟨hh, ht, hs⟩ := updateNode_ends l a.slot fun n => { n with next := new }
    rw [hl]
    refine ⟨segment_append.2 ⟨?_, ?_, trivial⟩, ?_, ht, hs, ?_⟩
    · refine hinit.congr fun e he => ?_
      rw [node?_updateNode, if_neg]
      exact fun hae => ha (hae ▸ List.mem_map_of_mem he)
    · rw [node?_updateNode, if_pos rfl, hnode]
      rfl
    · rw [hh, head, firstSlot_append, firstSlot_append]
      rfl
    · intro s hs
      rw [node?_updateNode, if_neg]
      rintro rfl
      exact hs (by simp)

theorem Segment.linkBefore {l : IdleList} {bs : List IdleEntry} {old : Option Nat}
    (h : l.Segment old bs none) (new : Option Nat) (nodup : (bs.map IdleEntry.slot).Nodup)
    (tail : l.tail = lastSlot old bs) :
    let l' := l.linkBefore (firstSlot bs none) new
    l'.Segment new bs none ∧ l'.tail = lastSlot new bs ∧ l'.head = l.head ∧ l'.size = l.size ∧
      ∀ s, s ∉ bs.map IdleEntry.slot → l'.node? s = l.node? s := by
  intro l'
  cases bs with
  | nil => exact ⟨trivial, rfl, rfl, rfl, fun _ _ => rfl⟩
  | cons b bs =>
    obtain ⟨hnode, hrest⟩ := h
    obtain ⟨hh, ht, hs⟩ := updateNode_ends l b.slot fun n => { n with prev := new }
    have hl : l' = l.updateNode b.slot fun n => { n with prev := new } := rfl
    rw [hl]
    refine ⟨⟨?_, ?_⟩, ht.trans tail, hh, hs, ?_⟩
    · rw [node?_updateNode, if_pos rfl, hnode]
      rfl
    · refine hrest.congr fun e he => ?_
      rw [node?_updateNode, if_neg]
      intro hbe
      exact (List.nodup_cons.1 nodup).1 (hbe ▸ List.mem_map_of_mem he)
    · intro s hs
      rw [node?_updateNode, if_neg]
      rintro rfl
      exact hs (by simp)

theorem holds_empty : empty.Holds [] :=
  ⟨trivial, rfl, rfl, rfl, List.nodup_nil, fun _ _ => by simp [node?, empty]⟩

theorem Holds.contains_iff {l : IdleList} {es : List IdleEntry} (h : l.Holds es) (s : Nat) :
    l.contains s = true ↔ s ∈ es.map IdleEntry.slot := by
  constructor
  · intro hc
    by_contra hs
    rw [contains, h.only s hs] at hc
    exact absurd hc (by decide)
  · intro hs
    obtain ⟨e, he, rfl⟩ := List.mem_map.1 hs
    obtain ⟨as, bs, rfl⟩ := List.append_of_mem he
    rw [contains, h.linked.node]
    rfl

theorem Segment.join {l : IdleList} {as bs : List IdleEntry} {next prev : Option Nat}
    (hfront : l.Segment none as next) (hback : l.Segment prev bs none)
    (nodup : ((as ++ bs).map IdleEntry.slot).Nodup) (head : l.head = firstSlot as next)
    (tail : l.tail = lastSlot prev bs) :
    let l' := (l.linkAfter (lastSlot none as) (firstSlot bs none)).linkBefore (firstSlot bs none)
      (lastSlot none as)
    l'.Segment none (as ++ bs) none ∧ l'.head = firstSlot (as ++ bs) none ∧
      l'.tail = lastSlot none (as ++ bs) ∧ l'.size = l.size ∧
      ∀ s, s ∉ (as ++ bs).map IdleEntry.slot → l'.node? s = l.node? s := by
  rw [List.map_append, List.nodup_append] at nodup
  obtain ⟨has, hbs, hdis⟩ := nodup
  obtain ⟨hfront₁, hhead₁, htail₁, hsize₁, hsame₁⟩ := hfront.linkAfter (firstSlot bs none) has head
  have hback₁ : (l.linkAfter (lastSlot none as) (firstSlot bs none)).Segment prev bs none :=
    hback.congr fun x hx => hsame₁ _ fun hm => hdis _ hm _ (List.mem_map_of_mem hx) rfl
  obtain ⟨hback₂, htail₂, hhead₂, hsize₂, hsame₂⟩ :=
    hback₁.linkBefore (lastSlot none as) hbs (htail₁.trans tail)
  have hfront₂ := hfront₁.congr fun x hx =>
    hsame₂ _ fun hm => hdis _ (List.mem_map_of_mem hx) _ hm rfl
  refine ⟨segment_append.2 ⟨hfront₂, hback₂⟩, ?_, ?_, hsize₂.trans hsize₁, fun s hs => ?_⟩
  · rw [firstSlot_append]
    exact hhead₂.trans hhead₁
  · rw [lastSlot_append]
    exact htail₂
  · rw [List.map_append, List.mem_append, not_or] at hs
    exact (hsame₂ s hs.2).trans (hsame₁ s hs.1)

theorem Holds.unlink {l : IdleList} {as bs : List IdleEntry} {e : IdleEntry}
    (h : l.Holds (as ++ e :: bs)) :
    ∃ l', l.unlink? e.slot = some (e, l') ∧ l'.Holds (as ++ bs) := by
  obtain ⟨hfront, -, hback⟩ := segment_append.1 h.linked
  have hnd := (List.perm_middle.map IdleEntry.slot).nodup_iff.1 h.nodup
  rw [List.map_cons, List.nodup_cons] at hnd
  obtain ⟨he, hnd⟩ := hnd
  -- the node is dropped first, then the entries on either side are linked to each other
  let l₁ := l.setNode e.slot none
  have hnode₁ : ∀ x ∈ as ++ bs, l₁.node? x.slot = l.node? x.slot := fun x hx => by
    rw [node?_setNode, if_neg]
    exact fun hex => he (hex ▸ List.mem_map_of_mem hx)
  have hfront₁ : l₁.Segment none as (firstSlot (e :: bs) none) :=
    hfront.congr fun x hx => hnode₁ x (List.mem_append_left bs hx)
  have hback₁ : l₁.Segment (some e.slot) bs none :=
    hback.congr fun x hx => hnode₁ x (List.mem_append_right as hx)
  obtain ⟨hseg, hhead, htail, hsize, hsame⟩ := hfront₁.join hback₁ hnd
    (h.head.trans (firstSlot_append as (e :: bs) none))
    (h.tail.trans (lastSlot_append none as (e :: bs)))
  let l₂ := (l₁.linkAfter (lastSlot none as) (firstSlot bs none)).linkBefore (firstSlot bs none)
    (lastSlot none as)
  refine ⟨{ l₂ with size := l₂.size - 1 }, ?_, hseg.congr fun _ _ => rfl, hhead, htail, ?_, hnd,
    fun s hs => ?_⟩
  · simp only [unlink?, h.linked.node]
    rfl
  · have hlen := h.size
    have hl₁ : l₁.size = l.size := rfl
    change l₂.size - 1 = _
    rw [hsize, hl₁]
    simp only [List.length_append, List.length_cons] at hlen ⊢
    omega
  · refine (hsame s hs).trans ?_
    by_cases hse : e.slot = s
    · rw [node?_setNode, if_pos hse]
    · rw [node?_setNode, if_neg hse]
      refine h.only s fun hm => hs ?_
      have hm' := (List.perm_middle.map IdleEntry.slot).mem_iff.1 hm
      exact (List.mem_cons.1 hm').resolve_left (Ne.symm hse)

theorem Holds.unlink_absent {l : IdleList} {es : List IdleEntry} {s : Nat} (h : l.Holds es)
    (hs : s ∉ es.map IdleEntry.slot) : l.unlink? s = none := by
  simp only [unlink?, h.only s hs]

theorem Holds.erase {l : IdleList} {es : List IdleEntry} (h : l.Holds es) (s : Nat) :
    (l.erase s).Holds (es.filter fun e => e.slot != s) := by
  by_cases hs : s ∈ es.map IdleEntry.slot
  · obtain ⟨e, he, rfl⟩ := List.mem_map.1 hs
    obtain ⟨as, bs, rfl⟩ := List.append_of_mem he
    obtain ⟨l', hl', h'⟩ := h.unlink
    have hnd := h.nodup
    rw [List.map_append, List.map_cons, List.nodup_append, List.nodup_cons] at hnd
    have has : ∀ x ∈ as, (x.slot != e.slot) = true := fun x hx => bne_iff_ne.2 fun hxe =>
      hnd.2.2 _ (List.mem_map_of_mem hx) _ List.mem_cons_self hxe
    have hbs : ∀ x ∈ bs, (x.slot != e.slot) = true := fun x hx => bne_iff_ne.2 fun hxe =>
      hnd.2.1.1 (hxe ▸ List.mem_map_of_mem hx)
    rw [List.filter_append, List.filter_cons_of_neg (by simp), List.filter_eq_self.2 has,
      List.filter_eq_self.2 hbs]
    simp only [IdleList.erase, hl']
    exact h'
  · have hall : ∀ x ∈ es, (x.slot != s) = true := fun x hx => bne_iff_ne.2 fun hxs =>
      hs (hxs ▸ List.mem_map_of_mem hx)
    rw [List.filter_eq_self.2 hall]
    simp only [IdleList.erase, h.unlink_absent hs]
    exact h

theorem Holds.pushFront {l : IdleList} {es : List IdleEntry} (h : l.Holds es) (e : IdleEntry) :
    (l.pushFront e).Holds (e :: es.filter fun x => x.slot != e.slot) := by
  have h₀ := h.erase e.slot
  have he : e.slot ∉ (es.filter fun x => x.slot != e.slot).map IdleEntry.slot := by
    intro hm
    obtain ⟨x, hx, hxe⟩ := List.mem_map.1 hm
    exact bne_iff_ne.1 (List.mem_filter.1 hx).2 hxe
  generalize es.filter (fun x => x.slot != e.slot) = rest at h₀ he ⊢
  let l₀ := l.erase e.slot
  let l₁ := l₀.setNode e.slot (some ⟨e.createdAt, e.idleSince, none, l₀.head⟩)
  have hseg₁ : l₁.Segment none rest none := h₀.linked.congr fun x hx => by
    rw [node?_setNode, if_neg]
    exact fun hex => he (hex ▸ List.mem_map_of_mem hx)
  obtain ⟨hseg₂, htail₂, -, hsize₂, hsame₂⟩ :=
    hseg₁.linkBefore (some e.slot) h₀.nodup h₀.tail
  let l₂ := l₁.linkBefore (firstSlot rest none) (some e.slot)
  have hl : l.pushFront e = { l₂ with head := some e.slot, size := l₂.size + 1 } := by
    simp only [l₂, ← h₀.head]
    rfl
  have hnode : l₂.node? e.slot = some ⟨e.createdAt, e.idleSince, none, firstSlot rest none⟩ := by
    rw [hsame₂ _ he, node?_setNode, if_pos rfl, ← h₀.head]
  rw [hl]
  refine ⟨⟨hnode, hseg₂.congr fun _ _ => rfl⟩, rfl, htail₂, ?_,
    List.nodup_cons.2 ⟨he, h₀.nodup⟩, ?_⟩
  · exact congrArg (· + 1) (hsize₂.trans h₀.size)
  · intro s hs
    simp only [List.map_cons, List.mem_cons, not_or] at hs
    change l₂.node? s = none
    rw [hsame₂ s hs.2, node?_setNode, if_neg (Ne.symm hs.1)]
    exact h₀.only s hs.2

theorem Holds.popFront_nil {l : IdleList} (h : l.Holds []) : l.popFront? = none := by
  rw [popFront?, h.head]
  rfl

theorem Holds.popFront_cons {l : IdleList} {e : IdleEntry} {es : List IdleEntry}
    (h : l.Holds (e :: es)) : ∃ l', l.popFront? = some (e, l') ∧ l'.Holds es := by
  have h₀ : l.Holds ([] ++ e :: es) := h
  obtain ⟨l', hl', h'⟩ := h₀.unlink
  refine ⟨l', ?_, h'⟩
  rw [popFront?, h.head]
  exact hl'

theorem Holds.popBack_nil {l : IdleList} (h : l.Holds []) : l.popBack? = none := by
  rw [popBack?, h.tail]
  rfl

theorem Holds.popBack_concat {l : IdleList} {es : List IdleEntry} {e : IdleEntry}
    (h : l.Holds (es ++ [e])) : ∃ l', l.popBack? = some (e, l') ∧ l'.Holds es := by
  obtain ⟨l', hl', h'⟩ := h.unlink
  rw [List.append_nil] at h'
  refine ⟨l', ?_, h'⟩
  rw [popBack?, h.tail, lastSlot_append]
  exact hl'

theorem Holds.peekBack_nil {l : IdleList} (h : l.Holds []) : l.peekBack? = none := by
  rw [peekBack?, h.tail]
  rfl

theorem Holds.peekBack_concat {l : IdleList} {es : List IdleEntry} {e : IdleEntry}
    (h : l.Holds (es ++ [e])) : l.peekBack? = some e := by
  rw [peekBack?, h.tail, lastSlot_append]
  simp only [lastSlot, Option.bind_some, h.linked.node, Option.map_some]
  rfl

theorem Holds.takeBack {l : IdleList} {es : List IdleEntry} (h : l.Holds es)
    (test : IdleEntry → Bool) (acc : List Nat) {count : Nat} (hc : es.length ≤ count) :
    ∃ l', l.takeBack test acc count =
        (acc.reverse ++ (es.reverse.takeWhile test).map IdleEntry.slot, l') ∧
      l'.Holds (es.rdropWhile test) := by
  induction count generalizing l es acc with
  | zero =>
    obtain rfl := List.length_eq_zero_iff.1 (Nat.le_zero.1 hc)
    exact ⟨l, by simp [IdleList.takeBack], h⟩
  | succ count ih =>
    rcases List.eq_nil_or_concat es with rfl | ⟨init, e, rfl⟩
    · exact ⟨l, by simp [IdleList.takeBack, h.peekBack_nil], h⟩
    · rw [List.concat_eq_append] at h hc ⊢
      by_cases ht : test e = true
      · obtain ⟨l₁, hl₁, h₁⟩ := h.popBack_concat
        obtain ⟨l', hl', h'⟩ := ih h₁ (e.slot :: acc) (by simpa using hc)
        refine ⟨l', ?_, ?_⟩
        · simp only [IdleList.takeBack, h.peekBack_concat, ht, if_true, hl₁, hl']
          simp [ht]
        · rw [List.rdropWhile_concat_pos _ _ _ ht]
          exact h'
      · refine ⟨l, ?_, ?_⟩
        · simp only [IdleList.takeBack, h.peekBack_concat, ht]
          simp [ht]
        · rw [List.rdropWhile_concat_neg _ _ _ ht]
          exact h

theorem Holds.takeFront {l : IdleList} {es : List IdleEntry} (h : l.Holds es)
    (test : IdleEntry → Bool) (acc : List Nat) {count : Nat} (hc : es.length ≤ count) :
    ∃ l', l.takeFront test acc count = ((es.dropWhile test).head?,
        acc.reverse ++ (es.takeWhile test).map IdleEntry.slot, l') ∧
      l'.Holds (es.dropWhile test).tail := by
  induction count generalizing l es acc with
  | zero =>
    obtain rfl := List.length_eq_zero_iff.1 (Nat.le_zero.1 hc)
    exact ⟨l, by simp [IdleList.takeFront], h⟩
  | succ count ih =>
    cases es with
    | nil => exact ⟨l, by simp [IdleList.takeFront, h.popFront_nil], h⟩
    | cons e es =>
      obtain ⟨l₁, hl₁, h₁⟩ := h.popFront_cons
      by_cases ht : test e = true
      · obtain ⟨l', hl', h'⟩ := ih h₁ (e.slot :: acc) (by simpa using hc)
        refine ⟨l', ?_, ?_⟩
        · simp only [IdleList.takeFront, hl₁, ht, if_true, hl']
          simp [ht]
        · simpa [ht] using h'
      · refine ⟨l₁, ?_, ?_⟩
        · simp only [IdleList.takeFront, hl₁, ht]
          simp [ht]
        · simpa [ht] using h₁

def walk (l : IdleList) : (steps : Nat) → Option Nat → List IdleEntry
  | 0, _ => []
  | _, none => []
  | steps + 1, some slot =>
    match l.node? slot with
    | some n => n.entry slot :: l.walk steps n.next
    | none => []

def entries (l : IdleList) : List IdleEntry := l.walk l.size l.head

theorem Segment.walk {l : IdleList} {prev : Option Nat} {es : List IdleEntry}
    (h : l.Segment prev es none) : l.walk es.length (firstSlot es none) = es := by
  induction es generalizing prev with
  | nil => rfl
  | cons e es ih =>
    obtain ⟨hnode, hrest⟩ := h
    change l.walk (es.length + 1) (some e.slot) = e :: es
    simp only [IdleList.walk, hnode, ih hrest]
    rfl

theorem Holds.entries {l : IdleList} {es : List IdleEntry} (h : l.Holds es) : l.entries = es := by
  rw [IdleList.entries, h.size, h.head]
  exact h.linked.walk

end SessionPool.IdleList
