import SessionPool.Proofs.IdleList.Sequence

/-!
# The idle list shows the order of return

What a use of the idle list shows is what a plain sequence shows in which every slot stands at most
once. The links hold that sequence twice: towards the back they visit its slots in order, towards
the front in the opposite order, and each of the two walks ends.
-/

namespace SessionPool.IdleList

inductive Use
  | pushFront (e : IdleEntry)
  | popFront
  | popBack
  | peekBack
  | contains (slot : Nat)

inductive Answer
  | pushed
  | entry (e : Option IdleEntry)
  | listed (b : Bool)
  deriving DecidableEq

structure Report where
  answer : Answer
  size : Nat
  isEmpty : Bool
  deriving DecidableEq

def popped (l : IdleList) : Option (IdleEntry × IdleList) → Answer × IdleList
  | some (e, rest) => (.entry (some e), rest)
  | none => (.entry none, l)

def answer (l : IdleList) : Use → Answer × IdleList
  | .pushFront e => (.pushed, l.pushFront e)
  | .popFront => l.popped l.popFront?
  | .popBack => l.popped l.popBack?
  | .peekBack => (.entry l.peekBack?, l)
  | .contains slot => (.listed (l.contains slot), l)

def use (l : IdleList) (u : Use) : Report × IdleList :=
  let (answer, rest) := l.answer u
  (⟨answer, rest.size, rest.isEmpty⟩, rest)

namespace Recency

def answer (es : List IdleEntry) : Use → Answer × List IdleEntry
  | .pushFront e => (.pushed, e :: es.filter fun x => x.slot != e.slot)
  | .popFront => (.entry es.head?, es.tail)
  | .popBack => (.entry es.getLast?, es.dropLast)
  | .peekBack => (.entry es.getLast?, es)
  | .contains slot => (.listed (es.any fun x => x.slot == slot), es)

def use (es : List IdleEntry) (u : Use) : Report × List IdleEntry :=
  let (answer, rest) := Recency.answer es u
  (⟨answer, rest.length, rest.isEmpty⟩, rest)

end Recency

def run {σ : Type} (use : σ → Use → Report × σ) (s : σ) : List Use → List Report × σ
  | [] => ([], s)
  | u :: us =>
    let (report, s) := use s u
    let (reports, s) := run use s us
    (report :: reports, s)

/-- The walk from a slot along a link visits these slots and then ends. -/
inductive Visits (l : IdleList) (link : IdleNode → Option Nat) : Option Nat → List Nat → Prop
  | done : Visits l link none []
  | visit {slot n slots} (hn : l.node? slot = some n) (h : Visits l link (link n) slots) :
    Visits l link (some slot) (slot :: slots)

variable {l : IdleList} {es : List IdleEntry}

theorem Segment.visits_next {prev : Option Nat} (h : l.Segment prev es none) :
    l.Visits IdleNode.next (firstSlot es none) (es.map IdleEntry.slot) := by
  induction es generalizing prev with
  | nil => exact .done
  | cons e es ih =>
    obtain ⟨hnode, hrest⟩ := h
    exact .visit hnode (ih hrest)

theorem Segment.visits_prev {next : Option Nat} (h : l.Segment none es next) :
    l.Visits IdleNode.prev (lastSlot none es) (es.map IdleEntry.slot).reverse := by
  induction es using List.reverseRecOn generalizing next with
  | nil => exact .done
  | append_singleton es e ih =>
    obtain ⟨hfront, hnode, -⟩ := segment_append.1 h
    rw [lastSlot_append, List.map_append, List.reverse_append]
    exact .visit hnode (ih hfront)

theorem Holds.isEmpty (h : l.Holds es) : l.isEmpty = es.isEmpty := by
  rw [IdleList.isEmpty, h.size]
  cases es <;> rfl

theorem Holds.contains (h : l.Holds es) (slot : Nat) :
    l.contains slot = es.any fun x => x.slot == slot := by
  rw [Bool.eq_iff_iff, h.contains_iff, List.any_eq_true, List.mem_map]
  simp only [beq_iff_eq]

theorem Holds.peekBack (h : l.Holds es) : l.peekBack? = es.getLast? := by
  rcases List.eq_nil_or_concat es with rfl | ⟨init, e, rfl⟩
  · exact h.peekBack_nil
  · rw [List.concat_eq_append] at h ⊢
    rw [h.peekBack_concat, List.getLast?_concat]

theorem Holds.answer (h : l.Holds es) (u : Use) :
    (l.answer u).1 = (Recency.answer es u).1 ∧ (l.answer u).2.Holds (Recency.answer es u).2 := by
  cases u with
  | pushFront e => exact ⟨rfl, h.pushFront e⟩
  | popFront =>
    cases es with
    | nil =>
      rw [IdleList.answer, h.popFront_nil]
      exact ⟨rfl, h⟩
    | cons e es =>
      obtain ⟨rest, hpop, hrest⟩ := h.popFront_cons
      rw [IdleList.answer, hpop]
      exact ⟨rfl, hrest⟩
  | popBack =>
    rcases List.eq_nil_or_concat es with rfl | ⟨init, e, rfl⟩
    · rw [IdleList.answer, h.popBack_nil]
      exact ⟨rfl, h⟩
    · rw [List.concat_eq_append] at h ⊢
      obtain ⟨rest, hpop, hrest⟩ := h.popBack_concat
      rw [IdleList.answer, hpop, Recency.answer, List.getLast?_concat, List.dropLast_concat]
      exact ⟨rfl, hrest⟩
  | peekBack => exact ⟨congrArg Answer.entry h.peekBack, h⟩
  | contains slot => exact ⟨congrArg Answer.listed (h.contains slot), h⟩

theorem Holds.use (h : l.Holds es) (u : Use) :
    (l.use u).1 = (Recency.use es u).1 ∧ (l.use u).2.Holds (Recency.use es u).2 := by
  obtain ⟨hanswer, hrest⟩ := h.answer u
  refine ⟨?_, hrest⟩
  simp only [IdleList.use, Recency.use, hanswer, hrest.size, hrest.isEmpty]

theorem Holds.run (h : l.Holds es) (us : List Use) :
    (IdleList.run IdleList.use l us).1 = (IdleList.run Recency.use es us).1 ∧
      (IdleList.run IdleList.use l us).2.Holds (IdleList.run Recency.use es us).2 := by
  induction us generalizing l es with
  | nil => exact ⟨rfl, h⟩
  | cons u us ih =>
    obtain ⟨hreport, hrest⟩ := h.use u
    obtain ⟨hreports, hlast⟩ := ih hrest
    exact ⟨congrArg₂ List.cons hreport hreports, hlast⟩

/-- Whatever is pushed and popped, every use shows what it shows of a plain sequence, and the links
visit the slots of that sequence from either end. -/
theorem run_recency (us : List Use) :
    let l := (run use empty us).2
    let es := (run Recency.use [] us).2
    let slots := es.map IdleEntry.slot
    (run use empty us).1 = (run Recency.use [] us).1 ∧
    l.size = es.length ∧ l.isEmpty = es.isEmpty ∧ slots.Nodup ∧ slots.length = l.size ∧
    l.Visits IdleNode.next l.head slots ∧ l.Visits IdleNode.prev l.tail slots.reverse ∧
    (∀ e ∈ es, (l.node? e.slot).map (fun n => n.entry e.slot) = some e) ∧
    ∀ s, s ∉ slots → l.node? s = none := by
  intro l es slots
  obtain ⟨hreports, h⟩ : _ ∧ l.Holds es := holds_empty.run us
  refine ⟨hreports, h.size, h.isEmpty, h.nodup, ?_, ?_, ?_, fun e he => ?_, h.only⟩
  · rw [h.size, List.length_map]
  · rw [h.head]
    exact h.linked.visits_next
  · rw [h.tail]
    exact h.linked.visits_prev
  · obtain ⟨front, back, hsplit⟩ := List.append_of_mem he
    have hlinked := h.linked
    rw [hsplit] at hlinked
    rw [hlinked.node]
    rfl

/-- A slot that is returned again moves to the front, and the two around it are linked to each
other. -/
example :
    let l := (run use empty [.pushFront ⟨0, 1, 5⟩, .pushFront ⟨4, 2, 6⟩, .pushFront ⟨1, 3, 7⟩,
      .pushFront ⟨4, 2, 8⟩, .popBack]).2
    l.head = some 4 ∧ l.tail = some 1 ∧ l.node? 4 = some ⟨2, 8, none, some 1⟩ ∧
      l.node? 1 = some ⟨3, 7, some 4, none⟩ ∧ l.node? 0 = none ∧ l.size = 2 := by
  decide +kernel

end SessionPool.IdleList
