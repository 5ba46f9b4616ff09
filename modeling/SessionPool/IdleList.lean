import SessionPool.Arena
import SessionPool.Duration

/-!
# The idle list

Idle connections in order of return, the latest at the front. The entries are linked in both
directions by the slots of their connections, so that either end and any entry in between can be
taken out without a search. Memory for the nodes is taken to be unbounded, so making room for a slot
never fails.
-/

namespace SessionPool

/-- A slot, when its handshake ended, and when it was returned last. -/
structure IdleEntry where
  slot : Nat
  createdAt : Nat
  idleSince : Nat
  deriving DecidableEq, Inhabited

/-- An entry of the list without its slot, its neighbour towards the front and its neighbour towards
the back. -/
structure IdleNode where
  createdAt : Nat
  idleSince : Nat
  prev : Option Nat
  next : Option Nat
  deriving DecidableEq, Inhabited

def IdleNode.entry (n : IdleNode) (slot : Nat) : IdleEntry := ⟨slot, n.createdAt, n.idleSince⟩

structure IdleList where
  nodes : Array (Option IdleNode)
  head : Option Nat
  tail : Option Nat
  size : Nat
  deriving DecidableEq

namespace IdleList

def empty : IdleList := ⟨#[], none, none, 0⟩

instance : Inhabited IdleList := ⟨empty⟩

def isEmpty (l : IdleList) : Bool := l.size == 0

def node? (l : IdleList) (slot : Nat) : Option IdleNode := (l.nodes[slot]?).join

def contains (l : IdleList) (slot : Nat) : Bool := (l.node? slot).isSome

def setNode (l : IdleList) (slot : Nat) (n : Option IdleNode) : IdleList :=
  let room := l.nodes ++ Array.replicate (slot + 1 - l.nodes.size) none
  { l with nodes := room.setIfInBounds slot n }

def updateNode (l : IdleList) (slot : Nat) (f : IdleNode → IdleNode) : IdleList :=
  match l.node? slot with
  | some n => l.setNode slot (some (f n))
  | none => l

def linkAfter (l : IdleList) (prev next : Option Nat) : IdleList :=
  match prev with
  | some p => l.updateNode p fun n => { n with next }
  | none => { l with head := next }

def linkBefore (l : IdleList) (next prev : Option Nat) : IdleList :=
  match next with
  | some s => l.updateNode s fun n => { n with prev }
  | none => { l with tail := prev }

def unlink? (l : IdleList) (slot : Nat) : Option (IdleEntry × IdleList) :=
  match l.node? slot with
  | none => none
  | some n =>
    let l := l.setNode slot none
    let l := (l.linkAfter n.prev n.next).linkBefore n.next n.prev
    some (n.entry slot, { l with size := l.size - 1 })

def erase (l : IdleList) (slot : Nat) : IdleList :=
  match l.unlink? slot with
  | some (_, l) => l
  | none => l

def pushFront (l : IdleList) (e : IdleEntry) : IdleList :=
  let l := l.erase e.slot
  let head := l.head
  let l := l.setNode e.slot (some ⟨e.createdAt, e.idleSince, none, head⟩)
  let l := l.linkBefore head (some e.slot)
  { l with head := some e.slot, size := l.size + 1 }

def popFront? (l : IdleList) : Option (IdleEntry × IdleList) := l.head.bind l.unlink?

def popBack? (l : IdleList) : Option (IdleEntry × IdleList) := l.tail.bind l.unlink?

def peekBack? (l : IdleList) : Option IdleEntry :=
  l.tail.bind fun slot => (l.node? slot).map fun n => n.entry slot

/-- Takes entries from the back as long as they satisfy `test`; gives their slots, the last entry of
the list first. At most `count` entries are taken, and those in `acc` were taken before. -/
def takeBack (test : IdleEntry → Bool) (acc : List Nat) :
    (count : Nat) → IdleList → List Nat × IdleList
  | 0, l => (acc.reverse, l)
  | count + 1, l =>
    match l.peekBack? with
    | none => (acc.reverse, l)
    | some e =>
      if test e then
        match l.popBack? with
        | some (e, l) => takeBack test (e.slot :: acc) count l
        | none => (acc.reverse, l)
      else (acc.reverse, l)

/-- Takes entries from the front up to the first that does not satisfy `test`, which is taken too;
gives that entry and the slots of those before it. -/
def takeFront (test : IdleEntry → Bool) (acc : List Nat) :
    (count : Nat) → IdleList → Option IdleEntry × List Nat × IdleList
  | 0, l => (none, acc.reverse, l)
  | count + 1, l =>
    match l.popFront? with
    | none => (none, acc.reverse, l)
    | some (e, l) =>
      if test e then takeFront test (e.slot :: acc) count l else (some e, acc.reverse, l)

theorem node?_setNode (l : IdleList) (s t : Nat) (n : Option IdleNode) :
    (l.setNode s n).node? t = if s = t then n else l.node? t := by
  have h : s < (l.nodes ++
      Array.replicate (s + 1 - l.nodes.size) (none : Option IdleNode)).size := by
    simp only [Array.size_append, Array.size_replicate]; omega
  simp only [setNode, node?, Array.getElem?_setIfInBounds]
  by_cases hst : s = t
  · subst hst; simp only [h, if_true, Option.join_some]
  · simp only [hst, if_false, Array.getElem?_append]
    split
    · rfl
    · rename_i ht
      rw [Array.getElem?_replicate]
      split <;> simp [Array.getElem?_eq_none (Nat.le_of_not_lt ht)]

end IdleList

end SessionPool
