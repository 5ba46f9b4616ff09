import SessionPool.Fault

/-!
# The arena

Blocks, numbered by slots, that hold parked values. A block is vacant, reserved for an owner
outside, or holds what that owner parked in it. Released blocks are stacked and handed out again,
the last one first, before a new block is made; so there are never more blocks than were in use at
one time.
-/

namespace SessionPool

inductive Block (α : Type) where
  | vacant
  | reserved
  | parked (value : α)
  deriving DecidableEq, Inhabited

/-- Blocks, the stack of the vacant ones, the count of the others, and the most blocks there may be;
without that bound memory is the limit. -/
structure Arena (α : Type) where
  blocks : Array (Block α)
  free : List Nat
  inUse : Nat
  bound : Option Nat

namespace Arena

variable {α : Type}

def bounded (n : Nat) : Arena α := ⟨#[], [], 0, some n⟩

def empty : Arena α := ⟨#[], [], 0, none⟩

instance : Inhabited (Arena α) := ⟨empty⟩

def block (a : Arena α) (slot : Nat) : Block α := (a.blocks[slot]?).getD .vacant

def size (a : Arena α) : Nat := a.inUse

def isEmpty (a : Arena α) : Bool := a.inUse == 0

def capacity (a : Arena α) : Nat := a.blocks.size

def isFull (a : Arena α) : Bool :=
  match a.bound with
  | some n => n ≤ a.blocks.size
  | none => false

def setBlock (a : Arena α) (slot : Nat) (b : Block α) : Arena α :=
  { a with blocks := a.blocks.setIfInBounds slot b }

def acquire? (a : Arena α) : Option (Nat × Arena α) :=
  match a.free with
  | slot :: free => some (slot, { a.setBlock slot .reserved with free, inUse := a.inUse + 1 })
  | [] =>
    if a.isFull then none
    else some (a.blocks.size, { a with blocks := a.blocks.push .reserved, inUse := a.inUse + 1 })

def park? (a : Arena α) (slot : Nat) (value : α) : Option (Arena α) :=
  match a.block slot with
  | .reserved => some (a.setBlock slot (.parked value))
  | _ => none

def take? (a : Arena α) (slot : Nat) : Option (α × Arena α) :=
  match a.block slot with
  | .parked value => some (value, a.setBlock slot .reserved)
  | _ => none

def vacate (a : Arena α) (slot : Nat) : Arena α :=
  { a.setBlock slot .vacant with free := slot :: a.free, inUse := a.inUse - 1 }

def release (a : Arena α) (slot : Nat) : Option α × Arena α :=
  match a.block slot with
  | .vacant => (none, a)
  | .reserved => (none, a.vacate slot)
  | .parked value => (some value, a.vacate slot)

def parkedValues (a : Arena α) : List α :=
  a.blocks.toList.filterMap fun
    | .parked value => some value
    | _ => none

theorem block_setBlock (a : Arena α) (s t : Nat) (b : Block α) (h : s < a.blocks.size) :
    (a.setBlock s b).block t = if s = t then b else a.block t := by
  simp only [setBlock, block, Array.getElem?_setIfInBounds]
  by_cases hst : s = t
  · subst hst; simp [h]
  · simp [hst]

theorem lt_capacity_of_block_ne_vacant {a : Arena α} {s : Nat} (h : a.block s ≠ .vacant) :
    s < a.capacity := by
  refine Nat.lt_of_not_le fun hs => h ?_
  simp [block, Array.getElem?_eq_none hs]

theorem size_blocks_setBlock (a : Arena α) (s : Nat) (b : Block α) :
    (a.setBlock s b).blocks.size = a.blocks.size := by simp [setBlock]

end Arena

end SessionPool
