import SessionPool.Pool.Return
import SessionPool.Proofs.Arena.Blocks
import SessionPool.Proofs.IdleList.Sequence

/-!
# What a pool holds

`p.Shows idle loose reserved` relates a pool to the sessions on its idle list, the sessions that
were taken off the list and are still parked, and the slots that are reserved for leases and
handshakes. Each operation on a pool is described once by what it does to these three lists; a loose
session is met only inside an operation.
-/

namespace SessionPool

structure Resting (κ : Type) where
  slot : Nat
  id : Nat
  createdAt : Nat
  idleSince : Nat
  session : κ
  deriving DecidableEq

namespace Resting

variable {κ : Type}

def entry (x : Resting κ) : IdleEntry := ⟨x.slot, x.createdAt, x.idleSince⟩
def member (x : Resting κ) : Member κ := ⟨x.id, x.session⟩
def leased (x : Resting κ) : Leased κ := ⟨x.slot, x.id, x.createdAt, x.session⟩
def stored (x : Resting κ) : Nat × Member κ := (x.slot, x.member)

end Resting

def Leased.resting {κ : Type} (l : Leased κ) (now : Nat) : Resting κ :=
  ⟨l.slot, l.id, l.createdAt, now, l.session⟩

namespace Pool

variable {κ : Type}

def resting (p : Pool κ) : List (Resting κ) :=
  p.idle.entries.filterMap fun e =>
    match p.arena.block e.slot with
    | .parked m => some ⟨e.slot, m.id, e.createdAt, e.idleSince, m.session⟩
    | _ => none

/-- What no operation on the sessions touches. -/
structure Header where
  name : String
  options : PoolOptions
  failures : Nat
  nextId : Nat
  closed : Bool

def header (p : Pool κ) : Header := ⟨p.name, p.options, p.failures, p.nextId, p.closed⟩

structure Shows (p : Pool κ) (idle loose : List (Resting κ)) (reserved : List Nat) : Prop where
  listed : p.idle.Holds (idle.map Resting.entry)
  keeps : p.arena.Keeps ((idle ++ loose).map Resting.stored) reserved
  active : p.active = idle.length + loose.length + reserved.length
  idleCount : p.idleCount = idle.length

variable {p : Pool κ} {idle loose : List (Resting κ)} {reserved : List Nat} {x : Resting κ}

theorem Shows.resting (h : p.Shows idle loose reserved) : p.resting = idle := by
  have hp : ∀ x ∈ idle, p.arena.block x.slot = .parked x.member := fun x hx =>
    h.keeps.parked x.stored (List.mem_map_of_mem (List.mem_append_left _ hx))
  rw [Pool.resting, h.listed.entries, List.filterMap_map]
  clear h
  induction idle with
  | nil => rfl
  | cons x idle ih =>
    have hx : p.arena.block x.entry.slot = .parked x.member := hp x List.mem_cons_self
    rw [List.filterMap_cons_some, ih fun y hy => hp y (List.mem_cons_of_mem _ hy)]
    simp only [Function.comp_apply, hx]
    rfl

theorem Shows.perm {loose' : List (Resting κ)} {reserved' : List Nat}
    (h : p.Shows idle loose reserved) (hl : loose.Perm loose') (hr : reserved.Perm reserved') :
    p.Shows idle loose' reserved' where
  listed := h.listed
  keeps := h.keeps.perm ((hl.append_left idle).map _) hr
  active := by rw [h.active, hl.length_eq, hr.length_eq]
  idleCount := h.idleCount

def fresh (name : String) (options : PoolOptions) (bound : Option Nat) : Pool κ :=
  { name, options, arena := ⟨#[], [], 0, bound⟩ }

theorem fresh_none (name : String) (options : PoolOptions) :
    (fresh name options none : Pool κ) = new name options := rfl

theorem shows_fresh (name : String) (options : PoolOptions) (bound : Option Nat) :
    (fresh name options bound : Pool κ).Shows [] [] [] :=
  ⟨IdleList.holds_empty, Arena.keeps_fresh bound, rfl, rfl⟩

theorem Shows.keeps_loose (h : p.Shows idle (x :: loose) reserved) :
    p.arena.Keeps (x.stored :: (idle ++ loose).map Resting.stored) reserved :=
  h.keeps.perm (List.perm_middle.map _) (.refl _)

theorem Shows.destroy_loose (h : p.Shows idle (x :: loose) reserved) :
    ∃ p', p.destroy x.slot = ([x.member], p') ∧ p'.Shows idle loose reserved ∧
      p'.header = p.header := by
  obtain ⟨a, ha, hk⟩ := h.keeps_loose.release_parked
  refine ⟨{ p with arena := a, active := p.active - 1 }, ?_, ⟨h.listed, hk, ?_, h.idleCount⟩, rfl⟩
  · simp only [Pool.destroy]
    rw [ha]
    rfl
  · have hact := h.active
    simp only [List.length_cons] at hact
    change p.active - 1 = _
    omega

theorem Shows.destroy_reserved {slot : Nat} (h : p.Shows idle loose (slot :: reserved)) :
    ∃ p', p.destroy slot = ([], p') ∧ p'.Shows idle loose reserved ∧ p'.header = p.header := by
  obtain ⟨a, ha, hk⟩ := h.keeps.release_reserved
  refine ⟨{ p with arena := a, active := p.active - 1 }, ?_, ⟨h.listed, hk, ?_, h.idleCount⟩, rfl⟩
  · simp only [Pool.destroy, ha]
    rfl
  · have hact := h.active
    simp only [List.length_cons] at hact
    change p.active - 1 = _
    omega

theorem Shows.destroyAll {retired : List (Resting κ)}
    (h : p.Shows idle (retired ++ loose) reserved) :
    ∃ p', p.destroyAll (retired.map Resting.slot) = (retired.map Resting.member, p') ∧
      p'.Shows idle loose reserved ∧ p'.header = p.header := by
  induction retired generalizing p with
  | nil => exact ⟨p, rfl, h, rfl⟩
  | cons x retired ih =>
    obtain ⟨p₁, hp₁, h₁, hh₁⟩ := h.destroy_loose
    obtain ⟨p₂, hp₂, h₂, hh₂⟩ := ih h₁
    refine ⟨p₂, ?_, h₂, hh₂.trans hh₁⟩
    simp only [List.map_cons, Pool.destroyAll, hp₁, hp₂]
    rfl

end Pool

end SessionPool
