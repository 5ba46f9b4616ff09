import Mathlib.Data.List.Basic
import Mathlib.Data.String.Basic
import SessionPool.Scenario.Basic

/-!
# Values under names

The values are kept in the order of their names, so each name stands once, and taking a value out or
putting one in concerns no other.
-/

namespace SessionPool.Scenario.Named

variable {α : Type} {l : Named α} {name : String} {a : α}

def values (l : Named α) : List α := l.map Prod.snd

def Ordered (l : Named α) : Prop := l.Pairwise fun x y => x.1 < y.1

theorem ordered_erase (h : l.Ordered) (name : String) : (l.erase name).Ordered :=
  h.sublist List.filter_sublist

theorem erase_of_forall_ne (h : ∀ x ∈ l, x.1 ≠ name) : l.erase name = l :=
  List.filter_eq_self.2 fun x hx => bne_iff_ne.2 (h x hx)

theorem erase_of_get?_eq_none (h : l.get? name = none) : l.erase name = l := by
  refine erase_of_forall_ne fun x hx heq => ?_
  rw [get?, Option.map_eq_none_iff, List.find?_eq_none] at h
  exact h x hx (beq_iff_eq.2 heq)

theorem erase_cons_self (h : Ordered ((name, a) :: l)) : erase name ((name, a) :: l) = l := by
  have hne : ∀ x ∈ l, x.1 ≠ name := fun x hx => ne_of_gt ((List.pairwise_cons.1 h).1 x hx)
  rw [erase, List.filter_cons_of_neg (by simp)]
  exact erase_of_forall_ne hne

theorem perm_of_get? (h : l.Ordered) (hget : l.get? name = some a) :
    l.values.Perm (a :: (l.erase name).values) := by
  induction l with
  | nil => cases hget
  | cons x l ih =>
    obtain ⟨key, b⟩ := x
    by_cases hkey : key = name
    · subst hkey
      have hb : b = a := by simpa [get?] using hget
      rw [erase_cons_self h, hb]
      exact .refl _
    · have hrest : get? name l = some a := by simpa [get?, hkey] using hget
      have herase : erase name ((key, b) :: l) = (key, b) :: erase name l := by simp [erase, hkey]
      rw [herase]
      exact ((ih (List.pairwise_cons.1 h).2 hrest).cons b).trans (.swap a b _)

theorem insert_perm (h : l.Ordered) (name : String) (a : α) :
    (l.insert name a).values.Perm (a :: (l.erase name).values) := by
  induction l with
  | nil => exact .refl _
  | cons x l ih =>
    obtain ⟨key, b⟩ := x
    obtain ⟨hall, hl⟩ := List.pairwise_cons.1 h
    rw [insert]
    split
    · next hlt =>
      have hne : ∀ y ∈ (key, b) :: l, y.1 ≠ name :=
        List.forall_mem_cons.2 ⟨ne_of_gt hlt, fun y hy => ne_of_gt (lt_trans hlt (hall y hy))⟩
      rw [erase_of_forall_ne hne]
      exact .refl _
    · split
      · next hkey =>
        obtain rfl : key = name := beq_iff_eq.1 hkey
        rw [erase_cons_self h]
        exact .refl _
      · next hkey =>
        have hne : key ≠ name := fun heq => hkey (beq_iff_eq.2 heq)
        have herase : erase name ((key, b) :: l) = (key, b) :: erase name l := by simp [erase, hne]
        rw [herase]
        exact ((ih hl).cons b).trans (.swap a b _)

theorem mem_insert {x : String × α} (hx : x ∈ l.insert name a) : x = (name, a) ∨ x ∈ l := by
  induction l with
  | nil => exact .inl (List.mem_singleton.1 hx)
  | cons y l ih =>
    rw [insert] at hx
    split at hx
    · exact List.mem_cons.1 hx
    · split at hx
      · exact (List.mem_cons.1 hx).imp_right (List.mem_cons_of_mem y)
      · rcases List.mem_cons.1 hx with rfl | hx
        · exact .inr List.mem_cons_self
        · exact (ih hx).imp_right (List.mem_cons_of_mem y)

theorem ordered_insert (h : l.Ordered) (name : String) (a : α) : (l.insert name a).Ordered := by
  induction l with
  | nil => exact List.pairwise_singleton _ _
  | cons x l ih =>
    obtain ⟨hall, hl⟩ := List.pairwise_cons.1 h
    rw [insert]
    split
    · next hlt =>
      exact List.pairwise_cons.2
        ⟨List.forall_mem_cons.2 ⟨hlt, fun y hy => lt_trans hlt (hall y hy)⟩, h⟩
    · next hlt =>
      split
      · next hkey =>
        obtain rfl : x.1 = name := beq_iff_eq.1 hkey
        exact List.pairwise_cons.2 ⟨hall, hl⟩
      · next hkey =>
        have hne : x.1 ≠ name := fun heq => hkey (beq_iff_eq.2 heq)
        refine List.pairwise_cons.2 ⟨fun y hy => ?_, ih hl⟩
        rcases mem_insert hy with rfl | hy
        · exact lt_of_le_of_ne (not_lt.1 hlt) hne
        · exact hall y hy

end SessionPool.Scenario.Named
