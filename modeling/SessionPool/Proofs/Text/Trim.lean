import Mathlib.Data.List.DropRight
import Mathlib.Data.List.TakeWhile
import SessionPool.Text.Blank

/-!
# What is left of a trimmed text

A text is its trimmed form with blanks on both sides; other blanks on these sides leave the trimmed
form as it is. A character that is no blank bounds what the trimming of a text can reach from either
end.
-/

namespace SessionPool.Text

variable {c x : Char} {cs ds front back : List Char}

def Blank (cs : List Char) : Prop := ∀ c ∈ cs, isBlank c = true

-- Named, since there is also an instance that would try every character there is.
instance (cs : List Char) : Decidable (Blank cs) :=
  List.decidableBAll (fun c => isBlank c = true) cs

theorem isBlank_of_isDigit (h : c.isDigit = true) : isBlank c = false := by
  have hrange : 48 ≤ c.toNat ∧ c.toNat ≤ 57 := Char.isDigit_iff_toNat.1 h
  simp only [isBlank, Bool.or_eq_false_iff, Bool.and_eq_false_iff, decide_eq_false_iff_not,
    beq_eq_false_iff_ne]
  omega

theorem trimStart_append_of_blank (h : Blank front) : trimStart (front ++ cs) = trimStart cs :=
  List.dropWhile_append_of_pos h

theorem trimEnd_append_of_blank (h : Blank back) : trimEnd (cs ++ back) = trimEnd cs := by
  rw [trimEnd, List.reverse_append,
    trimStart_append_of_blank fun c hc => h c (List.mem_reverse.1 hc), ← trimEnd]

theorem trimStart_append_cons (h : isBlank x = false) :
    trimStart (cs ++ x :: ds) = trimStart cs ++ x :: ds := by
  rw [trimStart, List.dropWhile_append, ← trimStart]
  split
  · next hcs =>
    rw [List.isEmpty_iff.1 hcs, List.nil_append, List.dropWhile_cons_of_neg (by rw [h]; decide)]
  · rfl

theorem trimEnd_append_cons (h : isBlank x = false) :
    trimEnd (cs ++ x :: ds) = cs ++ x :: trimEnd ds := by
  rw [trimEnd, List.reverse_append, List.reverse_cons, List.append_assoc, List.singleton_append,
    trimStart_append_cons h, List.reverse_append, List.reverse_cons, List.reverse_reverse,
    List.append_assoc, List.singleton_append, trimEnd]

theorem trim_append_cons (h : isBlank x = false) :
    trim (cs ++ x :: ds) = trimStart cs ++ x :: trimEnd ds := by
  rw [trim, trimStart_append_cons h, trimEnd_append_cons h]

theorem exists_trimStart (cs : List Char) : ∃ front, Blank front ∧ cs = front ++ trimStart cs :=
  ⟨cs.takeWhile isBlank, fun _ => List.mem_takeWhile_imp, List.takeWhile_append_dropWhile.symm⟩

theorem exists_trimEnd (cs : List Char) : ∃ back, Blank back ∧ cs = trimEnd cs ++ back :=
  ⟨cs.rtakeWhile isBlank, fun _ => List.mem_rtakeWhile_imp,
    List.rdropWhile_append_rtakeWhile.symm⟩

theorem exists_trim (cs : List Char) :
    ∃ front back, Blank front ∧ Blank back ∧ cs = front ++ trim cs ++ back := by
  obtain ⟨front, hfront, hcs⟩ := exists_trimStart cs
  obtain ⟨back, hback, hrest⟩ := exists_trimEnd (trimStart cs)
  exact ⟨front, back, hfront, hback, by rw [trim, List.append_assoc, ← hrest, ← hcs]⟩

theorem trim_of_blank (h : Blank cs) : trim cs = [] := by
  rw [trim, trimStart, List.dropWhile_eq_nil_iff.2 h]
  rfl

theorem trim_pad (hfront : Blank front) (hback : Blank back) :
    trim (front ++ cs ++ back) = trim cs := by
  rw [List.append_assoc, trim, trimStart_append_of_blank hfront]
  by_cases hcs : Blank cs
  · have hall : Blank (cs ++ back) := List.forall_mem_append.2 ⟨hcs, hback⟩
    exact (trim_of_blank hall).trans (trim_of_blank hcs).symm
  · have hsome : ¬(trimStart cs).isEmpty = true := fun h =>
      hcs (List.dropWhile_eq_nil_iff.1 (List.isEmpty_iff.1 h))
    have hstart : trimStart (cs ++ back) = trimStart cs ++ back :=
      List.dropWhile_append.trans (if_neg hsome)
    rw [hstart, trimEnd_append_of_blank hback, ← trim]

@[simp] theorem trim_trimStart (cs : List Char) : trim (trimStart cs) = trim cs := by
  rw [trim, trimStart, trimStart, List.dropWhile_idempotent, ← trimStart, ← trim]

@[simp] theorem trim_trimEnd (cs : List Char) : trim (trimEnd cs) = trim cs := by
  obtain ⟨back, hback, hcs⟩ := exists_trimEnd cs
  have hempty : Blank [] := nofun
  conv_rhs => rw [hcs]
  exact (trim_pad hempty hback).symm

@[simp] theorem trim_trim (cs : List Char) : trim (trim cs) = trim cs :=
  (trim_trimEnd (trimStart cs)).trans (trim_trimStart cs)

theorem trimStart_of_not_blank (h : ∀ c ∈ cs, isBlank c = false) : trimStart cs = cs := by
  cases cs with
  | nil => rfl
  | cons c cs => exact List.dropWhile_cons_of_neg (by rw [h c List.mem_cons_self]; decide)

theorem trim_of_not_blank (h : ∀ c ∈ cs, isBlank c = false) : trim cs = cs := by
  rw [trim, trimStart_of_not_blank h, trimEnd,
    trimStart_of_not_blank fun c hc => h c (List.mem_reverse.1 hc), List.reverse_reverse]

theorem mem_trimStart_of_not_blank (h : isBlank x = false) : x ∈ trimStart cs ↔ x ∈ cs := by
  obtain ⟨front, hfront, hcs⟩ := exists_trimStart cs
  refine ⟨fun hx => List.dropWhile_subset isBlank hx, fun hx => ?_⟩
  rw [hcs] at hx
  refine (List.mem_append.1 hx).resolve_left fun hx => ?_
  rw [hfront x hx] at h
  cases h

theorem mem_trimEnd_of_not_blank (h : isBlank x = false) : x ∈ trimEnd cs ↔ x ∈ cs := by
  rw [trimEnd, List.mem_reverse, mem_trimStart_of_not_blank h, List.mem_reverse]

theorem mem_of_mem_trim (h : x ∈ trim cs) : x ∈ cs := by
  obtain ⟨front, back, -, -, hcs⟩ := exists_trim cs
  rw [hcs]
  exact List.mem_append_left back (List.mem_append_right front h)

end SessionPool.Text
