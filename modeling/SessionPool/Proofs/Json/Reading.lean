import SessionPool.Proofs.Json.Spelling

/-!
# Reading every text of a value

The machine that reads tokens leaves a value on top of the containers it started in, whatever they
are, so a value inside another is read as it is on its own.
-/

namespace SessionPool.Json

open Token
open Expecting (value item member more run step)

theorem item_run_tokens (v : Json) (outer : List Frame) (ts : List Token) :
    (item outer).run (tokens v ++ ts) = (value (.items [] :: outer)).run (tokens v ++ ts) := by
  cases v <;> rw [tokens] <;> rfl

theorem item_run_itemTokens (v : Json) (vs : List Json) (outer : List Frame) (ts : List Token) :
    (item outer).run (itemTokens (v :: vs) ++ ts) =
      (value (.items [] :: outer)).run (itemTokens (v :: vs) ++ ts) := by
  cases vs with
  | nil =>
    rw [itemTokens]
    exact item_run_tokens v outer ts
  | cons w vs =>
    rw [itemTokens, List.append_assoc]
    · exact item_run_tokens v outer _
    · exact List.cons_ne_nil _ _

theorem member_run_memberTokens (name : JsonText) (v : Json) (ms : List (JsonText × Json))
    (outer : List Frame) (ts : List Token) :
    (member outer).run (memberTokens ((name, v) :: ms) ++ ts) =
      (Expecting.name [] outer).run (memberTokens ((name, v) :: ms) ++ ts) := by
  cases ms with
  | nil =>
    rw [memberTokens]
    rfl
  | cons m ms =>
    rw [memberTokens]
    · rfl
    · exact List.cons_ne_nil _ _

-- By the size of what is read: an item is part of the list it stands in, and so are the items
-- behind it.
mutual
theorem run_tokens (v : Json) (outer : List Frame) (ts : List Token) :
    (value outer).run (tokens v ++ ts) = (more v outer).run ts := by
  match v with
  | .null | .bool _ | .integer _ | .real _ | .string _ | .array [] | .object [] =>
    rw [tokens]
    rfl
  | .array (v :: vs) =>
    have hopen : (value outer).run (tokens (.array (v :: vs)) ++ ts) =
        (item outer).run (itemTokens (v :: vs) ++ closeArray :: ts) := by
      rw [tokens, List.cons_append, List.append_assoc]
      rfl
    rw [hopen, item_run_itemTokens, run_itemTokens]
    rfl
  | .object ((name, v) :: ms) =>
    have hopen : (value outer).run (tokens (.object ((name, v) :: ms)) ++ ts) =
        (member outer).run (memberTokens ((name, v) :: ms) ++ closeObject :: ts) := by
      rw [tokens, List.cons_append, List.append_assoc]
      rfl
    rw [hopen, member_run_memberTokens, run_memberTokens]
    rfl
termination_by sizeOf v

theorem run_itemTokens (v : Json) (vs before : List Json) (outer : List Frame) (ts : List Token) :
    (value (.items before :: outer)).run (itemTokens (v :: vs) ++ closeArray :: ts) =
      (more (.array (before.reverse ++ v :: vs)) outer).run ts := by
  match vs with
  | [] =>
    rw [itemTokens, run_tokens, run, step, List.reverse_cons]
  | w :: vs =>
    have hcomma : (more v (.items before :: outer)).run (comma :: (itemTokens (w :: vs) ++
        closeArray :: ts)) = (value (.items (v :: before) :: outer)).run (itemTokens (w :: vs) ++
          closeArray :: ts) := rfl
    rw [itemTokens, List.append_assoc, run_tokens, List.cons_append, hcomma, run_itemTokens,
      List.reverse_cons, List.append_assoc, List.singleton_append]
    exact List.cons_ne_nil _ _
termination_by sizeOf (v :: vs)

theorem run_memberTokens (name : JsonText) (v : Json) (ms before : List (JsonText × Json))
    (outer : List Frame) (ts : List Token) :
    (Expecting.name before outer).run (memberTokens ((name, v) :: ms) ++ closeObject :: ts) =
      (more (.object (before.reverse ++ (name, v) :: ms)) outer).run ts := by
  have hname (ts : List Token) : (Expecting.name before outer).run (.string name :: colon :: ts) =
      (value (.members before name :: outer)).run ts := rfl
  match ms with
  | [] =>
    rw [memberTokens, List.cons_append, List.cons_append, hname, run_tokens, run, step,
      List.reverse_cons]
  | (other, w) :: ms =>
    have hcomma : (more v (.members before name :: outer)).run (comma ::
        (memberTokens ((other, w) :: ms) ++ closeObject :: ts)) =
          (Expecting.name ((name, v) :: before) outer).run (memberTokens ((other, w) :: ms) ++
            closeObject :: ts) := rfl
    rw [memberTokens, List.cons_append, List.cons_append, hname, List.append_assoc, run_tokens,
      List.cons_append, hcomma, run_memberTokens, List.reverse_cons, List.append_assoc,
      List.singleton_append]
    exact List.cons_ne_nil _ _
termination_by sizeOf ((name, v) :: ms)
end

/-- Every text of a value is read as that value. -/
theorem parse?_of_spells {v : Json} {s : String} (h : Spells v s) : parse? s = some v := by
  have hrun := run_tokens v [] []
  rw [List.append_nil] at hrun
  rw [parse?, lex?_of_spaced h, Option.bind_some, hrun]
  rfl

theorem read_of_spells {α : Type} {v : Json} {s : String} (h : Spells v s)
    (read : Json → Option α) : (parse? s).bind read = read v := by
  rw [parse?_of_spells h, Option.bind_some]

end SessionPool.Json
