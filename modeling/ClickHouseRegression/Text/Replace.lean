import Mathlib

/-! Searching a text for the occurrences of another one, from the left and without overlaps: splitting
at them, replacing them, and replacing the occurrences of several keys in a single pass. -/
namespace ClickHouseRegression.Replace

variable {α : Type} [DecidableEq α]

/-- The pieces of the text between the separators, after the first `skip` letters. -/
def splitFrom (sep : List α) : ℕ → List α → List (List α)
  | _,[] => [[]]
  | skip+1,_ :: t => splitFrom sep skip t
  | 0,c :: t =>
    if sep <+: c :: t then [] :: splitFrom sep (sep.length-1) t
    else (splitFrom sep 0 t).modifyHead (c :: ·)

/-- `t.split(sep)` for a separator that is not empty. -/
def split (sep t : List α) : List (List α) := splitFrom sep 0 t

def replaceFrom (old new : List α) : ℕ → List α → List α
  | _,[] => []
  | skip+1,_ :: t => replaceFrom old new skip t
  | 0,c :: t =>
    if old <+: c :: t then new ++ replaceFrom old new (old.length-1) t
    else c :: replaceFrom old new 0 t

/-- `t.replace(old, new)`. The empty text occurs before every letter and at the end. -/
def replace (old new t : List α) : List α :=
  if old = [] then new ++ t.flatMap (· :: new) else replaceFrom old new 0 t

/-- An occurrence of `key` in `u ++ t` that begins in `u`. -/
def Begins (key u t : List α) : Prop := ∃ a b, u = a ++ b ∧ b ≠ [] ∧ key <+: b ++ t

section
omit [DecidableEq α]
variable {key u t : List α} {c : α}

theorem not_begins_nil : ¬ Begins key [] t := by
  rintro ⟨a,b,hab,hb,-⟩
  exact hb (List.append_eq_nil_iff.1 hab.symm).2

theorem begins_cons : Begins key (c :: u) t ↔ key <+: c :: (u ++ t) ∨ Begins key u t := by
  constructor
  · rintro ⟨a,b,hab,hb,hkey⟩
    cases a with
    | nil =>
      rw [List.nil_append] at hab
      rw [← hab] at hkey
      exact .inl hkey
    | cons d a => exact .inr ⟨a,b,(List.cons.inj hab).2,hb,hkey⟩
  · rintro (hkey | ⟨a,b,hab,hb,hkey⟩)
    · exact ⟨[],c :: u,rfl,List.cons_ne_nil c u,hkey⟩
    · exact ⟨c :: a,b,by rw [hab,List.cons_append],hb,hkey⟩

/-- A key cannot begin where its first letter does not stand. -/
theorem not_begins_of_notMem {a : α} {rest : List α} (h : a ∉ u) : ¬ Begins (a :: rest) u t := by
  induction u with
  | nil => exact not_begins_nil
  | cons c u ih =>
    rw [begins_cons,List.cons_prefix_cons]
    rintro (⟨hac,-⟩ | hbegins)
    · exact h (hac ▸ List.mem_cons_self)
    · exact ih (fun hu => h (List.mem_cons_of_mem c hu)) hbegins

end

theorem splitFrom_skip (sep : List α) (skip : ℕ) (t : List α) :
    splitFrom sep skip t = split sep (t.drop skip) := by
  induction t generalizing skip with
  | nil =>
    rw [List.drop_nil]
    cases skip <;> rfl
  | cons c t ih =>
    cases skip with
    | zero => rfl
    | succ skip => exact ih skip

theorem replaceFrom_skip (old new : List α) (skip : ℕ) (t : List α) :
    replaceFrom old new skip t = replaceFrom old new 0 (t.drop skip) := by
  induction t generalizing skip with
  | nil =>
    rw [List.drop_nil]
    cases skip <;> rfl
  | cons c t ih =>
    cases skip with
    | zero => rfl
    | succ skip => exact ih skip

theorem split_key {sep : List α} (h : sep ≠ []) (t : List α) : split sep (sep ++ t) = [] :: split sep t := by
  cases sep with
  | nil => exact absurd rfl h
  | cons a sep =>
    rw [split,List.cons_append,splitFrom,if_pos (List.cons_prefix_cons.2 ⟨rfl,List.prefix_append sep t⟩),
      splitFrom_skip,List.length_cons,Nat.add_sub_cancel,List.drop_left]

/-- Text in which no separator begins stays in one piece. -/
theorem split_passes {sep u t : List α} (h : ¬ Begins sep u t) :
    split sep (u ++ t) = (split sep t).modifyHead (u ++ ·) := by
  induction u with
  | nil =>
    rw [List.nil_append]
    cases split sep t with
    | nil => rfl
    | cons p ps => rfl
  | cons c u ih =>
    rw [begins_cons,not_or] at h
    rw [split,List.cons_append,splitFrom,if_neg h.1]
    change (split sep (u ++ t)).modifyHead (c :: ·) = _
    rw [ih h.2]
    cases split sep t with
    | nil => rfl
    | cons p ps => rfl

theorem replace_nil {old : List α} (h : old ≠ []) (new : List α) : replace old new [] = [] := by
  rw [replace,if_neg h,replaceFrom]

theorem replace_key {old : List α} (h : old ≠ []) (new t : List α) :
    replace old new (old ++ t) = new ++ replace old new t := by
  simp only [replace,if_neg h]
  cases old with
  | nil => exact absurd rfl h
  | cons a old =>
    rw [List.cons_append,replaceFrom,if_pos (List.cons_prefix_cons.2 ⟨rfl,List.prefix_append old t⟩),
      replaceFrom_skip,List.length_cons,Nat.add_sub_cancel,List.drop_left]

theorem replace_passes {old u t : List α} (hold : old ≠ []) (new : List α) (h : ¬ Begins old u t) :
    replace old new (u ++ t) = u ++ replace old new t := by
  simp only [replace,if_neg hold]
  induction u with
  | nil => rfl
  | cons c u ih =>
    rw [begins_cons,not_or] at h
    rw [List.cons_append,replaceFrom,if_neg h.1,ih h.2,List.cons_append]

end ClickHouseRegression.Replace
