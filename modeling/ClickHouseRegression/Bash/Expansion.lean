import ClickHouseRegression.Text

/-! Expansion of text by bash: backslash escapes, and parameter, command and arithmetic
expansion. What an expansion gives depends on the state of the shell, which is a parameter. -/
namespace ClickHouseRegression.Bash

/-- The shell's answer to the expansion at the head of a text: the value, and how many
characters it takes beyond the first. -/
abbrev Shell := Text → Text × ℕ

/-- Characters after `$` that start an expansion; any other leaves the `$` as it is. -/
def startsExpansion (c : Char) : Bool :=
  c.isAlphanum || c = '_' || c = '{' || c = '(' || c = '[' || c = '@' || c = '*' || c = '#' ||
    c = '?' || c = '-' || c = '$' || c = '!'

/-- A pair of adjacent characters that bash does not take literally; `escaped` are the
characters that a backslash quotes. -/
def special (escaped : Char → Bool) (a b : Char) : Bool :=
  (a = '\\' && (b = '\n' || escaped b)) || (a = '$' && startsExpansion b)

/-- The text has nothing to expand. -/
def Inert (escaped : Char → Bool) (t : Text) : Prop :=
  '`' ∉ t ∧ t.IsChain fun a b => special escaped a b = false

instance (escaped : Char → Bool) (t : Text) : Decidable (Inert escaped t) :=
  inferInstanceAs (Decidable (_ ∧ _))

variable (escaped : Char → Bool) (sh : Shell)

/-- The text after expansion. -/
def expand : Text → Text
  | [] => []
  | a :: rest =>
    if a = '`' then (sh (a :: rest)).1 ++ expand (rest.drop (sh (a :: rest)).2)
    else
      match rest with
      | [] => [a]
      | b :: rest =>
        if a = '\\' ∧ b = '\n' then expand rest
        else if a = '\\' ∧ escaped b = true then b :: expand rest
        else if a = '$' ∧ startsExpansion b = true then
          (sh (a :: b :: rest)).1 ++ expand ((b :: rest).drop (sh (a :: b :: rest)).2)
        else a :: expand (b :: rest)
termination_by t => t.length
decreasing_by
  all_goals simp only [List.length_drop,List.length_cons]
  all_goals omega

theorem inert_cons_cons {a b : Char} {rest : Text} :
    Inert escaped (a :: b :: rest) ↔
      a ≠ '`' ∧ special escaped a b = false ∧ Inert escaped (b :: rest) := by
  unfold Inert
  rw [List.isChain_cons_cons,List.mem_cons,not_or]
  constructor
  · rintro ⟨⟨ha,hm⟩,hs,hc⟩
    exact ⟨Ne.symm ha,hs,hm,hc⟩
  · rintro ⟨ha,hs,hm,hc⟩
    exact ⟨⟨Ne.symm ha,hm⟩,hs,hc⟩

theorem special_eq_false_iff {a b : Char} :
    special escaped a b = false ↔
      ¬ (a = '\\' ∧ b = '\n') ∧ ¬ (a = '\\' ∧ escaped b = true) ∧
        ¬ (a = '$' ∧ startsExpansion b = true) := by
  rw [← Bool.not_eq_true]
  simp only [special,Bool.or_eq_true,Bool.and_eq_true,decide_eq_true_eq]
  tauto

/-- Inert text stands for itself, whatever the state of the shell. -/
theorem expand_of_inert {t : Text} (h : Inert escaped t) : expand escaped sh t = t := by
  fun_induction expand escaped sh t with
  | case1 => rfl
  | case2 rest ih => exact absurd List.mem_cons_self h.1
  | case3 a ha => rfl
  | case4 a ha b rest hab ih =>
    rw [inert_cons_cons,special_eq_false_iff] at h
    exact absurd hab h.2.1.1
  | case5 a ha b rest hab hesc ih =>
    rw [inert_cons_cons,special_eq_false_iff] at h
    exact absurd hesc h.2.1.2.1
  | case6 a ha b rest hab hesc hd ih =>
    rw [inert_cons_cons,special_eq_false_iff] at h
    exact absurd hd h.2.1.2.2
  | case7 a ha b rest hab hesc hd ih =>
    rw [inert_cons_cons] at h
    rw [ih h.2.2]

/-- In a shell where every expansion gives nothing, text that is not inert gets shorter. -/
theorem expand_shrinks (hsh : ∀ t, (sh t).1 = []) (t : Text) :
    (expand escaped sh t).length ≤ t.length ∧
      ((expand escaped sh t).length = t.length → Inert escaped t) := by
  fun_induction expand escaped sh t with
  | case1 => exact ⟨le_rfl,fun _ => ⟨by simp,List.isChain_nil⟩⟩
  | case2 rest ih =>
    have hd := List.length_drop (i := (sh ('`' :: rest)).2) (l := rest)
    rw [hsh,List.nil_append,List.length_cons]
    constructor
    · omega
    · omega
  | case3 a ha => exact ⟨le_rfl,fun _ => ⟨by simpa using Ne.symm ha,List.isChain_singleton a⟩⟩
  | case4 a ha b rest hab ih =>
    simp only [List.length_cons]
    constructor
    · omega
    · omega
  | case5 a ha b rest hab hesc ih =>
    simp only [List.length_cons]
    constructor
    · omega
    · omega
  | case6 a ha b rest hab hesc hd ih =>
    have hl := List.length_drop (i := (sh (a :: b :: rest)).2) (l := b :: rest)
    rw [hsh,List.nil_append,List.length_cons]
    constructor
    · omega
    · omega
  | case7 a ha b rest hab hesc hd ih =>
    simp only [List.length_cons] at ih ⊢
    refine ⟨by omega,fun h => ?_⟩
    rw [inert_cons_cons,special_eq_false_iff]
    exact ⟨ha,⟨hab,hesc,hd⟩,ih.2 (by omega)⟩

end ClickHouseRegression.Bash
