import ClickHouseRegression.Bash.Lexer

/-! The words at the head of a command line cannot be longer than the text in double quotes that
they come from, and they are as long only if nothing in the text is expanded or quoted. -/
namespace ClickHouseRegression.Bash

/-- The characters of the words before the first operator, with one after each word. -/
def leading : List Token → ℕ
  | .word w :: l => w.length+1+leading l
  | _ => 0

/-- The characters of the word being read. -/
def Mode.letters : Mode → Text
  | plain cur => cur.letters
  | double w => w
  | single w => w

/-- A shell in which every expansion gives nothing. -/
def emptyShell : Shell := fun _ => ([],0)

theorem leading_flush {cur : Current} {m : Mode} {k : ℕ} {t : Text} {l : List Token}
    (h : lex emptyShell (cur.flush []) m k t = some l) :
    ∃ l', lex emptyShell [] m k t = some l' ∧ leading l ≤ cur.letters.length+1+leading l' := by
  rw [lex_acc] at h
  obtain ⟨l',hl',rfl⟩ := Option.map_eq_some_iff.1 h
  refine ⟨l',hl',?_⟩
  cases cur <;> simp [Current.flush,Current.letters,leading]

theorem leading_beforeWord {cur : Current} {m : Mode} {k : ℕ} {t : Text} {l : List Token}
    (h : lex emptyShell (cur.beforeWord []) m k t = some l) :
    ∃ l', lex emptyShell [] m k t = some l' ∧ leading l ≤ leading l' := by
  rw [lex_acc] at h
  obtain ⟨l',hl',rfl⟩ := Option.map_eq_some_iff.1 h
  refine ⟨l',hl',?_⟩
  cases cur <;> simp [Current.beforeWord,leading]

theorem leading_beforeOp {cur : Current} {m : Mode} {k : ℕ} {t : Text} {l : List Token}
    (h : lex emptyShell (cur.beforeOp []) m k t = some l) :
    ∃ l', lex emptyShell [] m k t = some l' ∧ leading l ≤ cur.letters.length+1+leading l' := by
  rw [lex_acc] at h
  obtain ⟨l',hl',rfl⟩ := Option.map_eq_some_iff.1 h
  refine ⟨l',hl',?_⟩
  cases cur <;> simp [Current.beforeOp,Current.letters,leading]

/-- After an operator there are no leading words. -/
theorem leading_op {o t : Text} {l : List Token}
    (h : lex emptyShell [] (.plain (.op o)) 0 t = some l) : leading l = 0 := by
  have hflushed : ∀ {o m k t}, lex emptyShell [.op o] m k t = some l → leading l = 0 := by
    intro o m k t h
    rw [lex_acc] at h
    obtain ⟨l',-,rfl⟩ := Option.map_eq_some_iff.1 h
    rfl
  induction t generalizing o with
  | nil =>
    cases h
    rfl
  | cons c t ih =>
    rw [lex] at h
    split_ifs at h with h1 h2 h3 h4 h5 h6 h7
    · exact hflushed h
    · exact hflushed h
    · exact hflushed h
    · exact absurd h4 (by simp [Current.isNone])
    · exact ih h
    · exact hflushed h

/-- Every character of the text before the given one adds at most one character to the words, and a
character that is passed over adds none. -/
def WordsBounded (tail t : Text) : Prop :=
  (∀ m l, lex emptyShell [] m 0 (t ++ tail) = some l → leading l ≤ m.letters.length+t.length+1) ∧
    ∀ w l, lex emptyShell [] (.double w) 1 (t ++ tail) = some l → leading l ≤ w.length+t.length

section
variable {tail t : Text} (ih : WordsBounded tail t) {c : Char} {l : List Token}
include ih

theorem WordsBounded.plain {cur : Current}
    (h : lex emptyShell [] (.plain cur) 0 (c :: (t ++ tail)) = some l) :
    leading l ≤ cur.letters.length+(t.length+1)+1 := by
  rw [lex] at h
  split_ifs at h
  · obtain ⟨l',hl',hle⟩ := leading_flush h
    have hl := ih.1 _ _ hl'
    simp only [Mode.letters,Current.letters,List.length_nil] at hl
    omega
  · obtain ⟨l',hl',hle⟩ := leading_beforeWord h
    have hl := ih.1 _ _ hl'
    simp only [Mode.letters] at hl
    omega
  · obtain ⟨l',hl',hle⟩ := leading_beforeWord h
    have hl := ih.1 _ _ hl'
    simp only [Mode.letters] at hl
    omega
  · rw [leading_op h]
    omega
  · obtain ⟨l',hl',hle⟩ := leading_beforeOp h
    rw [leading_op hl'] at hle
    omega
  · obtain ⟨l',hl',hle⟩ := leading_beforeWord h
    have hl := ih.1 _ _ hl'
    have hw : (Mode.plain (.word (c :: cur.letters))).letters = c :: cur.letters := rfl
    rw [hw,List.length_cons] at hl
    omega

theorem WordsBounded.double {w : Text}
    (h : lex emptyShell [] (.double w) 0 (c :: (t ++ tail)) = some l) :
    leading l ≤ w.length+(t.length+1)+1 := by
  rw [lex] at h
  split_ifs at h
  · have hl := ih.1 _ _ h
    simp only [Mode.letters,Current.letters] at hl
    omega
  · have hl := ih.1 _ _ h
    simp only [Mode.letters,emptyShell,List.reverse_nil,List.nil_append] at hl
    omega
  · have hl := ih.2 _ _ h
    omega
  · have hl := ih.2 _ _ h
    have hone : (t ++ tail).head?.toList.length ≤ 1 := by
      cases (t ++ tail).head? <;> simp
    rw [List.length_append] at hl
    omega
  · have hl := ih.1 _ _ h
    simp only [Mode.letters,List.length_cons] at hl
    omega

theorem WordsBounded.single {w : Text}
    (h : lex emptyShell [] (.single w) 0 (c :: (t ++ tail)) = some l) :
    leading l ≤ w.length+(t.length+1)+1 := by
  rw [lex] at h
  split_ifs at h
  · have hl := ih.1 _ _ h
    simp only [Mode.letters,Current.letters] at hl
    omega
  · have hl := ih.1 _ _ h
    simp only [Mode.letters,List.length_cons] at hl
    omega

theorem WordsBounded.cons : WordsBounded tail (c :: t) := by
  constructor
  · intro m l h
    cases m with
    | plain cur => exact ih.plain h
    | double w => exact ih.double h
    | single w => exact ih.single h
  · intro w l h
    rw [List.cons_append,lex] at h
    have hl := ih.1 _ _ h
    simp only [Mode.letters] at hl
    rw [List.length_cons]
    omega

end

section
variable {rest : Text} (hdouble : ∀ w, lex emptyShell [] (.double w) 0 (' ' :: '|' :: rest) = none)
  (hsingle : ∀ w, lex emptyShell [] (.single w) 0 ('"' :: ' ' :: '|' :: rest) = none)
include hdouble hsingle

/-- Only in double quotes does the quote at the end of the text end a word. -/
theorem wordsBounded_nil : WordsBounded ('"' :: ' ' :: '|' :: rest) [] := by
  constructor
  · intro m l h
    rw [List.nil_append] at h
    cases m with
    | plain cur =>
      rw [lex,if_neg (by decide),if_pos rfl] at h
      obtain ⟨l',hl',-⟩ := leading_beforeWord h
      rw [hdouble] at hl'
      cases hl'
    | double w =>
      rw [lex,if_pos rfl,lex,if_pos (by decide)] at h
      obtain ⟨l',hl',hle⟩ := leading_flush h
      rw [lex,if_neg (by decide),if_neg (by decide),if_neg (by decide),
        if_neg (by simp [show Char.isDigit '|' = false by decide]),if_pos (by decide),
        if_neg (by decide)] at hl'
      have hzero := leading_op hl'
      rw [hzero] at hle
      exact hle
    | single w =>
      rw [hsingle] at h
      cases h
  · intro w l h
    rw [List.nil_append,lex,hdouble] at h
    cases h

theorem leading_le (t : Text) : WordsBounded ('"' :: ' ' :: '|' :: rest) t := by
  induction t with
  | nil => exact wordsBounded_nil hdouble hsingle
  | cons c t ih => exact ih.cons

/-- Words as long as the text were read from text that stands for itself. -/
theorem doubleLiteral_of_leading {t w : Text} {l : List Token}
    (h : lex emptyShell [] (.double w) 0 (t ++ '"' :: ' ' :: '|' :: rest) = some l)
    (hlen : w.length+t.length < leading l) : DoubleLiteral t := by
  induction t generalizing w with
  | nil => exact ⟨List.not_mem_nil,by simp,List.isChain_singleton _⟩
  | cons c t ih =>
    obtain ⟨hle0,hle1⟩ := leading_le hdouble hsingle t
    rw [List.length_cons] at hlen
    rw [List.cons_append,lex] at h
    split_ifs at h with hq hexp hnl hesc
    · have hl := hle0 _ _ h
      simp only [Mode.letters,Current.letters] at hl
      omega
    · have hl := hle0 _ _ h
      simp only [Mode.letters,emptyShell,List.reverse_nil,List.nil_append] at hl
      omega
    · have hl := hle1 _ _ h
      omega
    · have hl := hle1 _ _ h
      have hone : (t ++ '"' :: ' ' :: '|' :: rest).head?.toList.length ≤ 1 := by
        cases (t ++ '"' :: ' ' :: '|' :: rest).head? <;> simp
      rw [List.length_append] at hl
      omega
    · obtain ⟨hmem,hinert⟩ := ih h (by rw [List.length_cons]; omega)
      refine ⟨by simp [hmem,Ne.symm hq],?_⟩
      obtain ⟨d,t',ht'⟩ : ∃ d t', t ++ ['"'] = d :: t' := by
        cases t with
        | nil => exact ⟨_,_,rfl⟩
        | cons d t => exact ⟨_,_,rfl⟩
      have hhead : (t ++ '"' :: ' ' :: '|' :: rest).head? = some d := by
        have : t ++ '"' :: ' ' :: '|' :: rest = (t ++ ['"']) ++ ' ' :: '|' :: rest := by simp
        rw [this,ht']
        rfl
      rw [hhead] at hexp hnl hesc
      rw [List.cons_append,ht',inert_cons_cons,special_eq_false_iff,← ht']
      simp only [Option.any_some,Bool.or_eq_true,Bool.and_eq_true,decide_eq_true_eq,not_or,
        Option.some.injEq] at hexp hnl hesc
      exact ⟨hexp.1,⟨hnl,hesc,hexp.2⟩,hinert⟩

end

end ClickHouseRegression.Bash
