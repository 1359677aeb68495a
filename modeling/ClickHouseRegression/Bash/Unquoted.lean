import ClickHouseRegression.Bash.Lexer

/-! Text without quotes and expansions. Outside quotes it is read alike by every shell, whatever words
and operators it holds, and the reading that follows it depends on it only through the tokens. -/
namespace ClickHouseRegression.Bash

/-- Neither a quote nor the start of an expansion. -/
def openChar (c : Char) : Bool := doubleChar c && c ≠ '\''

def Unquoted (t : Text) : Prop := ∀ c ∈ t, openChar c = true

instance (t : Text) : Decidable (Unquoted t) := inferInstanceAs (Decidable (∀ c ∈ t, _))

theorem openChar_cases {c : Char} (h : openChar c = true) :
    c ≠ '"' ∧ c ≠ '`' ∧ c ≠ '$' ∧ c ≠ '\\' ∧ c ≠ '\'' := by
  rw [openChar,Bool.and_eq_true,decide_eq_true_eq] at h
  obtain ⟨h1,h2,h3,h4⟩ := doubleChar_cases h.1
  exact ⟨h1,h2,h3,h4,h.2⟩

theorem Unquoted.append {a b : Text} (ha : Unquoted a) (hb : Unquoted b) : Unquoted (a ++ b) := by
  intro c hc
  rcases List.mem_append.1 hc with hc | hc
  · exact ha c hc
  · exact hb c hc

theorem unquoted_of_all {t : Text} (h : t.all openChar = true) : Unquoted t := List.all_eq_true.1 h

theorem Unquoted.doubleChars {t : Text} (h : Unquoted t) : ∀ c ∈ t, doubleChar c = true :=
  fun c hc => (Bool.and_eq_true_iff.1 (h c hc)).1

theorem Unquoted.tameChars {t : Text} (h : Unquoted t) : ∀ c ∈ t, tameChar c = true := by
  intro c hc
  obtain ⟨-,h1,h2,h3,h4⟩ := openChar_cases (h c hc)
  simp [tameChar,h1,h2,h3,h4]

theorem Unquoted.count_quotes {t : Text} (h : Unquoted t) : t.count '"' = 0 :=
  List.count_eq_zero_of_not_mem fun hq => (openChar_cases (h _ hq)).1 rfl

theorem PlainWord.unquoted {t : Text} (h : PlainWord t) : Unquoted t := by
  intro c hc
  obtain ⟨h1,h2,h3,h4,h5⟩ := h.chars c hc
  simp [openChar,doubleChar,h1,h2,h3,h4,h5]

/-- No expansion is asked of the shell. -/
theorem lex_shell (sh sh' : Shell) {t : Text} (h : Unquoted t) (acc : List Token) (cur : Current) :
    lex sh acc (.plain cur) 0 t = lex sh' acc (.plain cur) 0 t := by
  induction t generalizing acc cur with
  | nil => rfl
  | cons c t ih =>
    obtain ⟨hd,-,-,-,hs⟩ := openChar_cases (h c List.mem_cons_self)
    have htail := ih fun d hd => h d (List.mem_cons_of_mem c hd)
    rw [lex,lex,if_neg hd,if_neg hs,if_neg hd,if_neg hs]
    simp only [htail]

/-- After a blank the reading starts anew. -/
theorem lex_blank_congr (sh : Shell) {t : Text} (h : Unquoted t) {a b : Text}
    (hab : ∀ acc, lex sh acc (.plain .none) 0 a = lex sh acc (.plain .none) 0 b)
    (acc : List Token) (cur : Current) :
    lex sh acc (.plain cur) 0 (t ++ ' ' :: a) = lex sh acc (.plain cur) 0 (t ++ ' ' :: b) := by
  induction t generalizing acc cur with
  | nil =>
    rw [List.nil_append,List.nil_append,lex,lex,if_pos (by rfl),if_pos (by rfl)]
    exact hab _
  | cons c t ih =>
    obtain ⟨hd,-,-,-,hs⟩ := openChar_cases (h c List.mem_cons_self)
    have htail := ih fun d hd => h d (List.mem_cons_of_mem c hd)
    have hhead : (t ++ ' ' :: a).head? = (t ++ ' ' :: b).head? := by
      cases t <;> rfl
    rw [List.cons_append,List.cons_append,lex,lex,if_neg hd,if_neg hs,if_neg hd,if_neg hs,hhead]
    simp only [htail]

end ClickHouseRegression.Bash
