import ClickHouseRegression.Bash.Expansion

/-! How bash reads a command line: quoting, expansion inside double quotes, and the division into
words and operators. Outside quotes the lexer knows words, blanks, quotes and operators; there is
no result for other characters that are special there, nor for a quote that is not closed. -/
namespace ClickHouseRegression.Bash

inductive Token
  | word (t : Text)
  | op (t : Text)
  deriving DecidableEq

def isBlank (c : Char) : Bool := c = ' ' || c = '\t'

def isOperator (c : Char) : Bool :=
  c = '|' || c = '&' || c = ';' || c = '<' || c = '>' || c = '(' || c = ')' || c = '\n'

def isRedirection (c : Char) : Bool := c = '<' || c = '>'

/-- Characters without a meaning outside quotes. -/
def plainChar (c : Char) : Bool :=
  !isBlank c && !isOperator c && c ≠ '"' && c ≠ '\'' && c ≠ '\\' && c ≠ '$' && c ≠ '`' && c ≠ '*' &&
    c ≠ '?' && c ≠ ']' && c ≠ '}' && c ≠ '~' && c ≠ '#'

/-- A name that can be assigned to, perhaps with the `+` of `+=`. -/
def isName (t : Text) : Bool :=
  let name := if t.getLast? = some '+' then t.dropLast else t
  !name.isEmpty && !name.head?.any Char.isDigit && name.all fun c => c.isAlphanum || c = '_'

/-- `~` after these letters of a word, in reverse, stands for a directory: at the start of the word, or of
a part of a value that is assigned. -/
def tildeStarts : Text → Bool
  | [] => true
  | c :: before =>
    (c = '=' && isName before.reverse) ||
      (c = ':' && '=' ∈ before && isName (before.reverse.takeWhile (· ≠ '=')))

/-- A `}` after these letters may end a list or a range in braces. -/
def braceEnds (letters : Text) : Bool :=
  let inner : Text := letters.reverse.dropWhile (· ≠ '{')
  ',' ∈ inner || inner.contains "..".toList

/-- Characters of a word after its letters so far, in reverse. Some have a meaning in certain places only.
History expansion is off. -/
def wordChar (letters : Text) (c : Char) : Bool :=
  plainChar c || (c = '#' && !letters.isEmpty) || (c = '~' && !tildeStarts letters) ||
    (c = ']' && '[' ∉ letters) || (c = '}' && !braceEnds letters)

/-- Characters that a backslash quotes inside double quotes. -/
def doubleEscaped (c : Char) : Bool := c = '$' || c = '`' || c = '"' || c = '\\'

/-- The token being read, its characters in reverse. -/
inductive Current
  | none
  | word (t : Text)
  | op (t : Text)

namespace Current

/-- The token is complete. -/
def flush : Current → List Token → List Token
  | none,acc => acc
  | word t,acc => .word t.reverse :: acc
  | op t,acc => .op t.reverse :: acc

/-- The word that a character is added to, and the tokens before it. -/
def letters : Current → Text
  | word t => t
  | _ => []

def beforeWord : Current → List Token → List Token
  | op t,acc => .op t.reverse :: acc
  | _,acc => acc

/-- The operator that a character is added to, and the tokens before it. -/
def operator : Current → Text
  | op t => t
  | _ => []

def beforeOp : Current → List Token → List Token
  | word t,acc => .word t.reverse :: acc
  | _,acc => acc

def isNone : Current → Bool
  | none => true
  | _ => false

end Current

inductive Mode
  | plain (cur : Current)
  | double (word : Text)
  | single (word : Text)

/-- The lexer: the tokens so far in reverse, the mode, the number of characters to pass over and
the text ahead. A digit at the start of a word belongs to the redirection that follows it; other
numbers before a redirection are left out. -/
def lex (sh : Shell) : List Token → Mode → ℕ → Text → Option (List Token)
  | acc,.plain cur,_,[] => some (cur.flush acc).reverse
  | _,.double _,_,[] => none
  | _,.single _,_,[] => none
  | acc,m,k+1,_ :: rest => lex sh acc m k rest
  | acc,.plain cur,0,c :: rest =>
    if isBlank c then lex sh (cur.flush acc) (.plain .none) 0 rest
    else if c = '"' then lex sh (cur.beforeWord acc) (.double cur.letters) 0 rest
    else if c = '\'' then lex sh (cur.beforeWord acc) (.single cur.letters) 0 rest
    else if cur.isNone && c.isDigit && rest.head?.any isRedirection then
      lex sh acc (.plain (.op [c])) 0 rest
    else if isOperator c then
      if isRedirection c && !cur.letters.isEmpty && cur.letters.all Char.isDigit then none
      else lex sh (cur.beforeOp acc) (.plain (.op (c :: cur.operator))) 0 rest
    else if wordChar cur.letters c then
      lex sh (cur.beforeWord acc) (.plain (.word (c :: cur.letters))) 0 rest
    else none
  | acc,.double w,0,c :: rest =>
    if c = '"' then lex sh acc (.plain (.word w)) 0 rest
    else if c = '`' || (c = '$' && rest.head?.any startsExpansion) then
      lex sh acc (.double ((sh (c :: rest)).1.reverse ++ w)) (sh (c :: rest)).2 rest
    else if c = '\\' && rest.head? = some '\n' then lex sh acc (.double w) 1 rest
    else if c = '\\' && rest.head?.any doubleEscaped then
      lex sh acc (.double (rest.head?.toList ++ w)) 1 rest
    else lex sh acc (.double (c :: w)) 0 rest
  | acc,.single w,0,c :: rest =>
    if c = '\'' then lex sh acc (.plain (.word w)) 0 rest
    else lex sh acc (.single (c :: w)) 0 rest

/-- The tokens of a command line. -/
def tokens (sh : Shell) (t : Text) : Option (List Token) := lex sh [] (.plain .none) 0 t

variable (sh : Shell)

theorem Current.flush_eq (cur : Current) (acc : List Token) : cur.flush acc = cur.flush [] ++ acc := by
  cases cur <;> rfl

theorem Current.beforeWord_eq (cur : Current) (acc : List Token) :
    cur.beforeWord acc = cur.beforeWord [] ++ acc := by
  cases cur <;> rfl

theorem Current.beforeOp_eq (cur : Current) (acc : List Token) :
    cur.beforeOp acc = cur.beforeOp [] ++ acc := by
  cases cur <;> rfl

/-- The tokens that were read do not influence what follows. -/
theorem lex_acc (acc : List Token) (m : Mode) (k : ℕ) (t : Text) :
    lex sh acc m k t = (lex sh [] m k t).map (acc.reverse ++ ·) := by
  have happ : ∀ (a b : List Token) (o : Option (List Token)),
      o.map ((a ++ b).reverse ++ ·) = (o.map (a.reverse ++ ·)).map (b.reverse ++ ·) := by
    intro a b o
    cases o <;> simp
  induction t generalizing acc m k with
  | nil =>
    cases m with
    | plain cur =>
      rw [lex,lex,Option.map_some,cur.flush_eq,List.reverse_append]
    | double w => rfl
    | single w => rfl
  | cons c rest ih =>
    cases k with
    | succ k =>
      rw [lex,lex]
      exact ih acc m k
    | zero =>
      cases m with
      | plain cur =>
        rw [lex,lex]
        split_ifs
        · rw [ih,ih (cur.flush []),cur.flush_eq acc,happ]
        · rw [ih,ih (cur.beforeWord []),cur.beforeWord_eq acc,happ]
        · rw [ih,ih (cur.beforeWord []),cur.beforeWord_eq acc,happ]
        · exact ih _ _ _
        · rfl
        · rw [ih,ih (cur.beforeOp []),cur.beforeOp_eq acc,happ]
        · rw [ih,ih (cur.beforeWord []),cur.beforeWord_eq acc,happ]
        · rfl
      | double w =>
        rw [lex,lex]
        split_ifs
        · exact ih _ _ _
        · exact ih _ _ _
        · exact ih _ _ _
        · exact ih _ _ _
        · exact ih _ _ _
      | single w =>
        rw [lex,lex]
        split_ifs
        · exact ih _ _ _
        · exact ih _ _ _

theorem wordChar_cases {letters : Text} {c : Char} (h : wordChar letters c = true) :
    isBlank c = false ∧ isOperator c = false ∧ c ≠ '"' ∧ c ≠ '\'' ∧ c ≠ '\\' ∧ c ≠ '$' ∧ c ≠ '`' := by
  simp only [wordChar,Bool.or_eq_true] at h
  rcases h with (((h | h) | h) | h) | h
  · simp only [plainChar,Bool.and_eq_true,Bool.not_eq_true',decide_eq_true_eq] at h
    tauto
  · obtain rfl := of_decide_eq_true (Bool.and_eq_true_iff.1 h).1
    decide
  · obtain rfl := of_decide_eq_true (Bool.and_eq_true_iff.1 h).1
    decide
  · obtain rfl := of_decide_eq_true (Bool.and_eq_true_iff.1 h).1
    decide
  · obtain rfl := of_decide_eq_true (Bool.and_eq_true_iff.1 h).1
    decide

/-- A character of a word is added to it. -/
theorem lex_wordChar (acc : List Token) (w : Text) {c : Char} (h : wordChar w c = true)
    (rest : Text) :
    lex sh acc (.plain (.word w)) 0 (c :: rest) = lex sh acc (.plain (.word (c :: w))) 0 rest := by
  obtain ⟨hb,ho,hd,hs,-⟩ := wordChar_cases h
  have hword : wordChar (Current.word w).letters c = true := h
  rw [lex,if_neg (by simp [hb]),if_neg hd,if_neg hs,if_neg (by simp [Current.isNone]),
    if_neg (by simp [ho]),if_pos hword]
  rfl

/-- The text goes on with a word after its letters so far, in reverse. -/
def wordChars : Text → Text → Bool
  | _,[] => true
  | letters,c :: t => wordChar letters c && wordChars (c :: letters) t

theorem wordChar_of_mem {t letters : Text} (h : wordChars letters t = true) {c : Char}
    (hc : c ∈ t) : ∃ letters, wordChar letters c = true := by
  induction t generalizing letters with
  | nil => cases hc
  | cons d t ih =>
    rw [wordChars,Bool.and_eq_true] at h
    rcases List.mem_cons.1 hc with rfl | hc
    · exact ⟨letters,h.1⟩
    · exact ih h.2 hc

theorem lex_wordChars (acc : List Token) (w : Text) {t : Text} (h : wordChars w t = true)
    (rest : Text) :
    lex sh acc (.plain (.word w)) 0 (t ++ rest) = lex sh acc (.plain (.word (t.reverse ++ w))) 0 rest := by
  induction t generalizing w with
  | nil => rfl
  | cons c t ih =>
    rw [wordChars,Bool.and_eq_true] at h
    rw [List.cons_append,lex_wordChar sh acc w h.1,ih (c :: w) h.2]
    simp

/-- A word that is the same inside and outside quotes. -/
def PlainWord (t : Text) : Prop := t ≠ [] ∧ wordChars [] t = true

instance (t : Text) : Decidable (PlainWord t) := inferInstanceAs (Decidable (_ ∧ _))

theorem lex_plainWord (acc : List Token) {t : Text} (h : PlainWord t) {rest : Text}
    (hrest : rest.head?.any isRedirection = false) :
    lex sh acc (.plain .none) 0 (t ++ rest) = lex sh acc (.plain (.word t.reverse)) 0 rest := by
  obtain ⟨hne,hword⟩ := h
  cases t with
  | nil => exact absurd rfl hne
  | cons c t =>
    rw [wordChars,Bool.and_eq_true] at hword
    obtain ⟨hc,ht⟩ := hword
    have hfirst : wordChar Current.none.letters c = true := hc
    obtain ⟨hb,ho,hd,hs,-⟩ := wordChar_cases hc
    have hnext : (t ++ rest).head?.any isRedirection = false := by
      cases t with
      | nil => exact hrest
      | cons d t =>
        rw [wordChars,Bool.and_eq_true] at ht
        obtain ⟨-,hod,-⟩ := wordChar_cases ht.1
        simp only [isOperator,Bool.or_eq_false_iff] at hod
        simp [isRedirection,hod]
    have hdigit : ¬ (Current.none.isNone && c.isDigit && (t ++ rest).head?.any isRedirection) = true := by
      rw [hnext,Bool.and_false]
      exact Bool.false_ne_true
    rw [List.cons_append,lex,if_neg (by simp [hb]),if_neg hd,if_neg hs,if_neg hdigit,
      if_neg (by simp [ho]),if_pos hfirst]
    refine (lex_wordChars sh acc [c] ht rest).trans ?_
    simp

/-- Characters that stand for themselves inside double quotes. -/
def doubleChar (c : Char) : Bool := c ≠ '"' && c ≠ '`' && c ≠ '$' && c ≠ '\\'

theorem doubleChar_cases {c : Char} (h : doubleChar c = true) :
    c ≠ '"' ∧ c ≠ '`' ∧ c ≠ '$' ∧ c ≠ '\\' := by
  simpa [doubleChar,and_assoc] using h

theorem PlainWord.chars {t : Text} (h : PlainWord t) : ∀ c ∈ t,
    c ≠ '"' ∧ c ≠ '\'' ∧ c ≠ '\\' ∧ c ≠ '$' ∧ c ≠ '`' := by
  intro c hc
  obtain ⟨b,hb⟩ := wordChar_of_mem h.2 hc
  obtain ⟨-,-,hchars⟩ := wordChar_cases hb
  exact hchars

theorem lex_doubleChars (acc : List Token) (w : Text) {t : Text} (h : ∀ c ∈ t, doubleChar c = true)
    (rest : Text) :
    lex sh acc (.double w) 0 (t ++ rest) = lex sh acc (.double (t.reverse ++ w)) 0 rest := by
  induction t generalizing w with
  | nil => rfl
  | cons c t ih =>
    obtain ⟨h1,h2,h3,h4⟩ := doubleChar_cases (h c List.mem_cons_self)
    rw [List.cons_append,lex,if_neg h1,if_neg (by simp [h2,h3]),if_neg (by simp [h4]),
      if_neg (by simp [h4]),ih _ fun d hd => h d (List.mem_cons_of_mem c hd)]
    simp

/-- Text in double quotes in which bash expands nothing. -/
def DoubleLiteral (t : Text) : Prop := '"' ∉ t ∧ Inert doubleEscaped (t ++ ['"'])

instance (t : Text) : Decidable (DoubleLiteral t) := inferInstanceAs (Decidable (_ ∧ _))

theorem PlainWord.doubleLiteral {t : Text} (h : PlainWord t) : DoubleLiteral t := by
  have hchars : ∀ c ∈ t ++ ['"'], c ≠ '\\' ∧ c ≠ '$' ∧ c ≠ '`' := by
    intro c hc
    rcases List.mem_append.1 hc with hc | hc
    · obtain ⟨-,-,h1,h2,h3⟩ := h.chars c hc
      exact ⟨h1,h2,h3⟩
    · rw [List.mem_singleton.1 hc]
      decide
  refine ⟨fun hq => ?_,fun hb => ?_,?_⟩
  · exact (h.chars _ hq).1 rfl
  · exact (hchars _ hb).2.2 rfl
  · rw [List.isChain_iff_forall_rel_of_append_cons_cons]
    intro a b l₁ l₂ hl
    have ha := hchars a (by rw [hl]; simp)
    simp [special,ha.1,ha.2.1]

theorem lex_doubleLiteral (acc : List Token) (w : Text) {t : Text} (h : DoubleLiteral t) (rest : Text) :
    lex sh acc (.double w) 0 (t ++ '"' :: rest) = lex sh acc (.plain (.word (t.reverse ++ w))) 0 rest := by
  obtain ⟨hq,hinert⟩ := h
  induction t generalizing w with
  | nil => rfl
  | cons c t ih =>
    rw [List.mem_cons,not_or] at hq
    obtain ⟨d,t',ht'⟩ : ∃ d t', t ++ ['"'] = d :: t' := by
      cases t with
      | nil => exact ⟨_,_,rfl⟩
      | cons d t => exact ⟨_,_,rfl⟩
    have hhead : (t ++ '"' :: rest).head? = some d := by
      have : t ++ '"' :: rest = (t ++ ['"']) ++ rest := by simp
      rw [this,ht']
      rfl
    rw [List.cons_append,ht',inert_cons_cons,special_eq_false_iff] at hinert
    obtain ⟨hback,⟨hnl,hesc,hdollar⟩,hrest⟩ := hinert
    rw [← ht'] at hrest
    rw [List.cons_append,lex,if_neg (Ne.symm hq.1),if_neg (by simpa [hhead,hback] using hdollar),
      if_neg (by simpa [hhead] using hnl),if_neg (by simpa [hhead] using hesc),ih _ hq.2 hrest]
    simp

/-- Text in which no quote but the double one is special. -/
def tameChar (c : Char) : Bool := c ≠ '`' && c ≠ '$' && c ≠ '\\' && c ≠ '\''

theorem lex_single_none (acc : List Token) (w : Text) {t : Text} (h : ∀ c ∈ t, tameChar c = true) :
    lex sh acc (.single w) 0 t = none := by
  induction t generalizing w with
  | nil => rfl
  | cons c t ih =>
    have hc : c ≠ '\'' := by
      have := h c List.mem_cons_self
      simp only [tameChar,Bool.and_eq_true,decide_eq_true_eq] at this
      exact this.2
    rw [lex,if_neg hc]
    exact ih _ fun d hd => h d (List.mem_cons_of_mem c hd)

/-- The double quotes of tame text must pair up. -/
theorem lex_parity {t : Text} (h : ∀ c ∈ t, tameChar c = true) :
    (∀ acc cur, lex sh acc (.plain cur) 0 t ≠ none → t.count '"' % 2 = 0) ∧
      ∀ acc w, lex sh acc (.double w) 0 t ≠ none → t.count '"' % 2 = 1 := by
  induction t with
  | nil => exact ⟨fun _ _ _ => rfl,fun _ _ hn => absurd rfl hn⟩
  | cons c t ih =>
    obtain ⟨ihp,ihd⟩ := ih fun d hd => h d (List.mem_cons_of_mem c hd)
    have hc := h c List.mem_cons_self
    simp only [tameChar,Bool.and_eq_true,decide_eq_true_eq] at hc
    obtain ⟨⟨⟨h1,h2⟩,h3⟩,h4⟩ := hc
    by_cases hq : c = '"'
    · subst hq
      rw [List.count_cons_self]
      constructor
      · intro acc cur hn
        rw [lex,if_neg (by decide),if_pos rfl] at hn
        have := ihd _ _ hn
        omega
      · intro acc w hn
        rw [lex,if_pos rfl] at hn
        have := ihp _ _ hn
        omega
    · rw [List.count_cons_of_ne hq]
      constructor
      · intro acc cur hn
        rw [lex,if_neg hq,if_neg h4] at hn
        split_ifs at hn
        · exact ihp _ _ hn
        · exact ihp _ _ hn
        · exact absurd rfl hn
        · exact ihp _ _ hn
        · exact ihp _ _ hn
        · exact absurd rfl hn
      · intro acc w hn
        rw [lex,if_neg hq,if_neg (by simp [h1,h2]),if_neg (by simp [h3]),if_neg (by simp [h3])] at hn
        exact ihd _ _ hn

/-- The word that is being read. -/
def Mode.word : Mode → Option Text
  | plain (.word w) => some w
  | double w => some w
  | single w => some w
  | _ => none

/-- The tokens go on with a word that begins with the letters of `w`. -/
def Continues (acc : List Token) (w : Text) (l : List Token) : Prop :=
  ∃ x more, l = acc.reverse ++ .word (w.reverse ++ x) :: more

theorem Continues.of_append {acc : List Token} {e w : Text} {l : List Token}
    (h : Continues acc (e ++ w) l) : Continues acc w l := by
  obtain ⟨x,more,rfl⟩ := h
  exact ⟨e.reverse ++ x,more,by simp⟩

theorem continues_of_flushed {acc : List Token} {w : Text} {m : Mode} {k : ℕ} {t : Text} {l : List Token}
    (h : lex sh (.word w.reverse :: acc) m k t = some l) : Continues acc w l := by
  rw [lex_acc] at h
  obtain ⟨more,-,rfl⟩ := Option.map_eq_some_iff.1 h
  exact ⟨[],more,by simp⟩

/-- The word being read becomes the next token, with what is added to it. -/
theorem lex_continues {acc : List Token} {m : Mode} {w : Text} (hm : m.word = some w) {k : ℕ}
    {t : Text} {l : List Token} (h : lex sh acc m k t = some l) : Continues acc w l := by
  induction t generalizing acc m w k with
  | nil =>
    cases m with
    | plain cur =>
      cases cur with
      | word v =>
        cases hm
        cases h
        exact ⟨[],[],by simp [Current.flush]⟩
      | none => cases hm
      | op v => cases hm
    | double v => cases h
    | single v => cases h
  | cons c rest ih =>
    cases k with
    | succ k =>
      rw [lex] at h
      exact ih hm h
    | zero =>
      cases m with
      | plain cur =>
        cases cur with
        | none => cases hm
        | op v => cases hm
        | word v =>
          cases hm
          rw [lex] at h
          split_ifs at h with h1 h2 h3 h4 h5 h6 h7
          · exact continues_of_flushed sh h
          · exact ih rfl h
          · exact ih rfl h
          · exact absurd h4 (by simp [Current.isNone])
          · exact continues_of_flushed sh h
          · exact Continues.of_append (e := [c]) (ih rfl h)
      | double v =>
        cases hm
        rw [lex] at h
        split_ifs at h
        · exact ih rfl h
        · exact Continues.of_append (ih rfl h)
        · exact ih rfl h
        · exact Continues.of_append (ih rfl h)
        · exact Continues.of_append (e := [c]) (ih rfl h)
      | single v =>
        cases hm
        rw [lex] at h
        split_ifs at h
        · exact ih rfl h
        · exact Continues.of_append (e := [c]) (ih rfl h)

end ClickHouseRegression.Bash
