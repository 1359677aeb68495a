import ClickHouseRegression.Text

/-! Splitting SQL text at the commas outside all parentheses, brackets and single quotes.
`Whole` texts pass through the splitter unbroken; the literals of a statement are built from
them. -/
namespace ClickHouseRegression.Sql

/-- The splitter: open brackets that wait to be closed, whether a quote is open, the current
piece and the text ahead. There is no result for unbalanced text. -/
def split : List Char → Bool → Text → Text → Option (List Text)
  | [],false,piece,[] => some [piece]
  | _ :: _,false,_,[] => none
  | _,true,_,[] => none
  | stack,true,piece,c :: rest => split stack (c ≠ '\'') (piece ++ [c]) rest
  | stack,false,piece,c :: rest =>
    if c = '\'' then split stack true (piece ++ [c]) rest
    else if c = '(' then split (')' :: stack) false (piece ++ [c]) rest
    else if c = '[' then split (']' :: stack) false (piece ++ [c]) rest
    else if c = ')' ∨ c = ']' then
      if stack.head? = some c then split stack.tail false (piece ++ [c]) rest else none
    else if c = ',' ∧ stack = [] then (split [] false [] rest).map (piece :: ·)
    else split stack false (piece ++ [c]) rest

/-- The pieces between the top-level commas. -/
def pieces (t : Text) : Option (List Text) := split [] false [] t

/-- The text is balanced and has no top-level comma: the splitter takes it up as it is. -/
def Whole (t : Text) : Prop :=
  ∀ stack piece rest, split stack false piece (t ++ rest) = split stack false (piece ++ t) rest

/-- The same inside an open bracket, where commas do not separate. -/
def Inner (t : Text) : Prop :=
  ∀ b stack piece rest,
    split (b :: stack) false piece (t ++ rest) = split (b :: stack) false (piece ++ t) rest

def plainChar (c : Char) : Bool :=
  c ≠ '\'' && c ≠ '(' && c ≠ ')' && c ≠ '[' && c ≠ ']' && c ≠ ','

theorem Whole.inner {t : Text} (h : Whole t) : Inner t := fun _ _ _ _ => h _ _ _

theorem whole_nil : Whole [] := by
  intro stack piece rest
  rw [List.nil_append,List.append_nil]

theorem Whole.append {a b : Text} (ha : Whole a) (hb : Whole b) : Whole (a ++ b) := by
  intro stack piece rest
  rw [List.append_assoc,ha,hb,List.append_assoc]

theorem Inner.append {a b : Text} (ha : Inner a) (hb : Inner b) : Inner (a ++ b) := by
  intro b' stack piece rest
  rw [List.append_assoc,ha,hb,List.append_assoc]

theorem whole_char {c : Char} (h : plainChar c = true) : Whole [c] := by
  simp only [plainChar,Bool.and_eq_true,decide_eq_true_eq] at h
  obtain ⟨⟨⟨⟨⟨h1,h2⟩,h3⟩,h4⟩,h5⟩,h6⟩ := h
  intro stack piece rest
  cases stack with
  | nil => simp [split,h1,h2,h3,h4,h5,h6]
  | cons b stack => simp [split,h1,h2,h3,h4,h5]

theorem whole_plain {t : Text} (h : ∀ c ∈ t, plainChar c = true) : Whole t := by
  induction t with
  | nil => exact whole_nil
  | cons c t ih =>
    have hc := whole_char (h c List.mem_cons_self)
    exact hc.append (ih fun d hd => h d (List.mem_cons_of_mem c hd))

theorem inner_comma : Inner [','] := by
  intro b stack piece rest
  simp [split]

theorem split_quoted (stack : List Char) (piece t rest : Text) (h : '\'' ∉ t) :
    split stack true piece (t ++ '\'' :: rest) = split stack false (piece ++ t ++ ['\'']) rest := by
  induction t generalizing piece with
  | nil =>
    rw [List.nil_append,List.append_nil]
    cases stack <;> simp [split]
  | cons c t ih =>
    rw [List.mem_cons,not_or] at h
    have hc : c ≠ '\'' := Ne.symm h.1
    have hstep : split stack true piece (c :: (t ++ '\'' :: rest)) =
        split stack true (piece ++ [c]) (t ++ '\'' :: rest) := by
      cases stack <;> simp [split,hc]
    rw [List.cons_append,hstep,ih _ h.2]
    simp

theorem whole_quoted {t : Text} (h : '\'' ∉ t) : Whole ('\'' :: (t ++ ['\''])) := by
  intro stack piece rest
  have hstep : split stack false piece ('\'' :: (t ++ '\'' :: rest)) =
      split stack true (piece ++ ['\'']) (t ++ '\'' :: rest) := by
    cases stack <;> simp [split]
  have happ : '\'' :: (t ++ ['\'']) ++ rest = '\'' :: (t ++ '\'' :: rest) := by simp
  rw [happ,hstep,split_quoted _ _ _ _ h]
  simp

theorem whole_parens {t : Text} (h : Inner t) : Whole ('(' :: (t ++ [')'])) := by
  intro stack piece rest
  have happ : '(' :: (t ++ [')']) ++ rest = '(' :: (t ++ ')' :: rest) := by simp
  have hopen : split stack false piece ('(' :: (t ++ ')' :: rest)) =
      split (')' :: stack) false (piece ++ ['(']) (t ++ ')' :: rest) := by
    cases stack <;> simp [split]
  rw [happ,hopen,h]
  simp [split]

theorem whole_brackets {t : Text} (h : Inner t) : Whole ('[' :: (t ++ [']'])) := by
  intro stack piece rest
  have happ : '[' :: (t ++ [']']) ++ rest = '[' :: (t ++ ']' :: rest) := by simp
  have hopen : split stack false piece ('[' :: (t ++ ']' :: rest)) =
      split (']' :: stack) false (piece ++ ['[']) (t ++ ']' :: rest) := by
    cases stack <;> simp [split]
  rw [happ,hopen,h]
  simp [split]

/-- `",".join(items)`. -/
def join (items : List Text) : Text := [','].intercalate items

theorem inner_join {items : List Text} (h : ∀ t ∈ items, Whole t) : Inner (join items) := by
  unfold join
  induction items with
  | nil => exact whole_nil.inner
  | cons t items ih =>
    cases items with
    | nil =>
      rw [List.intercalate_singleton]
      exact (h t List.mem_cons_self).inner
    | cons u items =>
      rw [List.intercalate_cons_cons]
      have hrest := ih fun v hv => h v (List.mem_cons_of_mem t hv)
      exact ((h t List.mem_cons_self).inner.append inner_comma).append hrest

theorem pieces_whole {t : Text} (h : Whole t) : pieces t = some [t] := by
  have hs := h [] [] []
  rw [List.append_nil,List.nil_append] at hs
  rw [pieces,hs]
  rfl

/-- Joining whole texts with commas and splitting gives them back. -/
theorem pieces_join {items : List Text} (h : ∀ t ∈ items, Whole t) (hne : items ≠ []) :
    pieces (join items) = some items := by
  unfold join
  induction items with
  | nil => exact absurd rfl hne
  | cons t items ih =>
    cases items with
    | nil =>
      rw [List.intercalate_singleton]
      exact pieces_whole (h t List.mem_cons_self)
    | cons u items =>
      have hrest := ih (fun v hv => h v (List.mem_cons_of_mem t hv)) (by simp)
      rw [List.intercalate_cons_cons,pieces,List.append_assoc,h t List.mem_cons_self,
        List.nil_append,List.singleton_append]
      rw [pieces] at hrest
      simp [split,hrest]

end ClickHouseRegression.Sql
