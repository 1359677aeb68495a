import ClickHouseRegression.Text.Lines

/-! `convert_output`: expected results are written as tables in the style of `psql` and turned into
tab-separated text. One regular expression runs over the whole table before it is cut into lines, and
its `\s` also matches the end of a line. -/
namespace ClickHouseRegression.WindowFunctions
open Text

/-- A match of `\s+\|\s+` at the front of a text: what follows it. -/
def matchSeparator (s : Text) : Option Text :=
  match s.dropWhile isSpace with
  | '|' :: r =>
    if (s.takeWhile isSpace).isEmpty || (r.takeWhile isSpace).isEmpty then none
    else some (r.dropWhile isSpace)
  | _ => none

/-- The scan of `re.sub`, with a bound on the number of its steps. -/
def subLoop : ℕ → Text → Text
  | 0,s => s
  | _+1,[] => []
  | n+1,c :: s =>
    match matchSeparator (c :: s) with
    | some r => '\t' :: subLoop n r
    | none => c :: subLoop n s

/-- `re.sub("\s+\|\s+", "\t", s)`. -/
def subSeparators (s : Text) : Text := subLoop s.length s

def convertOutput (s : Text) : Text :=
  List.intercalate ['\n']
    (((splitlines (subSeparators s).strip).zipIdx.filter (·.2 ≠ 1)).map (·.1.strip))

/-- A cell with its padding. -/
structure Cell extends Padded where
  no_bar : '|' ∉ body
  no_tab : '\t' ∉ body
  no_newline : '\n' ∉ body

/-- A row has at least one cell. -/
structure Row where
  first : Cell
  rest : List Cell

def Row.cells (r : Row) : List Cell := r.first :: r.rest

def Row.last (r : Row) : Cell := r.cells.getLast (by simp [Row.cells])

def Row.text (r : Row) : Text := List.intercalate " | ".toList (r.cells.map (·.text))

/-- The text of the cells. -/
def Row.values (r : Row) : List Text := r.cells.map (·.body)

def Row.tsv (r : Row) : Text := List.intercalate ['\t'] r.values

/-- The row under the header. -/
structure Ruler extends Padded where
  nonempty : body ≠ []
  marks : ∀ c ∈ body, c = '-' ∨ c = '+'

/-- A table, with whatever whitespace stands before and after it. -/
structure Table where
  before : Text
  header : Row
  ruler : Ruler
  rows : List Row
  after : Text
  before_blank : Blank before
  after_blank : Blank after

namespace Table

def lines (t : Table) : List Text := t.header.text :: t.ruler.text :: t.rows.map Row.text

def text (t : Table) : Text := t.before++List.intercalate ['\n'] t.lines++t.after

/-- Header and data. -/
def dataRows (t : Table) : List Row := t.header :: t.rows

def tsv (t : Table) : Text := List.intercalate ['\n'] (t.dataRows.map Row.tsv)

end Table

/-- The cells of a tab-separated text. -/
def readTsv (s : Text) : List (List Text) := (s.splitOn '\n').map (·.splitOn '\t')

section
variable {s x r : Text} {c : Char}

theorem matchSeparator_of_head (h : isSpace c = false) : matchSeparator (c :: s) = none := by
  unfold matchSeparator
  rw [List.takeWhile_cons_of_neg (by simp [h])]
  split <;> simp

/-- The first character after the whitespace is a bar. -/
def BarNext (s : Text) : Prop := (s.dropWhile isSpace).head? = some '|'

theorem matchSeparator_of_not_barNext (h : ¬BarNext s) : matchSeparator s = none := by
  unfold matchSeparator
  split
  · rename_i he
    exact absurd (by rw [BarNext,he]; rfl) h
  · rfl

/-- A separator matches to its end. -/
theorem matchSeparator_eq {a b : Text} (ha : Blank a) (ha' : a ≠ []) (hb : Blank b) (hb' : b ≠ [])
    (hx : ∀ c ∈ x.head?, isSpace c = false) : matchSeparator (a ++ '|' :: (b++x)) = some x := by
  have hdrop : (a ++ '|' :: (b++x)).dropWhile isSpace = '|' :: (b++x) := by
    rw [dropWhile_blank_append ha]
    exact dropWhile_eq_self (by simp; decide)
  have htake : ∀ {u v : Text}, Blank u → u ≠ [] → ((u++v).takeWhile isSpace).isEmpty = false := by
    intro u v hu hne
    obtain ⟨d,u,rfl⟩ := List.exists_cons_of_ne_nil hne
    rw [List.cons_append,List.takeWhile_cons_of_pos (hu d List.mem_cons_self)]
    rfl
  unfold matchSeparator
  rw [hdrop]
  simp only [htake ha ha',htake hb hb',Bool.or_self,Bool.false_eq_true,if_false,
    dropWhile_blank_append hb,dropWhile_eq_self hx]

/-- What a match is: a bar between whitespace, up to the next character that is none. -/
theorem matchSeparator_cases (h : matchSeparator s = some r) :
    ∃ a b, Blank a ∧ a ≠ [] ∧ Blank b ∧ b ≠ [] ∧ s = a ++ '|' :: (b++r) ∧ ∀ c ∈ r.head?, isSpace c = false := by
  unfold matchSeparator at h
  split at h
  · rename_i q he
    split at h
    · cases h
    · rename_i hne
      cases h
      simp only [Bool.or_eq_true,List.isEmpty_iff,not_or] at hne
      refine ⟨s.takeWhile isSpace,q.takeWhile isSpace,fun c hc => List.mem_takeWhile_imp hc,hne.1,
        fun c hc => List.mem_takeWhile_imp hc,hne.2,?_,?_⟩
      · rw [List.takeWhile_append_dropWhile,← he,List.takeWhile_append_dropWhile]
      · intro c hc
        have hnot := List.head?_dropWhile_not isSpace q
        rw [Option.mem_def.1 hc] at hnot
        simpa using hnot
  · cases h

theorem matchSeparator_length (h : matchSeparator s = some r) : r.length < s.length := by
  obtain ⟨a,b,-,-,-,-,rfl,-⟩ := matchSeparator_cases h
  simp only [List.length_append,List.length_cons]
  omega

theorem subLoop_nil (n : ℕ) : subLoop n [] = [] := by
  cases n <;> rfl

theorem subLoop_of_none {n : ℕ} (h : matchSeparator (c :: s) = none) :
    subLoop (n+1) (c :: s) = c :: subLoop n s := by
  change (match matchSeparator (c :: s) with
    | some r => '\t' :: subLoop n r
    | none => c :: subLoop n s) = _
  rw [h]

theorem subLoop_of_some {n : ℕ} (h : matchSeparator (c :: s) = some r) :
    subLoop (n+1) (c :: s) = '\t' :: subLoop n r := by
  change (match matchSeparator (c :: s) with
    | some r => '\t' :: subLoop n r
    | none => c :: subLoop n s) = _
  rw [h]

/-- The bound does not matter once it is the length of the text. -/
theorem subLoop_eq {n : ℕ} (h : s.length ≤ n) : subLoop n s = subSeparators s := by
  have hboth : ∀ (n m : ℕ) (s : Text), s.length ≤ n → s.length ≤ m → subLoop n s = subLoop m s := by
    intro n
    induction n with
    | zero =>
      intro m s hn _
      rw [List.length_eq_zero_iff.1 (Nat.le_zero.1 hn),subLoop_nil,subLoop_nil]
    | succ n ih =>
      intro m s hn hm
      cases s with
      | nil => rw [subLoop_nil,subLoop_nil]
      | cons c s =>
        obtain ⟨m,rfl⟩ : ∃ k, m = k+1 := ⟨m-1,by simp at hm; omega⟩
        simp only [List.length_cons,Nat.add_le_add_iff_right] at hn hm
        cases hc : matchSeparator (c :: s) with
        | none => rw [subLoop_of_none hc,subLoop_of_none hc,ih m s hn hm]
        | some r =>
          have hlen := matchSeparator_length hc
          rw [List.length_cons] at hlen
          rw [subLoop_of_some hc,subLoop_of_some hc,ih m r (by omega) (by omega)]
  exact hboth n s.length s h le_rfl

@[simp] theorem subSeparators_nil : subSeparators [] = [] := rfl

theorem subSeparators_of_none (h : matchSeparator (c :: s) = none) :
    subSeparators (c :: s) = c :: subSeparators s :=
  subLoop_of_none h

theorem subSeparators_of_some (h : matchSeparator s = some r) :
    subSeparators s = '\t' :: subSeparators r := by
  cases s with
  | nil => simp [matchSeparator] at h
  | cons c s =>
    have hlen := matchSeparator_length h
    rw [List.length_cons] at hlen
    rw [subSeparators,List.length_cons,subLoop_of_some h,subLoop_eq (by omega)]

/-- The cases of one step of the scan. -/
theorem subSeparators_induct {P : Text → Prop} (hnil : P [])
    (hmatch : ∀ s r, matchSeparator s = some r → P r → P s)
    (hskip : ∀ c s, matchSeparator (c :: s) = none → P s → P (c :: s)) (s : Text) : P s := by
  induction hn : s.length using Nat.strong_induction_on generalizing s with
  | _ n ih =>
    cases s with
    | nil => exact hnil
    | cons c s =>
      cases hm : matchSeparator (c :: s) with
      | none => exact hskip c s hm (ih s.length (by simp [← hn]) s rfl)
      | some r => exact hmatch _ r hm (ih r.length (hn ▸ matchSeparator_length hm) r rfl)

theorem mem_subSeparators {d : Char} (h : d ∈ subSeparators s) : d = '\t' ∨ d ∈ s := by
  induction s using subSeparators_induct with
  | hnil => exact .inr h
  | hmatch s r hm ih =>
    obtain ⟨a,b,-,-,-,-,rfl,-⟩ := matchSeparator_cases hm
    rw [subSeparators_of_some hm] at h
    rcases List.mem_cons.1 h with h | h
    · exact .inl h
    · refine (ih h).imp_right fun h => ?_
      simp [h]
  | hskip c s hm ih =>
    rw [subSeparators_of_none hm] at h
    rcases List.mem_cons.1 h with rfl | h
    · exact .inr List.mem_cons_self
    · exact (ih h).imp_right (List.mem_cons_of_mem c)

theorem mem_subSeparators_of_mem {d : Char} (h : d ∈ s) (hd : isSpace d = false) (hd' : d ≠ '|') :
    d ∈ subSeparators s := by
  induction s using subSeparators_induct with
  | hnil => exact h
  | hmatch s r hm ih =>
    obtain ⟨a,b,ha,-,hb,-,rfl,-⟩ := matchSeparator_cases hm
    rw [subSeparators_of_some hm]
    simp only [List.mem_append,List.mem_cons] at h
    rcases h with h | h | h | h
    · simp [ha d h] at hd
    · exact absurd h hd'
    · simp [hb d h] at hd
    · exact List.mem_cons_of_mem _ (ih h)
  | hskip c s hm ih =>
    rw [subSeparators_of_none hm]
    rcases List.mem_cons.1 h with rfl | h
    · exact List.mem_cons_self
    · exact List.mem_cons_of_mem c (ih h)

/-- The text begins with a character that is no whitespace and no bar. -/
def StartsText (s : Text) : Prop := ∃ c u, s = c :: u ∧ isSpace c = false ∧ c ≠ '|'

/-- The text ends with a character that is no whitespace and no bar. -/
def EndsText (s : Text) : Prop := ∃ u c, s = u++[c] ∧ isSpace c = false ∧ c ≠ '|'

theorem EndsText.suffix {a : Text} (h : EndsText (a++s)) (hne : s ≠ []) : EndsText s := by
  obtain ⟨u,c,he,hc⟩ := h
  have hlast : s.getLast hne = c := by
    have := congrArg List.getLast? he
    rw [List.getLast?_append_of_ne_nil _ hne,List.getLast?_concat,List.getLast?_eq_getLast_of_ne_nil hne] at this
    exact Option.some.inj this
  exact ⟨s.dropLast,c,by rw [← hlast,List.dropLast_concat_getLast],hc⟩

theorem EndsText.not_blank (h : EndsText s) : ¬Blank s := by
  obtain ⟨u,c,rfl,hc,-⟩ := h
  intro hb
  rw [hb c (by simp)] at hc
  cases hc

theorem EndsText.of_match (h : EndsText s) (hm : matchSeparator s = some r) : EndsText r := by
  obtain ⟨a,b,-,-,hb,hb',rfl,-⟩ := matchSeparator_cases hm
  have h' : EndsText ((a++['|'])++(b++r)) := by simpa using h
  have hbr := h'.suffix (by simp [hb'])
  refine hbr.suffix ?_
  rintro rfl
  exact hbr.not_blank (by simpa using hb)

theorem EndsText.ne_nil (h : EndsText s) : s ≠ [] := by
  obtain ⟨u,c,rfl,-⟩ := h
  simp

/-- A text that ends so decides its matches without looking further. -/
theorem matchSeparator_append (h : EndsText s) :
    matchSeparator (s++x) = (matchSeparator s).map (·++x) := by
  cases hm : matchSeparator s with
  | some r =>
    obtain ⟨d,r,rfl⟩ := List.exists_cons_of_ne_nil (h.of_match hm).ne_nil
    obtain ⟨a,b,ha,ha',hb,hb',rfl,hr⟩ := matchSeparator_cases hm
    rw [List.append_assoc,List.cons_append,List.append_assoc,matchSeparator_eq ha ha' hb hb' (by simpa using hr)]
    rfl
  | none =>
    cases hx : matchSeparator (s++x) with
    | none => rfl
    | some r =>
      obtain ⟨a,b,ha,ha',hb,hb',he,hr⟩ := matchSeparator_cases hx
      obtain ⟨u,c,rfl,hc,hc'⟩ := h
      have he' : u++(c :: x) = (a ++ '|' :: b)++r := by simpa using he
      have hsep : c ∉ a ++ '|' :: b := by
        intro h
        simp only [List.mem_append,List.mem_cons] at h
        rcases h with h | h | h
        · simp [ha c h] at hc
        · exact hc' h
        · simp [hb c h] at hc
      -- the separator ends before `c`, so it stands in `s` already
      obtain ⟨v,hu,hv⟩ : ∃ v, u = (a ++ '|' :: b)++v ∧ r = v++c :: x := by
        rcases List.append_eq_append_iff.1 he' with ⟨w,hw,hcw⟩ | ⟨v,hu,hv⟩
        · cases w with
          | nil => exact ⟨[],by simpa using hw.symm,by simpa using hcw.symm⟩
          | cons d w =>
            cases hcw
            exact absurd (hw ▸ by simp) hsep
        · exact ⟨v,hu,hv⟩
      have hs : u++[c] = a ++ '|' :: (b++(v++[c])) := by simp [hu]
      have hhead : ∀ d ∈ (v++[c]).head?, isSpace d = false := by
        intro d hd
        refine hr d ?_
        rw [hv]
        cases v with
        | nil => simpa using hd
        | cons e v => simpa using hd
      rw [hs,matchSeparator_eq ha ha' hb hb' hhead] at hm
      cases hm

theorem subSeparators_append (h : EndsText s) :
    subSeparators (s++x) = subSeparators s++subSeparators x := by
  induction s using subSeparators_induct with
  | hnil => exact absurd rfl h.ne_nil
  | hmatch s r hm ih =>
    have hx : matchSeparator (s++x) = some (r++x) := by
      rw [matchSeparator_append h,hm]
      rfl
    rw [subSeparators_of_some hx,subSeparators_of_some hm,ih (h.of_match hm),List.cons_append]
  | hskip c s hm ih =>
    have hx : matchSeparator (c :: (s++x)) = none := by
      rw [← List.cons_append,matchSeparator_append h,hm]
      rfl
    rw [List.cons_append,subSeparators_of_none hx,subSeparators_of_none hm,List.cons_append]
    cases s with
    | nil => rfl
    | cons d s => rw [ih (EndsText.suffix (a := [c]) h (by simp))]

theorem EndsText.cons (h : EndsText s) (c : Char) : EndsText (c :: s) := by
  obtain ⟨u,d,rfl,hd⟩ := h
  exact ⟨c :: u,d,rfl,hd⟩

theorem EndsText.subSeparators (h : EndsText s) : EndsText (subSeparators s) := by
  induction s using subSeparators_induct with
  | hnil => exact h
  | hmatch s r hm ih =>
    rw [subSeparators_of_some hm]
    exact (ih (h.of_match hm)).cons _
  | hskip c s hm ih =>
    rw [subSeparators_of_none hm]
    cases s with
    | nil => exact h
    | cons d s => exact (ih (EndsText.suffix (a := [c]) h (by simp))).cons c

theorem subSeparators_cons (h : isSpace c = false) : subSeparators (c :: s) = c :: subSeparators s :=
  subSeparators_of_none (matchSeparator_of_head h)

theorem StartsText.subSeparators (h : StartsText s) : StartsText (subSeparators s) := by
  obtain ⟨c,u,rfl,hc⟩ := h
  exact ⟨c,_,subSeparators_cons hc.1,hc⟩

theorem trimmed_of_ends (hs : StartsText s) (he : EndsText s) : Trimmed s := by
  constructor
  · obtain ⟨c,u,rfl,hc,-⟩ := hs
    simpa using hc
  · obtain ⟨u,c,rfl,hc,-⟩ := he
    simpa using hc

theorem not_barNext_of_blank (h : Blank s) : ¬BarNext s := by
  rw [BarNext,List.dropWhile_eq_nil_iff.2 h]
  simp

theorem not_barNext_nil : ¬BarNext [] := by
  simp [BarNext]

theorem not_barNext_of_starts (h : StartsText s) : ¬BarNext (s++x) := by
  obtain ⟨c,u,rfl,hc,hc'⟩ := h
  rw [BarNext,dropWhile_eq_self (by simpa using hc)]
  simpa using hc'

theorem not_barNext_append {g : Text} (hg : '|' ∉ g) (hx : ¬BarNext x) : ¬BarNext (g++x) := by
  rw [BarNext,List.dropWhile_append]
  split
  · exact hx
  · intro h
    cases hd : g.dropWhile isSpace with
    | nil => simp_all
    | cons c u =>
      rw [hd] at h
      have hc : c = '|' := by simpa using h
      exact hg ((List.dropWhile_suffix isSpace).subset (by rw [hd,hc]; exact List.mem_cons_self))

/-- A text without a bar is kept, unless a bar follows its last whitespace. -/
theorem subSeparators_gap {g : Text} (hg : '|' ∉ g) (hx : ¬BarNext x) :
    subSeparators (g++x) = g++subSeparators x := by
  induction g with
  | nil => rfl
  | cons c g ih =>
    have hg' : '|' ∉ g := fun h => hg (List.mem_cons_of_mem c h)
    have hnone : matchSeparator (c :: (g++x)) = none :=
      matchSeparator_of_not_barNext (not_barNext_append hg hx)
    rw [List.cons_append,subSeparators_of_none hnone,ih hg',List.cons_append]

theorem no_bar_of_blank (h : Blank s) : '|' ∉ s := by
  intro hc
  exact absurd (h _ hc) (by decide)


end

/-- A line whose separators stand inside it. -/
structure Line extends Padded where
  unbroken : Unbroken body
  ends : body = [] ∨ StartsText body ∧ EndsText body

namespace Line

/-- The line after the substitution. -/
def sub (l : Line) : Padded where
  left := l.left
  body := subSeparators l.body
  right := l.right
  left_pad := l.left_pad
  right_pad := l.right_pad
  trimmed := by
    rcases l.ends with h | ⟨hs,he⟩
    · rw [h]
      exact trimmed_nil
    · exact trimmed_of_ends hs.subSeparators he.subSeparators

theorem sub_body (l : Line) : l.sub.body = subSeparators l.body := rfl

theorem sub_unbroken (l : Line) : Unbroken l.sub.body := by
  intro c hc
  rcases mem_subSeparators hc with rfl | hc
  · decide
  · exact l.unbroken c hc

theorem sub_ne_nil {l : Line} (h : l.body ≠ []) : l.sub.body ≠ [] :=
  (l.ends.resolve_left h).2.subSeparators.ne_nil

theorem body_not_barNext (l : Line) {x : Text} (hx : ¬BarNext x) : ¬BarNext (l.body++x) := by
  rcases l.ends with h | ⟨hs,-⟩
  · rwa [h]
  · exact not_barNext_of_starts hs

theorem not_barNext (l : Line) {x : Text} (hx : ¬BarNext x) : ¬BarNext (l.left++(l.body++x)) := by
  apply not_barNext_append (no_bar_of_blank l.left_pad.1)
  exact l.body_not_barNext hx

/-- The substitution works on each line by itself. -/
theorem subSeparators_eq (l : Line) {g x : Text} (hg : Blank g) (hx : ¬BarNext x) :
    subSeparators (l.left++(l.body++(g++x))) = l.left++(l.sub.body++(g++subSeparators x)) := by
  have hgx : ¬BarNext (g++x) := not_barNext_append (no_bar_of_blank hg) hx
  have hbody : subSeparators (l.body++(g++x)) = l.sub.body++subSeparators (g++x) := by
    rcases l.ends with h | ⟨-,he⟩
    · rw [sub_body,h]
      rfl
    · exact subSeparators_append he
  rw [subSeparators_gap (no_bar_of_blank l.left_pad.1) (l.body_not_barNext hgx),hbody,
    subSeparators_gap (no_bar_of_blank hg) hx]

end Line

theorem subSeparators_lines {after : Text} (ha : Blank after) (l : Line) (ls : List Line) :
    subSeparators (List.intercalate ['\n'] ((l :: ls).map (·.text))++after) =
        List.intercalate ['\n'] ((l :: ls).map (·.sub.text))++after ∧
      ¬BarNext (List.intercalate ['\n'] ((l :: ls).map (·.text))++after) := by
  induction ls generalizing l with
  | nil =>
    have hg : Blank (l.right++after) := l.right_pad.1.append ha
    have hsub := l.subSeparators_eq hg not_barNext_nil
    have hbar := l.not_barNext (x := l.right++after) (not_barNext_of_blank hg)
    simp only [List.append_nil,subSeparators_nil] at hsub
    refine ⟨?_,?_⟩
    · simpa [Padded.text,Line.sub] using hsub
    · simpa [Padded.text] using hbar
  | cons m ls ih =>
    obtain ⟨hsub,hbar⟩ := ih m
    have hg : Blank (l.right++['\n']) := l.right_pad.1.append (by simp [Blank]; decide)
    have hcons : ∀ f : Line → Text, List.intercalate ['\n'] ((l :: m :: ls).map f) =
        f l++['\n']++List.intercalate ['\n'] ((m :: ls).map f) := by
      intro f
      rw [List.map_cons,List.intercalate_cons_of_ne_nil (by simp)]
    have hl := l.subSeparators_eq hg hbar
    have hgap := not_barNext_append (no_bar_of_blank hg) hbar
    rw [hsub] at hl
    rw [hcons,hcons]
    refine ⟨?_,?_⟩
    · simpa [Padded.text,Line.sub] using hl
    · simpa [Padded.text] using l.not_barNext hgap

theorem filter_zipIdx_eq {α : Type} (l : List α) :
    (l.zipIdx.filter (·.2 ≠ 1)).map (·.1) = l.eraseIdx 1 := by
  match l with
  | [] => rfl
  | [a] => rfl
  | a :: b :: l =>
    have hrest : (l.zipIdx 2).filter (·.2 ≠ 1) = l.zipIdx 2 := by
      rw [List.filter_eq_self]
      rintro ⟨c,i⟩ h
      have := List.le_snd_of_mem_zipIdx h
      simp only [ne_eq,decide_eq_true_eq]
      omega
    change ((a,0) :: (l.zipIdx 2).filter (·.2 ≠ 1)).map (·.1) = a :: l
    rw [hrest,List.map_cons]
    simp

theorem convertOutput_eq (s : Text) :
    convertOutput s =
      List.intercalate ['\n'] (((splitlines (subSeparators s).strip).map strip).eraseIdx 1) := by
  rw [convertOutput,List.eraseIdx_map,← filter_zipIdx_eq,List.map_map]
  rfl

/-- The output for a text of such lines, the second of which is dropped. -/
theorem convertOutput_lines {before after : Text} (hb : Blank before) (ha : Blank after)
    (header ruler : Line) (rows : List Line) (hh : header.body ≠ [])
    (hlast : ((ruler :: rows).getLast (by simp)).body ≠ []) :
    convertOutput (before++List.intercalate ['\n'] ((header :: ruler :: rows).map (·.text))++after) =
      List.intercalate ['\n'] ((header :: rows).map (subSeparators ·.body)) := by
  obtain ⟨hsub,hbar⟩ := subSeparators_lines ha header (ruler :: rows)
  have htext : subSeparators (before++List.intercalate ['\n'] ((header :: ruler :: rows).map (·.text))++after) =
      before++List.intercalate ['\n'] ((header :: ruler :: rows).map (·.sub.text))++after := by
    rw [List.append_assoc,subSeparators_gap (no_bar_of_blank hb) hbar,hsub,← List.append_assoc]
  have hsplit : (splitlines (strip (subSeparators
      (before++List.intercalate ['\n'] ((header :: ruler :: rows).map (·.text))++after)))).map strip =
      (header :: ruler :: rows).map (·.sub.body) := by
    have hends : (ruler :: rows).map Line.sub =
        ((ruler :: rows).map Line.sub).dropLast++[((ruler :: rows).getLast (by simp)).sub] := by
      rw [← List.getLast_map (f := Line.sub) (by simp)]
      exact (List.dropLast_concat_getLast (by simp)).symm
    have h := splitlines_strip_padded hb ha header.sub ((ruler :: rows).getLast (by simp)).sub
      ((ruler :: rows).map Line.sub).dropLast ?_ (Line.sub_ne_nil hh) (Line.sub_ne_nil hlast)
    · rw [← hends,← List.map_cons (f := Line.sub),List.map_map,List.map_map] at h
      rw [htext]
      exact h
    · rw [← hends,← List.map_cons (f := Line.sub)]
      intro m hm
      obtain ⟨k,-,rfl⟩ := List.mem_map.1 hm
      exact k.sub_unbroken
  rw [convertOutput_eq,hsplit]
  rfl

section
variable {c d : Cell} {ds : List Cell}

theorem Cell.starts (c : Cell) (h : c.body ≠ []) : StartsText c.body := by
  obtain ⟨a,u,he⟩ := List.exists_cons_of_ne_nil h
  refine ⟨a,u,he,c.trimmed.head a (by simp [he]),?_⟩
  rintro rfl
  exact c.no_bar (by simp [he])

theorem Cell.ends (c : Cell) (h : c.body ≠ []) : EndsText c.body := by
  have he : c.body = c.body.dropLast++[c.body.getLast h] := (List.dropLast_concat_getLast h).symm
  refine ⟨_,_,he,c.trimmed.last _ (List.getLast?_eq_getLast_of_ne_nil h),?_⟩
  intro hbar
  exact c.no_bar (hbar ▸ List.getLast_mem h)

/-- The cells of a row without the padding at its ends. -/
def core (c : Cell) : List Cell → Text
  | [] => c.body
  | d :: ds => c.body++((c.right++[' ']) ++ '|' :: ((' ' :: d.left)++core d ds))

theorem intercalate_cells (c : Cell) (ds : List Cell) :
    List.intercalate " | ".toList ((c :: ds).map (·.text)) =
      c.left++core c ds++((c :: ds).getLast (by simp)).right := by
  induction ds generalizing c with
  | nil => simp [Padded.text,core]
  | cons d ds ih =>
    have hlast : (c :: d :: ds).getLast (by simp) = (d :: ds).getLast (by simp) :=
      List.getLast_cons (by simp)
    rw [List.map_cons,List.intercalate_cons_of_ne_nil (by simp),ih d,hlast]
    simp [Padded.text,core]

theorem core_starts (h : c.body ≠ []) : StartsText (core c ds) := by
  obtain ⟨a,u,he,ha⟩ := c.starts h
  cases ds with
  | nil => exact ⟨a,u,he,ha⟩
  | cons d ds => exact ⟨a,_,by rw [core,he]; rfl,ha⟩

theorem core_ends (h : ((c :: ds).getLast (by simp)).body ≠ []) : EndsText (core c ds) := by
  induction ds generalizing c with
  | nil => exact c.ends h
  | cons d ds ih =>
    obtain ⟨u,a,he,ha⟩ := ih (c := d) (by simpa using h)
    refine ⟨c.body++((c.right++[' ']) ++ '|' :: ((' ' :: d.left)++u)),a,?_,ha⟩
    rw [core,he]
    simp

theorem core_unbroken (h : ∀ d ∈ c :: ds, Unbroken d.body) : Unbroken (core c ds) := by
  induction ds generalizing c with
  | nil => exact h c (by simp)
  | cons d ds ih =>
    have hd := ih (c := d) fun e he => h e (List.mem_cons_of_mem c he)
    intro a ha
    simp only [core,List.mem_append,List.mem_cons,List.not_mem_nil,or_false] at ha
    rcases ha with ha | (ha | rfl) | rfl | (rfl | ha) | ha
    · exact h c (by simp) a ha
    · exact c.right_pad.2 a ha
    · decide
    · decide
    · decide
    · exact d.left_pad.2 a ha
    · exact hd a ha

theorem blank_before_bar (c : Cell) : Blank (c.right++[' ']) :=
  c.right_pad.1.append (by simp [Blank]; decide)

theorem blank_after_bar (d : Cell) : Blank (' ' :: d.left) :=
  Blank.append (a := [' ']) (by simp [Blank]; decide) d.left_pad.1

theorem subSeparators_cell (c : Cell) : subSeparators c.body = c.body := by
  simpa using subSeparators_gap c.no_bar not_barNext_nil

/-- From one cell to the next: the separator becomes a tab if the next cell is not empty. -/
theorem subSeparators_core_cons (hc : c.body ≠ []) (hd : d.body ≠ []) :
    subSeparators (core c (d :: ds)) = c.body ++ '\t' :: subSeparators (core d ds) := by
  have hhead : ∀ a ∈ (core d ds).head?, isSpace a = false := by
    obtain ⟨a,u,he,ha,-⟩ : StartsText (core d ds) := core_starts hd
    simpa [he] using ha
  have hm := matchSeparator_eq (blank_before_bar c) (by simp) (blank_after_bar d) (by simp) hhead
  rw [core,subSeparators_append (c.ends hc),subSeparators_cell,subSeparators_of_some hm]

theorem subSeparators_core (h : ∀ d ∈ c :: ds, d.body ≠ []) :
    subSeparators (core c ds) = List.intercalate ['\t'] ((c :: ds).map (·.body)) := by
  induction ds generalizing c with
  | nil => simpa [core] using subSeparators_cell c
  | cons d ds ih =>
    rw [subSeparators_core_cons (h c (by simp)) (h d (by simp)),
      ih fun e he => h e (List.mem_cons_of_mem c he),List.map_cons (l := d :: ds),
      List.intercalate_cons_of_ne_nil (by simp)]
    simp

/-- An empty cell between two others leaves a bar: the whitespace in front of it is used up. -/
theorem bar_mem_subSeparators_core (hc : c.body ≠ [])
    (hlast : ((c :: ds).getLast (by simp)).body ≠ []) (h : ∃ d ∈ ds, d.body = []) :
    '|' ∈ subSeparators (core c ds) := by
  induction ds generalizing c with
  | nil => simp at h
  | cons d ds ih =>
    have hlast' : ((d :: ds).getLast (by simp)).body ≠ [] := by simpa using hlast
    by_cases hd : d.body = []
    · cases ds with
      | nil => exact absurd hd hlast'
      | cons e es =>
        have hb : Blank ((' ' :: d.left)++(d.right++[' '])) :=
          (blank_after_bar d).append (blank_before_bar d)
        have hm := matchSeparator_eq (blank_before_bar c) (by simp) hb (by simp)
          (x := '|' :: ((' ' :: e.left)++core e es)) (by simp; decide)
        have hcore : core c (d :: e :: es) =
            c.body++((c.right++[' ']) ++ '|' :: (((' ' :: d.left)++(d.right++[' ']))++
              '|' :: ((' ' :: e.left)++core e es))) := by
          simp [core,hd]
        rw [hcore,subSeparators_append (c.ends hc),subSeparators_of_some hm,
          subSeparators_cons (c := '|') (by decide)]
        simp
    · obtain ⟨e,he,hne⟩ := h
      have he' : e ∈ ds := by
        rcases List.mem_cons.1 he with rfl | he
        · exact absurd hne hd
        · exact he
      rw [subSeparators_core_cons hc hd]
      exact List.mem_append_right _ (List.mem_cons_of_mem _ (ih hd hlast' ⟨e,he',hne⟩))

end

/-- A row of one cell, or one that neither begins nor ends with an empty cell. -/
def Row.Tight (r : Row) : Prop := r.rest = [] ∨ r.first.body ≠ [] ∧ r.last.body ≠ []

theorem Row.exists_line {r : Row} (hu : ∀ v ∈ r.values, Unbroken v) (ht : r.Tight) :
    ∃ l : Line, l.text = r.text ∧ l.body = core r.first r.rest := by
  have hu' : ∀ d ∈ r.first :: r.rest, Unbroken d.body := fun d hd => hu _ (List.mem_map_of_mem hd)
  have hends : core r.first r.rest = [] ∨
      StartsText (core r.first r.rest) ∧ EndsText (core r.first r.rest) := by
    rcases ht with hr | ⟨hf,hl⟩
    · rw [hr]
      by_cases hf : r.first.body = []
      · exact .inl hf
      · exact .inr ⟨r.first.starts hf,r.first.ends hf⟩
    · exact .inr ⟨core_starts hf,core_ends hl⟩
  have htrim : Trimmed (core r.first r.rest) := by
    rcases hends with h | ⟨hs,he⟩
    · rw [h]
      exact trimmed_nil
    · exact trimmed_of_ends hs he
  exact ⟨⟨⟨r.first.left,core r.first r.rest,r.last.right,r.first.left_pad,r.last.right_pad,htrim⟩,
    core_unbroken hu',hends⟩,(intercalate_cells r.first r.rest).symm,rfl⟩

theorem Ruler.exists_line (r : Ruler) : ∃ l : Line, l.text = r.text ∧ l.body = r.body := by
  have hchar : ∀ c ∈ r.body, isSpace c = false ∧ c ≠ '|' ∧ isLineBreak c = false := by
    intro c hc
    rcases r.marks c hc with rfl | rfl <;> decide
  obtain ⟨c,u,hs⟩ := List.exists_cons_of_ne_nil r.nonempty
  have he : r.body = r.body.dropLast++[r.body.getLast r.nonempty] :=
    (List.dropLast_concat_getLast r.nonempty).symm
  have hc := hchar c (by simp [hs])
  have hz := hchar _ (List.getLast_mem r.nonempty)
  exact ⟨⟨r.toPadded,fun c hc => (hchar c hc).2.2,
    .inr ⟨⟨c,u,hs,hc.1,hc.2.1⟩,⟨_,_,he,hz.1,hz.2.1⟩⟩⟩,rfl,rfl⟩

theorem exists_lines {rows : List Row} (hu : ∀ r ∈ rows, ∀ v ∈ r.values, Unbroken v)
    (ht : ∀ r ∈ rows, r.Tight) :
    ∃ ls : List Line, ls.map (·.text) = rows.map Row.text ∧
      ls.map (·.body) = rows.map fun r => core r.first r.rest := by
  induction rows with
  | nil => exact ⟨[],rfl,rfl⟩
  | cons r rows ih =>
    obtain ⟨ls,htext,hbody⟩ := ih (fun q hq => hu q (List.mem_cons_of_mem r hq))
      fun q hq => ht q (List.mem_cons_of_mem r hq)
    obtain ⟨l,hl,hl'⟩ := Row.exists_line (hu r List.mem_cons_self) (ht r List.mem_cons_self)
    exact ⟨l :: ls,by simp [htext,hl],by simp [hbody,hl']⟩

theorem Row.core_eq_nil {r : Row} (ht : r.Tight) (h : core r.first r.rest = []) : r.values = [[]] := by
  rcases ht with hr | ⟨hf,-⟩
  · rw [hr] at h
    have hb : r.first.body = [] := h
    simp [Row.values,Row.cells,hr,hb]
  · obtain ⟨c,u,he,-⟩ : StartsText (core r.first r.rest) := core_starts hf
    simp [he] at h

/-- The output for a table whose rows are such lines. -/
theorem Table.convertOutput_eq (t : Table) (hu : ∀ r ∈ t.dataRows, ∀ v ∈ r.values, Unbroken v)
    (ht : ∀ r ∈ t.dataRows, r.Tight) (hh : t.header.values ≠ [[]])
    (hl : ∀ r ∈ t.rows.getLast?, r.values ≠ [[]]) :
    convertOutput t.text =
      List.intercalate ['\n'] (t.dataRows.map fun r => subSeparators (core r.first r.rest)) := by
  obtain ⟨header,hht,hhb⟩ := Row.exists_line (hu t.header List.mem_cons_self) (ht t.header List.mem_cons_self)
  obtain ⟨ruler,hrt,hrb⟩ := t.ruler.exists_line
  obtain ⟨rows,hrows,hcores⟩ := exists_lines (fun r hr => hu r (List.mem_cons_of_mem _ hr))
    fun r hr => ht r (List.mem_cons_of_mem _ hr)
  have hlast : ((ruler :: rows).getLast (by simp)).body ≠ [] := by
    have hx : ((ruler :: rows).map (·.body)).getLast? = some ((ruler :: rows).getLast (by simp)).body := by
      rw [List.getLast?_map,List.getLast?_eq_getLast_of_ne_nil (by simp)]
      rfl
    rw [List.map_cons,hcores,hrb,List.getLast?_cons,List.getLast?_map] at hx
    cases hr : t.rows.getLast? with
    | none =>
      rw [hr] at hx
      exact Option.some.inj hx ▸ t.ruler.nonempty
    | some r =>
      rw [hr] at hx
      rw [← Option.some.inj hx]
      exact fun h => hl r hr (Row.core_eq_nil (ht r (List.mem_cons_of_mem _ (List.mem_of_getLast? hr))) h)
  have hheader : header.body ≠ [] := by
    rw [hhb]
    exact fun h => hh (Row.core_eq_nil (ht _ List.mem_cons_self) h)
  have h := convertOutput_lines t.before_blank t.after_blank header ruler rows hheader hlast
  rw [List.map_cons,List.map_cons,hht,hrt,hrows] at h
  have hsub : rows.map (subSeparators ·.body) = t.rows.map fun r => subSeparators (core r.first r.rest) := by
    simpa [Function.comp_def] using congrArg (List.map subSeparators) hcores
  rw [Table.text,Table.lines,h,Table.dataRows,List.map_cons,List.map_cons,hhb,hsub]

/-- The output is the tab-separated text of the header and the data, and its cells are theirs. -/
structure Converted (t : Table) (out : Text) : Prop where
  text : out = t.tsv
  cells : readTsv out = t.dataRows.map Row.values

/-- Cells without line breaks, none of them empty in a row of several cells, and no empty line at the
top or at the bottom. -/
structure Table.Plain (t : Table) : Prop where
  unbroken : ∀ r ∈ t.dataRows, ∀ v ∈ r.values, Unbroken v
  filled : ∀ r ∈ t.dataRows, 2 ≤ r.values.length → ∀ v ∈ r.values, v ≠ []
  header : t.header.values ≠ [[]]
  last : ∀ r ∈ t.rows.getLast?, r.values ≠ [[]]

theorem Row.values_ne_nil (r : Row) : r.values ≠ [] := by
  simp [Row.values,Row.cells]

theorem Row.not_mem_tsv (r : Row) {a : Char} (ha : a ≠ '\t') (h : ∀ c : Cell, a ∉ c.body) : a ∉ r.tsv := by
  intro hmem
  rcases mem_intercalate hmem with hmem | ⟨v,hv,hmem⟩
  · exact ha (List.mem_singleton.1 hmem)
  · obtain ⟨c,-,rfl⟩ := List.mem_map.1 hv
    exact h c hmem

theorem Row.no_newline (r : Row) : '\n' ∉ r.tsv := r.not_mem_tsv (by decide) Cell.no_newline

theorem Row.no_bar (r : Row) : '|' ∉ r.tsv := r.not_mem_tsv (by decide) Cell.no_bar

theorem Table.no_newline (t : Table) : ∀ l ∈ t.dataRows.map Row.tsv, '\n' ∉ l := by
  intro l hl
  obtain ⟨r,-,rfl⟩ := List.mem_map.1 hl
  exact r.no_newline

theorem readTsv_tsv (t : Table) : readTsv t.tsv = t.dataRows.map Row.values := by
  have hlines : t.tsv.splitOn '\n' = t.dataRows.map Row.tsv :=
    List.splitOn_intercalate '\n' t.no_newline (by simp [Table.dataRows])
  rw [readTsv,hlines,List.map_map]
  refine List.map_congr_left fun r _ => List.splitOn_intercalate '\t' ?_ r.values_ne_nil
  intro v hv
  obtain ⟨c,-,rfl⟩ := List.mem_map.1 hv
  exact c.no_tab

theorem Table.Plain.tight {t : Table} (h : t.Plain) : ∀ r ∈ t.dataRows, r.Tight := by
  intro r hr
  cases hrest : r.rest with
  | nil => exact .inl hrest
  | cons d ds =>
    have hne := h.filled r hr (by simp [Row.values,Row.cells,hrest])
    exact .inr ⟨hne _ (List.mem_map_of_mem List.mem_cons_self),
      hne _ (List.mem_map_of_mem (List.getLast_mem _))⟩

theorem Table.Plain.converted {t : Table} (h : t.Plain) : convertOutput t.text = t.tsv := by
  rw [t.convertOutput_eq h.unbroken h.tight h.header h.last,Table.tsv]
  congr 1
  refine List.map_congr_left fun r hr => ?_
  cases hrest : r.rest with
  | nil =>
    rw [Row.tsv,Row.values,Row.cells,hrest]
    simpa [core] using subSeparators_cell r.first
  | cons d ds =>
    rw [← hrest]
    refine subSeparators_core fun c hc => ?_
    exact h.filled r hr (by simp [Row.values,Row.cells,hrest]) _ (List.mem_map_of_mem hc)

/-- The lines of the output. -/
def outputLines (s : Text) : List Text := ((splitlines (subSeparators s).strip).map strip).eraseIdx 1

theorem mem_outputLines {s l : Text} (h : l ∈ outputLines s) : Unbroken l ∧ Trimmed l := by
  obtain ⟨m,hm,rfl⟩ := List.mem_map.1 (List.mem_of_mem_eraseIdx h)
  exact ⟨fun c hc => unbroken_of_mem_splitlines hm c (mem_of_mem_strip hc),trimmed_strip m⟩

/-- There is a first line, and neither it nor the last of several lines is empty. -/
theorem outputLines_ends {s : Text} (h : (subSeparators s).strip ≠ []) :
    ∃ l ls, outputLines s = l :: ls ∧ l ≠ [] ∧ [] ∉ ls.getLast? := by
  have htrim := trimmed_strip (subSeparators s)
  have hbreak : ∀ {c : Char}, isSpace c = false → isLineBreak c = false := by
    intro c hc
    cases hb : isLineBreak c with
    | false => rfl
    | true => rw [isSpace_of_isLineBreak hb] at hc; cases hc
  have hne : ∀ {c : Char} {t : Text}, isSpace c = false → c ∈ t → strip t ≠ [] := by
    intro c t hc ht he
    have := (mem_strip hc).2 ht
    simp [he] at this
  obtain ⟨c,u,hc⟩ := List.exists_cons_of_ne_nil h
  have hcs : isSpace c = false := htrim.head c (by simp [hc])
  obtain ⟨l,ls,hfirst⟩ := splitlines_cons_head (hbreak hcs) u
  have hz : (subSeparators s).strip = (subSeparators s).strip.dropLast++[(subSeparators s).strip.getLast h] :=
    (List.dropLast_concat_getLast h).symm
  have hzs := htrim.last _ (List.getLast?_eq_getLast_of_ne_nil h)
  obtain ⟨ms,m,hlast⟩ := splitlines_concat (hbreak hzs) (subSeparators s).strip.dropLast
  rw [← hz] at hlast
  rw [← hc] at hfirst
  refine ⟨strip (c :: l),(ls.map strip).tail,?_,hne hcs List.mem_cons_self,?_⟩
  · rw [outputLines,hfirst,List.map_cons,List.eraseIdx_cons_succ,List.eraseIdx_zero]
  · intro hmem
    have hls : (ls.map strip).getLast? = some [] := by
      rw [Option.mem_def,List.getLast?_tail] at hmem
      split at hmem
      · cases hmem
      · exact hmem
    have hall : (((c :: l) :: ls).map strip).getLast? = some [] := by
      rw [List.map_cons,List.getLast?_cons,hls]
      rfl
    rw [← hfirst,hlast,List.map_append,List.map_singleton,List.getLast?_concat] at hall
    exact hne hzs (by simp) (Option.some.inj hall)

/-- The marks of the ruler are always left. -/
theorem Table.strip_ne_nil (t : Table) : (subSeparators t.text).strip ≠ [] := by
  obtain ⟨c,u,hc⟩ := List.exists_cons_of_ne_nil t.ruler.nonempty
  have hmark : isSpace c = false ∧ c ≠ '|' := by
    rcases t.ruler.marks c (by simp [hc]) with rfl | rfl <;> decide
  have hline : c ∈ t.ruler.text := by simp [Padded.text,hc]
  have hlines : c ∈ List.intercalate ['\n'] t.lines :=
    mem_intercalate_of_mem _ (by simp [Table.lines]) hline
  have htext : c ∈ t.text := by simp [Table.text,hlines]
  have hstrip := (mem_strip hmark.1).2 (mem_subSeparators_of_mem htext hmark.1 hmark.2)
  exact List.ne_nil_of_mem hstrip

section
variable {t : Table} (h : convertOutput t.text = t.tsv)
include h

theorem unbroken_of_converted : ∀ r ∈ t.dataRows, ∀ v ∈ r.values, Unbroken v := by
  intro r hr v hv c hc
  obtain ⟨d,-,rfl⟩ := List.mem_map.1 hv
  cases hb : isLineBreak c with
  | false => rfl
  | true =>
    have hout : c ∈ convertOutput t.text := by
      rw [h]
      exact mem_intercalate_of_mem _ (List.mem_map_of_mem hr) (mem_intercalate_of_mem _ hv hc)
    rw [convertOutput_eq] at hout
    rcases mem_intercalate hout with hn | ⟨l,hl,hcl⟩
    · rw [List.mem_singleton.1 hn] at hc
      exact absurd hc d.no_newline
    · have := (mem_outputLines hl).1 c hcl
      rw [hb] at this
      cases this

theorem outputLines_of_converted : outputLines t.text = t.dataRows.map Row.tsv := by
  obtain ⟨l,ls,hl,-⟩ := outputLines_ends t.strip_ne_nil
  refine intercalate_inj (c := '\n') ?_ t.no_newline (by simp [hl]) (by simp [Table.dataRows])
    ((convertOutput_eq t.text).symm.trans h)
  intro l hl hn
  exact absurd ((mem_outputLines hl).1 _ hn) (by decide)

theorem tight_of_converted : ∀ r ∈ t.dataRows, r.Tight := by
  intro r hr
  have htrim : Trimmed r.tsv := by
    refine (mem_outputLines (s := t.text) ?_).2
    rw [outputLines_of_converted h]
    exact List.mem_map_of_mem hr
  cases hrest : r.rest with
  | nil => exact .inl hrest
  | cons d ds =>
    refine .inr ⟨?_,?_⟩
    · intro hf
      have hhead : r.tsv.head? = some '\t' := by
        rw [Row.tsv,Row.values,Row.cells,hrest,List.map_cons,List.map_cons,List.intercalate_cons_cons,hf]
        rfl
      exact absurd (htrim.head _ hhead) (by decide)
    · intro hl
      have hcells : r.cells = r.cells.dropLast++[r.last] := (List.dropLast_concat_getLast _).symm
      have hlast : r.tsv.getLast? = some '\t' := by
        rw [Row.tsv,Row.values,hcells,List.map_append,List.map_singleton,hl,
          intercalate_concat _ _ (by simp [Row.cells,hrest])]
        simp
      exact absurd (htrim.last _ hlast) (by decide)

theorem header_of_converted : t.header.values ≠ [[]] := by
  intro he
  obtain ⟨l,ls,hl,hne,-⟩ := outputLines_ends t.strip_ne_nil
  rw [outputLines_of_converted h,Table.dataRows,List.map_cons] at hl
  have hhead : t.header.tsv = l := (List.cons.inj hl).1
  rw [Row.tsv,he] at hhead
  exact hne hhead.symm

theorem last_of_converted : ∀ r ∈ t.rows.getLast?, r.values ≠ [[]] := by
  intro r hr he
  obtain ⟨l,ls,hl,-,hlast⟩ := outputLines_ends t.strip_ne_nil
  rw [outputLines_of_converted h,Table.dataRows,List.map_cons] at hl
  refine hlast ?_
  rw [← (List.cons.inj hl).2,List.getLast?_map,Option.mem_def.1 hr]
  simp [Row.tsv,he]

theorem filled_of_converted : ∀ r ∈ t.dataRows, 2 ≤ r.values.length → ∀ v ∈ r.values, v ≠ [] := by
  intro r hr hlen v hv hne
  have ht := tight_of_converted h
  have hu := unbroken_of_converted h
  have hcore := t.convertOutput_eq hu ht (header_of_converted h) (last_of_converted h)
  have hrows : (t.dataRows.map fun r => subSeparators (core r.first r.rest)) = t.dataRows.map Row.tsv := by
    refine intercalate_inj (c := '\n') ?_ t.no_newline (by simp [Table.dataRows]) (by simp [Table.dataRows])
      (hcore.symm.trans h)
    intro l hl hn
    obtain ⟨q,hq,rfl⟩ := List.mem_map.1 hl
    obtain ⟨line,-,hbody⟩ := Row.exists_line (hu q hq) (ht q hq)
    exact absurd (line.sub_unbroken '\n' (by rwa [Line.sub_body,hbody])) (by decide)
  have hrow : subSeparators (core r.first r.rest) = r.tsv := List.map_inj_left.1 hrows r hr
  have hrest : r.rest ≠ [] := by
    intro he
    simp [Row.values,Row.cells,he] at hlen
  obtain ⟨hf,hl⟩ := (ht r hr).resolve_left hrest
  obtain ⟨c,hc,rfl⟩ := List.mem_map.1 hv
  have hc' : c ∈ r.rest := by
    rcases List.mem_cons.1 hc with rfl | hc
    · exact absurd hne hf
    · exact hc
  exact r.no_bar (hrow ▸ bar_mem_subSeparators_core hf hl ⟨c,hc',hne⟩)

end

/-- The condition is exact. -/
theorem convertOutput_iff (t : Table) : Converted t (convertOutput t.text) ↔ t.Plain := by
  constructor
  · intro h
    exact ⟨unbroken_of_converted h.text,filled_of_converted h.text,header_of_converted h.text,
      last_of_converted h.text⟩
  · intro h
    exact ⟨h.converted,by rw [h.converted,readTsv_tsv]⟩

/-- A cell without padding. -/
def bareCell (body : Text) (h : body.strip = body ∧ '|' ∉ body ∧ '\t' ∉ body ∧ '\n' ∉ body) : Cell where
  left := []
  body := body
  right := []
  left_pad := Padded.blank_unbroken_nil
  right_pad := Padded.blank_unbroken_nil
  trimmed := h.1 ▸ trimmed_strip body
  no_bar := h.2.1
  no_tab := h.2.2.1
  no_newline := h.2.2.2

/-- Two columns, and an empty cell at the end of the first of two data rows. -/
def emptyAtEnd : Table where
  before := ['\n']
  header := ⟨bareCell ['a'] (by decide),[bareCell ['b'] (by decide)]⟩
  ruler := ⟨(bareCell ['-','-','+','-','-'] (by decide)).toPadded,by simp [bareCell],by simp [bareCell]⟩
  rows := [⟨bareCell ['1'] (by decide),[bareCell [] (by decide)]⟩,
    ⟨bareCell ['2'] (by decide),[bareCell ['3'] (by decide)]⟩]
  after := ['\n']
  before_blank := by simp [Blank]; decide
  after_blank := by simp [Blank]; decide

/-- The two data rows come out as one row of three cells. -/
theorem convertOutput_emptyAtEnd : ¬Converted emptyAtEnd (convertOutput emptyAtEnd.text) := by
  intro h
  have hout : convertOutput emptyAtEnd.text = "a\tb\n1\t2\t3".toList := by rfl
  have htsv : emptyAtEnd.tsv = "a\tb\n1\t\n2\t3".toList := by rfl
  have he := h.text
  rw [hout,htsv] at he
  exact absurd he (by decide)

end ClickHouseRegression.WindowFunctions
