import ClickHouseRegression.Text

/-! Lines of a Python string: `strip` without reference to how it drops characters, `splitlines`, and
both on a text that was put together from lines. -/
namespace ClickHouseRegression.Text

/-- Only whitespace. -/
def Blank (t : Text) : Prop := ∀ c ∈ t, isSpace c = true

/-- No whitespace at either end. -/
structure Trimmed (t : Text) : Prop where
  head : ∀ c ∈ t.head?, isSpace c = false
  last : ∀ c ∈ t.getLast?, isSpace c = false

theorem Blank.append {a b : Text} (ha : Blank a) (hb : Blank b) : Blank (a++b) := by
  intro c hc
  exact (List.mem_append.1 hc).elim (ha c) (hb c)

theorem trimmed_nil : Trimmed [] := ⟨by simp,by simp⟩

theorem dropWhile_blank_append {a : Text} (ha : Blank a) (t : Text) :
    (a++t).dropWhile isSpace = t.dropWhile isSpace :=
  List.dropWhile_append_of_pos ha

theorem dropWhile_eq_self {t : Text} (h : ∀ c ∈ t.head?, isSpace c = false) :
    t.dropWhile isSpace = t := by
  cases t with
  | nil => rfl
  | cons c t => exact List.dropWhile_cons_of_neg (by simp [h c rfl])

/-- `strip` removes blanks around a trimmed text and nothing else. -/
theorem strip_eq {a t b : Text} (ha : Blank a) (ht : Trimmed t) (hb : Blank b) :
    strip (a++t++b) = t := by
  have hb' : Blank b.reverse := fun c hc => hb c (List.mem_reverse.1 hc)
  have ht' : ∀ c ∈ t.reverse.head?, isSpace c = false := by
    rw [List.head?_reverse]
    exact ht.last
  have hback : ((t++b).reverse.dropWhile isSpace).reverse = t := by
    rw [List.reverse_append,dropWhile_blank_append hb',dropWhile_eq_self ht',List.reverse_reverse]
  rw [strip,List.append_assoc,dropWhile_blank_append ha]
  cases t with
  | nil =>
    have hnil : b.dropWhile isSpace = [] := List.dropWhile_eq_nil_iff.2 hb
    rw [List.nil_append,hnil]
    rfl
  | cons c t =>
    rw [dropWhile_eq_self (t := c :: t++b) (by simpa using ht.head)]
    exact hback

theorem trimmed_strip (t : Text) : Trimmed (strip t) := by
  have hdrop : ∀ s : Text, ∀ c ∈ (s.dropWhile isSpace).head?, isSpace c = false := by
    intro s c hc
    have h := List.head?_dropWhile_not isSpace s
    rw [Option.mem_def.1 hc] at h
    simpa using h
  constructor
  · intro c hc
    have hpre : strip t <+: t.dropWhile isSpace := by
      rw [strip,← List.reverse_suffix,List.reverse_reverse]
      exact List.dropWhile_suffix isSpace
    obtain ⟨b,hb⟩ := hpre
    refine hdrop t c ?_
    rw [← hb,List.head?_append,Option.mem_def.1 hc]
    rfl
  · intro c hc
    rw [strip,List.getLast?_reverse] at hc
    exact hdrop _ c hc

/-- Every text is its stripped text between two blanks. -/
theorem exists_strip (t : Text) : ∃ a b, Blank a ∧ Blank b ∧ t = a++strip t++b := by
  have htake : ∀ s : Text, Blank (s.takeWhile isSpace) := fun s c hc => List.mem_takeWhile_imp hc
  refine ⟨t.takeWhile isSpace,((t.dropWhile isSpace).reverse.takeWhile isSpace).reverse,htake t,?_,?_⟩
  · exact fun c hc => htake _ c (List.mem_reverse.1 hc)
  · rw [strip,List.append_assoc,← List.reverse_append,List.takeWhile_append_dropWhile,
      List.reverse_reverse,List.takeWhile_append_dropWhile]

theorem mem_strip {t : Text} {c : Char} (hc : isSpace c = false) : c ∈ strip t ↔ c ∈ t := by
  obtain ⟨a,b,ha,hb,he⟩ := exists_strip t
  have ha' : c ∉ a := fun h => by simp [ha c h] at hc
  have hb' : c ∉ b := fun h => by simp [hb c h] at hc
  conv_rhs => rw [he]
  simp [ha',hb']

theorem mem_of_mem_strip {t : Text} {c : Char} (h : c ∈ strip t) : c ∈ t := by
  obtain ⟨a,b,-,-,he⟩ := exists_strip t
  rw [he]
  simp [h]

theorem mem_intercalate {sep : Text} {ls : List Text} {c : Char} (h : c ∈ List.intercalate sep ls) :
    c ∈ sep ∨ ∃ l ∈ ls, c ∈ l := by
  induction ls with
  | nil => simp at h
  | cons l ls ih =>
    cases ls with
    | nil => exact .inr ⟨l,List.mem_cons_self,by simpa using h⟩
    | cons m ls =>
      rw [List.intercalate_cons_cons,List.mem_append,List.mem_append] at h
      rcases h with (h | h) | h
      · exact .inr ⟨l,List.mem_cons_self,h⟩
      · exact .inl h
      · exact (ih h).imp_right fun ⟨k,hk,hc⟩ => ⟨k,List.mem_cons_of_mem l hk,hc⟩

theorem mem_intercalate_of_mem (sep : Text) {ls : List Text} {l : Text} {c : Char} (hl : l ∈ ls)
    (hc : c ∈ l) : c ∈ List.intercalate sep ls := by
  induction ls with
  | nil => simp at hl
  | cons m ls ih =>
    cases ls with
    | nil =>
      rw [List.mem_singleton.1 hl] at hc
      simpa using hc
    | cons k ls =>
      rw [List.intercalate_cons_cons,List.mem_append,List.mem_append]
      rcases List.mem_cons.1 hl with rfl | hl
      · exact .inl (.inl hc)
      · exact .inr (ih hl)

theorem intercalate_concat (sep l : Text) {ls : List Text} (h : ls ≠ []) :
    List.intercalate sep (ls++[l]) = List.intercalate sep ls++sep++l := by
  induction ls with
  | nil => exact absurd rfl h
  | cons m ls ih =>
    cases ls with
    | nil => simp
    | cons k ls =>
      rw [List.cons_append,List.intercalate_cons_of_ne_nil (by simp),ih (by simp),
        List.intercalate_cons_cons]
      simp

/-- Texts put together with a character that none of them has are determined by the result. -/
theorem intercalate_inj {c : Char} {ls ms : List Text} (hls : ∀ l ∈ ls, c ∉ l) (hms : ∀ m ∈ ms, c ∉ m)
    (hl : ls ≠ []) (hm : ms ≠ []) (h : List.intercalate [c] ls = List.intercalate [c] ms) : ls = ms := by
  rw [← List.splitOn_intercalate c hls hl,h,List.splitOn_intercalate c hms hm]

/-- The code points at which `splitlines` ends a line. -/
def isLineBreak (c : Char) : Bool :=
  let n := c.toNat
  (10 ≤ n && n ≤ 13) || (28 ≤ n && n ≤ 30) || n = 0x85 || n = 0x2028 || n = 0x2029

/-- A text that stays within a line. -/
def Unbroken (t : Text) : Prop := ∀ c ∈ t, isLineBreak c = false

/-- A character in front of the first line. -/
def extendLine (c : Char) : List Text → List Text
  | [] => [[c]]
  | l :: ls => (c :: l) :: ls

/-- `t.splitlines()`. -/
def splitlines : Text → List Text
  | [] => []
  | '\r' :: '\n' :: t => [] :: splitlines t
  | c :: t => if isLineBreak c then [] :: splitlines t else extendLine c (splitlines t)

theorem isSpace_of_isLineBreak {c : Char} (h : isLineBreak c = true) : isSpace c = true := by
  simp only [isLineBreak,isSpace,Bool.or_eq_true,Bool.and_eq_true,decide_eq_true_eq] at *
  omega

/-- Away from a `\r\n` a line ends at one character. -/
theorem splitlines_cons_eq {c : Char} {t : Text} (h : ∀ t', c = '\r' → t = '\n' :: t' → False) :
    splitlines (c :: t) =
      if isLineBreak c then [] :: splitlines t else extendLine c (splitlines t) := by
  rw [splitlines]
  exact h

theorem splitlines_cons {c : Char} (hc : isLineBreak c = false) (t : Text) :
    splitlines (c :: t) = extendLine c (splitlines t) := by
  rw [splitlines_cons_eq,if_neg (by simp [hc])]
  rintro t' rfl -
  exact absurd hc (by decide)

theorem splitlines_newline (t : Text) : splitlines ('\n' :: t) = [] :: splitlines t := by
  rw [splitlines_cons_eq,if_pos (by decide)]
  intro t' h
  exact absurd h (by decide)

theorem splitlines_append_newline {l : Text} (hl : Unbroken l) (t : Text) :
    splitlines (l ++ '\n' :: t) = l :: splitlines t := by
  induction l with
  | nil => exact splitlines_newline t
  | cons c l ih =>
    rw [List.cons_append,splitlines_cons (hl c List.mem_cons_self),
      ih fun d hd => hl d (List.mem_cons_of_mem c hd)]
    rfl

theorem splitlines_unbroken {l : Text} (hl : Unbroken l) (hne : l ≠ []) : splitlines l = [l] := by
  induction l with
  | nil => exact absurd rfl hne
  | cons c l ih =>
    rw [splitlines_cons (hl c List.mem_cons_self)]
    cases l with
    | nil => rfl
    | cons d l =>
      rw [ih (fun e he => hl e (List.mem_cons_of_mem c he)) (by simp)]
      rfl

/-- Lines put together with line feeds are read back, unless the last one is empty. -/
theorem splitlines_intercalate {ls : List Text} {l : Text} (hls : ∀ m ∈ ls, Unbroken m)
    (hl : Unbroken l) (hne : l ≠ []) :
    splitlines (List.intercalate ['\n'] (ls++[l])) = ls++[l] := by
  induction ls with
  | nil => simpa using splitlines_unbroken hl hne
  | cons m ls ih =>
    have hrest : ls++[l] ≠ [] := by simp
    rw [List.cons_append,List.intercalate_cons_of_ne_nil hrest,List.append_assoc,List.singleton_append,
      splitlines_append_newline (hls m List.mem_cons_self),
      ih fun k hk => hls k (List.mem_cons_of_mem m hk)]

theorem mem_extendLine {c : Char} {ls : List Text} {l : Text} (h : l ∈ extendLine c ls) :
    l ∈ ls ∨ l = [c] ∨ ∃ m ∈ ls, l = c :: m := by
  cases ls with
  | nil => simp_all [extendLine]
  | cons m ls =>
    rcases List.mem_cons.1 h with rfl | h
    · exact .inr (.inr ⟨m,List.mem_cons_self,rfl⟩)
    · exact .inl (List.mem_cons_of_mem m h)

theorem unbroken_of_mem_splitlines {t l : Text} (h : l ∈ splitlines t) : Unbroken l := by
  induction t using splitlines.induct generalizing l with
  | case1 => simp [splitlines] at h
  | case2 t ih =>
    rw [splitlines] at h
    rcases List.mem_cons.1 h with rfl | h
    · simp [Unbroken]
    · exact ih h
  | case3 c t hcr hc ih =>
    rw [splitlines_cons_eq hcr,if_pos hc] at h
    rcases List.mem_cons.1 h with rfl | h
    · simp [Unbroken]
    · exact ih h
  | case4 c t hcr hc ih =>
    have hc' : isLineBreak c = false := by simpa using hc
    rw [splitlines_cons hc'] at h
    rcases mem_extendLine h with h | rfl | ⟨m,hm,rfl⟩
    · exact ih h
    · simpa [Unbroken] using hc'
    · exact List.forall_mem_cons.2 ⟨hc',ih hm⟩

theorem splitlines_cons_head {c : Char} (hc : isLineBreak c = false) (t : Text) :
    ∃ l ls, splitlines (c :: t) = (c :: l) :: ls := by
  rw [splitlines_cons hc]
  cases splitlines t with
  | nil => exact ⟨[],[],rfl⟩
  | cons l ls => exact ⟨l,ls,rfl⟩

theorem splitlines_concat {c : Char} (hc : isLineBreak c = false) (t : Text) :
    ∃ ls l, splitlines (t++[c]) = ls++[l++[c]] := by
  induction t using splitlines.induct with
  | case1 =>
    refine ⟨[],[],?_⟩
    rw [List.nil_append,splitlines_cons hc]
    rfl
  | case2 t ih =>
    obtain ⟨ls,l,ih⟩ := ih
    refine ⟨[] :: ls,l,?_⟩
    rw [List.cons_append,List.cons_append,splitlines,ih]
    rfl
  | case3 d t hcr hd ih =>
    obtain ⟨ls,l,ih⟩ := ih
    refine ⟨[] :: ls,l,?_⟩
    rw [List.cons_append,splitlines_cons_eq,if_pos hd,ih]
    · rfl
    · intro t' hr ht
      cases t with
      | nil =>
        cases ht
        exact absurd hc (by decide)
      | cons e t =>
        cases ht
        exact hcr t hr rfl
  | case4 d t hcr hd ih =>
    obtain ⟨ls,l,ih⟩ := ih
    rw [List.cons_append,splitlines_cons (by simpa using hd),ih]
    cases ls with
    | nil => exact ⟨[],d :: l,rfl⟩
    | cons m ls => exact ⟨(d :: m) :: ls,l,rfl⟩

/-- Whitespace that stays within a line. -/
def Pad (t : Text) : Prop := Blank t ∧ Unbroken t

/-- A trimmed text with padding on both sides. -/
structure Padded where
  left : Text
  body : Text
  right : Text
  left_pad : Pad left
  right_pad : Pad right
  trimmed : Trimmed body

namespace Padded

def text (l : Padded) : Text := l.left++l.body++l.right

theorem strip_text (l : Padded) : strip l.text = l.body :=
  strip_eq l.left_pad.1 l.trimmed l.right_pad.1

theorem unbroken_text {l : Padded} (h : Unbroken l.body) : Unbroken l.text := by
  intro c hc
  simp only [text,List.mem_append] at hc
  rcases hc with (hc | hc) | hc
  · exact l.left_pad.2 c hc
  · exact h c hc
  · exact l.right_pad.2 c hc

theorem blank_unbroken_nil : Blank [] ∧ Unbroken [] := ⟨by simp [Blank],by simp [Unbroken]⟩

/-- The padding in front of the first line and after the last line of a text. -/
def dropLeft (l : Padded) : Padded :=
  { l with left := [],left_pad := blank_unbroken_nil }

def dropRight (l : Padded) : Padded :=
  { l with right := [],right_pad := blank_unbroken_nil }

theorem text_ne_nil {l : Padded} (h : l.body ≠ []) : l.text ≠ [] := by
  simp [text,h]

end Padded

theorem intercalate_map_ends (l z : Padded) (ms : List Padded) :
    List.intercalate ['\n'] ((l :: (ms++[z])).map Padded.text) =
      l.left++List.intercalate ['\n'] ((l.dropLeft :: (ms++[z.dropRight])).map Padded.text)++z.right := by
  have hback : ∀ ms : List Padded, List.intercalate ['\n'] ((ms++[z]).map Padded.text) =
      List.intercalate ['\n'] ((ms++[z.dropRight]).map Padded.text)++z.right := by
    intro ms
    induction ms with
    | nil => simp [Padded.text,Padded.dropRight]
    | cons m ms ih =>
      rw [List.cons_append,List.cons_append,List.map_cons,List.map_cons,
        List.intercalate_cons_of_ne_nil (by simp),List.intercalate_cons_of_ne_nil (by simp),ih]
      simp
  rw [List.map_cons,List.map_cons,List.intercalate_cons_of_ne_nil (by simp),
    List.intercalate_cons_of_ne_nil (by simp),hback]
  simp [Padded.text,Padded.dropLeft]

theorem trimmed_intercalate {l z : Padded} (ms : List Padded) (hl : l.body ≠ []) (hz : z.body ≠ []) :
    Trimmed (List.intercalate ['\n'] ((l.dropLeft :: (ms++[z.dropRight])).map Padded.text)) := by
  have hback : ∀ ms : List Padded, ∃ t,
      List.intercalate ['\n'] ((ms++[z.dropRight]).map Padded.text) = t++z.body := by
    intro ms
    induction ms with
    | nil => exact ⟨z.left,by simp [Padded.text,Padded.dropRight]⟩
    | cons m ms ih =>
      obtain ⟨t,ht⟩ := ih
      refine ⟨m.text++['\n']++t,?_⟩
      rw [List.cons_append,List.map_cons,List.intercalate_cons_of_ne_nil (by simp),ht]
      simp
  constructor
  · intro c hc
    rw [List.map_cons,List.intercalate_cons_of_ne_nil (by simp)] at hc
    obtain ⟨d,t,hd⟩ := List.exists_cons_of_ne_nil hl
    have hcd : d = c := by simpa [Padded.text,Padded.dropLeft,hd] using hc
    exact hcd ▸ l.trimmed.head d (by simp [hd])
  · intro c hc
    obtain ⟨t,ht⟩ := hback (l.dropLeft :: ms)
    rw [List.cons_append] at ht
    rw [ht,List.getLast?_append_of_ne_nil _ hz] at hc
    exact z.trimmed.last c hc

/-- Lines of padded texts between blanks come out of `strip`, `splitlines` and a `strip` of every line,
unless the first or the last of them is empty. -/
theorem splitlines_strip_padded {before after : Text} (hb : Blank before) (ha : Blank after)
    (l z : Padded) (ms : List Padded) (hu : ∀ m ∈ l :: (ms++[z]), Unbroken m.body)
    (hl : l.body ≠ []) (hz : z.body ≠ []) :
    (splitlines (strip (before++List.intercalate ['\n'] ((l :: (ms++[z])).map Padded.text)++after))).map strip =
      (l :: (ms++[z])).map Padded.body := by
  have hstrip : strip (before++List.intercalate ['\n'] ((l :: (ms++[z])).map Padded.text)++after) =
      List.intercalate ['\n'] ((l.dropLeft :: (ms++[z.dropRight])).map Padded.text) := by
    have h := strip_eq (hb.append l.left_pad.1) (trimmed_intercalate ms hl hz) (z.right_pad.1.append ha)
    rw [intercalate_map_ends]
    simpa only [List.append_assoc] using h
  have hsplit : splitlines (List.intercalate ['\n'] ((l.dropLeft :: (ms++[z.dropRight])).map Padded.text)) =
      (l.dropLeft :: (ms++[z.dropRight])).map Padded.text := by
    rw [← List.cons_append,List.map_append,List.map_singleton]
    refine splitlines_intercalate ?_ (Padded.unbroken_text (hu z (by simp))) (Padded.text_ne_nil hz)
    intro m hm
    rcases List.mem_cons.1 hm with rfl | hm
    · exact Padded.unbroken_text (l := l.dropLeft) (hu l (by simp))
    · obtain ⟨k,hk,rfl⟩ := List.mem_map.1 hm
      exact Padded.unbroken_text (hu k (by simp [hk]))
  have hbody : ∀ ps : List Padded, (ps.map Padded.text).map strip = ps.map Padded.body := by
    intro ps
    rw [List.map_map]
    exact List.map_congr_left fun p _ => p.strip_text
  rw [hstrip,hsplit,hbody]
  simp [Padded.dropLeft,Padded.dropRight]

end ClickHouseRegression.Text
