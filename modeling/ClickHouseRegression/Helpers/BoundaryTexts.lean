import ClickHouseRegression.Helpers.RandTexts

/-! Which of the three fixed texts of a datatype coincide and which of them `rand_value` can return.
Both are told from the leaves of the datatype and from where it is `Nullable`. -/
namespace ClickHouseRegression.Helpers
open Sql Fallible

theorem head_convert (l : Leaf) (a : Text) : (l.convert a).head? = some 't' := rfl

theorem head_quote (t : Text) : (quote t).head? = some '\'' := rfl

theorem convert_ne_quote (l : Leaf) (a t : Text) : l.convert a ≠ quote t := by
  intro h
  have hhead := congrArg List.head? h
  rw [head_convert,head_quote] at hhead
  exact absurd hhead (by decide)

theorem quote_not_mem_str (n : ℤ) : '\'' ∉ str n := by
  intro h
  rcases str_chars n h with h | h
  · exact absurd h (by decide)
  · exact absurd h (by decide)

theorem str_ne_quote (n : ℤ) (t : Text) : str n ≠ quote t := by
  intro h
  refine quote_not_mem_str n ?_
  rw [h]
  exact List.mem_cons_self

namespace Leaf

/-- `max_value` and `min_value` are the same text: nothing is left of the letters. -/
def maxIsMin : Leaf → Bool
  | fixedString length => length = 0 ∨ length ≤ -51
  | _ => false

/-- `min_value` and `zero_or_null_value` are the same text. -/
def minIsZero : Leaf → Bool
  | int t => t.min = 0
  | _ => false

def isInt : Leaf → Bool
  | int _ => true
  | _ => false

/-- `rand_value` can return `zero_or_null_value`. -/
def drawsZero : Leaf → Bool
  | int _ => true
  | string => true
  | fixedString length => 1 ≤ length
  | boolean => true
  | uuid => true
  | _ => false

/-- No random float is part of a value. -/
def bounded : Leaf → Bool
  | float32 => false
  | float64 => false
  | decimal _ _ => false
  | _ => true

theorem limitValue_head (l : Leaf) (limit : Text) : (l.limitValue limit).head? = some 't' := by
  cases l <;> rfl

theorem dateTime64_zero (precision : ℤ) (before228 : Bool) :
    ∃ t, (dateTime64 precision before228).zeroOrNullValue = quote t := by
  cases before228
  · exact ⟨_,rfl⟩
  · exact ⟨_,rfl⟩

theorem dateTime64_limits (precision : ℤ) (before228 : Bool) :
    (∃ t, dateTime64Max precision before228 = quote t) ∧ ∃ t, dateTime64Min before228 = quote t := by
  unfold dateTime64Max dateTime64Min
  split_ifs
  · exact ⟨⟨_,rfl⟩,_,rfl⟩
  · exact ⟨⟨_,rfl⟩,_,rfl⟩
  · exact ⟨⟨_,rfl⟩,_,rfl⟩
  · exact ⟨⟨_,rfl⟩,_,rfl⟩

theorem fixedLetters_eq_nil_iff (length : ℤ) :
    fixedLetters length = [] ↔ length = 0 ∨ length ≤ -51 := by
  have hletters : letters.length = 51 := by rfl
  have hlength : fixedLetters length = [] ↔ (fixedLetters length).length = 0 :=
    List.length_eq_zero_iff.symm
  rw [hlength]
  unfold fixedLetters takeLetters
  split_ifs with hshort hpos
  · rw [List.length_take,hletters]
    omega
  · rw [List.length_take,hletters]
    omega
  · rw [List.length_append,hletters]
    omega

theorem maxValue_eq_minValue_iff (l : Leaf) : l.maxValue = l.minValue ↔ l.maxIsMin = true := by
  cases l with
  | int t =>
    refine iff_of_false (fun h => ?_) Bool.false_ne_true
    have hlimits : t.max = t.min := str_injective (convert_injective _ h)
    cases t <;> exact absurd hlimits (by decide)
  | decimal t scale =>
    refine iff_of_false (fun h => ?_) Bool.false_ne_true
    have hlimits : t.limit scale = "-".toList ++ t.limit scale :=
      List.append_cancel_right (List.append_cancel_right (convert_injective _ h))
    have hlength := congrArg List.length hlimits
    rw [List.length_append] at hlength
    exact absurd hlength (by simp)
  | dateTime64 precision before228 =>
    refine iff_of_false (fun h => ?_) Bool.false_ne_true
    have hlimits : dateTime64Max precision before228 = dateTime64Min before228 :=
      List.append_cancel_right (List.append_cancel_right (call_injective _ h))
    unfold dateTime64Max dateTime64Min at hlimits
    split_ifs at hlimits <;> exact absurd (quote_injective hlimits) (by decide)
  | fixedString length =>
    have htext : (fixedString length).maxValue = (fixedString length).minValue ↔
        fixedLetters length = [] := by
      constructor
      · intro h
        exact quote_injective
          (List.append_cancel_right (List.append_cancel_right (convert_injective _ h)))
      · intro h
        rw [maxValue,minValue,Leaf.max,Leaf.min,h]
    rw [htext,fixedLetters_eq_nil_iff]
    exact (decide_eq_true_iff).symm
  | _ => exact iff_of_false (by decide) Bool.false_ne_true

theorem minValue_eq_zero_iff (l : Leaf) : l.minValue = l.zeroOrNullValue ↔ l.minIsZero = true := by
  cases l with
  | int t =>
    have hzero : "0".toList = str 0 := rfl
    have htext : (int t).minValue = (int t).zeroOrNullValue ↔ t.min = 0 := by
      constructor
      · intro h
        exact str_injective (convert_injective _ h)
      · intro h
        rw [minValue,zeroOrNullValue,Leaf.min,h,hzero]
        rfl
    exact htext.trans decide_eq_true_iff.symm
  | decimal t scale =>
    refine iff_of_false (fun h => ?_) Bool.false_ne_true
    exact absurd (List.cons.inj (convert_injective _ h)).1 (by decide)
  | dateTime64 precision before228 =>
    refine iff_of_false (fun h => ?_) Bool.false_ne_true
    obtain ⟨t,ht⟩ := dateTime64_zero precision before228
    have hhead := congrArg List.head? h
    rw [minValue,limitValue_head,ht,head_quote] at hhead
    exact absurd hhead (by decide)
  | fixedString length => exact iff_of_false (convert_ne_quote _ _ _) Bool.false_ne_true
  | _ => exact iff_of_false (by decide) Bool.false_ne_true

theorem limit_append_ne (t : DecimalType) (scale : ℤ) (a b : Text) :
    t.limit scale ++ ", ".toList ++ a ≠ "0,".toList ++ b := by
  unfold DecimalType.limit DecimalType.nines
  intro h
  split_ifs at h
  · exact absurd (List.cons.inj (List.cons.inj h).2).1 (by decide)
  · cases hn : (t.digits-scale).toNat with
    | zero =>
      rw [hn] at h
      exact absurd (List.cons.inj h).1 (by decide)
    | succ n =>
      rw [hn] at h
      exact absurd (List.cons.inj h).1 (by decide)

theorem maxValue_ne_zero (l : Leaf) : l.maxValue ≠ l.zeroOrNullValue := by
  cases l with
  | int t =>
    intro h
    have hmax : t.max = 0 := str_injective (convert_injective _ h)
    cases t <;> exact absurd hmax (by decide)
  | decimal t scale => exact fun h => limit_append_ne t scale _ _ (convert_injective _ h)
  | dateTime64 precision before228 =>
    intro h
    obtain ⟨t,ht⟩ := dateTime64_zero precision before228
    have hhead := congrArg List.head? h
    rw [maxValue,limitValue_head,ht,head_quote] at hhead
    exact absurd hhead (by decide)
  | fixedString length => exact convert_ne_quote _ _ _
  | _ => decide

/-- The texts of one leaf. -/
abbrev results (l : Leaf) : Set Text := Results fun R => (l.randValue : Rand R Text)

/-- The texts of a leaf that draws one number. -/
theorem results_randint {lo hi : ℤ} (f : ℤ → Text) :
    (Results fun R => (do
      let n ← randint lo hi
      return f n : Rand R Text)) = f '' Set.Icc lo hi := by
  rw [Results.map (Replays.randint _ _),Results.randint]

theorem int_results (t : IntType) :
    (int t).results = (fun n => (int t).convert (str n)) '' Set.Icc t.min t.max := results_randint _

theorem date_results {l : Leaf} (h : l = date ∨ l = date32 ∨ l = dateTime) :
    l.results = (fun n => l.convert (str n)) '' Set.Icc 1072549200 1672549200 := by
  rcases h with rfl | rfl | rfl
  · exact results_randint _
  · exact results_randint _
  · exact results_randint _

theorem dateTime64_results (precision : ℤ) (before228 : Bool) :
    (dateTime64 precision before228).results =
      (fun n => call "toDateTime64".toList (str n ++ ",".toList ++ str precision)) ''
        Set.Icc 1072549200 1672549200 := results_randint _

theorem empty_mem_randString {t : Text} {most : ℤ} (ht : t ≠ []) (hmost : 0 ≤ most) :
    quote [] ∈ Results fun R => (randString (quote t) most : Rand R Text) := by
  rw [randString_results ht hmost]
  exact Set.mem_insert _ _

theorem boolean_results : boolean.results = {"false".toList,"true".toList} := by
  have hrange : Set.Icc (0 : ℤ) 1 = {0,1} := by
    ext n
    rw [Set.mem_Icc,Set.mem_insert_iff,Set.mem_singleton_iff]
    omega
  refine (results_randint fun n => if n ≠ 0 then "true".toList else "false".toList).trans ?_
  rw [hrange,Set.image_pair]
  rfl

/-- Every random string is in quotes. -/
theorem randString_quoted {max : Text} {most : ℤ} {t : Text}
    (h : t ∈ Results fun R => (randString max most : Rand R Text)) : ∃ u, t = quote u := by
  obtain ⟨i,-,c,-,n,-,rfl⟩ := (mem_randString _ _ t).1 h
  exact ⟨_,rfl⟩

/-- A date is drawn as a number, and the fixed texts have one in quotes. -/
theorem date_not_mem {l : Leaf} {lo hi : ℤ} (t : Text) :
    l.convert (quote t) ∉ (fun n => l.convert (str n)) '' Set.Icc lo hi := by
  rintro ⟨n,-,h⟩
  exact str_ne_quote n t (convert_injective l h)

theorem quote_not_mem_dates {l : Leaf} {lo hi : ℤ} (t : Text) :
    quote t ∉ (fun n => l.convert (str n)) '' Set.Icc lo hi := by
  rintro ⟨n,-,h⟩
  exact convert_ne_quote l _ t h

theorem limit_mem_results_iff {l : Leaf} (hbounded : l.bounded = true) {limit : Text}
    (hlimit : limit = l.max ∨ limit = l.min) :
    l.limitValue limit ∈ l.results ↔ l.isInt = true := by
  cases l with
  | int t =>
    refine iff_of_true ?_ rfl
    have hle : t.min ≤ t.max := by cases t <;> decide
    rw [int_results]
    rcases hlimit with rfl | rfl
    · exact ⟨t.max,⟨hle,le_rfl⟩,rfl⟩
    · exact ⟨t.min,⟨le_rfl,hle⟩,rfl⟩
  | float32 => exact absurd hbounded Bool.false_ne_true
  | float64 => exact absurd hbounded Bool.false_ne_true
  | decimal t scale => exact absurd hbounded Bool.false_ne_true
  | dateTime64 precision before228 =>
    refine iff_of_false (fun h => ?_) Bool.false_ne_true
    obtain ⟨t,ht⟩ : ∃ t, limit = quote t := by
      obtain ⟨hmax,hmin⟩ := dateTime64_limits precision before228
      rcases hlimit with rfl | rfl
      · exact hmax
      · exact hmin
    rw [dateTime64_results] at h
    obtain ⟨n,-,hn⟩ := h
    have hstr : str n = limit :=
      List.append_cancel_right (List.append_cancel_right (call_injective _ hn))
    exact str_ne_quote n t (hstr.trans ht)
  | string =>
    refine iff_of_false (fun h => ?_) Bool.false_ne_true
    obtain ⟨u,hu⟩ := randString_quoted h
    exact convert_ne_quote _ _ _ hu
  | fixedString length =>
    refine iff_of_false (fun h => ?_) Bool.false_ne_true
    obtain ⟨u,hu⟩ := randString_quoted h
    exact convert_ne_quote _ _ _ hu
  | uuid =>
    refine iff_of_false (fun h => ?_) Bool.false_ne_true
    rw [results,randValue_uuid_results] at h
    obtain ⟨p,-,hp⟩ := h
    exact convert_ne_quote _ _ _ hp.symm
  | boolean =>
    refine iff_of_false (fun h => ?_) Bool.false_ne_true
    rw [boolean_results] at h
    rcases hlimit with rfl | rfl
    · rcases h with h | h <;> exact absurd h (by decide)
    · rcases h with h | h <;> exact absurd h (by decide)
  | _ =>
    refine iff_of_false (fun h => ?_) Bool.false_ne_true
    rw [date_results (by simp)] at h
    rcases hlimit with rfl | rfl
    · exact date_not_mem _ h
    · exact date_not_mem _ h

theorem zero_mem_results_iff {l : Leaf} (hbounded : l.bounded = true) :
    l.zeroOrNullValue ∈ l.results ↔ l.drawsZero = true := by
  cases l with
  | int t =>
    refine iff_of_true ?_ rfl
    rw [int_results]
    exact ⟨0,by cases t <;> decide,rfl⟩
  | float32 => exact absurd hbounded Bool.false_ne_true
  | float64 => exact absurd hbounded Bool.false_ne_true
  | decimal t scale => exact absurd hbounded Bool.false_ne_true
  | dateTime64 precision before228 =>
    refine iff_of_false (fun h => ?_) Bool.false_ne_true
    obtain ⟨t,ht⟩ := dateTime64_zero precision before228
    rw [dateTime64_results,ht] at h
    obtain ⟨n,-,hn⟩ := h
    have hhead := congrArg List.head? hn
    exact absurd hhead (by simp [call,quote])
  | string =>
    exact iff_of_true (empty_mem_randString (by decide +kernel) (by decide)) rfl
  | fixedString length =>
    have hdraws : (fixedString length).drawsZero = true ↔ 1 ≤ length := decide_eq_true_iff
    rw [hdraws]
    constructor
    · intro h
      have hcount := (fixedString length).randValue_encard
      by_contra hneg
      rw [randCount,if_neg hneg,Set.encard_eq_zero] at hcount
      rw [results,hcount] at h
      exact Set.notMem_empty _ h
    · intro hpos
      exact empty_mem_randString (fixedLetters_ne_nil hpos) (by omega)
  | uuid =>
    refine iff_of_true ?_ rfl
    rw [results,randValue_uuid_results]
    exact ⟨(0,0,0,0,0),by simp [uuidFields,fields],by rfl⟩
  | boolean =>
    refine iff_of_true ?_ rfl
    rw [boolean_results]
    exact Set.mem_insert _ _
  | _ =>
    refine iff_of_false (fun h => ?_) Bool.false_ne_true
    rw [date_results (by simp)] at h
    exact quote_not_mem_dates _ h

end Leaf

namespace DataType

mutual
/-- Every leaf of the type has the property, and with `nullableHas` false there is no `Nullable`. -/
def everywhere (leafHas : Leaf → Bool) (nullableHas : Bool) : DataType → Bool
  | leaf l => leafHas l
  | nullable d => nullableHas && d.everywhere leafHas nullableHas
  | lowCardinality d => d.everywhere leafHas nullableHas
  | tuple ds => allEverywhere leafHas nullableHas ds
  | map key value => key.everywhere leafHas nullableHas && value.everywhere leafHas nullableHas
  | array d => d.everywhere leafHas nullableHas

def allEverywhere (leafHas : Leaf → Bool) (nullableHas : Bool) : List DataType → Bool
  | [] => true
  | d :: ds => d.everywhere leafHas nullableHas && allEverywhere leafHas nullableHas ds
end

mutual
theorem everywhere_mono {p p' : Leaf → Bool} {q q' : Bool} (hp : ∀ l, p l = true → p' l = true)
    (hq : q = true → q' = true) : ∀ d : DataType, d.everywhere p q = true → d.everywhere p' q' = true
  | leaf l => hp l
  | nullable d => by
    rw [everywhere,everywhere,Bool.and_eq_true,Bool.and_eq_true]
    exact fun h => ⟨hq h.1,everywhere_mono hp hq d h.2⟩
  | lowCardinality d => everywhere_mono hp hq d
  | tuple ds => allEverywhere_mono hp hq ds
  | map key value => by
    rw [everywhere,everywhere,Bool.and_eq_true,Bool.and_eq_true]
    exact fun h => ⟨everywhere_mono hp hq key h.1,everywhere_mono hp hq value h.2⟩
  | array d => everywhere_mono hp hq d

theorem allEverywhere_mono {p p' : Leaf → Bool} {q q' : Bool} (hp : ∀ l, p l = true → p' l = true)
    (hq : q = true → q' = true) :
    ∀ ds : List DataType, allEverywhere p q ds = true → allEverywhere p' q' ds = true
  | [] => id
  | d :: ds => by
    rw [allEverywhere,allEverywhere,Bool.and_eq_true,Bool.and_eq_true]
    exact fun h => ⟨everywhere_mono hp hq d h.1,allEverywhere_mono hp hq ds h.2⟩
end

theorem renderAll_length (f : Leaf → Text) (n : Text → Text) (ds : List DataType) :
    (renderAll f n ds).length = ds.length := by
  induction ds with
  | nil => rfl
  | cons d ds ih =>
    rw [renderAll]
    exact congrArg (·+1) ih

theorem join_pair (a b : Text) : join [a,b] = a ++ ",".toList ++ b := by
  rw [join,List.intercalate_cons_cons,List.intercalate_singleton]
  rfl

/-- A way to render leaves and what is `Nullable` that gives whole texts. -/
structure Renders (f : Leaf → Text) (n : Text → Text) : Prop where
  leaf : ∀ l, Whole (f l)
  null : ∀ t, Whole t → Whole (n t)

theorem Renders.whole {f : Leaf → Text} {n : Text → Text} (h : Renders f n) (d : DataType) :
    Whole (d.render f n) := render_whole h.leaf h.null d

/-- Two ways to render agree on the leaves that have `p`, and on what is `Nullable` if `q`. -/
structure SameWhere (f : Leaf → Text) (n : Text → Text) (g : Leaf → Text) (m : Text → Text)
    (p : Leaf → Bool) (q : Bool) : Prop where
  left : Renders f n
  right : Renders g m
  leaf : ∀ l, f l = g l ↔ p l = true
  null : ∀ d : DataType, n (d.render f n) = m (d.render g m) ↔
    q = true ∧ d.render f n = d.render g m

/-- What is rendered can be drawn at the leaves that have `p`, and under a `Nullable` if `q`. -/
structure DrawnWhere (f : Leaf → Text) (n : Text → Text) (p : Leaf → Bool) (q : Bool) : Prop where
  renders : Renders f n
  leaf : ∀ l : Leaf, l.bounded = true → (f l ∈ l.results ↔ p l = true)
  null : ∀ d : DataType, n (d.render f n) ∈ d.randTexts ↔ q = true ∧ d.render f n ∈ d.randTexts

mutual
/-- Two rendered texts are the same if they are the same at every leaf. -/
theorem render_eq_render_iff {f g : Leaf → Text} {n m : Text → Text} {p : Leaf → Bool} {q : Bool}
    (h : SameWhere f n g m p q) :
    ∀ d : DataType, d.render f n = d.render g m ↔ d.everywhere p q = true
  | leaf l => h.leaf l
  | nullable d => by
    rw [everywhere,Bool.and_eq_true,← render_eq_render_iff h d]
    exact h.null d
  | lowCardinality d => render_eq_render_iff h d
  | tuple ds => by
    rw [everywhere,← renderAll_eq_renderAll_iff h ds,render,render]
    constructor
    · intro heq
      exact join_inj ((renderAll_length f n ds).trans (renderAll_length g m ds).symm)
        (renderAll_whole h.left.leaf h.left.null ds) (renderAll_whole h.right.leaf h.right.null ds)
        (call_injective _ heq)
    · intro heq
      rw [heq]
  | map key value => by
    rw [everywhere,Bool.and_eq_true,← render_eq_render_iff h key,← render_eq_render_iff h value,
      render,render,← join_pair,← join_pair]
    constructor
    · intro heq
      exact join_pair_inj (h.left.whole key) (h.left.whole value) (h.right.whole key)
        (h.right.whole value) (call_injective _ heq)
    · rintro ⟨hkey,hvalue⟩
      rw [hkey,hvalue]
  | array d => by
    rw [everywhere,← render_eq_render_iff h d,render,render]
    exact brackets_injective.eq_iff

theorem renderAll_eq_renderAll_iff {f g : Leaf → Text} {n m : Text → Text} {p : Leaf → Bool}
    {q : Bool} (h : SameWhere f n g m p q) :
    ∀ ds : List DataType, renderAll f n ds = renderAll g m ds ↔ allEverywhere p q ds = true
  | [] => iff_of_true rfl rfl
  | d :: ds => by
    rw [allEverywhere,Bool.and_eq_true,← render_eq_render_iff h d,
      ← renderAll_eq_renderAll_iff h ds,renderAll,renderAll,List.cons.injEq]
end

mutual
/-- A rendered text can be drawn if it can be drawn at every leaf. -/
theorem render_mem_randTexts_iff {f : Leaf → Text} {n : Text → Text} {p : Leaf → Bool} {q : Bool}
    (hf : DrawnWhere f n p q) : ∀ d : DataType, d.everywhere Leaf.bounded true = true →
      (d.render f n ∈ d.randTexts ↔ d.everywhere p q = true)
  | leaf l => by
    intro h
    rw [randTexts_leaf]
    exact hf.leaf l h
  | nullable d => by
    intro h
    rw [everywhere,Bool.true_and] at h
    rw [everywhere,Bool.and_eq_true,← render_mem_randTexts_iff hf d h,randTexts_nullable]
    exact hf.null d
  | lowCardinality d => by
    intro h
    rw [randTexts_lowCardinality]
    exact render_mem_randTexts_iff hf d h
  | tuple ds => by
    intro h
    rw [everywhere,← renderAll_mem_drawn_iff hf ds h,randTexts_tuple,render]
    constructor
    · rintro ⟨items,hitems,heq⟩
      have hsame := join_inj ((drawn_length hitems).trans (renderAll_length f n ds).symm)
        (drawn_whole hitems) (renderAll_whole hf.renders.leaf hf.renders.null ds)
        (call_injective _ heq)
      rwa [← hsame]
    · intro hmem
      exact ⟨_,hmem,rfl⟩
  | map key value => by
    intro h
    rw [everywhere,Bool.and_eq_true] at h
    rw [everywhere,Bool.and_eq_true,← render_mem_randTexts_iff hf key h.1,
      ← render_mem_randTexts_iff hf value h.2,randTexts_map,render,← join_pair]
    constructor
    · rintro ⟨⟨k,v⟩,⟨hk,hv⟩,heq⟩
      obtain ⟨hkey,hvalue⟩ := join_pair_inj (randTexts_whole hk) (randTexts_whole hv)
        (hf.renders.whole key) (hf.renders.whole value) (call_injective _ heq)
      rw [← hkey,← hvalue]
      exact ⟨hk,hv⟩
    · rintro ⟨hk,hv⟩
      exact ⟨(_,_),⟨hk,hv⟩,rfl⟩
  | array d => by
    intro h
    rw [everywhere,← render_mem_randTexts_iff hf d h,randTexts_array,render]
    exact brackets_injective.mem_set_image

theorem renderAll_mem_drawn_iff {f : Leaf → Text} {n : Text → Text} {p : Leaf → Bool} {q : Bool}
    (hf : DrawnWhere f n p q) : ∀ ds : List DataType, allEverywhere Leaf.bounded true ds = true →
      (renderAll f n ds ∈ drawn ds ↔ allEverywhere p q ds = true)
  | [] => by
    intro _
    rw [drawn_nil]
    exact iff_of_true rfl rfl
  | d :: ds => by
    intro h
    rw [allEverywhere,Bool.and_eq_true] at h
    rw [allEverywhere,Bool.and_eq_true,← render_mem_randTexts_iff hf d h.1,
      ← renderAll_mem_drawn_iff hf ds h.2,drawn_cons,renderAll]
    constructor
    · rintro ⟨⟨t,ts⟩,⟨ht,hts⟩,heq⟩
      obtain ⟨rfl,rfl⟩ := List.cons.inj heq
      exact ⟨ht,hts⟩
    · rintro ⟨ht,hts⟩
      exact ⟨(_,_),⟨ht,hts⟩,rfl⟩
end

theorem renders_limits {f : Leaf → Text} (hf : ∀ l, Whole (f l)) : Renders f id := ⟨hf,fun _ h => h⟩

theorem renders_zero : Renders Leaf.zeroOrNullValue fun _ => "Null".toList :=
  ⟨Leaf.zeroOrNullValue_whole,fun _ _ => literal_whole rfl⟩

theorem renders_max : Renders Leaf.maxValue id := renders_limits fun l => l.limitValue_whole l.max_whole

theorem renders_min : Renders Leaf.minValue id := renders_limits fun l => l.limitValue_whole l.min_whole

/-- No limit is the text of a missing value. -/
theorem render_limit_head {f : Leaf → Text} (hf : ∀ l, (f l).head? = some 't') :
    ∀ d : DataType, (d.render f id).head? ≠ some 'N'
  | leaf l => by
    rw [render,hf l]
    decide
  | nullable d => render_limit_head hf d
  | lowCardinality d => render_limit_head hf d
  | tuple ds => by
    rw [render]
    exact fun h => absurd h (by simp [call])
  | map key value => by
    rw [render]
    exact fun h => absurd h (by simp [call])
  | array d => by
    rw [render]
    exact fun h => absurd h (by simp)

theorem results_head {l : Leaf} {t : Text} (h : t ∈ l.results) : t.head? ≠ some 'N' := by
  have hconvert : ∀ {lo hi : ℤ} {f : ℤ → Text}, (∀ n, (f n).head? = some 't') →
      t ∈ f '' Set.Icc lo hi → t.head? ≠ some 'N' := by
    rintro lo hi f hf ⟨n,-,rfl⟩
    rw [hf n]
    decide
  have hquoted : (∃ u, t = quote u) → t.head? ≠ some 'N' := by
    rintro ⟨u,rfl⟩
    rw [head_quote]
    decide
  have hfloat : ∀ a, t = l.convert a → t.head? ≠ some 'N' := by
    rintro a rfl
    rw [head_convert]
    decide
  cases l with
  | int t => exact hconvert (fun n => rfl) (Leaf.int_results t ▸ h)
  | float32 =>
    change t ∈ Results fun R => (uniform _ _ >>= fun x => pure (Leaf.float32.convert x) : Rand R Text) at h
    rw [Results.map (Replays.uniform _ _)] at h
    obtain ⟨x,-,rfl⟩ := h
    exact hfloat x rfl
  | float64 =>
    change t ∈ Results fun R => (uniform _ _ >>= fun x => (do
      let n ← randint 0 308
      return Leaf.float64.convert (x ++ "e".toList ++ str n)) : Rand R Text) at h
    rw [Results.bind (Replays.uniform _ _) fun x => (Replays.randint _ _).bind fun _ => .pure _] at h
    obtain ⟨x,-,hx⟩ := h
    rw [Results.map (Replays.randint _ _)] at hx
    obtain ⟨n,-,rfl⟩ := hx
    exact hfloat _ rfl
  | decimal d scale =>
    change t ∈ Results fun R => (uniform _ _ >>= fun x =>
      pure ((Leaf.decimal d scale).convert (x ++ ",".toList ++ str scale)) : Rand R Text) at h
    rw [Results.map (Replays.uniform _ _)] at h
    obtain ⟨x,-,rfl⟩ := h
    exact hfloat _ rfl
  | dateTime64 precision before228 =>
    exact hconvert (fun n => rfl) (Leaf.dateTime64_results precision before228 ▸ h)
  | string => exact hquoted (Leaf.randString_quoted h)
  | fixedString length => exact hquoted (Leaf.randString_quoted h)
  | boolean =>
    rw [Leaf.boolean_results] at h
    rcases h with rfl | rfl
    · decide
    · decide
  | uuid =>
    rw [Leaf.results,randValue_uuid_results] at h
    obtain ⟨p,-,rfl⟩ := h
    exact hquoted ⟨_,rfl⟩
  | date => exact hconvert (fun n => rfl) (Leaf.date_results (.inl rfl) ▸ h)
  | date32 => exact hconvert (fun n => rfl) (Leaf.date_results (.inr (.inl rfl)) ▸ h)
  | dateTime => exact hconvert (fun n => rfl) (Leaf.date_results (.inr (.inr rfl)) ▸ h)

theorem randTexts_head {t : Text} : ∀ d : DataType, t ∈ d.randTexts → t.head? ≠ some 'N'
  | leaf l => by
    rw [randTexts_leaf]
    exact results_head
  | nullable d => by
    rw [randTexts_nullable]
    exact randTexts_head d
  | lowCardinality d => by
    rw [randTexts_lowCardinality]
    exact randTexts_head d
  | tuple ds => by
    rw [randTexts_tuple]
    rintro ⟨items,-,rfl⟩
    simp [call]
  | map key value => by
    rw [randTexts_map]
    rintro ⟨p,-,rfl⟩
    simp [call]
  | array d => by
    rw [randTexts_array]
    rintro ⟨u,-,rfl⟩
    simp

theorem max_same_min : SameWhere Leaf.maxValue id Leaf.minValue id Leaf.maxIsMin true :=
  ⟨renders_max,renders_min,Leaf.maxValue_eq_minValue_iff,fun _ => (and_iff_right rfl).symm⟩

theorem limit_same_zero {f : Leaf → Text} {p : Leaf → Bool} (hf : Renders f id)
    (hhead : ∀ l, (f l).head? = some 't') (hp : ∀ l, f l = l.zeroOrNullValue ↔ p l = true) :
    SameWhere f id Leaf.zeroOrNullValue (fun _ => "Null".toList) p false := by
  refine ⟨hf,renders_zero,hp,fun d => iff_of_false (fun h => ?_) fun h => Bool.false_ne_true h.1⟩
  exact render_limit_head hhead d (congrArg List.head? h)

theorem min_same_zero : SameWhere Leaf.minValue id Leaf.zeroOrNullValue (fun _ => "Null".toList)
    Leaf.minIsZero false :=
  limit_same_zero renders_min (fun l => l.limitValue_head _) Leaf.minValue_eq_zero_iff

theorem max_same_zero : SameWhere Leaf.maxValue id Leaf.zeroOrNullValue (fun _ => "Null".toList)
    (fun _ => false) false :=
  limit_same_zero renders_max (fun l => l.limitValue_head _)
    fun l => iff_of_false l.maxValue_ne_zero Bool.false_ne_true

theorem max_drawn : DrawnWhere Leaf.maxValue id Leaf.isInt true :=
  ⟨renders_max,fun _ h => Leaf.limit_mem_results_iff h (.inl rfl),fun _ => (and_iff_right rfl).symm⟩

theorem min_drawn : DrawnWhere Leaf.minValue id Leaf.isInt true :=
  ⟨renders_min,fun _ h => Leaf.limit_mem_results_iff h (.inr rfl),fun _ => (and_iff_right rfl).symm⟩

theorem zero_drawn : DrawnWhere Leaf.zeroOrNullValue (fun _ => "Null".toList) Leaf.drawsZero false :=
  ⟨renders_zero,fun _ h => Leaf.zero_mem_results_iff h,fun d =>
    iff_of_false (fun h => randTexts_head d h rfl) fun h => Bool.false_ne_true h.1⟩

/-- `max_value` and `min_value` are the same text. -/
def maxIsMin (d : DataType) : Bool := d.everywhere Leaf.maxIsMin true

/-- `min_value` and `zero_or_null_value` are the same text. -/
def minIsZero (d : DataType) : Bool := d.everywhere Leaf.minIsZero false

/-- `rand_value` can return `max_value` and `min_value`. -/
def drawsLimits (d : DataType) : Bool := d.everywhere Leaf.isInt true

/-- `rand_value` can return `zero_or_null_value`. -/
def drawsZero (d : DataType) : Bool := d.everywhere Leaf.drawsZero false

theorem maxValue_eq_minValue_iff (d : DataType) : d.maxValue = d.minValue ↔ d.maxIsMin = true :=
  render_eq_render_iff max_same_min d

theorem minValue_eq_zero_iff (d : DataType) : d.minValue = d.zeroOrNullValue ↔ d.minIsZero = true :=
  render_eq_render_iff min_same_zero d

theorem maxValue_eq_zero_iff (d : DataType) :
    d.maxValue = d.zeroOrNullValue ↔ d.maxIsMin = true ∧ d.minIsZero = true := by
  constructor
  · intro h
    have hnone := (render_eq_render_iff max_same_zero d).1 h
    have hany : ∀ p : Leaf → Bool, ∀ l, (fun _ : Leaf => false) l = true → p l = true :=
      fun p l h => absurd h Bool.false_ne_true
    exact ⟨everywhere_mono (hany _) (fun h => absurd h Bool.false_ne_true) d hnone,
      everywhere_mono (hany _) id d hnone⟩
  · rintro ⟨hmax,hmin⟩
    exact ((maxValue_eq_minValue_iff d).2 hmax).trans ((minValue_eq_zero_iff d).2 hmin)

/-- The first three values. -/
def boundaryTexts (d : DataType) : List Text := [d.maxValue,d.minValue,d.zeroOrNullValue]

/-- How many of the first `rowCount` fixed texts are distinct. -/
def boundaryCount (d : DataType) (rowCount : ℕ) : ℕ :=
  min rowCount 1 + (if 2 ≤ rowCount ∧ d.maxIsMin = false then 1 else 0) +
    if 3 ≤ rowCount ∧ d.minIsZero = false then 1 else 0

/-- How many of the fixed texts `rand_value` can return. -/
def drawnCount (d : DataType) : ℕ :=
  if d.drawsLimits then d.boundaryCount (if d.drawsZero then 3 else 2)
  else if d.drawsZero then 1 else 0

/-- How many texts other than the fixed ones `rand_value` can return. -/
def othersCount (d : DataType) : ℕ∞ := d.randCount-d.drawnCount

theorem card_insert_of_iff {a : Text} {F : Finset Text} {p : Bool} (h : a ∈ F ↔ p = true) :
    (insert a F).card = F.card + if p = false then 1 else 0 := by
  by_cases hp : p = true
  · rw [Finset.insert_eq_of_mem (h.2 hp),hp]
    rfl
  · rw [Finset.card_insert_of_notMem fun ha => hp (h.1 ha),if_pos (Bool.not_eq_true p ▸ hp)]

theorem card_pair (d : DataType) :
    ({d.maxValue,d.minValue} : Finset Text).card = d.boundaryCount 2 := by
  have hmax : d.maxValue ∈ ({d.minValue} : Finset Text) ↔ d.maxIsMin = true :=
    Finset.mem_singleton.trans (maxValue_eq_minValue_iff d)
  rw [card_insert_of_iff hmax,Finset.card_singleton,boundaryCount]
  simp

theorem card_triple (d : DataType) :
    ({d.maxValue,d.minValue,d.zeroOrNullValue} : Finset Text).card = d.boundaryCount 3 := by
  have hmax : d.maxValue ∈ ({d.minValue,d.zeroOrNullValue} : Finset Text) ↔ d.maxIsMin = true := by
    rw [Finset.mem_insert,Finset.mem_singleton,maxValue_eq_minValue_iff,maxValue_eq_zero_iff]
    exact ⟨fun h => h.elim id And.left,.inl⟩
  have hmin : d.minValue ∈ ({d.zeroOrNullValue} : Finset Text) ↔ d.minIsZero = true :=
    Finset.mem_singleton.trans (minValue_eq_zero_iff d)
  rw [card_insert_of_iff hmax,card_insert_of_iff hmin,Finset.card_singleton,boundaryCount]
  simp only [le_refl,true_and,Nat.reduceLeDiff]
  omega

theorem boundaryTexts_take_card (d : DataType) (n : ℕ) :
    (d.boundaryTexts.take n).toFinset.card = d.boundaryCount n := by
  match n with
  | 0 => rfl
  | 1 => rfl
  | 2 =>
    rw [← d.card_pair]
    simp [boundaryTexts]
  | n+3 =>
    have hmany : d.boundaryCount (n+3) = d.boundaryCount 3 := by
      rw [boundaryCount,boundaryCount]
      simp
    rw [hmany,← d.card_triple]
    simp [boundaryTexts]

/-- The fixed texts among those that `rand_value` can return. -/
theorem drawn_boundary_encard {d : DataType} (h : d.everywhere Leaf.bounded true = true) :
    (d.randTexts ∩ ↑d.boundaryTexts.toFinset).encard = d.drawnCount := by
  have hmax : d.maxValue ∈ d.randTexts ↔ d.drawsLimits = true := render_mem_randTexts_iff max_drawn d h
  have hmin : d.minValue ∈ d.randTexts ↔ d.drawsLimits = true := render_mem_randTexts_iff min_drawn d h
  have hzero : d.zeroOrNullValue ∈ d.randTexts ↔ d.drawsZero = true :=
    render_mem_randTexts_iff zero_drawn d h
  have hboundary : (↑d.boundaryTexts.toFinset : Set Text) =
      {d.maxValue,d.minValue,d.zeroOrNullValue} := by
    ext t
    simp [boundaryTexts]
  have hcount : ∀ F : Finset Text, d.randTexts ∩ {d.maxValue,d.minValue,d.zeroOrNullValue} = ↑F →
      F.card = d.drawnCount →
      (d.randTexts ∩ ↑d.boundaryTexts.toFinset).encard = d.drawnCount := by
    intro F hF hcard
    rw [hboundary,hF,Set.encard_coe_eq_coe_finsetCard,hcard]
  rw [drawnCount] at hcount ⊢
  by_cases hlimits : d.drawsLimits = true
  · rw [if_pos hlimits] at hcount ⊢
    have hmax' := hmax.2 hlimits
    have hmin' := hmin.2 hlimits
    by_cases hz : d.drawsZero = true
    · rw [if_pos hz] at hcount ⊢
      refine hcount {d.maxValue,d.minValue,d.zeroOrNullValue} ?_ d.card_triple
      rw [Set.inter_insert_of_mem hmax',Set.inter_insert_of_mem hmin',
        Set.inter_singleton_of_mem (hzero.2 hz)]
      simp
    · rw [if_neg hz] at hcount ⊢
      refine hcount {d.maxValue,d.minValue} ?_ d.card_pair
      rw [Set.inter_insert_of_mem hmax',Set.inter_insert_of_mem hmin',
        Set.inter_singleton_of_notMem fun h => hz (hzero.1 h)]
      simp
  · rw [if_neg hlimits] at hcount ⊢
    have hmax' : d.maxValue ∉ d.randTexts := fun h => hlimits (hmax.1 h)
    have hmin' : d.minValue ∉ d.randTexts := fun h => hlimits (hmin.1 h)
    by_cases hz : d.drawsZero = true
    · rw [if_pos hz] at hcount ⊢
      refine hcount {d.zeroOrNullValue} ?_ (Finset.card_singleton _)
      rw [Set.inter_insert_of_notMem hmax',Set.inter_insert_of_notMem hmin',
        Set.inter_singleton_of_mem (hzero.2 hz)]
      simp
    · rw [if_neg hz] at hcount ⊢
      refine hcount ∅ ?_ Finset.card_empty
      rw [Set.inter_insert_of_notMem hmax',Set.inter_insert_of_notMem hmin',
        Set.inter_singleton_of_notMem fun h => hz (hzero.1 h)]
      simp

theorem Leaf.bounded_of_randCount {l : Leaf} (h : l.randCount ≠ ⊤) : l.bounded = true := by
  cases l with
  | float32 => exact absurd rfl h
  | float64 => exact absurd rfl h
  | decimal t scale => exact absurd rfl h
  | _ => rfl

theorem Leaf.randCount_eq_zero_iff (l : Leaf) :
    l.randCount = 0 ↔ (leaf l).fixedStringsPositive = false := by
  cases l with
  | int t => exact iff_of_false (by cases t <;> decide) Bool.true_eq_false.mp
  | fixedString length =>
    have hpositive : (leaf (.fixedString length)).fixedStringsPositive = decide (1 ≤ length) := by
      rw [fixedStringsPositive]
    rw [hpositive,decide_eq_false_iff_not,Leaf.randCount]
    split_ifs with h
    · exact iff_of_false (by norm_cast) (not_not_intro h)
    · exact iff_of_true rfl h
  | _ => exact iff_of_false (by simp [Leaf.randCount]) (by simp [fixedStringsPositive])

mutual
/-- `rand_value` always raises if a `FixedString` has no character. -/
theorem randCount_eq_zero_iff : ∀ d : DataType, d.randCount = 0 ↔ d.fixedStringsPositive = false
  | leaf l => Leaf.randCount_eq_zero_iff l
  | nullable d => by
    rw [randCount,fixedStringsPositive]
    exact randCount_eq_zero_iff d
  | lowCardinality d => by
    rw [randCount,fixedStringsPositive]
    exact randCount_eq_zero_iff d
  | tuple ds => by
    rw [randCount,fixedStringsPositive]
    exact randCounts_eq_zero_iff ds
  | map key value => by
    rw [randCount,fixedStringsPositive,mul_eq_zero,Bool.and_eq_false_iff,randCount_eq_zero_iff key,
      randCount_eq_zero_iff value]
  | array d => by
    rw [randCount,fixedStringsPositive]
    exact randCount_eq_zero_iff d

theorem randCounts_eq_zero_iff :
    ∀ ds : List DataType, randCounts ds = 0 ↔ allFixedStringsPositive ds = false
  | [] => iff_of_false one_ne_zero (by simp [allFixedStringsPositive])
  | d :: ds => by
    rw [randCounts,allFixedStringsPositive,mul_eq_zero,Bool.and_eq_false_iff,
      randCount_eq_zero_iff d,randCounts_eq_zero_iff ds]
end

mutual
/-- A type that has some texts, but not any number of them, has no float. -/
theorem bounded_of_randCount : ∀ d : DataType, d.randCount ≠ 0 → d.randCount ≠ ⊤ →
    d.everywhere Leaf.bounded true = true
  | leaf l => fun _ h => Leaf.bounded_of_randCount h
  | nullable d => by
    rw [everywhere,randCount,Bool.true_and]
    exact bounded_of_randCount d
  | lowCardinality d => bounded_of_randCount d
  | tuple ds => bounded_of_randCounts ds
  | map key value => by
    rw [everywhere,randCount,Bool.and_eq_true]
    intro h0 htop
    obtain ⟨hkey,hvalue⟩ := mul_ne_zero_iff.1 h0
    refine ⟨bounded_of_randCount key hkey fun h => htop ?_,
      bounded_of_randCount value hvalue fun h => htop ?_⟩
    · rw [h,ENat.top_mul hvalue]
    · rw [h,ENat.mul_top hkey]
  | array d => bounded_of_randCount d

theorem bounded_of_randCounts : ∀ ds : List DataType, randCounts ds ≠ 0 → randCounts ds ≠ ⊤ →
    allEverywhere Leaf.bounded true ds = true
  | [] => fun _ _ => rfl
  | d :: ds => by
    rw [allEverywhere,randCounts,Bool.and_eq_true]
    intro h0 htop
    obtain ⟨hd,hds⟩ := mul_ne_zero_iff.1 h0
    refine ⟨bounded_of_randCount d hd fun h => htop ?_,
      bounded_of_randCounts ds hds fun h => htop ?_⟩
    · rw [h,ENat.top_mul hds]
    · rw [h,ENat.mul_top hd]
end

theorem others_encard (d : DataType) :
    (d.randTexts \ ↑d.boundaryTexts.toFinset).encard = d.othersCount := by
  have hsplit := Set.encard_sdiff_add_encard_inter d.randTexts ↑d.boundaryTexts.toFinset
  rw [othersCount]
  by_cases hzero : d.randCount = 0
  · rw [hzero,zero_tsub]
    rw [d.randTexts_encard,hzero] at hsplit
    exact (add_eq_zero.1 hsplit).1
  by_cases htop : d.randCount = ⊤
  · rw [htop,ENat.top_sub_natCast]
    rw [d.randTexts_encard,htop] at hsplit
    refine (WithTop.add_eq_top.1 hsplit).resolve_right ?_
    exact Set.encard_ne_top_iff.2 ((Finset.finite_toSet _).inter_of_right _)
  · have hdrawn := drawn_boundary_encard (bounded_of_randCount d hzero htop)
    rw [hdrawn,d.randTexts_encard] at hsplit
    rw [← hsplit]
    exact (ENat.addLECancellable_natCast _).add_tsub_cancel_right.symm

end DataType

end ClickHouseRegression.Helpers
