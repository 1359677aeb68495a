import ClickHouseRegression.Helpers.DataTypes

/-! The texts of all datatype values are whole: balanced in brackets and quotes and without a
top-level comma. -/
namespace ClickHouseRegression.Helpers
open Sql Fallible

theorem plainChar_of_alphanum {c : Char} (h : c.isAlphanum = true) : plainChar c = true := by
  have hne : ∀ d : Char, d.isAlphanum = false → c ≠ d := by
    rintro d hd rfl
    rw [h] at hd
    exact Bool.noConfusion hd
  simp only [plainChar,Bool.and_eq_true,decide_eq_true_eq]
  exact ⟨⟨⟨⟨⟨hne _ (by decide),hne _ (by decide)⟩,hne _ (by decide)⟩,hne _ (by decide)⟩,
    hne _ (by decide)⟩,hne _ (by decide)⟩

theorem number_whole {t : Text}
    (h : ∀ c ∈ t, c.isAlphanum = true ∨ c = '.' ∨ c = '-' ∨ c = '+') : Whole t := by
  refine whole_plain fun c hc => ?_
  rcases h c hc with h | rfl | rfl | rfl
  · exact plainChar_of_alphanum h
  · decide
  · decide
  · decide

theorem literal_whole {t : Text} (h : t.all plainChar = true) : Whole t :=
  whole_plain (List.all_eq_true.1 h)

theorem str_whole (n : ℤ) : Whole (str n) := by
  refine number_whole fun c hc => ?_
  rcases str_chars n hc with rfl | h
  · exact .inr (.inr (.inl rfl))
  · refine .inl ?_
    rw [Char.isAlphanum,h,Bool.or_true]

theorem call_injective (f : Text) : Function.Injective (call f) := by
  intro a b h
  have h' := List.append_cancel_left h
  exact List.append_cancel_right (List.cons.inj h').2

theorem quote_injective : Function.Injective quote := by
  intro a b h
  exact List.append_cancel_right (List.cons.inj h).2

theorem call_whole {f a : Text} (hf : Whole f) (ha : Inner a) : Whole (call f a) :=
  hf.append (whole_parens ha)

theorem quote_whole {t : Text} (h : '\'' ∉ t) : Whole (quote t) := whole_quoted h

theorem literal_quote_whole {t : Text} (h : t.all (· ≠ '\'') = true) : Whole (quote t) :=
  quote_whole fun hq => absurd rfl (of_decide_eq_true (List.all_eq_true.1 h _ hq))

/-- Two arguments of a call. -/
theorem inner_pair {a b : Text} (ha : Inner a) (hb : Inner b) : Inner (a ++ ",".toList ++ b) :=
  (ha.append inner_comma).append hb

theorem IntType.name_whole (t : IntType) : Whole t.name := by
  refine literal_whole ?_
  cases t <;> rfl

theorem DecimalType.base_whole (t : DecimalType) : Whole t.base := by
  refine literal_whole ?_
  cases t <;> rfl

theorem DecimalType.nines_chars (n : ℤ) {c : Char} (h : c ∈ nines n) : c = '9' :=
  List.eq_of_mem_replicate h

theorem DecimalType.nines_whole (n : ℤ) : Whole (nines n) := by
  refine whole_plain fun c hc => ?_
  rw [nines_chars n hc]
  decide

theorem DecimalType.limit_whole (t : DecimalType) (scale : ℤ) : Whole (t.limit scale) := by
  unfold limit
  split
  · exact (literal_whole (by rfl)).append (nines_whole _)
  · exact ((nines_whole _).append (literal_whole (by rfl))).append (nines_whole _)

theorem letters_alphanum {c : Char} (h : c ∈ letters) : c.isAlphanum = true := by
  have hall : letters.all Char.isAlphanum = true := by rfl
  exact List.all_eq_true.1 hall c h

theorem fixedLetters_alphanum (length : ℤ) {c : Char} (h : c ∈ fixedLetters length) :
    c.isAlphanum = true := by
  unfold fixedLetters takeLetters at h
  split at h
  · split at h
    · exact letters_alphanum (List.mem_of_mem_take h)
    · exact letters_alphanum (List.mem_of_mem_take h)
  · rcases List.mem_append.1 h with h | h
    · exact letters_alphanum h
    · rw [List.eq_of_mem_replicate h]
      decide

theorem quote_not_mem_fixedLetters (length : ℤ) : '\'' ∉ fixedLetters length := fun h =>
  absurd (fixedLetters_alphanum length h) (by decide)

namespace Leaf

theorem name_whole (l : Leaf) : Whole l.name := by
  cases l with
  | int t => exact t.name_whole
  | decimal t scale => exact call_whole t.base_whole (str_whole scale).inner
  | dateTime64 precision _ =>
    exact call_whole (literal_whole (by rfl)) (str_whole precision).inner
  | fixedString length =>
    exact call_whole (literal_whole (by rfl)) (str_whole length).inner
  | _ => exact literal_whole (by rfl)

theorem max_whole (l : Leaf) : Whole l.max := by
  cases l with
  | int t => exact str_whole t.max
  | decimal t scale => exact t.limit_whole scale
  | fixedString length => exact quote_whole (quote_not_mem_fixedLetters length)
  | dateTime64 precision before228 =>
    rw [Leaf.max,dateTime64Max]
    split
    · split
      · exact literal_quote_whole (by rfl)
      · exact literal_quote_whole (by rfl)
    · exact literal_quote_whole (by rfl)
  | float32 => exact literal_whole (by rfl)
  | float64 => exact literal_whole (by rfl)
  | boolean => exact literal_whole (by rfl)
  | _ => exact literal_quote_whole (by rfl)

theorem min_whole (l : Leaf) : Whole l.min := by
  cases l with
  | int t => exact str_whole t.min
  | decimal t scale => exact (literal_whole (by rfl)).append (t.limit_whole scale)
  | dateTime64 _ before228 =>
    rw [Leaf.min,dateTime64Min]
    split
    · exact literal_quote_whole (by rfl)
    · exact literal_quote_whole (by rfl)
  | float32 => exact literal_whole (by rfl)
  | float64 => exact literal_whole (by rfl)
  | boolean => exact literal_whole (by rfl)
  | _ => exact literal_quote_whole (by rfl)

theorem convert_whole (l : Leaf) {a : Text} (h : Inner a) : Whole (l.convert a) :=
  call_whole ((literal_whole (by rfl)).append l.name_whole) h

theorem limitValue_whole (l : Leaf) {limit : Text} (h : Whole limit) : Whole (l.limitValue limit) := by
  cases l with
  | decimal t scale =>
    have hsep : Inner ", ".toList := inner_comma.append (whole_char (c := ' ') (by decide)).inner
    exact convert_whole _ ((h.inner.append hsep).append (str_whole scale).inner)
  | dateTime64 precision before228 =>
    exact call_whole (literal_whole (by rfl)) (inner_pair h.inner (str_whole precision).inner)
  | fixedString length => exact convert_whole _ (inner_pair h.inner (str_whole length).inner)
  | _ => exact convert_whole _ h.inner

theorem zeroOrNullValue_whole (l : Leaf) : Whole l.zeroOrNullValue := by
  have hzero : Whole "0".toList := literal_whole (by rfl)
  cases l with
  | int t => exact convert_whole _ hzero.inner
  | float32 => exact convert_whole _ hzero.inner
  | float64 => exact convert_whole _ hzero.inner
  | decimal t scale =>
    exact convert_whole _ ((hzero.inner.append inner_comma).append (str_whole scale).inner)
  | boolean => exact literal_whole (by rfl)
  | _ =>
    rw [zeroOrNullValue]
    · exact min_whole _
    all_goals simp

end Leaf

namespace DataType

mutual
theorem render_whole {leafValue : Leaf → Text} {nullValue : Text → Text}
    (hleaf : ∀ l, Whole (leafValue l)) (hnull : ∀ t, Whole t → Whole (nullValue t)) :
    ∀ d : DataType, Whole (d.render leafValue nullValue)
  | leaf l => hleaf l
  | nullable d => hnull _ (render_whole hleaf hnull d)
  | lowCardinality d => render_whole hleaf hnull d
  | tuple ds => by
    rw [render]
    exact call_whole (literal_whole (by rfl)) (inner_join (renderAll_whole hleaf hnull ds))
  | map key value => by
    rw [render]
    exact call_whole (literal_whole (by rfl))
      (inner_pair (render_whole hleaf hnull key).inner (render_whole hleaf hnull value).inner)
  | array d => by
    rw [render]
    exact whole_brackets (render_whole hleaf hnull d).inner

theorem renderAll_whole {leafValue : Leaf → Text} {nullValue : Text → Text}
    (hleaf : ∀ l, Whole (leafValue l)) (hnull : ∀ t, Whole t → Whole (nullValue t)) :
    ∀ ds : List DataType, ∀ t ∈ renderAll leafValue nullValue ds, Whole t
  | [],t,h => by
    rw [renderAll] at h
    exact absurd h List.not_mem_nil
  | d :: ds,t,h => by
    rw [renderAll] at h
    rcases List.mem_cons.1 h with rfl | h
    · exact render_whole hleaf hnull d
    · exact renderAll_whole hleaf hnull ds t h
end

theorem maxValue_whole (d : DataType) : Whole d.maxValue :=
  render_whole (fun l => l.limitValue_whole l.max_whole) (fun _ h => h) d

theorem minValue_whole (d : DataType) : Whole d.minValue :=
  render_whole (fun l => l.limitValue_whole l.min_whole) (fun _ h => h) d

theorem zeroOrNullValue_whole (d : DataType) : Whole d.zeroOrNullValue :=
  render_whole Leaf.zeroOrNullValue_whole (fun _ _ => literal_whole (by rfl)) d

end DataType

variable {R : RandomSource}

theorem randint_yields {ok : Prop} {lo hi : ℤ} (h : ok → lo ≤ hi) :
    Yields ok (fun n => lo ≤ n ∧ n ≤ hi) (randint lo hi : Rand R ℤ) := by
  refine ⟨?_,?_⟩
  · intro s n s' hs
    unfold randint at hs
    split at hs
    case isTrue hle =>
      have hmem := R.integer_mem lo hi s hle
      rw [Option.some.inj hs] at hmem
      exact hmem
    case isFalse => exact absurd hs (by simp)
  · intro hok s
    refine ⟨(R.integer lo hi s).1,(R.integer lo hi s).2,?_⟩
    rw [randint,if_pos (h hok)]

theorem uniform_yields (ok : Prop) (lo hi : Text) : Yields ok Whole (uniform lo hi : Rand R Text) := by
  refine ⟨?_,?_⟩
  · intro s t s' hs
    have ht := R.uniform_chars lo hi s
    rw [Option.some.inj hs] at ht
    exact number_whole ht
  · intro _ s
    exact ⟨_,_,rfl⟩

/-- A position strictly between the quotes holds a character of the text. -/
theorem quote_getElem_mem {t : Text} {i : ℤ} (hi : 1 ≤ i ∧ i ≤ ((quote t).length : ℤ)-2) {c : Char}
    (h : (quote t)[i.toNat]? = some c) : c ∈ t := by
  have hlen : (quote t).length = t.length+2 := by simp [quote]
  rw [hlen] at hi
  obtain ⟨k,hk⟩ : ∃ k : ℕ, i.toNat = k+1 := ⟨i.toNat-1,by omega⟩
  have hkt : k < t.length := by omega
  rw [hk,quote,List.getElem?_cons_succ,List.getElem?_append_left hkt] at h
  exact List.mem_of_getElem? h

theorem randString_yields {ok : Prop} {t : Text} {most : ℤ} (ht : ∀ c ∈ t, c.isAlphanum = true)
    (hne : ok → t ≠ []) (hmost : ok → 0 ≤ most) :
    Yields ok Whole (randString (quote t) most : Rand R Text) := by
  have hlen : (quote t).length = t.length+2 := by simp [quote]
  refine (randint_yields ?_).bind fun i hi => ?_
  · intro hok
    have := List.length_pos_iff.2 (hne hok)
    omega
  refine (Yields.item (P := (· ∈ t)) (fun c => quote_getElem_mem hi) ?_).bind fun c hc => ?_
  · intro _
    omega
  refine (randint_yields hmost).bind fun n _ => .pure (quote_whole fun hq => ?_)
  have halpha := ht c hc
  rw [← List.eq_of_mem_replicate hq] at halpha
  exact absurd halpha (by decide)

theorem quote_not_mem_hexDigits (n : ℕ) : '\'' ∉ Nat.toDigits 16 n := by
  have hdigit : ∀ d : ℕ, '\'' ≠ d.digitChar := fun d => (Nat.digitChar_ne '\'' (by decide)).symm
  induction n using Nat.strong_induction_on with
  | _ n ih =>
    rcases Nat.lt_or_ge n 16 with hn | hn
    · rw [Nat.toDigits_of_lt_base hn,List.mem_singleton]
      exact hdigit n
    · have hlast := Nat.toDigits_append_toDigits (b := 16) (n := n/16) (d := n%16) (by decide)
        (by omega) (by omega)
      rw [Nat.div_add_mod] at hlast
      rw [← hlast,List.mem_append,not_or]
      refine ⟨ih _ (by omega),?_⟩
      rw [Nat.toDigits_of_lt_base (by omega),List.mem_singleton]
      exact hdigit _

theorem quote_not_mem_hexField (width : ℕ) (n : ℤ) : '\'' ∉ hexField width n := by
  intro h
  rcases List.mem_append.1 h with h | h
  · exact absurd (List.eq_of_mem_replicate h) (by decide)
  · exact quote_not_mem_hexDigits _ h

theorem fixedLetters_ne_nil {length : ℤ} (h : 1 ≤ length) : fixedLetters length ≠ [] := by
  have hletters : letters.length = 51 := by rfl
  intro hnil
  have hlen := congrArg List.length hnil
  unfold fixedLetters takeLetters at hlen
  split at hlen
  · rw [if_pos (by omega),List.length_take,List.length_nil] at hlen
    omega
  · rw [List.length_append,List.length_nil] at hlen
    omega

theorem Leaf.randValue_yields (l : Leaf) :
    Yields ((DataType.leaf l).fixedStringsPositive = true) Whole (l.randValue : Rand R Text) := by
  cases l with
  | int t =>
    refine (randint_yields fun _ => ?_).bind fun n _ => .pure (convert_whole _ (str_whole n).inner)
    cases t <;> decide
  | float32 => exact (uniform_yields _ _ _).bind fun x hx => .pure (convert_whole _ hx.inner)
  | float64 =>
    refine (uniform_yields _ _ _).bind fun x hx => ?_
    refine (randint_yields fun _ => by decide).bind fun n _ => .pure (convert_whole _ ?_)
    exact ((hx.append (literal_whole (by rfl))).append (str_whole n)).inner
  | decimal t scale =>
    exact (uniform_yields _ _ _).bind fun x hx =>
      .pure (convert_whole _ (inner_pair hx.inner (str_whole scale).inner))
  | dateTime64 precision before228 =>
    refine (randint_yields fun _ => by decide).bind fun n _ => .pure ?_
    exact call_whole (literal_whole (by rfl))
      (inner_pair (str_whole n).inner (str_whole precision).inner)
  | string => exact randString_yields (fun c => letters_alphanum) (fun _ => by decide +kernel) (by simp)
  | fixedString length =>
    refine randString_yields (fun c => fixedLetters_alphanum length) ?_ ?_
    · intro hpos
      exact fixedLetters_ne_nil (of_decide_eq_true hpos)
    · intro hpos
      have : 1 ≤ length := of_decide_eq_true hpos
      omega
  | boolean =>
    refine (randint_yields fun _ => by decide).bind fun n _ => .pure ?_
    split
    · exact literal_whole (by rfl)
    · exact literal_whole (by rfl)
  | uuid =>
    refine (randint_yields fun _ => by decide).bind fun a _ => ?_
    refine (randint_yields fun _ => by decide).bind fun b _ => ?_
    refine (randint_yields fun _ => by decide).bind fun c _ => ?_
    refine (randint_yields fun _ => by decide).bind fun d _ => ?_
    refine (randint_yields fun _ => by decide).bind fun e _ => .pure (quote_whole ?_)
    have hdash : '\'' ∉ "-".toList := by decide
    simp only [List.mem_append,not_or]
    exact ⟨⟨⟨⟨⟨⟨⟨⟨quote_not_mem_hexField _ a,hdash⟩,quote_not_mem_hexField _ b⟩,hdash⟩,
      quote_not_mem_hexField _ c⟩,hdash⟩,quote_not_mem_hexField _ d⟩,hdash⟩,
      quote_not_mem_hexField _ e⟩
  | _ =>
    exact (randint_yields fun _ => by decide).bind fun n _ =>
      .pure (convert_whole _ (str_whole n).inner)

namespace DataType

mutual
/-- `rand_value` gives a whole text, and raises only for an empty `FixedString`. -/
theorem randValue_yields : ∀ d : DataType,
    Yields (d.fixedStringsPositive = true) Whole (d.randValue : Rand R Text)
  | leaf l => by
    rw [randValue]
    exact l.randValue_yields
  | nullable d => by
    rw [randValue,fixedStringsPositive]
    exact randValue_yields d
  | lowCardinality d => by
    rw [randValue,fixedStringsPositive]
    exact randValue_yields d
  | tuple ds => by
    rw [randValue,fixedStringsPositive]
    exact (randValues_yields ds).bind fun items hitems =>
      .pure (call_whole (literal_whole (by rfl)) (inner_join hitems))
  | map key value => by
    rw [randValue,fixedStringsPositive,Bool.and_eq_true]
    refine ((randValue_yields key).mono And.left fun _ h => h).bind fun k hk => ?_
    refine ((randValue_yields value).mono And.right fun _ h => h).bind fun v hv => .pure ?_
    exact call_whole (literal_whole (by rfl)) (inner_pair hk.inner hv.inner)
  | array d => by
    rw [randValue,fixedStringsPositive]
    exact (randValue_yields d).bind fun v hv => .pure (whole_brackets hv.inner)

theorem randValues_yields : ∀ ds : List DataType,
    Yields (allFixedStringsPositive ds = true) (fun vs => ∀ t ∈ vs, Whole t)
      (randValues ds : Rand R (List Text))
  | [] => by
    rw [randValues]
    exact .pure (by simp)
  | d :: ds => by
    rw [randValues,allFixedStringsPositive,Bool.and_eq_true]
    refine ((randValue_yields d).mono And.left fun _ h => h).bind fun v hv => ?_
    refine ((randValues_yields ds).mono And.right fun _ h => h).bind fun vs hvs => .pure ?_
    intro t ht
    rcases List.mem_cons.1 ht with rfl | ht
    · exact hv
    · exact hvs t ht
end

end DataType

end ClickHouseRegression.Helpers
