import ClickHouseRegression.Parquet.Conversion
import ClickHouseRegression.Parquet.SqlTypes

/-! When the column that a conversion defines can hold the values of the datatype. -/
namespace ClickHouseRegression.Helpers

namespace DataType

/-- The type can hold `Null`. -/
def canHoldNull : DataType → Bool
  | nullable _ => true
  | lowCardinality d => d.canHoldNull
  | _ => false

/-- A `LowCardinality` around a type that can hold `Null`. -/
def nullInside : DataType → Bool
  | lowCardinality d => d.canHoldNull
  | _ => false

/-- Facts about a leaf pass to its wrappings. -/
theorem wrapped_induct {P : DataType → Prop} {l : Leaf} (hleaf : P (leaf l))
    (hnull : ∀ d, P d → P (nullable d)) (hlow : ∀ d, P d → P (lowCardinality d)) :
    ∀ d, d.unwrap = leaf l → P d
  | leaf l',h => by
    cases h
    exact hleaf
  | nullable d,h => hnull d (wrapped_induct hleaf hnull hlow d h)
  | lowCardinality d,h => hlow d (wrapped_induct hleaf hnull hlow d h)
  | tuple _,h => by cases h
  | map _ _,h => by cases h
  | array _,h => by cases h

variable {d : DataType} {l : Leaf}

theorem maxValue_wrapped (h : d.unwrap = leaf l) : d.maxValue = l.maxValue :=
  wrapped_induct (P := fun d => d.maxValue = l.maxValue) rfl (fun _ ih => ih) (fun _ ih => ih) d h

theorem minValue_wrapped (h : d.unwrap = leaf l) : d.minValue = l.minValue :=
  wrapped_induct (P := fun d => d.minValue = l.minValue) rfl (fun _ ih => ih) (fun _ ih => ih) d h

theorem randValue_wrapped {R : RandomSource} (h : d.unwrap = leaf l) :
    (d.randValue : Rand R Text) = l.randValue := by
  refine wrapped_induct (P := fun d => (d.randValue : Rand R Text) = l.randValue) ?_ ?_ ?_ d h
  · rw [randValue]
  · intro d ih
    rw [randValue,ih]
  · intro d ih
    rw [randValue,ih]

theorem zeroOrNullValue_wrapped (h : d.unwrap = leaf l) :
    d.zeroOrNullValue = if d.canHoldNull then "Null".toList else l.zeroOrNullValue := by
  refine wrapped_induct
    (P := fun d => d.zeroOrNullValue = if d.canHoldNull then "Null".toList else l.zeroOrNullValue) ?_ ?_ ?_ d h
  · rfl
  · intro d _
    rfl
  · intro d ih
    exact ih

theorem isNullable_eq (h : d.nullInside = false) : d.isNullable = d.canHoldNull := by
  cases d with
  | lowCardinality d => exact h.symm
  | _ => rfl

theorem isNullable_ne (h : d.nullInside = true) : d.isNullable = false ∧ d.canHoldNull = true := by
  cases d with
  | lowCardinality d => exact ⟨rfl,h⟩
  | _ => cases h

end DataType

end ClickHouseRegression.Helpers

namespace ClickHouseRegression.Parquet
open Helpers Text Sql Fallible

/-- A text that `rand_value` can give. -/
def RandText (d : DataType) (t : Text) : Prop :=
  ∃ (R : FloatSource) (s s' : R.State), (d.randValue : Rand R.toRandomSource Text) s = some (t,s')

/-- A text that one of the four functions can give. -/
def ValueText (d : DataType) (t : Text) : Prop :=
  t = d.maxValue ∨ t = d.minValue ∨ t = d.zeroOrNullValue ∨ RandText d t

/-- A column that holds every value of the type, and `NULL` exactly if the type can hold it. -/
structure Adequate (S : Server) (d : DataType) (holds : Value → Prop) (null : Bool) : Prop where
  values : ∀ t v, ValueText d t → S.Denotes d t v → holds v
  nulls : null = true ↔ d.canHoldNull = true

def MySqlType.Holds (ty : MySqlType) (null : Bool) (v : Value) : Prop :=
  v = .null ∧ null = true ∨ ty.Represents v

/-- The elements of an array may always be null. -/
def PostgreSqlType.Holds (ty : PostgreSqlType) (array null : Bool) (v : Value) : Prop :=
  v = .null ∧ null = true ∨
    if array then ∃ vs, v = .array vs ∧ ∀ w ∈ vs, w = .null ∨ ty.Represents w else ty.Represents v

/-- The definition is one of an adequate column, or the type is rejected. -/
def MySqlSound (S : Server) (name : Text) (d : DataType) : Prop :=
  match mysqlConversion name d with
  | .error _ => True
  | .ok definition => ∃ (ty : MySqlType) (null : Bool),
    definition = mysqlDefinition name ty.text null ∧ Adequate S d (ty.Holds null) null

/-- The definition is one of an adequate column. The function never raises, so that a type without a
branch is not rejected. -/
def PostgreSqlSound (S : Server) (name : Text) (d : DataType) : Prop :=
  match postgresqlConversion name d with
  | none => False
  | some definition => ∃ (ty : PostgreSqlType) (array null : Bool),
    definition = postgresqlDefinition name ty.name array null ∧ Adequate S d (ty.Holds array null) null

section
variable {d : DataType} {l : Leaf} {t : Text} {v : Value}

theorem randText_wrapped (h : d.unwrap = .leaf l) : RandText d t ↔ RandText (.leaf l) t := by
  unfold RandText
  simp only [DataType.randValue_wrapped h,DataType.randValue_wrapped (d := .leaf l) rfl]

/-- A conversion, a quoted text or a boolean. -/
def BeginsAsValue (t : Text) : Prop := ∃ c u, t = c :: u ∧ (c = 't' ∨ c = '\'' ∨ c = 'f')

theorem beginsAsValue_convert (l : Leaf) (a : Text) : BeginsAsValue (l.convert a) :=
  ⟨'t',_,rfl,.inl rfl⟩

theorem beginsAsValue_toDateTime64 (a : Text) : BeginsAsValue (call "toDateTime64".toList a) :=
  ⟨'t',_,rfl,.inl rfl⟩

theorem beginsAsValue_quote (t : Text) : BeginsAsValue (quote t) := ⟨'\'',_,rfl,.inr (.inl rfl)⟩

theorem beginsAsValue_limitValue (l : Leaf) (limit : Text) : BeginsAsValue (l.limitValue limit) := by
  cases l with
  | dateTime64 p b => exact beginsAsValue_toDateTime64 _
  | _ => exact beginsAsValue_convert _ _

theorem beginsAsValue_zeroOrNullValue (l : Leaf) : BeginsAsValue l.zeroOrNullValue := by
  cases l with
  | int k => exact beginsAsValue_convert _ _
  | float32 => exact beginsAsValue_convert _ _
  | float64 => exact beginsAsValue_convert _ _
  | decimal k scale => exact beginsAsValue_convert _ _
  | boolean => exact ⟨'f',_,rfl,.inr (.inr rfl)⟩
  | dateTime64 p b =>
    change BeginsAsValue (Leaf.dateTime64Min b)
    cases b <;> exact beginsAsValue_quote _
  | _ => exact beginsAsValue_quote _

theorem beginsAsValue_randString {R : RandomSource} (max : Text) (most : ℤ) :
    Yields False BeginsAsValue (randString max most : Rand R Text) := by
  refine (randint_yields False.elim).bind fun i _ => ?_
  refine (Yields.item (P := fun _ => True) (fun _ _ => trivial) False.elim).bind fun c _ => ?_
  exact (randint_yields False.elim).bind fun n _ => .pure (beginsAsValue_quote _)

theorem beginsAsValue_randValue {R : RandomSource} (l : Leaf) :
    Yields False BeginsAsValue (l.randValue : Rand R Text) := by
  cases l with
  | float32 => exact (uniform_yields _ _ _).bind fun x _ => .pure (beginsAsValue_convert _ _)
  | float64 =>
    refine (uniform_yields _ _ _).bind fun x _ => ?_
    exact (randint_yields False.elim).bind fun n _ => .pure (beginsAsValue_convert _ _)
  | decimal k scale => exact (uniform_yields _ _ _).bind fun x _ => .pure (beginsAsValue_convert _ _)
  | dateTime64 p b => exact (randint_yields False.elim).bind fun n _ => .pure (beginsAsValue_toDateTime64 _)
  | string => exact beginsAsValue_randString _ _
  | fixedString n => exact beginsAsValue_randString _ _
  | boolean =>
    refine (randint_yields False.elim).bind fun n _ => .pure ?_
    split
    · exact ⟨'t',_,rfl,.inl rfl⟩
    · exact ⟨'f',_,rfl,.inr (.inr rfl)⟩
  | uuid =>
    refine (randint_yields False.elim).bind fun _ _ => ?_
    refine (randint_yields False.elim).bind fun _ _ => ?_
    refine (randint_yields False.elim).bind fun _ _ => ?_
    refine (randint_yields False.elim).bind fun _ _ => ?_
    exact (randint_yields False.elim).bind fun _ _ => .pure (beginsAsValue_quote _)
  | _ => exact (randint_yields False.elim).bind fun n _ => .pure (beginsAsValue_convert _ _)

theorem beginsAsValue_of_valueText (h : ValueText (.leaf l) t) : BeginsAsValue t := by
  rcases h with rfl | rfl | rfl | ⟨R,s,s',hs⟩
  · exact beginsAsValue_limitValue l l.max
  · exact beginsAsValue_limitValue l l.min
  · exact beginsAsValue_zeroOrNullValue l
  · rw [DataType.randValue] at hs
    exact (beginsAsValue_randValue l).holds s t s' hs

theorem BeginsAsValue.ne_null (h : BeginsAsValue t) : t ≠ "Null".toList := by
  obtain ⟨c,u,rfl,hc⟩ := h
  intro he
  have hN : c = 'N' := (List.cons.inj he).1
  subst hN
  rcases hc with hc | hc | hc <;> exact absurd hc (by decide)

theorem BeginsAsValue.ne_nil (h : BeginsAsValue t) : t ≠ [] := by
  obtain ⟨c,u,rfl,-⟩ := h
  simp

theorem whole_of_valueText (h : ValueText d t) : Whole t := by
  rcases h with rfl | rfl | rfl | ⟨R,s,s',hs⟩
  · exact DataType.maxValue_whole _
  · exact DataType.minValue_whole _
  · exact DataType.zeroOrNullValue_whole _
  · exact (DataType.randValue_yields _).holds s t s' hs

namespace Server
variable (S : Server)

/-- A wrapped type stores the values of its leaf. -/
theorem denotes_wrapped (h : d.unwrap = .leaf l) (ht : t ≠ "Null".toList) :
    S.Denotes d t v ↔ S.Denotes (.leaf l) t v := by
  refine DataType.wrapped_induct (P := fun d => S.Denotes d t v ↔ S.Denotes (.leaf l) t v) Iff.rfl ?_ ?_ d h
  · intro d ih
    exact (S.nullable_value d t v ht).trans ih
  · intro d ih
    exact (S.lowCardinality d t v).trans ih

theorem denotes_null (h : d.unwrap = .leaf l) (hn : d.canHoldNull = true) :
    S.Denotes d "Null".toList v ↔ v = .null := by
  revert hn
  refine DataType.wrapped_induct
    (P := fun d => d.canHoldNull = true → (S.Denotes d "Null".toList v ↔ v = .null)) ?_ ?_ ?_ d h
  · intro hn
    cases hn
  · intro d _ _
    exact S.nullable_null d v
  · intro d ih hn
    exact (S.lowCardinality d _ v).trans (ih hn)

end Server

/-- What holds of the values of the leaf holds of those of its wrappings that are not null. -/
theorem values_wrapped {S : Server} {P : Value → Prop} (hd : d.unwrap = .leaf l)
    (h : ∀ t v, ValueText (.leaf l) t → S.Denotes (.leaf l) t v → P v) :
    ∀ t v, ValueText d t → S.Denotes d t v → v = .null ∧ d.canHoldNull = true ∨ P v := by
  have hleaf : ∀ t v, ValueText (.leaf l) t → S.Denotes d t v → P v := by
    intro t v ht hv
    exact h t v ht ((S.denotes_wrapped hd (beginsAsValue_of_valueText ht).ne_null).1 hv)
  rintro t v (rfl | rfl | rfl | hr) hv
  · rw [DataType.maxValue_wrapped hd] at hv
    exact .inr (hleaf _ v (.inl rfl) hv)
  · rw [DataType.minValue_wrapped hd] at hv
    exact .inr (hleaf _ v (.inr (.inl rfl)) hv)
  · rw [DataType.zeroOrNullValue_wrapped hd] at hv
    cases hn : d.canHoldNull with
    | true =>
      rw [hn,if_pos rfl,S.denotes_null hd hn] at hv
      exact .inl ⟨hv,rfl⟩
    | false =>
      rw [hn,if_neg Bool.false_ne_true] at hv
      exact .inr (hleaf _ v (.inr (.inr (.inl rfl))) hv)
  · exact .inr (hleaf t v (.inr (.inr (.inr ((randText_wrapped hd).1 hr)))) hv)

/-- A text that the wrappings of a leaf share with it. -/
def SharedText (l : Leaf) (t : Text) : Prop := t = l.maxValue ∨ t = l.minValue ∨ RandText (.leaf l) t

theorem SharedText.valueText (h : SharedText l t) (hd : d.unwrap = .leaf l) : ValueText d t := by
  rcases h with rfl | rfl | hr
  · exact .inl (DataType.maxValue_wrapped hd).symm
  · exact .inr (.inl (DataType.minValue_wrapped hd).symm)
  · exact .inr (.inr (.inr ((randText_wrapped hd).2 hr)))

theorem SharedText.denotes {S : Server} (h : SharedText l t) (hd : d.unwrap = .leaf l)
    (hv : S.Denotes (.leaf l) t v) : S.Denotes d t v := by
  have hleaf : ValueText (.leaf l) t := h.valueText rfl
  exact (S.denotes_wrapped hd (beginsAsValue_of_valueText hleaf).ne_null).2 hv

end

section
variable {S : Server} {t : Text} {v : Value}

theorem uniform_between {R : FloatSource} {lo hi : Text} {a b : Numeral} (ha : readNumeral lo = some a)
    (hb : readNumeral hi = some b) (hab : a.value ≤ b.value) :
    Yields False (fun x => ∃ n, readNumeral x = some n ∧ a.value ≤ n.value ∧ n.value ≤ b.value)
      (uniform lo hi : Rand R.toRandomSource Text) := by
  refine ⟨?_,False.elim⟩
  intro s x s' hs
  have h := R.uniform_mem lo hi s a b ha hb hab
  rw [Option.some.inj hs] at h
  exact h

/-- The texts of `Float32` convert numerals that the type can round. -/
theorem float32_numeral (h : ValueText (.leaf .float32) t) :
    ∃ x n, t = Leaf.float32.convert x ∧ readNumeral x = some n ∧ |n.value| < FloatFormat.binary32.overflow := by
  have hmax : readNumeral Leaf.float32Max = some ⟨34028235,31⟩ := by rfl
  have hmin : readNumeral Leaf.float32Min = some ⟨-34028235,31⟩ := by rfl
  have hbound : ∀ n : Numeral, (⟨-34028235,31⟩ : Numeral).value ≤ n.value →
      n.value ≤ (⟨34028235,31⟩ : Numeral).value → |n.value| < FloatFormat.binary32.overflow := by
    intro n h₁ h₂
    refine (abs_le.2 ⟨?_,h₂⟩).trans_lt ?_
    · refine le_trans (le_of_eq ?_) h₁
      norm_num [Numeral.value]
    · norm_num [Numeral.value,FloatFormat.overflow,FloatFormat.binary32]
  have horder : (⟨-34028235,31⟩ : Numeral).value ≤ (⟨34028235,31⟩ : Numeral).value := by
    norm_num [Numeral.value]
  rcases h with rfl | rfl | rfl | ⟨R,s,s',hs⟩
  · exact ⟨_,_,rfl,hmax,hbound _ horder le_rfl⟩
  · exact ⟨_,_,rfl,hmin,hbound _ le_rfl horder⟩
  · refine ⟨_,⟨0,0⟩,rfl,by rfl,hbound _ ?_ ?_⟩ <;> norm_num [Numeral.value]
  · rw [DataType.randValue] at hs
    have hrand : Yields False (fun t => ∃ x n, t = Leaf.float32.convert x ∧ readNumeral x = some n ∧
        |n.value| < FloatFormat.binary32.overflow) (Leaf.float32.randValue : Rand R.toRandomSource Text) := by
      refine (uniform_between hmin hmax horder).bind fun x hx => .pure ?_
      obtain ⟨n,hn,h₁,h₂⟩ := hx
      exact ⟨x,n,rfl,hn,hbound n h₁ h₂⟩
    exact hrand.holds s t s' hs

theorem float32_real (h : ValueText (.leaf .float32) t) (hv : S.Denotes (.leaf .float32) t v) :
    ∃ q, v = .real q ∧ FloatFormat.binary32.Contains q := by
  obtain ⟨x,n,rfl,hn,hbound⟩ := float32_numeral h
  obtain ⟨q,rfl⟩ := S.float32_finite x n v hn hbound hv
  exact ⟨q,rfl,(S.float32_range _ _ hv).contains⟩

/-- The random texts of `Float64`: a numeral with an exponent behind it. -/
theorem float64_randValue {R : FloatSource} :
    Yields False (fun t => ∃ (x : Text) (k : ℕ) (n : Numeral),
        t = Leaf.float64.convert (x ++ "e".toList ++ str k) ∧ readNumeral x = some n ∧
        |n.value| ≤ 1.79769 ∧ k ≤ 308)
      (Leaf.float64.randValue : Rand R.toRandomSource Text) := by
  have hlo : readNumeral "-1.79769".toList = some ⟨-179769,-5⟩ := by rfl
  have hhi : readNumeral "1.79769".toList = some ⟨179769,-5⟩ := by rfl
  refine (uniform_between hlo hhi (by norm_num [Numeral.value])).bind fun x hx => ?_
  refine (randint_yields False.elim).bind fun k hk => .pure ?_
  obtain ⟨n,hn,h₁,h₂⟩ := hx
  refine ⟨x,k.toNat,n,?_,hn,?_,by omega⟩
  · rw [Int.toNat_of_nonneg hk.1]
  · have hone : (⟨179769,-5⟩ : Numeral).value = 1.79769 := by norm_num [Numeral.value]
    have hminus : (⟨-179769,-5⟩ : Numeral).value = -1.79769 := by norm_num [Numeral.value]
    rw [hminus] at h₁
    rw [hone] at h₂
    exact abs_le.2 ⟨h₁,h₂⟩

/-- The largest text of `Float64` in the source is below the largest number of the format. -/
theorem float64Max_lt_overflow : (17976909999999999*10^292 : ℚ) < FloatFormat.binary64.overflow := by
  have hnat : 17976909999999999*10^292*2 < 18014398509481983*2^971 := by decide +kernel
  have hrat : ((17976909999999999*10^292*2 : ℕ) : ℚ) < (18014398509481983*2^971 : ℕ) := Nat.cast_lt.2 hnat
  have hover : FloatFormat.binary64.overflow = (2^53-1/2)*2^971 := by
    rw [FloatFormat.overflow]
    exact congrArg _ (zpow_ofNat 2 971)
  simp only [Nat.cast_mul,Nat.cast_pow,Nat.cast_ofNat] at hrat
  rw [hover]
  generalize (2 : ℚ)^971 = x at hrat ⊢
  generalize (10 : ℚ)^292 = y at hrat ⊢
  linarith

theorem float64_real (h : ValueText (.leaf .float64) t) (hv : S.Denotes (.leaf .float64) t v) :
    ∃ q, v = .real q ∧ FloatFormat.binary64.Contains q := by
  have hlimit : ∀ n : ℤ, |(n : ℚ)| = 17976909999999999 →
      |(⟨n,292⟩ : Numeral).value| < FloatFormat.binary64.overflow := by
    intro n hn
    have hpow : (10 : ℚ)^(292 : ℤ) = 10^292 := zpow_ofNat 10 292
    rw [Numeral.value,hpow,abs_mul,hn,abs_of_pos (by positivity)]
    exact float64Max_lt_overflow
  have hfinite : ∃ q, v = .real q := by
    rcases h with rfl | rfl | rfl | ⟨R,s,s',hs⟩
    · refine S.float64_finite Leaf.float64Max ⟨17976909999999999,292⟩ v (by rfl) ?_ hv
      exact hlimit 17976909999999999 (by norm_num)
    · refine S.float64_finite Leaf.float64Min ⟨-17976909999999999,292⟩ v (by rfl) ?_ hv
      exact hlimit (-17976909999999999) (by norm_num)
    · refine S.float64_finite "0".toList ⟨0,0⟩ v (by rfl) ?_ hv
      refine lt_of_le_of_lt ?_ float64Max_lt_overflow
      simp [Numeral.value]
    · rw [DataType.randValue] at hs
      obtain ⟨x,k,n,rfl,hn,hbound,hk⟩ := float64_randValue.holds s t s' hs
      obtain ⟨m,hm⟩ := S.float64_numeral x n k v hn hv
      obtain ⟨n',hn',hmn⟩ := readNumeral_exponent (t := x) (k := k) (n := m) (by simpa using hm)
      cases hn.symm.trans hn'
      refine S.float64_finite _ m v hm ?_ hv
      calc |m.value| = |n.value| * 10^k := by
            rw [hmn,abs_mul,abs_of_pos (by positivity : (0 : ℚ) < 10^k)]
        _ ≤ 1.79769 * 10^308 :=
          mul_le_mul hbound (pow_le_pow_right₀ (by norm_num) hk) (by positivity) (by norm_num)
        _ = 1.79769 * 10^16 * 10^292 := by rw [mul_assoc,← pow_add]
        _ ≤ 17976909999999999 * 10^292 := mul_le_mul_of_nonneg_right (by norm_num) (by positivity)
        _ < FloatFormat.binary64.overflow := float64Max_lt_overflow
  obtain ⟨q,rfl⟩ := hfinite
  exact ⟨q,rfl,(S.float64_range _ _ hv).contains⟩

/-- With nine digits the limits of the type are whole seconds. -/
theorem dateTime64_nine {b : Bool} (h : ValueText (.leaf (.dateTime64 9 b)) t)
    (hv : S.Denotes (.leaf (.dateTime64 9 b)) t v) : ∃ m, v = .dateTime m ∧ m.nanosecond = 0 := by
  have hmax := fun v => S.dateTime64_limit 9 b "2262-04-11 23:47:16".toList
    ⟨2262,4,11,23,47,16,0⟩ v (by decide) (by decide) (.inl rfl) (by rfl)
  have hmin : ∃ u m, quote u = Leaf.dateTime64Min b ∧ readMoment u = some m ∧ m.nanosecond = 0 := by
    cases b with
    | true =>
      exact ⟨"1925-01-01 00:00:00.00000000".toList,⟨1925,1,1,0,0,0,0⟩,rfl,by rfl,rfl⟩
    | false =>
      exact ⟨"1900-01-01 00:00:00.00000000".toList,⟨1900,1,1,0,0,0,0⟩,rfl,by rfl,rfl⟩
  obtain ⟨u,m,hu,hm,hzero⟩ := hmin
  have hlimit := S.dateTime64_limit 9 b u m v (by decide) (by decide) (.inr hu) hm
  have htrunc : (m.truncate 9).nanosecond = 0 := by simp [Moment.truncate,hzero]
  rcases h with rfl | rfl | rfl | ⟨R,s,s',hs⟩
  · exact ⟨_,(hmax v).1.1 hv,rfl⟩
  · refine ⟨_,hlimit.1.1 ?_,htrunc⟩
    rw [hu]
    exact hv
  · refine ⟨_,hlimit.2.1 ?_,htrunc⟩
    rw [hu]
    exact hv
  · rw [DataType.randValue] at hs
    have hrand : Yields False
        (fun t => ∃ n : ℤ, t = call "toDateTime64".toList (str n ++ ",".toList ++ str 9))
        ((Leaf.dateTime64 9 b).randValue : Rand R.toRandomSource Text) :=
      (randint_yields False.elim).bind fun n _ => .pure ⟨n,rfl⟩
    obtain ⟨n,rfl⟩ := hrand.holds s t s' hs
    exact S.dateTime64_seconds 9 b n v hv

/-- The largest text of `DateTime64` stands for a fraction of eight nines. -/
theorem dateTime64_max (S : Server) {p : ℤ} (h₀ : 0 ≤ p) (h₈ : p ≤ 8) (b : Bool) :
    ∃ m : Moment, S.Denotes (.leaf (.dateTime64 p b)) (Leaf.dateTime64 p b).maxValue
      (.dateTime (m.truncate p.toNat)) ∧ m.nanosecond = 999999990 := by
  have hp : p ≠ 9 := by omega
  have hmax : ∃ u m, quote u = (Leaf.dateTime64 p b).max ∧ readMoment u = some m ∧
      m.nanosecond = 999999990 := by
    cases b with
    | true =>
      refine ⟨"2283-11-11 23:59:59.99999999".toList,⟨2283,11,11,23,59,59,999999990⟩,?_,
        by rfl,rfl⟩
      rw [Leaf.max,Leaf.dateTime64Max,if_pos hp,if_pos rfl]
    | false =>
      refine ⟨"2299-12-31 23:59:59.99999999".toList,⟨2299,12,31,23,59,59,999999990⟩,?_,
        by rfl,rfl⟩
      rw [Leaf.max,Leaf.dateTime64Max,if_pos hp,if_neg Bool.false_ne_true]
  obtain ⟨u,m,hu,hm,hnano⟩ := hmax
  refine ⟨m,?_,hnano⟩
  have h := (S.dateTime64_limit p b u m _ h₀ (by omega) (.inl hu) hm).1.2 rfl
  rwa [hu] at h

/-- The texts of `String` stand for letters, at most a hundred of them. -/
theorem string_bytes (h : ValueText (.leaf .string) t) (hv : S.Denotes (.leaf .string) t v) :
    ∃ u : Text, v = .bytes (ascii u) ∧ (∀ c ∈ u, c.isAlphanum = true) ∧ u.length ≤ 100 := by
  have hletters : ∀ c ∈ letters, c.isAlphanum = true := fun c => letters_alphanum
  rcases h with rfl | rfl | rfl | ⟨R,s,s',hs⟩
  · exact ⟨letters,(S.string_value letters v hletters).2.1 hv,hletters,by decide +kernel⟩
  · exact ⟨[],(S.string_value [] v (by simp)).2.1 hv,by simp,by simp⟩
  · exact ⟨[],(S.string_value [] v (by simp)).1.1 hv,by simp,by simp⟩
  · rw [DataType.randValue] at hs
    have hrand : Yields False (fun t => ∃ u : Text, t = quote u ∧ (∀ c ∈ u, c.isAlphanum = true) ∧
        u.length ≤ 100) (Leaf.string.randValue : Rand R.toRandomSource Text) := by
      refine (randint_yields False.elim).bind fun i hi => ?_
      refine (Yields.item (P := (· ∈ letters)) (fun c => quote_getElem_mem hi) False.elim).bind fun c hc => ?_
      refine (randint_yields False.elim).bind fun n hn => .pure ⟨List.replicate n.toNat c,rfl,?_,?_⟩
      · intro d hd
        rw [List.eq_of_mem_replicate hd]
        exact hletters c hc
      · rw [List.length_replicate]
        omega
    obtain ⟨u,rfl,hu,hlen⟩ := hrand.holds s t s' hs
    exact ⟨u,(S.string_value u v hu).1.1 hv,hu,hlen⟩

theorem alphanum_range {c : Char} (h : c.isAlphanum = true) : 48 ≤ c.toNat ∧ c.toNat ≤ 122 := by
  simp [Char.isAlphanum,Char.isAlpha,Char.isUpper,Char.isLower,Char.isDigit,UInt32.le_iff_toNat_le] at h
  omega

theorem zero_not_mem_ascii {u : Text} (h : ∀ c ∈ u, c.isAlphanum = true) : 0 ∉ ascii u := by
  intro hz
  obtain ⟨c,hc,he⟩ := List.mem_map.1 hz
  have hrange := alphanum_range (h c hc)
  have hmod : c.toNat % 256 = 0 := by simpa using congrArg UInt8.toNat he
  omega

end

/-- The type that the chain of `mysql_conversion` ends in. -/
def mysqlType : Leaf → Option MySqlType
  | .int .uint8 => some (.tinyint true)
  | .int .int8 => some (.tinyint false)
  | .int .uint16 => some (.smallint true)
  | .int .int16 => some (.smallint false)
  | .int .uint32 => some (.int true)
  | .int .int32 => some (.int true)
  | .int .uint64 => some (.bigint true)
  | .int .int64 => some (.bigint false)
  | .float32 => some .double
  | .float64 => some .double
  | .date => some .date
  | .date32 => some .date
  | .dateTime => some .datetime
  | .dateTime64 _ _ => some .datetime
  | .string => some .blob
  | .fixedString _ => some .blob
  | _ => none

theorem mysqlBranches_find (l : Leaf) :
    (mysqlBranches.find? fun b => l.isInstance b.1).map Prod.snd = (mysqlType l).map MySqlType.text := by
  cases l with
  | int k => cases k <;> rfl
  | _ => rfl

/-- The leaves with a branch in `mysql_conversion`. -/
def mysqlSupported : Leaf → Bool
  | .int .int128 => false
  | .int .int256 => false
  | .int .uint128 => false
  | .int .uint256 => false
  | .decimal _ _ => false
  | .boolean => false
  | .uuid => false
  | _ => true

theorem mysqlType_isSome (l : Leaf) : (mysqlType l).isSome = mysqlSupported l := by
  cases l with
  | int k => cases k <;> rfl
  | _ => rfl

/-- The leaves whose values fit into their column in MySQL: not `Int32`, which becomes `INT UNSIGNED`, no
`FixedString` above the size of a `BLOB`, and no `DateTime64` with a fraction. -/
def mysqlFits : Leaf → Prop
  | .int .int32 => False
  | .fixedString n => ¬(65535 < n ∧ n ≤ fixedStringLimit)
  | .dateTime64 p _ => ¬(1 ≤ p ∧ p ≤ 8)
  | _ => True

def postgresqlType : Leaf → Option PostgreSqlType
  | .int .int16 => some .smallint
  | .int .int32 => some .integer
  | .int .int64 => some .bigint
  | .float32 => some .real
  | .float64 => some .doublePrecision
  | .date => some .date
  | .date32 => some .date
  | .dateTime => some .timestamp
  | .dateTime64 _ _ => some .timestamp
  | .string => some .text
  | .fixedString _ => some .text
  | _ => none

theorem postgresqlBranches_find (l : Leaf) :
    (postgresqlBranches.find? fun b => l.isInstance b.1).map Prod.snd =
      (postgresqlType l).map PostgreSqlType.name := by
  cases l with
  | int k => cases k <;> rfl
  | _ => rfl

/-- The leaves with a branch in `postgresql_conversion`. -/
def postgresqlSupported : Leaf → Bool
  | .int .int16 => true
  | .int .int32 => true
  | .int .int64 => true
  | .int _ => false
  | .decimal _ _ => false
  | .boolean => false
  | .uuid => false
  | _ => true

theorem postgresqlType_isSome (l : Leaf) : (postgresqlType l).isSome = postgresqlSupported l := by
  cases l with
  | int k => cases k <;> rfl
  | _ => rfl

/-- The leaves whose values fit into their column in PostgreSQL: no `FixedString`, which is filled up with
null bytes, and no `DateTime64` with a fraction finer than microseconds. -/
def postgresqlFits : Leaf → Prop
  | .fixedString n => ¬(1 ≤ n ∧ n ≤ fixedStringLimit)
  | .dateTime64 p _ => ¬(7 ≤ p ∧ p ≤ 8)
  | _ => True

section
variable {S : Server} {l : Leaf} {t : Text} {v : Value}

theorem IsInteger.of_range {k : IntType} {bits : ℕ} {unsigned : Bool}
    (hmin : if unsigned then 0 ≤ k.min else -2^(bits-1) ≤ k.min)
    (hmax : if unsigned then k.max < 2^bits else k.max < 2^(bits-1))
    (hv : S.Denotes (.leaf (.int k)) t v) : v.IsInteger bits unsigned := by
  obtain ⟨n,rfl,h₁,h₂⟩ := S.int_range k t v hv
  refine ⟨n,rfl,?_⟩
  cases unsigned with
  | true => exact ⟨le_trans hmin h₁,lt_of_le_of_lt h₂ hmax⟩
  | false => exact ⟨le_trans hmin h₁,lt_of_le_of_lt h₂ hmax⟩

theorem mysql_represents {ty : MySqlType} (hty : mysqlType l = some ty) (hfits : mysqlFits l)
    (ht : ValueText (.leaf l) t) (hv : S.Denotes (.leaf l) t v) : ty.Represents v := by
  cases l with
  | int k =>
    cases k <;> cases hty
    case int.int32.refl => exact hfits.elim
    all_goals exact IsInteger.of_range (by decide) (by decide) hv
  | float32 =>
    cases hty
    obtain ⟨q,rfl,hq⟩ := float32_real ht hv
    exact ⟨q,rfl,hq.wider (by decide) (by decide) (by decide)⟩
  | float64 =>
    cases hty
    exact float64_real ht hv
  | date =>
    cases hty
    obtain ⟨y,m,d,rfl,h₁,h₂⟩ := S.date_range t v hv
    exact ⟨y,m,d,rfl,by omega,by omega⟩
  | date32 =>
    cases hty
    obtain ⟨y,m,d,rfl,h₁,h₂⟩ := S.date32_range t v hv
    exact ⟨y,m,d,rfl,by omega,by omega⟩
  | dateTime =>
    cases hty
    obtain ⟨m,rfl,h₁,h₂,h₃⟩ := S.dateTime_range t v hv
    exact ⟨m,rfl,by omega,by omega,h₃⟩
  | dateTime64 p b =>
    cases hty
    obtain ⟨hp₀,hp₉,m,rfl,h₁,h₂,hnano,htrunc⟩ := S.dateTime64_range p b t v hv
    refine ⟨m,rfl,by omega,by omega,?_⟩
    have hp : p = 0 ∨ p = 9 := by
      simp only [mysqlFits] at hfits
      omega
    rcases hp with rfl | rfl
    · have h := congrArg Moment.nanosecond htrunc
      simp only [Moment.truncate] at h
      norm_num at h hnano
      omega
    · obtain ⟨m',hm',hzero⟩ := dateTime64_nine ht hv
      cases hm'
      exact hzero
  | string =>
    cases hty
    obtain ⟨u,rfl,-,hlen⟩ := string_bytes ht hv
    refine ⟨_,rfl,?_⟩
    rw [ascii,List.length_map]
    omega
  | fixedString n =>
    cases hty
    obtain ⟨h₁,h₂,b,rfl,hlen⟩ := S.fixedString_range n t v hv
    refine ⟨b,rfl,?_⟩
    simp only [mysqlFits] at hfits
    omega
  | decimal k scale => cases hty
  | boolean => cases hty
  | uuid => cases hty

theorem postgresql_represents {ty : PostgreSqlType} (hty : postgresqlType l = some ty)
    (hfits : postgresqlFits l) (ht : ValueText (.leaf l) t) (hv : S.Denotes (.leaf l) t v) :
    ty.Represents v := by
  cases l with
  | int k =>
    cases k <;> cases hty
    all_goals exact IsInteger.of_range (by decide) (by decide) hv
  | float32 =>
    cases hty
    exact S.float32_range t v hv
  | float64 =>
    cases hty
    exact S.float64_range t v hv
  | date =>
    cases hty
    obtain ⟨y,m,d,rfl,h₁,h₂⟩ := S.date_range t v hv
    exact ⟨y,m,d,rfl,by omega⟩
  | date32 =>
    cases hty
    obtain ⟨y,m,d,rfl,h₁,h₂⟩ := S.date32_range t v hv
    exact ⟨y,m,d,rfl,by omega⟩
  | dateTime =>
    cases hty
    obtain ⟨m,rfl,h₁,h₂,h₃⟩ := S.dateTime_range t v hv
    exact ⟨m,rfl,by omega,by omega⟩
  | dateTime64 p b =>
    cases hty
    obtain ⟨hp₀,hp₉,m,rfl,h₁,h₂,hnano,htrunc⟩ := S.dateTime64_range p b t v hv
    refine ⟨m,rfl,by omega,?_⟩
    have hp : p ≤ 6 ∨ p = 9 := by
      simp only [postgresqlFits] at hfits
      omega
    rcases hp with hp | rfl
    · have h := congrArg Moment.nanosecond htrunc
      simp only [Moment.truncate] at h
      have hdvd : 1000 ∣ 10^(9-p.toNat) := by
        rw [show (1000 : ℕ) = 10^3 by norm_num]
        exact pow_dvd_pow 10 (by omega)
      rw [← h]
      exact Nat.mod_eq_zero_of_dvd (hdvd.mul_left _)
    · obtain ⟨m',hm',hzero⟩ := dateTime64_nine ht hv
      cases hm'
      rw [hzero]
  | string =>
    cases hty
    obtain ⟨u,rfl,hu,-⟩ := string_bytes ht hv
    exact ⟨_,rfl,zero_not_mem_ascii hu⟩
  | fixedString n =>
    obtain ⟨h₁,h₂,-⟩ := S.fixedString_range n t v hv
    exact absurd ⟨h₁,h₂⟩ hfits
  | decimal k scale => cases hty
  | boolean => cases hty
  | uuid => cases hty

/-- The source that always gives the lower bound. -/
def lowest : FloatSource where
  State := Unit
  integer lo _ s := (lo,s)
  uniform lo _ s := (if lo.all isNumeralChar then lo else "0".toList,s)
  integer_mem lo hi _ h := ⟨le_rfl,h⟩
  uniform_chars lo hi s c hc := by
    split at hc
    · rename_i hall
      have hn := List.all_eq_true.1 hall c hc
      simp only [isNumeralChar,Bool.or_eq_true,decide_eq_true_eq] at hn
      rcases hn with (((hn | hn) | hn) | hn) | rfl
      · exact .inl (by rw [Char.isAlphanum,hn,Bool.or_true])
      · exact .inr (.inl hn)
      · exact .inr (.inr (.inl hn))
      · exact .inr (.inr (.inr hn))
      · exact .inl (by decide)
    · have hzero : c = '0' := by simpa using hc
      exact .inl (by rw [hzero]; decide)
  uniform_mem lo hi s a b ha hb hab := by
    have hall : lo.all isNumeralChar = true := List.all_eq_true.2 (readNumeral_chars ha)
    rw [if_pos hall]
    exact ⟨a,ha,le_rfl,hab⟩

/-- `rand_value` of a `FixedString` can be the empty text. -/
theorem randText_fixedString {n : ℤ} (h : 1 ≤ n) : RandText (.leaf (.fixedString n)) (quote []) := by
  have hne := List.length_pos_iff.2 (fixedLetters_ne_nil h)
  have hlen : (quote (fixedLetters n)).length = (fixedLetters n).length+2 := by simp [quote]
  obtain ⟨c,u,hcu⟩ := List.exists_cons_of_ne_nil (fixedLetters_ne_nil h)
  have hfirst : (randint 1 ((quote (fixedLetters n)).length-2) : Rand lowest.toRandomSource ℤ) () =
      some (1,()) :=
    if_pos (by omega)
  have hletter : (item (quote (fixedLetters n)) (1 : ℤ).toNat : Rand lowest.toRandomSource Char) () =
      some (c,()) := by
    rw [hcu]
    rfl
  have hcount : (randint 0 n : Rand lowest.toRandomSource ℤ) () = some (0,()) :=
    if_pos (by omega)
  refine ⟨lowest,(),(),?_⟩
  rw [DataType.randValue]
  change ((randint 1 ((quote (fixedLetters n)).length-2) : Rand lowest.toRandomSource ℤ) ()).bind _ = _
  rw [hfirst]
  change ((item (quote (fixedLetters n)) (1 : ℤ).toNat : Rand lowest.toRandomSource Char) ()).bind _ = _
  rw [hletter]
  change ((randint 0 n : Rand lowest.toRandomSource ℤ) ()).bind _ = _
  rw [hcount]
  rfl

theorem mysql_fails (S : Server) {ty : MySqlType} (hty : mysqlType l = some ty) (h : ¬mysqlFits l) :
    ∃ t v, SharedText l t ∧ S.Denotes (.leaf l) t v ∧ v ≠ .null ∧ ¬ty.Represents v := by
  cases l with
  | int k =>
    cases k with
    | int32 =>
      cases hty
      refine ⟨_,.int (-2147483648),.inr (.inl rfl),S.int_value .int32 _ le_rfl (by decide),by simp,?_⟩
      rintro ⟨n,hn,h₀,-⟩
      cases hn
      exact absurd h₀ (by decide)
    | _ => exact absurd trivial h
  | fixedString n =>
    cases hty
    have hn : 65535 < n ∧ n ≤ fixedStringLimit := not_not.1 h
    refine ⟨_,_,.inr (.inr (randText_fixedString (by omega))),S.fixedString_empty n (by omega) hn.2,
      by simp,?_⟩
    rintro ⟨b,hb,hlen⟩
    cases hb
    rw [List.length_replicate] at hlen
    omega
  | dateTime64 p b =>
    cases hty
    have hp : 1 ≤ p ∧ p ≤ 8 := not_not.1 h
    obtain ⟨m,hm,hnano⟩ := dateTime64_max S (by omega) hp.2 b
    refine ⟨_,_,.inl rfl,hm,by simp,?_⟩
    rintro ⟨m',hm',-,-,hzero⟩
    cases hm'
    obtain ⟨h₁,h₈⟩ := hp
    simp only [Moment.truncate,hnano] at hzero
    interval_cases p <;> exact absurd hzero (by decide)
  | _ => exact absurd trivial h

theorem postgresql_fails (S : Server) {ty : PostgreSqlType} (hty : postgresqlType l = some ty)
    (h : ¬postgresqlFits l) :
    ∃ t v, SharedText l t ∧ S.Denotes (.leaf l) t v ∧ v ≠ .null ∧ ¬ty.Represents v := by
  cases l with
  | fixedString n =>
    cases hty
    have hn : 1 ≤ n ∧ n ≤ fixedStringLimit := not_not.1 h
    refine ⟨_,_,.inr (.inr (randText_fixedString hn.1)),S.fixedString_empty n hn.1 hn.2,by simp,?_⟩
    rintro ⟨b,hb,hzero⟩
    cases hb
    exact hzero (List.mem_replicate.2 ⟨by omega,rfl⟩)
  | dateTime64 p b =>
    cases hty
    have hp : 7 ≤ p ∧ p ≤ 8 := not_not.1 h
    obtain ⟨m,hm,hnano⟩ := dateTime64_max S (by omega) hp.2 b
    refine ⟨_,_,.inl rfl,hm,by simp,?_⟩
    rintro ⟨m',hm',-,hmicro⟩
    cases hm'
    obtain ⟨h₇,h₈⟩ := hp
    simp only [Moment.truncate,hnano] at hmicro
    interval_cases p <;> exact absurd hmicro (by decide)
  | _ => exact absurd trivial h

end

end ClickHouseRegression.Parquet
