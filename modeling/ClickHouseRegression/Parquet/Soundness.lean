import ClickHouseRegression.Parquet.Representation

/-! The definitions that the two conversions give, and exactly when they are sound. -/
namespace ClickHouseRegression.Parquet
open Helpers Text Sql Fallible

section
variable {S : Server} {l : Leaf} {t : Text}

/-- A column for a wrapped leaf whose values have the property `P` under the condition `fits` only. -/
theorem adequate_wrapped_iff {d : DataType} {P : Value → Prop} {fits : Prop} (hd : d.unwrap = .leaf l)
    (hrep : fits → ∀ t v, ValueText (.leaf l) t → S.Denotes (.leaf l) t v → P v)
    (hfail : ¬fits → ∃ t v, SharedText l t ∧ S.Denotes (.leaf l) t v ∧ v ≠ .null ∧ ¬P v) :
    Adequate S d (fun v => v = .null ∧ d.isNullable = true ∨ P v) d.isNullable ↔
      fits ∧ d.nullInside = false := by
  constructor
  · intro h
    refine ⟨?_,?_⟩
    · by_contra hf
      obtain ⟨t,v,ht,hv,hne,hP⟩ := hfail hf
      rcases h.values t v (ht.valueText hd) (ht.denotes hd hv) with ⟨hnull,-⟩ | hv
      · exact hne hnull
      · exact hP hv
    · cases hn : d.nullInside with
      | false => rfl
      | true =>
        obtain ⟨hnot,hcan⟩ := DataType.isNullable_ne hn
        have := h.nulls.2 hcan
        rw [hnot] at this
        cases this
  · rintro ⟨hf,hn⟩
    have hnull := DataType.isNullable_eq hn
    refine ⟨?_,by rw [hnull]⟩
    intro t v ht hv
    rw [hnull]
    exact values_wrapped hd (hrep hf) t v ht hv

theorem valueText_array {d : DataType} :
    ValueText (.array d) t ↔ ∃ u, ValueText d u ∧ t = '[' :: (u ++ [']']) := by
  have hrand : RandText (.array d) t ↔ ∃ u, RandText d u ∧ t = '[' :: (u ++ [']']) := by
    constructor
    · rintro ⟨R,s,s',hs⟩
      rw [DataType.randValue] at hs
      obtain ⟨⟨u,s''⟩,hu,ht⟩ := Option.bind_eq_some_iff.1 hs
      cases ht
      exact ⟨u,⟨R,s,_,hu⟩,rfl⟩
    · rintro ⟨u,⟨R,s,s',hs⟩,rfl⟩
      refine ⟨R,s,s',?_⟩
      rw [DataType.randValue]
      exact Option.bind_eq_some_iff.2 ⟨(u,s'),hs,rfl⟩
  constructor
  · rintro (rfl | rfl | rfl | hr)
    · exact ⟨d.maxValue,.inl rfl,rfl⟩
    · exact ⟨d.minValue,.inr (.inl rfl),rfl⟩
    · exact ⟨d.zeroOrNullValue,.inr (.inr (.inl rfl)),rfl⟩
    · obtain ⟨u,hu,ht⟩ := hrand.1 hr
      exact ⟨u,.inr (.inr (.inr hu)),ht⟩
  · rintro ⟨u,rfl | rfl | rfl | hu,rfl⟩
    · exact .inl rfl
    · exact .inr (.inl rfl)
    · exact .inr (.inr (.inl rfl))
    · exact .inr (.inr (.inr (hrand.2 ⟨u,hu,rfl⟩)))

theorem ne_nil_of_valueText {d : DataType} (hd : d.unwrap = .leaf l) (h : ValueText d t) : t ≠ [] := by
  rcases h with rfl | rfl | rfl | hr
  · rw [DataType.maxValue_wrapped hd]
    exact (beginsAsValue_limitValue l _).ne_nil
  · rw [DataType.minValue_wrapped hd]
    exact (beginsAsValue_limitValue l _).ne_nil
  · rw [DataType.zeroOrNullValue_wrapped hd]
    split
    · decide
    · exact (beginsAsValue_zeroOrNullValue l).ne_nil
  · exact (beginsAsValue_of_valueText (.inr (.inr (.inr ((randText_wrapped hd).1 hr))))).ne_nil

/-- The same for an array column, which is never null itself. -/
theorem adequate_array_iff {d : DataType} {P : Value → Prop} {fits : Prop} (hd : d.unwrap = .leaf l)
    (hrep : fits → ∀ t v, ValueText (.leaf l) t → S.Denotes (.leaf l) t v → P v)
    (hfail : ¬fits → ∃ t v, SharedText l t ∧ S.Denotes (.leaf l) t v ∧ v ≠ .null ∧ ¬P v) :
    Adequate S (.array d)
        (fun v => v = .null ∧ false = true ∨ ∃ vs, v = .array vs ∧ ∀ w ∈ vs, w = .null ∨ P w) false ↔ fits := by
  have harray : ∀ {u v}, ValueText d u →
      (S.Denotes (.array d) ('[' :: (u ++ [']'])) v ↔ ∃ w, S.Denotes d u w ∧ v = .array [w]) :=
    fun {u v} hu => S.array d u v (whole_of_valueText hu) (ne_nil_of_valueText hd hu)
  constructor
  · intro h
    by_contra hf
    obtain ⟨t,v,ht,hv,hne,hP⟩ := hfail hf
    have hvalue := ht.valueText hd
    have hden := (harray hvalue).2 ⟨v,ht.denotes hd hv,rfl⟩
    rcases h.values _ _ (valueText_array.2 ⟨t,hvalue,rfl⟩) hden with ⟨hnull,-⟩ | ⟨vs,hvs,hall⟩
    · cases hnull
    · cases hvs
      exact (hall v (by simp)).elim hne hP
  · intro hf
    refine ⟨?_,by simp [DataType.canHoldNull]⟩
    intro t v ht hv
    obtain ⟨u,hu,rfl⟩ := valueText_array.1 ht
    obtain ⟨w,hw,rfl⟩ := (harray hu).1 hv
    refine .inr ⟨[w],rfl,?_⟩
    intro x hx
    rw [List.mem_singleton.1 hx]
    exact (values_wrapped hd (hrep hf) u w hu hw).imp_left And.left

end

def mysqlTypes : List MySqlType :=
  [.tinyint true,.tinyint false,.smallint true,.smallint false,.int true,.int false,.bigint true,
    .bigint false,.double,.blob,.datetime,.date]

theorem mem_mysqlTypes (ty : MySqlType) : ty ∈ mysqlTypes := by
  cases ty with
  | tinyint u => cases u <;> decide
  | smallint u => cases u <;> decide
  | int u => cases u <;> decide
  | bigint u => cases u <;> decide
  | _ => decide

/-- A definition tells the type and whether null is allowed. -/
theorem mysqlDefinition_inj {name : Text} {ty ty' : MySqlType} {null null' : Bool}
    (h : mysqlDefinition name ty.text null = mysqlDefinition name ty'.text null') :
    ty = ty' ∧ null = null' := by
  have hall : ∀ ty ∈ mysqlTypes, ∀ ty' ∈ mysqlTypes, ∀ n ∈ [true,false], ∀ n' ∈ [true,false],
      ty.text ++ (" ".toList ++ if n then "NULL".toList else "NOT NULL".toList) =
        ty'.text ++ (" ".toList ++ if n' then "NULL".toList else "NOT NULL".toList) →
      ty = ty' ∧ n = n' := by decide +kernel
  unfold mysqlDefinition at h
  simp only [List.append_assoc,List.append_cancel_left_eq] at h
  exact hall ty (mem_mysqlTypes ty) ty' (mem_mysqlTypes ty') null (by cases null <;> simp) null'
    (by cases null' <;> simp) h

def postgresqlTypes : List PostgreSqlType :=
  [.smallint,.integer,.bigint,.real,.doublePrecision,.timestamp,.date,.text]

theorem mem_postgresqlTypes (ty : PostgreSqlType) : ty ∈ postgresqlTypes := by
  cases ty <;> decide

theorem postgresqlDefinition_inj {name : Text} {ty ty' : PostgreSqlType} {array array' null null' : Bool}
    (h : postgresqlDefinition name ty.name array null = postgresqlDefinition name ty'.name array' null') :
    ty = ty' ∧ array = array' ∧ null = null' := by
  have hall : ∀ ty ∈ postgresqlTypes, ∀ ty' ∈ postgresqlTypes, ∀ a ∈ [true,false], ∀ a' ∈ [true,false],
      ∀ n ∈ [true,false], ∀ n' ∈ [true,false],
      ty.name ++ ((if a then "[]".toList else []) ++ if n then [] else " NOT NULL".toList) =
        ty'.name ++ ((if a' then "[]".toList else []) ++ if n' then [] else " NOT NULL".toList) →
      ty = ty' ∧ a = a' ∧ n = n' := by decide +kernel
  unfold postgresqlDefinition at h
  simp only [List.append_assoc,List.append_cancel_left_eq] at h
  exact hall ty (mem_postgresqlTypes ty) ty' (mem_postgresqlTypes ty') array (by cases array <;> simp) array'
    (by cases array' <;> simp) null (by cases null <;> simp) null' (by cases null' <;> simp) h

/-- Where a chain ends, by the type that it gives for each leaf. -/
theorem find?_branch {τ : Type} {branches : List (TypeClass × Text)} {type : Leaf → Option τ} {text : τ → Text}
    (htable : ∀ l : Leaf, (branches.find? fun b => l.isInstance b.1).map Prod.snd = (type l).map text)
    {l : Leaf} {ty : τ} (hty : type l = some ty) :
    ∃ b, (branches.find? fun b => (DataType.leaf l).isInstance b.1) = some b ∧ b.2 = text ty := by
  have hmap := htable l
  rw [hty] at hmap
  exact Option.map_eq_some_iff.1 hmap

theorem find?_branch_none {τ : Type} {branches : List (TypeClass × Text)} {type : Leaf → Option τ}
    {text : τ → Text}
    (htable : ∀ l : Leaf, (branches.find? fun b => l.isInstance b.1).map Prod.snd = (type l).map text)
    {d : DataType} (h : ∀ l, d = .leaf l → (type l).isSome = false) :
    (branches.find? fun b => d.isInstance b.1) = none := by
  cases d with
  | leaf l =>
    have hnone : type l = none := by simpa using h l rfl
    have hmap := htable l
    rw [hnone] at hmap
    exact Option.map_eq_none_iff.1 hmap
  | _ => exact List.find?_eq_none.2 fun _ _ => Bool.false_ne_true

section
variable {d : DataType} {l : Leaf} (name : Text)

theorem mysqlConversion_ok {ty : MySqlType} (hd : d.unwrap = .leaf l) (hty : mysqlType l = some ty) :
    mysqlConversion name d = .ok (mysqlDefinition name ty.text d.isNullable) := by
  obtain ⟨b,hb,hbt⟩ := find?_branch mysqlBranches_find hty
  rw [mysqlConversion_eq,hd,hb,← hbt]

theorem mysqlConversion_error (h : ∀ l, d.unwrap = .leaf l → mysqlSupported l = false) :
    ∃ message, mysqlConversion name d = .error message := by
  have hfind := find?_branch_none mysqlBranches_find fun l hl => (mysqlType_isSome l).trans (h l hl)
  rw [mysqlConversion_eq,hfind]
  exact ⟨_,rfl⟩

theorem postgresqlConversion_some {ty : PostgreSqlType} (hd : d.element.unwrap = .leaf l)
    (hty : postgresqlType l = some ty) :
    postgresqlConversion name d = some (postgresqlDefinition name ty.name d.isArray d.isNullable) := by
  obtain ⟨b,hb,hbt⟩ := find?_branch postgresqlBranches_find hty
  rw [postgresqlConversion,hd,hb,← hbt]
  rfl

/-- A type without a branch is not rejected. -/
theorem postgresqlConversion_none (h : ∀ l, d.element.unwrap = .leaf l → postgresqlSupported l = false) :
    postgresqlConversion name d = none := by
  have hfind := find?_branch_none postgresqlBranches_find fun l hl =>
    (postgresqlType_isSome l).trans (h l hl)
  rw [postgresqlConversion,hfind]
  rfl

end

section
variable (S : Server) (name : Text) (d : DataType)

theorem mySqlSound_iff :
    MySqlSound S name d ↔
      ∀ l, d.unwrap = .leaf l → mysqlSupported l = true → mysqlFits l ∧ d.nullInside = false := by
  unfold MySqlSound
  by_cases h : ∀ l, d.unwrap = .leaf l → mysqlSupported l = false
  · obtain ⟨message,hm⟩ := mysqlConversion_error name h
    rw [hm]
    refine ⟨fun _ l hl hsup => ?_,fun _ => trivial⟩
    rw [h l hl] at hsup
    cases hsup
  · simp only [not_forall,Bool.not_eq_false] at h
    obtain ⟨l,hl,hsup⟩ := h
    have htype := hsup
    rw [← mysqlType_isSome,Option.isSome_iff_exists] at htype
    obtain ⟨ty,hty⟩ := htype
    have hcolumn : (∃ ty' null, mysqlDefinition name ty.text d.isNullable =
        mysqlDefinition name (MySqlType.text ty') null ∧ Adequate S d (ty'.Holds null) null) ↔
        Adequate S d (ty.Holds d.isNullable) d.isNullable := by
      constructor
      · rintro ⟨ty',null,hdef,h⟩
        obtain ⟨rfl,rfl⟩ := mysqlDefinition_inj hdef
        exact h
      · exact fun h => ⟨ty,d.isNullable,rfl,h⟩
    have hiff := adequate_wrapped_iff hl (S := S) (fun hf t v => mysql_represents hty hf) (mysql_fails S hty)
    rw [mysqlConversion_ok name hl hty]
    refine (hcolumn.trans hiff).trans ?_
    constructor
    · intro h l' hl' _
      cases hl.symm.trans hl'
      exact h
    · exact fun h => h l hl hsup

theorem postgreSqlSound_iff :
    PostgreSqlSound S name d ↔
      ∃ l, d.element.unwrap = .leaf l ∧ postgresqlSupported l = true ∧ postgresqlFits l ∧
        d.nullInside = false := by
  unfold PostgreSqlSound
  by_cases h : ∀ l, d.element.unwrap = .leaf l → postgresqlSupported l = false
  · rw [postgresqlConversion_none name h]
    refine ⟨False.elim,?_⟩
    rintro ⟨l,hl,hsup,-⟩
    rw [h l hl] at hsup
    cases hsup
  · simp only [not_forall,Bool.not_eq_false] at h
    obtain ⟨l,hl,hsup⟩ := h
    have htype := hsup
    rw [← postgresqlType_isSome,Option.isSome_iff_exists] at htype
    obtain ⟨ty,hty⟩ := htype
    have hcolumn : (∃ ty' array null, postgresqlDefinition name ty.name d.isArray d.isNullable =
        postgresqlDefinition name (PostgreSqlType.name ty') array null ∧
          Adequate S d (ty'.Holds array null) null) ↔
        Adequate S d (ty.Holds d.isArray d.isNullable) d.isNullable := by
      constructor
      · rintro ⟨ty',array,null,hdef,h⟩
        obtain ⟨rfl,rfl,rfl⟩ := postgresqlDefinition_inj hdef
        exact h
      · exact fun h => ⟨ty,d.isArray,d.isNullable,rfl,h⟩
    have hiff : Adequate S d (ty.Holds d.isArray d.isNullable) d.isNullable ↔
        postgresqlFits l ∧ d.nullInside = false := by
      cases d with
      | array e =>
        have h := adequate_array_iff (d := e) hl (S := S) (fun hf t v => postgresql_represents hty hf)
          (postgresql_fails S hty)
        exact h.trans (and_iff_left rfl).symm
      | _ =>
        exact adequate_wrapped_iff hl (S := S) (fun hf t v => postgresql_represents hty hf)
          (postgresql_fails S hty)
    rw [postgresqlConversion_some name hl hty]
    refine (hcolumn.trans hiff).trans ?_
    constructor
    · exact fun h => ⟨l,hl,hsup,h⟩
    · rintro ⟨l',hl',-,h⟩
      cases hl.symm.trans hl'
      exact h

/-- Which columns the two conversions define so that every value and `NULL` fit. -/
theorem conversions_iff :
    (MySqlSound S name d ↔
      ∀ l, d.unwrap = .leaf l → mysqlSupported l = true → mysqlFits l ∧ d.nullInside = false) ∧
    (PostgreSqlSound S name d ↔
      ∃ l, d.element.unwrap = .leaf l ∧ postgresqlSupported l = true ∧ postgresqlFits l ∧
        d.nullInside = false) :=
  ⟨mySqlSound_iff S name d,postgreSqlSound_iff S name d⟩

end

/-- What the server below makes of the texts of a leaf. -/
def leafDenotes : Leaf → Text → Value → Prop
  | .int k,t,v => ∃ n, k.min ≤ n ∧ n ≤ k.max ∧ t = (Leaf.int k).convert (str n) ∧ v = .int n
  | .dateTime64 p b,t,v => 0 ≤ p ∧ p ≤ 9 ∧ ∃ u m,
    (quote u = (Leaf.dateTime64 p b).max ∨ quote u = (Leaf.dateTime64 p b).min) ∧
    readMoment u = some m ∧ (t = quote u ∨ t = (Leaf.dateTime64 p b).limitValue (quote u)) ∧
    v = .dateTime (m.truncate p.toNat)
  | .string,t,v => ∃ u, (t = quote u ∨ t = Leaf.string.convert (quote u)) ∧
    (∀ c ∈ u, c.isAlphanum = true) ∧ v = .bytes (ascii u)
  | .fixedString n,t,v => 1 ≤ n ∧ n ≤ fixedStringLimit ∧ ∃ u : Text, u.length ≤ n.toNat ∧ t = quote u ∧
    v = .bytes (ascii u ++ List.replicate (n.toNat-u.length) 0)
  | _,_,_ => False

def literalDenotes : DataType → Text → Value → Prop
  | .leaf l,t,v => leafDenotes l t v
  | .nullable d,t,v => if t = "Null".toList then v = .null else literalDenotes d t v
  | .lowCardinality d,t,v => literalDenotes d t v
  | .array d,t,v => ∃ u w, t = '[' :: (u ++ [']']) ∧ literalDenotes d u w ∧ v = .array [w]
  | .tuple _,_,_ => False
  | .map _ _,_,_ => False

theorem quote_injective : Function.Injective quote := by
  intro a b h
  simpa [quote] using h

theorem quote_ne_call (u f a : Text) : quote u ≠ call ('t' :: f) a := by
  intro h
  exact absurd (List.cons.inj h).1 (by decide)

theorem call_injective (f : Text) : Function.Injective (call f) := by
  intro a b h
  simpa [call] using h

theorem limit_moment {p : ℤ} {b : Bool} {u : Text} {m : Moment}
    (hu : quote u = (Leaf.dateTime64 p b).max ∨ quote u = (Leaf.dateTime64 p b).min)
    (hm : readMoment u = some m) : 1900 ≤ m.year ∧ m.year ≤ 2299 ∧ m.nanosecond < 10^9 := by
  have hread : ∀ {w : Text} {k : Moment}, quote u = quote w → readMoment w = some k → m = k := by
    intro w k hw hk
    rw [quote_injective hw,hk] at hm
    exact (Option.some.inj hm).symm
  rcases hu with hu | hu
  · rw [Leaf.max,Leaf.dateTime64Max] at hu
    split at hu
    · split at hu
      · rw [hread hu (k := ⟨2283,11,11,23,59,59,999999990⟩) (by rfl)]
        decide
      · rw [hread hu (k := ⟨2299,12,31,23,59,59,999999990⟩) (by rfl)]
        decide
    · rw [hread hu (k := ⟨2262,4,11,23,47,16,0⟩) (by rfl)]
      decide
  · rw [Leaf.min,Leaf.dateTime64Min] at hu
    split at hu
    · rw [hread hu (k := ⟨1925,1,1,0,0,0,0⟩) (by rfl)]
      decide
    · rw [hread hu (k := ⟨1900,1,1,0,0,0,0⟩) (by rfl)]
      decide

theorem truncate_truncate (m : Moment) (p : ℕ) : (m.truncate p).truncate p = m.truncate p := by
  have hpos : 0 < 10^(9-p) := by positivity
  simp only [Moment.truncate,Nat.mul_div_cancel _ hpos]

theorem limitValue_dateTime64_inj {p : ℤ} {b : Bool} {x y : Text}
    (h : (Leaf.dateTime64 p b).limitValue x = (Leaf.dateTime64 p b).limitValue y) : x = y := by
  have h' := call_injective _ h
  simpa using h'

theorem literalDenotes_fixedString (n : ℤ) (t : Text) (v : Value)
    (h : literalDenotes (.leaf (.fixedString n)) t v) :
    1 ≤ n ∧ n ≤ fixedStringLimit ∧ ∃ b, v = .bytes b ∧ b.length = n.toNat := by
  obtain ⟨h₁,h₂,u,hu,-,rfl⟩ := h
  refine ⟨h₁,h₂,_,rfl,?_⟩
  rw [List.length_append,ascii,List.length_map,List.length_replicate]
  omega

/-- A server that knows integers, strings and the limits of `DateTime64`. -/
def literalServer : Server where
  Denotes := literalDenotes
  nullable_null d v := by simp [literalDenotes]
  nullable_value d t v ht := by rw [literalDenotes,if_neg ht]
  lowCardinality d t v := Iff.rfl
  array d t v _ _ := by
    constructor
    · rintro ⟨u,w,hu,hw,rfl⟩
      have ht : t = u := by simpa using hu
      exact ⟨w,ht ▸ hw,rfl⟩
    · rintro ⟨w,hw,rfl⟩
      exact ⟨t,w,rfl,hw,rfl⟩
  int_range k t v := by
    rintro ⟨n,h₁,h₂,-,rfl⟩
    exact ⟨n,rfl,h₁,h₂⟩
  int_value k n h₁ h₂ := ⟨n,h₁,h₂,rfl,rfl⟩
  float32_range _ _ h := h.elim
  float64_range _ _ h := h.elim
  float32_finite _ _ _ _ _ h := h.elim
  float64_finite _ _ _ _ _ h := h.elim
  float64_numeral _ _ _ _ _ h := h.elim
  date_range _ _ h := h.elim
  date32_range _ _ h := h.elim
  dateTime_range _ _ h := h.elim
  dateTime64_range p b t v := by
    rintro ⟨h₀,h₉,u,m,hu,hm,-,rfl⟩
    obtain ⟨h₁,h₂,hnano⟩ := limit_moment hu hm
    refine ⟨h₀,h₉,_,rfl,h₁,h₂,?_,truncate_truncate m p.toNat⟩
    exact (Nat.div_mul_le_self _ _).trans_lt hnano
  dateTime64_limit p b t m v h₀ h₉ ht hm := by
    have hsame : ∀ {u : Text} {k : Moment}, quote t = quote u → readMoment u = some k → k = m := by
      intro u k hu hk
      rw [← quote_injective hu,hm] at hk
      exact (Option.some.inj hk).symm
    refine ⟨⟨?_,?_⟩,⟨?_,?_⟩⟩
    · rintro ⟨-,-,u,k,-,hk,he | he,rfl⟩
      · exact absurd he.symm (quote_ne_call _ _ _)
      · rw [hsame (limitValue_dateTime64_inj he) hk]
    · rintro rfl
      exact ⟨h₀,h₉,t,m,ht,hm,.inr rfl,rfl⟩
    · rintro ⟨-,-,u,k,-,hk,he | he,rfl⟩
      · rw [hsame he hk]
      · exact absurd he (quote_ne_call _ _ _)
    · rintro rfl
      exact ⟨h₀,h₉,t,m,ht,hm,.inl rfl,rfl⟩
  dateTime64_seconds p b n v := by
    rintro ⟨-,-,u,k,-,-,he | he,-⟩
    · exact absurd he.symm (quote_ne_call _ _ _)
    · have hstr : str n = quote u := by simpa using call_injective _ he
      have hquote : '\'' ∈ str n := by simp [hstr,quote]
      rcases str_chars n hquote with h | h
      · exact absurd h (by decide)
      · exact absurd h (by decide)
  string_value t v ht := by
    refine ⟨⟨?_,?_⟩,⟨?_,?_⟩⟩
    · rintro ⟨u,he | he,-,rfl⟩
      · rw [quote_injective he]
      · exact absurd he (quote_ne_call _ _ _)
    · rintro rfl
      exact ⟨t,.inl rfl,ht,rfl⟩
    · rintro ⟨u,he | he,-,rfl⟩
      · exact absurd he.symm (quote_ne_call _ _ _)
      · rw [quote_injective (call_injective _ he)]
    · rintro rfl
      exact ⟨t,.inr rfl,ht,rfl⟩
  fixedString_range := literalDenotes_fixedString
  fixedString_empty n h₁ h₂ := ⟨h₁,h₂,[],by simp,rfl,by simp [ascii]⟩

/-- `Int32` becomes `INT UNSIGNED`, which has no negative numbers. -/
theorem mysqlConversion_int32 :
    ¬MySqlSound literalServer "int32".toList (.leaf (.int .int32)) := by
  intro h
  have hconv : mysqlConversion "int32".toList (.leaf (.int .int32)) =
      .ok (mysqlDefinition "int32".toList (MySqlType.text (.int true)) false) := rfl
  unfold MySqlSound at h
  rw [hconv] at h
  obtain ⟨ty,null,hdef,hcolumn⟩ := h
  obtain ⟨rfl,rfl⟩ := mysqlDefinition_inj hdef
  have hvalue := hcolumn.values _ (.int (-2147483648)) (.inr (.inl rfl))
    (literalServer.int_value .int32 _ le_rfl (by decide))
  rcases hvalue with ⟨hnull,-⟩ | ⟨n,hn,h₀,-⟩
  · cases hnull
  · cases hn
    exact absurd h₀ (by decide)

end ClickHouseRegression.Parquet
