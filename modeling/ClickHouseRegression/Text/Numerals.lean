import Mathlib

/-! Two decimal numerals written one after the other without a separator, and which other pairs of
numbers give the same text. -/
namespace ClickHouseRegression.Numerals

theorem toDigits_inj {a b : ℕ} (h : Nat.toDigits 10 a = Nat.toDigits 10 b) : a = b := by
  rw [← Nat.ofDigitChars_ten_toDigits (n := a),h,Nat.ofDigitChars_ten_toDigits]

theorem lt_pow_length (n : ℕ) : n < 10^(Nat.toDigits 10 n).length :=
  (Nat.length_toDigits_le_iff (by decide) Nat.length_toDigits_pos).1 le_rfl

theorem pow_le_of_lt_length {n k : ℕ} (hk : 0 < k) (h : k < (Nat.toDigits 10 n).length) : 10^k ≤ n := by
  by_contra hn
  have hle := (Nat.length_toDigits_le_iff (n := n) (by decide : 1 < 10) hk).2 (by omega)
  omega

/-- The value of two numerals one after the other. -/
theorem toDigits_append {a : ℕ} (ha : 0 < a) (b : ℕ) :
    Nat.toDigits 10 a ++ Nat.toDigits 10 b = Nat.toDigits 10 (a*10^(Nat.toDigits 10 b).length+b) := by
  induction b using Nat.strong_induction_on with
  | _ b ih =>
    by_cases hb : b < 10
    · have hlength : (Nat.toDigits 10 b).length = 1 := by rw [Nat.toDigits_of_lt_base hb]; rfl
      rw [Nat.toDigits_append_toDigits (by decide) ha hb,hlength,pow_one,Nat.mul_comm]
    · have hsplit : Nat.toDigits 10 b = Nat.toDigits 10 (b/10) ++ Nat.toDigits 10 (b%10) := by
        rw [Nat.toDigits_append_toDigits (by decide) (by omega) (by omega),Nat.div_add_mod]
      have hlength : (Nat.toDigits 10 b).length = (Nat.toDigits 10 (b/10)).length+1 := by
        rw [hsplit,List.length_append,Nat.toDigits_of_lt_base (by omega : b%10 < 10)]
        rfl
      rw [hsplit,← List.append_assoc,ih (b/10) (by omega),
        Nat.toDigits_append_toDigits (by decide) (Nat.add_pos_left (Nat.mul_pos ha (by positivity)) _)
          (by omega),← hsplit,hlength,pow_succ]
      congr 1
      have := Nat.div_add_mod b 10
      ring_nf
      omega

/-- The value of a numeral to the base 16. -/
def hexValue (t : List Char) : ℕ :=
  t.foldl (fun v c => 16*v+(if c.isDigit then c.toNat-48 else c.toNat-87)) 0

theorem hexValue_concat (t : List Char) {d : ℕ} (hd : d < 16) :
    hexValue (t ++ [d.digitChar]) = 16*hexValue t+d := by
  have hdigit : (if d.digitChar.isDigit then d.digitChar.toNat-48 else d.digitChar.toNat-87) = d := by
    interval_cases d <;> rfl
  rw [hexValue,List.foldl_append,List.foldl_cons,List.foldl_nil,hdigit,hexValue]

theorem hexValue_toDigits (n : ℕ) : hexValue (Nat.toDigits 16 n) = n := by
  induction n using Nat.strong_induction_on with
  | _ n ih =>
    by_cases hn : n < 16
    · rw [Nat.toDigits_of_lt_base hn,← List.nil_append [n.digitChar],hexValue_concat [] hn]
      exact Nat.zero_add n
    · have hlast := Nat.toDigits_append_toDigits (b := 16) (n := n/16) (d := n%16) (by decide)
        (by omega) (by omega)
      rw [Nat.div_add_mod,Nat.toDigits_of_lt_base (by omega : n%16 < 16)] at hlast
      rw [← hlast,hexValue_concat _ (by omega),ih (n/16) (by omega)]
      omega

/-- Zeros in front change nothing. -/
theorem hexValue_zeros (k : ℕ) (t : List Char) : hexValue (List.replicate k '0' ++ t) = hexValue t := by
  induction k with
  | zero => rfl
  | succ k ih =>
    rw [List.replicate_succ,List.cons_append]
    exact ih

/-- The last `k` digits of a longer numeral are a numeral as well: they do not begin with zero. -/
structure Ends (n k : ℕ) : Prop where
  pos : 0 < k
  longer : 10^k ≤ n
  noZero : 10^(k-1) ≤ n%10^k

theorem length_of_bounds {n k : ℕ} (hk : 0 < k) (hlow : 10^(k-1) ≤ n) (hhigh : n < 10^k) :
    (Nat.toDigits 10 n).length = k := by
  have hle := (Nat.length_toDigits_le_iff (by decide : 1 < 10) hk).2 hhigh
  by_contra hne
  rcases Nat.eq_zero_or_pos (k-1) with hzero | hpos
  · have := Nat.length_toDigits_pos (b := 10) (n := n)
    omega
  · have hlt := (Nat.length_toDigits_le_iff (n := n) (by decide : 1 < 10) hpos).1 (by omega)
    omega

/-- A zero can be written after the whole numeral or after its end. -/
theorem Ends.collision {n k : ℕ} (h : Ends n k) :
    Nat.toDigits 10 (n/10^k) ++ Nat.toDigits 10 (10*(n%10^k)) = Nat.toDigits 10 n ++ Nat.toDigits 10 0 := by
  have hend : 0 < n%10^k := lt_of_lt_of_le (by positivity) h.noZero
  have hfront : 0 < n/10^k := Nat.div_pos h.longer (by positivity)
  have hlength := length_of_bounds h.pos h.noZero (Nat.mod_lt n (by positivity))
  have hzero : Nat.toDigits 10 (10*(n%10^k)) = Nat.toDigits 10 (n%10^k) ++ Nat.toDigits 10 0 := by
    rw [Nat.toDigits_append_toDigits (by decide) hend (by decide),Nat.add_zero]
  have hwhole : n/10^k*10^k+n%10^k = n := by rw [Nat.mul_comm]; exact Nat.div_add_mod n (10^k)
  rw [hzero,← List.append_assoc,toDigits_append hfront,hlength,hwhole]

theorem value_append {a b : ℕ} {s : List Char} (h : Nat.toDigits 10 a = Nat.toDigits 10 b ++ s) :
    a = 10^s.length*b+Nat.ofDigitChars 10 s 0 := by
  rw [← Nat.ofDigitChars_ten_toDigits (n := a),h,Nat.ofDigitChars_append,
    Nat.ofDigitChars_ten_toDigits,Nat.ofDigitChars_eq_ofDigitChars_zero]

theorem value_prepend {a b : ℕ} {s : List Char} (h : Nat.toDigits 10 a = s ++ Nat.toDigits 10 b) :
    a = 10^(Nat.toDigits 10 b).length*Nat.ofDigitChars 10 s 0+b := by
  rw [← Nat.ofDigitChars_ten_toDigits (n := a),h,Nat.ofDigitChars_append,
    Nat.ofDigitChars_eq_ofDigitChars_zero,Nat.ofDigitChars_ten_toDigits]

/-- The digits in front of the last ones, from bounds on the whole numeral. -/
theorem front_bounds {v k M m : ℕ} (hm : m < M) (hlow : 10^(k-1)*M ≤ M*v+m) (hhigh : M*v+m < 10^k*M) :
    10^(k-1) ≤ v ∧ v < 10^k := by
  constructor
  · by_contra h
    have := Nat.mul_le_mul_left M (not_le.1 h)
    rw [Nat.mul_comm M (10^(k-1)),Nat.mul_succ] at this
    omega
  · by_contra h
    have := Nat.mul_le_mul_left M (not_lt.1 h)
    rw [Nat.mul_comm M (10^k)] at this
    omega

/-- The only other way to read the same text is to move the end of the longer first numeral to the
second one. -/
theorem ends_of_collision {j i n m : ℕ}
    (h : Nat.toDigits 10 j ++ Nat.toDigits 10 i = Nat.toDigits 10 n ++ Nat.toDigits 10 m)
    (hshort : (Nat.toDigits 10 j).length < (Nat.toDigits 10 n).length) :
    ∃ k, Ends n k ∧ j = n/10^k ∧ 10*(n%10^k) ≤ i := by
  obtain ⟨s,hn,hi⟩ : ∃ s, Nat.toDigits 10 n = Nat.toDigits 10 j ++ s ∧
      Nat.toDigits 10 i = s ++ Nat.toDigits 10 m := by
    rcases List.append_eq_append_iff.1 h with ⟨s,hn,hi⟩ | ⟨s,hj,-⟩
    · exact ⟨s,hn,hi⟩
    · rw [hj,List.length_append] at hshort
      omega
  have hk : 0 < s.length := by
    rw [hn,List.length_append] at hshort
    omega
  have hm : 0 < (Nat.toDigits 10 m).length := Nat.length_toDigits_pos
  have hlength : (Nat.toDigits 10 i).length = s.length+(Nat.toDigits 10 m).length := by
    rw [hi,List.length_append]
  have hnValue := value_append hn
  have hiValue := value_prepend hi
  have hilow : 10^(s.length-1+(Nat.toDigits 10 m).length) ≤ i := pow_le_of_lt_length (by omega) (by omega)
  have hihigh := lt_pow_length i
  have hmhigh := lt_pow_length m
  have hnlow : 10^s.length ≤ n := by
    apply pow_le_of_lt_length hk
    have := Nat.length_toDigits_pos (b := 10) (n := j)
    rw [hn,List.length_append]
    omega
  generalize Nat.ofDigitChars 10 s 0 = v at *
  rw [pow_add,hiValue] at hilow
  rw [hlength,pow_add,hiValue] at hihigh
  have hten : 10 ≤ 10^(Nat.toDigits 10 m).length := Nat.le_self_pow (by omega) 10
  obtain ⟨hlow,hhigh⟩ := front_bounds hmhigh hilow hihigh
  have hmod : n%10^s.length = v := by rw [hnValue,Nat.mul_add_mod,Nat.mod_eq_of_lt hhigh]
  have hdiv : n/10^s.length = j := by
    rw [hnValue,Nat.mul_add_div (by positivity),Nat.div_eq_of_lt hhigh,Nat.add_zero]
  refine ⟨s.length,⟨hk,hnlow,?_⟩,hdiv.symm,?_⟩
  · rw [hmod]
    exact hlow
  · rw [hmod]
    have := Nat.mul_le_mul_right v hten
    omega

end ClickHouseRegression.Numerals
