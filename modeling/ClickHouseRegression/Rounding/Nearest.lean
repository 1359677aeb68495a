import Mathlib

/-! Rounding a rational number to a binary fraction with so many digits, to the nearest one and in
the middle to the even one. Exponents are not bounded. -/
namespace ClickHouseRegression.Rounding

/-- The nearest integer, of two the even one. -/
def roundEven (q : ℚ) : ℤ :=
  if q-⌊q⌋ < 1/2 then ⌊q⌋
  else if 1/2 < q-⌊q⌋ then ⌊q⌋+1
  else if Even ⌊q⌋ then ⌊q⌋ else ⌊q⌋+1

theorem roundEven_intCast (n : ℤ) : roundEven n = n := by
  rw [roundEven,Int.floor_intCast,sub_self,if_pos (by norm_num)]

theorem roundEven_mem (q : ℚ) : ⌊q⌋ ≤ roundEven q ∧ roundEven q ≤ ⌊q⌋+1 := by
  unfold roundEven
  split_ifs <;> omega

/-- An even number is reached from half below it. -/
theorem le_roundEven_iff {m : ℤ} (hm : Even m) (q : ℚ) : m ≤ roundEven q ↔ (m : ℚ)-1/2 ≤ q := by
  have hlow := Int.floor_le q
  have hhigh := Int.lt_floor_add_one q
  have hcast : ∀ k : ℤ, m ≤ k ↔ (m : ℚ) ≤ k := fun k => Int.cast_le.symm
  have hnext : m ≤ ⌊q⌋+1 ↔ (m : ℚ) ≤ ⌊q⌋+1 := by
    rw [hcast]
    push_cast
    rfl
  -- below the floor an integer is at least one away
  have hgap : ¬ m ≤ ⌊q⌋+1 → (⌊q⌋ : ℚ)+2 ≤ m := by
    intro h
    have h2 : ⌊q⌋+2 ≤ m := by omega
    exact_mod_cast h2
  unfold roundEven
  split_ifs with hless hmore heven
  · constructor
    · intro h
      have := (hcast _).1 h
      linarith
    · intro h
      by_contra hlt
      have h1 : ⌊q⌋+1 ≤ m := by omega
      have h2 : (⌊q⌋ : ℚ)+1 ≤ m := by exact_mod_cast h1
      linarith
  · constructor
    · intro h
      have := hnext.1 h
      linarith
    · intro h
      by_contra hlt
      have := hgap hlt
      linarith
  · constructor
    · intro h
      have := (hcast _).1 h
      linarith
    · intro h
      by_contra hlt
      -- only the odd number after the floor is half away
      have hodd : m ≠ ⌊q⌋+1 := by
        rintro rfl
        exact (Int.even_add_one.1 hm) heven
      have h1 : ⌊q⌋+2 ≤ m := by omega
      have h2 : (⌊q⌋ : ℚ)+2 ≤ m := by exact_mod_cast h1
      linarith
  · constructor
    · intro h
      have := hnext.1 h
      linarith
    · intro h
      by_contra hlt
      have := hgap hlt
      linarith

theorem roundEven_neg (q : ℚ) : roundEven (-q) = -roundEven q := by
  have hlow := Int.floor_le q
  have hhigh := Int.lt_floor_add_one q
  rcases hlow.eq_or_lt with hint | hlt
  · rw [← hint,← Int.cast_neg,roundEven_intCast,roundEven_intCast]
  · have hfloor : ⌊-q⌋ = -⌊q⌋-1 := by
      rw [Int.floor_eq_iff]
      push_cast
      constructor <;> linarith
    have heven : Even (-⌊q⌋-1) ↔ ¬ Even ⌊q⌋ := by
      rw [Int.even_sub_one,even_neg]
    unfold roundEven
    rw [hfloor]
    push_cast
    rcases lt_trichotomy (q-⌊q⌋) (1/2) with h | h | h
    · rw [if_neg (by linarith),if_pos (by linarith),if_pos h]
      ring
    · by_cases he : Even ⌊q⌋
      · rw [if_neg (by linarith),if_neg (by linarith),if_neg fun h => heven.1 h he,
          if_neg (by linarith),if_neg (by linarith),if_pos he]
        ring
      · rw [if_neg (by linarith),if_neg (by linarith),if_pos (heven.2 he),if_neg (by linarith),
          if_neg (by linarith),if_neg he]
        ring
    · rw [if_pos (by linarith),if_neg (by linarith),if_pos h]
      ring

/-- The distance of two neighbours with `width` digits, where the number lies. -/
def spacing (width : ℕ) (q : ℚ) : ℚ := (2 : ℚ)^(Int.log 2 |q|-(width-1))

def nearest (width : ℕ) (q : ℚ) : ℚ := roundEven (q/spacing width q)*spacing width q

variable {width : ℕ}

theorem spacing_pos (q : ℚ) : 0 < spacing width q := zpow_pos (by norm_num) _

theorem spacing_neg (q : ℚ) : spacing width (-q) = spacing width q := by
  rw [spacing,abs_neg,spacing]

theorem nearest_neg (q : ℚ) : nearest width (-q) = -nearest width q := by
  rw [nearest,spacing_neg,neg_div,roundEven_neg,Int.cast_neg,neg_mul,nearest]

/-- A multiple of the spacing stays. -/
theorem nearest_eq_self_of_multiple {q : ℚ} {k : ℤ} (h : q = k*spacing width q) :
    nearest width q = q := by
  have hne := (spacing_pos q : 0 < spacing width q).ne'
  have hdiv : q/spacing width q = k := by
    rw [div_eq_iff hne]
    exact h
  rw [nearest,hdiv,roundEven_intCast]
  exact h.symm

/-- A binary fraction that needs no more digits stays. -/
theorem nearest_eq_self {k j : ℤ} (hk : |k| < 2^width) : nearest width (k*2^j) = k*2^j := by
  rcases eq_or_ne k 0 with rfl | hne
  · refine nearest_eq_self_of_multiple (k := 0) ?_
    simp
  · have hpos : (0 : ℚ) < |(k*2^j : ℚ)| := by positivity
    have hsize : |(k*2^j : ℚ)| < (2 : ℚ)^((width : ℤ)+j) := by
      rw [abs_mul,abs_of_pos (by positivity : (0 : ℚ) < 2^j),zpow_add₀ (by norm_num),zpow_natCast]
      have hcast : |(k : ℚ)| < 2^width := by exact_mod_cast hk
      exact mul_lt_mul_of_pos_right hcast (by positivity)
    have hlog : Int.log 2 |(k*2^j : ℚ)| < width+j :=
      (Int.lt_zpow_iff_log_lt (by norm_num) hpos).1 (by exact_mod_cast hsize)
    obtain ⟨n,hn⟩ := Int.eq_ofNat_of_zero_le
      (show 0 ≤ j-(Int.log 2 |(k*2^j : ℚ)|-(width-1)) by omega)
    refine nearest_eq_self_of_multiple (k := k*2^n) ?_
    have hexp : j = n+(Int.log 2 |(k*2^j : ℚ)|-(width-1)) := by omega
    rw [spacing,Int.cast_mul,Int.cast_pow,mul_assoc]
    congr 1
    rw [Int.cast_ofNat,← zpow_natCast,← zpow_add₀ (by norm_num)]
    exact congrArg _ hexp

/-- What has been rounded stays. -/
theorem nearest_nearest (hwidth : 0 < width) (q : ℚ) : nearest width (nearest width q) = nearest width q := by
  have hpos : 0 < spacing width q := spacing_pos q
  have hsize : |q/spacing width q| < 2^width := by
    rw [abs_div,abs_of_pos hpos,div_lt_iff₀ hpos,spacing,← zpow_natCast,← zpow_add₀ (by norm_num),
      (by ring : (width : ℤ)+(Int.log 2 |q|-(width-1)) = Int.log 2 |q|+1)]
    exact Int.lt_zpow_succ_log_self (by norm_num) |q|
  obtain ⟨hlow,hhigh⟩ := abs_lt.1 hsize
  obtain ⟨hfloor,hceil⟩ := roundEven_mem (q/spacing width q)
  have hle : roundEven (q/spacing width q) ≤ 2^width := by
    have hlt : ⌊q/spacing width q⌋ < (2^width : ℤ) := Int.floor_lt.2 (by exact_mod_cast hhigh)
    omega
  have hge : -(2^width : ℤ) ≤ roundEven (q/spacing width q) := by
    have hge : -(2^width : ℤ) ≤ ⌊q/spacing width q⌋ := Int.le_floor.2 (by exact_mod_cast hlow.le)
    omega
  change nearest width (roundEven (q/spacing width q)*2^(Int.log 2 |q|-(width-1) : ℤ)) =
    roundEven (q/spacing width q)*2^(Int.log 2 |q|-(width-1) : ℤ)
  generalize roundEven (q/spacing width q) = r at hle hge
  rcases (abs_le.2 ⟨hge,hle⟩).lt_or_eq with hlt | heq
  · exact nearest_eq_self hlt
  · -- the next power of two needs one digit
    have hone : ∀ k : ℤ, |k| = 1 → r = k*2^width →
        nearest width (r*2^(Int.log 2 |q|-(width-1) : ℤ)) = r*2^(Int.log 2 |q|-(width-1) : ℤ) := by
      intro k hk hr
      have hpower : (r : ℚ)*2^(Int.log 2 |q|-(width-1) : ℤ) =
          k*2^((width : ℤ)+(Int.log 2 |q|-(width-1))) := by
        rw [hr,zpow_add₀ (by norm_num)]
        push_cast
        rw [zpow_natCast,mul_assoc]
      rw [hpower]
      refine nearest_eq_self ?_
      rw [hk]
      exact one_lt_pow₀ (by norm_num) hwidth.ne'
    rcases abs_eq (by positivity) |>.1 heq with hr | hr
    · exact hone 1 rfl (by rw [hr,one_mul])
    · exact hone (-1) rfl (by rw [hr,neg_one_mul])

theorem nearest_intCast {n : ℤ} (h : |n| < 2^width) : nearest width n = n := by
  have hself := nearest_eq_self (j := 0) h
  rwa [zpow_zero,mul_one] at hself

theorem nearest_zero : nearest width 0 = 0 := by
  refine nearest_eq_self_of_multiple (k := 0) ?_
  simp

/-- An integer is reached from half the spacing below it, where neighbours are closer than
integers. -/
theorem le_nearest_iff {q : ℚ} (h : Int.log 2 |q|+1 < width) (m : ℤ) :
    (m : ℚ) ≤ nearest width q ↔ m-spacing width q/2 ≤ q := by
  have hpos : 0 < spacing width q := spacing_pos q
  obtain ⟨n,hn⟩ := Int.eq_ofNat_of_zero_le
    (show 0 ≤ (width : ℤ)-1-Int.log 2 |q|-1 by omega)
  have hinverse : (1 : ℚ) = 2^(n+1)*spacing width q := by
    rw [spacing,← zpow_natCast,← zpow_add₀ (by norm_num),
      (by omega : ((n+1 : ℕ) : ℤ)+(Int.log 2 |q|-(width-1)) = 0),zpow_zero]
  have hm : (m : ℚ) = ((m*2^(n+1) : ℤ) : ℚ)*spacing width q := by
    push_cast
    rw [mul_assoc,← hinverse,mul_one]
  have heven : Even (m*2^(n+1) : ℤ) := by
    rw [pow_succ,← mul_assoc]
    exact even_two.mul_left _
  calc (m : ℚ) ≤ nearest width q
      ↔ ((m*2^(n+1) : ℤ) : ℚ)*spacing width q ≤ roundEven (q/spacing width q)*spacing width q := by
        rw [nearest,← hm]
    _ ↔ m*2^(n+1) ≤ roundEven (q/spacing width q) := by
        rw [mul_le_mul_iff_left₀ hpos,Int.cast_le]
    _ ↔ ((m*2^(n+1) : ℤ) : ℚ)-1/2 ≤ q/spacing width q := le_roundEven_iff heven _
    _ ↔ (((m*2^(n+1) : ℤ) : ℚ)-1/2)*spacing width q ≤ q := le_div_iff₀ hpos
    _ ↔ m-spacing width q/2 ≤ q := by
        rw [sub_mul,← hm]
        ring_nf

end ClickHouseRegression.Rounding
