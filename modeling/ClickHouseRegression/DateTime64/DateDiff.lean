import ClickHouseRegression.Calendar.Civil
import ClickHouseRegression.DateTime64.RelativeNumbers
import ClickHouseRegression.Rounding.Nearest

/-! `date_diff_helper` counts units of time between two datetimes by the time that passed, in floats.
Differences of 544 years and more are longer than a float can tell to the microsecond. -/
namespace ClickHouseRegression.DateTime64
open Calendar Rounding

inductive DiffUnit
  | second
  | minute
  | hour
  | day
  | week
  | month
  | quarter
  | year

/-- `dt2 - dt1` in microseconds. -/
def delta (dt1 dt2 : DateTime) : ℤ := dt2.instant-dt1.instant

/-- The nearest `float`. -/
def float (q : ℚ) : ℚ := nearest 53 q

/-- `(dt2 - dt1).total_seconds()`, a division of integers that is rounded once. -/
def totalSeconds (dt1 dt2 : DateTime) : ℚ := float (delta dt1 dt2/1000000)

/-- The difference in months that the units from the month on are made of. -/
def monthsBetween (dt1 dt2 : DateTime) : ℤ :=
  ((dt2.year : ℤ)-dt1.year)*12+((dt2.month : ℤ)-dt1.month)

def dateDiffHelper (dt1 dt2 : DateTime) : DiffUnit → ℚ
  | .second => totalSeconds dt1 dt2
  | .minute => ⌊totalSeconds dt1 dt2/60⌋
  | .hour => ⌊totalSeconds dt1 dt2/3600⌋
  | .day => ⌊totalSeconds dt1 dt2/86400⌋
  | .week => ⌊totalSeconds dt1 dt2/604800⌋
  | .month => monthsBetween dt1 dt2
  | .quarter => (monthsBetween dt1 dt2/3 : ℤ)
  | .year => (dt2.year : ℚ)-dt1.year

/-- `x + y` for two differences: floats up to the week, then integers. -/
def DiffUnit.add (x y : ℚ) : DiffUnit → ℚ
  | .month => x+y
  | .quarter => x+y
  | .year => x+y
  | _ => float (x+y)

/-- The difference of the relative numbers, where the file has an oracle for the unit. -/
def AgreesWithOracle (dt1 dt2 : DateTime) : DiffUnit → Prop
  | .day => dateDiffHelper dt1 dt2 .day = (toRelativeDayNum dt2-toRelativeDayNum dt1 : ℤ)
  | .week => ∃ m n, toRelativeWeekNum dt1 = some m ∧ toRelativeWeekNum dt2 = some n ∧
      dateDiffHelper dt1 dt2 .week = (n-m : ℤ)
  | .month => dateDiffHelper dt1 dt2 .month = (toRelativeMonthNum dt2-toRelativeMonthNum dt1 : ℤ)
  | .quarter =>
    dateDiffHelper dt1 dt2 .quarter = (toRelativeQuarterNum dt2-toRelativeQuarterNum dt1 : ℤ)
  | _ => True

/-- Additive, antisymmetric and equal to the difference of the oracles. -/
def DiffCoherent (dt1 dt2 dt3 : DateTime) (u : DiffUnit) : Prop :=
  dateDiffHelper dt1 dt3 u = u.add (dateDiffHelper dt1 dt2 u) (dateDiffHelper dt2 dt3 u) ∧
    dateDiffHelper dt1 dt2 u = -dateDiffHelper dt2 dt1 u ∧ AgreesWithOracle dt1 dt2 u

/-- Microseconds in one of the units of fixed length. -/
def unitLength : DiffUnit → ℕ
  | .minute => 60000000
  | .hour => 3600000000
  | .day => 86400000000
  | .week => 604800000000
  | _ => 1

/-- The microseconds within half the distance of two floats, for a difference of so many
microseconds: none below `2^34` seconds, then 1, 3, 7, 15 and 30. -/
def slack (d : ℤ) : ℤ := ((1000000*2^Nat.log 2 (d.natAbs/1000000)/2^53 : ℕ) : ℤ)

/-- Up to `rest` microseconds, too few for a float, the first two datetimes are a whole number of
units apart, and these microseconds carry the difference to the third one into no other unit. -/
def NearlyWholeUnits (dt1 dt2 dt3 : DateTime) (length rest : ℤ) : Prop :=
  |rest| ≤ slack (delta dt1 dt2) ∧ length ∣ delta dt1 dt2-rest ∧
    (delta dt2 dt3+rest+slack (delta dt1 dt3))/length =
      (delta dt2 dt3+slack (delta dt2 dt3))/length

/-- Where the helper counts as it should. Whole sixty-fourths of a second are exact in a float, and
with two equal datetimes no two floats are added that could miss the third. -/
def WholeUnitsApart (dt1 dt2 dt3 : DateTime) : DiffUnit → Prop
  | .second => (15625 ∣ delta dt1 dt2 ∧ 15625 ∣ delta dt2 dt3) ∨
      dt1 = dt2 ∨ dt2 = dt3 ∨ dt1 = dt3
  | .minute => ∃ rest, NearlyWholeUnits dt1 dt2 dt3 (unitLength .minute) rest
  | .hour => ∃ rest, NearlyWholeUnits dt1 dt2 dt3 (unitLength .hour) rest
  | .day => ∃ rest, NearlyWholeUnits dt1 dt2 dt3 (unitLength .day) rest ∧
      (dt1.instant+rest)/unitLength .day = dt1.instant/unitLength .day
  | .week => (∃ rest, NearlyWholeUnits dt1 dt2 dt3 (unitLength .week) rest ∧
      (dt1.instant+rest)/unitLength .week = dt1.instant/unitLength .week) ∧
      dt1.dayNumber+8 < january1 10000 ∧ dt2.dayNumber+8 < january1 10000
  | .quarter => 3 ∣ monthsBetween dt1 dt2
  | .month => True
  | .year => True

theorem delta_abs_lt (dt1 dt2 : DateTime) : |delta dt1 dt2| < 315537897600000000 := by
  have h1 := dt1.instant_nonneg
  have h2 := dt2.instant_nonneg
  have h1' := dt1.instant_lt
  have h2' := dt2.instant_lt
  rw [january1_last,dayLength_eq] at h1' h2'
  rw [delta,abs_lt]
  omega

theorem delta_swap (dt1 dt2 : DateTime) : delta dt2 dt1 = -delta dt1 dt2 := by
  unfold delta
  ring

theorem delta_add (dt1 dt2 dt3 : DateTime) : delta dt1 dt3 = delta dt1 dt2+delta dt2 dt3 := by
  unfold delta
  ring

theorem slack_neg (d : ℤ) : slack (-d) = slack d := by
  rw [slack,Int.natAbs_neg,slack]

theorem slack_nonneg (d : ℤ) : 0 ≤ slack d := Int.natCast_nonneg _

theorem slack_le {d : ℤ} (h : |d| < 315537897600000000) : slack d ≤ 35 := by
  have hbounds := abs_lt.1 h
  have hn : d.natAbs/1000000 ≤ 315537897600 := by omega
  have hpow : 2^Nat.log 2 (d.natAbs/1000000) ≤ 315537897600 := by
    rcases Nat.eq_zero_or_pos (d.natAbs/1000000) with h0 | h0
    · rw [h0]
      decide
    · exact (Nat.pow_log_le_self 2 h0.ne').trans hn
  rw [slack]
  have hdiv := Nat.div_le_div_right (c := 2^53) (Nat.mul_le_mul_left 1000000 hpow)
  have hlast : 1000000*315537897600/2^53 = 35 := by decide
  omega

/-- Half the distance of two floats around the difference, in whole microseconds. -/
theorem le_slack_iff {d : ℤ} (hd : d ≠ 0) (k : ℤ) :
    k ≤ slack d ↔ (k : ℚ) ≤ 1000000*(spacing 53 (d/1000000)/2) := by
  have habs : |(d/1000000 : ℚ)| = (d.natAbs : ℚ)/1000000 := by
    rw [abs_div,abs_of_pos (by norm_num : (0 : ℚ) < 1000000),Nat.cast_natAbs,Int.cast_abs]
  have hspacing : 1000000*(spacing 53 (d/1000000)/2) =
      1000000*(2 : ℚ)^Int.log 2 |(d/1000000 : ℚ)|/2^53 := by
    rw [spacing,zpow_sub₀ (by norm_num)]
    norm_num
    ring
  rw [hspacing,habs]
  rcases Nat.lt_or_ge d.natAbs 1000000 with hsmall | hlarge
  · -- below a second the distance is less than a microsecond
    have hpos : (0 : ℚ) < (d.natAbs : ℚ)/1000000 := by positivity
    have hlt : (d.natAbs : ℚ)/1000000 < ((2 : ℕ) : ℚ)^(0 : ℤ) := by
      rw [zpow_zero,div_lt_one (by norm_num)]
      exact_mod_cast hsmall
    have hlog := (Int.lt_zpow_iff_log_lt (by norm_num) hpos).1 hlt
    have hone : (2 : ℚ)^Int.log 2 ((d.natAbs : ℚ)/1000000) ≤ 1 :=
      zpow_le_one_of_nonpos₀ (by norm_num) hlog.le
    have hzpos : (0 : ℚ) < (2 : ℚ)^Int.log 2 ((d.natAbs : ℚ)/1000000) := by positivity
    have hslack : slack d = 0 := by
      rw [slack,Nat.div_eq_of_lt hsmall]
      decide
    rw [hslack]
    constructor
    · intro hk
      have hk' : (k : ℚ) ≤ 0 := by exact_mod_cast hk
      have : (0 : ℚ) < 1000000*(2 : ℚ)^Int.log 2 ((d.natAbs : ℚ)/1000000)/2^53 := by positivity
      linarith
    · intro hk
      by_contra hneg
      have hk' : (1 : ℚ) ≤ k := by exact_mod_cast (by omega : 1 ≤ k)
      have : 1000000*(2 : ℚ)^Int.log 2 ((d.natAbs : ℚ)/1000000)/2^53 < 1 := by
        rw [div_lt_one (by norm_num)]
        calc 1000000*(2 : ℚ)^Int.log 2 ((d.natAbs : ℚ)/1000000) ≤ 1000000*1 := by gcongr
          _ < 2^53 := by norm_num
      linarith
  · have hone : (1 : ℚ) ≤ (d.natAbs : ℚ)/1000000 := by
      rw [le_div_iff₀ (by norm_num),one_mul]
      exact_mod_cast hlarge
    have hfloor : ⌊(d.natAbs : ℚ)/1000000⌋₊ = d.natAbs/1000000 := by
      exact_mod_cast Nat.floor_div_eq_div (K := ℚ) d.natAbs 1000000
    rw [Int.log_of_one_le_right 2 hone,hfloor,zpow_natCast,slack]
    rw [Int.natCast_div,Int.le_ediv_iff_mul_le (by positivity),le_div_iff₀ (by positivity)]
    norm_cast

theorem totalSeconds_swap (dt1 dt2 : DateTime) : totalSeconds dt2 dt1 = -totalSeconds dt1 dt2 := by
  rw [totalSeconds,totalSeconds,delta_swap,Int.cast_neg,neg_div,float,nearest_neg,float]

/-- A float reaches a whole second some microseconds before the difference does. -/
theorem le_totalSeconds_iff (dt1 dt2 : DateTime) (m : ℤ) :
    (m : ℚ) ≤ totalSeconds dt1 dt2 ↔ m*1000000 ≤ delta dt1 dt2+slack (delta dt1 dt2) := by
  have hbound := delta_abs_lt dt1 dt2
  rw [totalSeconds]
  generalize delta dt1 dt2 = d at *
  rcases eq_or_ne d 0 with rfl | hne
  · have hslack : slack 0 = 0 := by decide
    rw [Int.cast_zero,zero_div,float,nearest_zero,hslack,Int.add_zero]
    norm_cast
    omega
  · have hpos : (0 : ℚ) < |(d/1000000 : ℚ)| := by positivity
    have hsize : |(d/1000000 : ℚ)| < ((2 : ℕ) : ℚ)^(51 : ℤ) := by
      rw [abs_div,abs_of_pos (by norm_num : (0 : ℚ) < 1000000),div_lt_iff₀ (by norm_num)]
      calc |(d : ℚ)| < 315537897600000000 := by exact_mod_cast hbound
        _ < _ := by norm_num
    have hlog := (Int.lt_zpow_iff_log_lt (by norm_num) hpos).1 hsize
    calc (m : ℚ) ≤ float (d/1000000)
        ↔ m-spacing 53 (d/1000000)/2 ≤ (d/1000000 : ℚ) := le_nearest_iff (by omega) m
      _ ↔ ((m*1000000-d : ℤ) : ℚ) ≤ 1000000*(spacing 53 (d/1000000)/2) := by
        rw [le_div_iff₀ (by norm_num)]
        push_cast
        constructor <;> intro h <;> linarith
      _ ↔ m*1000000-d ≤ slack d := (le_slack_iff hne _).symm
      _ ↔ m*1000000 ≤ d+slack d := by omega

theorem floor_totalSeconds (dt1 dt2 : DateTime) {n : ℕ} (hn : 0 < n) :
    ⌊totalSeconds dt1 dt2/n⌋ =
      (delta dt1 dt2+slack (delta dt1 dt2))/((1000000*n : ℕ) : ℤ) := by
  refine eq_of_forall_le_iff fun k => ?_
  have hpos : (0 : ℚ) < n := by exact_mod_cast hn
  rw [Int.le_floor,le_div_iff₀ hpos,Int.le_ediv_iff_mul_le (by positivity)]
  have hk := le_totalSeconds_iff dt1 dt2 (k*n)
  push_cast at hk ⊢
  rw [hk,Int.mul_assoc,Int.mul_comm (n : ℤ)]

def DiffUnit.Fixed (u : DiffUnit) : Prop := u = .minute ∨ u = .hour ∨ u = .day ∨ u = .week

/-- The units of fixed length are counted by an integer division of the time between. -/
theorem dateDiffHelper_fixed {u : DiffUnit} (hu : u.Fixed) (dt1 dt2 : DateTime) :
    dateDiffHelper dt1 dt2 u =
      ((delta dt1 dt2+slack (delta dt1 dt2))/(unitLength u : ℤ) : ℤ) := by
  have hcast : ∀ n : ℕ, 0 < n → ((⌊totalSeconds dt1 dt2/n⌋ : ℤ) : ℚ) =
      ((delta dt1 dt2+slack (delta dt1 dt2))/((1000000*n : ℕ) : ℤ) : ℤ) := by
    intro n hn
    rw [floor_totalSeconds dt1 dt2 hn]
  rcases hu with rfl | rfl | rfl | rfl
  · exact hcast 60 (by decide)
  · exact hcast 3600 (by decide)
  · exact hcast 86400 (by decide)
  · exact hcast 604800 (by decide)

theorem DiffUnit.Fixed.length_ge {u : DiffUnit} (hu : u.Fixed) : (60000000 : ℤ) ≤ unitLength u := by
  rcases hu with rfl | rfl | rfl | rfl <;> decide

/-- The counts are integers that a float holds, and so are their sums. -/
theorem DiffUnit.Fixed.add_counts {u : DiffUnit} (hu : u.Fixed) (dt1 dt2 dt3 : DateTime) :
    u.add (dateDiffHelper dt1 dt2 u) (dateDiffHelper dt2 dt3 u) =
      ((delta dt1 dt2+slack (delta dt1 dt2))/(unitLength u : ℤ)+
        (delta dt2 dt3+slack (delta dt2 dt3))/(unitLength u : ℤ) : ℤ) := by
  have hlength := hu.length_ge
  have hcount : ∀ a b : DateTime, |(delta a b+slack (delta a b))/(unitLength u : ℤ)| < 2^52 := by
    intro a b
    have hbound := abs_lt.1 (delta_abs_lt a b)
    have hslack := slack_le (delta_abs_lt a b)
    have hslack0 := slack_nonneg (delta a b)
    have hlow : (-1 : ℤ)*2^50 ≤ (delta a b+slack (delta a b))/(unitLength u : ℤ) := by
      rw [Int.le_ediv_iff_mul_le (by omega)]
      nlinarith
    have hhigh : (delta a b+slack (delta a b))/(unitLength u : ℤ) < 2^50 := by
      rw [Int.ediv_lt_iff_lt_mul (by omega)]
      nlinarith
    rw [abs_lt]
    omega
  have h12 := abs_lt.1 (hcount dt1 dt2)
  have h23 := abs_lt.1 (hcount dt2 dt3)
  have hfloat : ∀ x y : ℤ, |x+y| < 2^53 → float ((x : ℚ)+y) = ((x+y : ℤ) : ℚ) := by
    intro x y hxy
    rw [float,← Int.cast_add,nearest_intCast hxy]
  rw [dateDiffHelper_fixed hu,dateDiffHelper_fixed hu,← hfloat _ _ (by rw [abs_lt]; omega)]
  rcases hu with rfl | rfl | rfl | rfl <;> rfl

/-- Rounding down with some slack is odd at a number exactly if this is within the slack of a whole
one. -/
theorem ediv_odd_iff {n σ x : ℤ} (h0 : 0 ≤ σ) (hn : 2*σ < n) :
    (x+σ)/n = -((-x+σ)/n) ↔ ∃ rest, |rest| ≤ σ ∧ n ∣ x-rest := by
  have hpos : 0 < n := by omega
  constructor
  · intro hodd
    have h1 := Int.mul_ediv_self_le (x := x+σ) (k := n) hpos.ne'
    have h2 := Int.mul_ediv_self_le (x := -x+σ) (k := n) hpos.ne'
    have h3 : n*((x+σ)/n) = -(n*((-x+σ)/n)) := by rw [← Int.mul_neg,← hodd]
    refine ⟨x-n*((x+σ)/n),?_,(x+σ)/n,by omega⟩
    rw [abs_le]
    omega
  · rintro ⟨rest,hrest,k,hk⟩
    rw [abs_le] at hrest
    have hx : x = n*k+rest := by omega
    have hplus : (x+σ)/n = k := by
      rw [hx,Int.add_assoc,Int.add_comm,Int.add_mul_ediv_left _ _ hpos.ne',
        Int.ediv_eq_zero_of_lt (by omega) (by omega),Int.zero_add]
    have hminus : (-x+σ)/n = -k := by
      rw [hx,(by ring : -(n*k+rest)+σ = (σ-rest)+n*(-k)),Int.add_mul_ediv_left _ _ hpos.ne',
        Int.ediv_eq_zero_of_lt (by omega) (by omega),Int.zero_add]
    rw [hplus,hminus,Int.neg_neg]

/-- What is rounded of a number within the slack of a whole one. -/
theorem ediv_near {n σ x rest : ℤ} (hn : 2*σ < n) (hrest : |rest| ≤ σ) (hdvd : n ∣ x-rest) (y : ℤ) :
    (x+y)/n = (x+σ)/n+(rest+y)/n := by
  rw [abs_le] at hrest
  have hpos : 0 < n := by omega
  obtain ⟨k,hk⟩ := hdvd
  have hx : x = n*k+rest := by omega
  have hplus : (x+σ)/n = k := by
    rw [hx,Int.add_assoc,Int.add_comm,Int.add_mul_ediv_left _ _ hpos.ne',
      Int.ediv_eq_zero_of_lt (by omega) (by omega),Int.zero_add]
  rw [hplus,hx,Int.add_assoc,Int.add_comm,Int.add_mul_ediv_left _ _ hpos.ne',Int.add_comm]

theorem fixed_coherent_iff {u : DiffUnit} (hu : u.Fixed) (dt1 dt2 dt3 : DateTime) :
    (dateDiffHelper dt1 dt3 u = u.add (dateDiffHelper dt1 dt2 u) (dateDiffHelper dt2 dt3 u) ∧
        dateDiffHelper dt1 dt2 u = -dateDiffHelper dt2 dt1 u) ↔
      ∃ rest, NearlyWholeUnits dt1 dt2 dt3 (unitLength u) rest := by
  have hlength := hu.length_ge
  have hslack := slack_le (delta_abs_lt dt1 dt2)
  have hodd := ediv_odd_iff (n := unitLength u) (x := delta dt1 dt2)
    (slack_nonneg (delta dt1 dt2)) (by omega)
  have hadd : ∀ {rest : ℤ}, |rest| ≤ slack (delta dt1 dt2) →
      (unitLength u : ℤ) ∣ delta dt1 dt2-rest →
      (delta dt1 dt3+slack (delta dt1 dt3))/(unitLength u : ℤ) =
        (delta dt1 dt2+slack (delta dt1 dt2))/(unitLength u : ℤ)+
          (delta dt2 dt3+rest+slack (delta dt1 dt3))/(unitLength u : ℤ) := by
    intro rest hrest hdvd
    have hnear := ediv_near (n := unitLength u) (by omega) hrest hdvd
      (delta dt2 dt3+slack (delta dt1 dt3))
    rw [(by rw [delta_add dt1 dt2 dt3]; ring : delta dt1 dt3+slack (delta dt1 dt3) =
        delta dt1 dt2+(delta dt2 dt3+slack (delta dt1 dt3))),hnear]
    congr 2
    ring
  rw [hu.add_counts,dateDiffHelper_fixed hu,dateDiffHelper_fixed hu,dateDiffHelper_fixed hu,
    delta_swap dt1 dt2,slack_neg,← Int.cast_neg,Int.cast_inj,Int.cast_inj,hodd]
  constructor
  · rintro ⟨hsum,rest,hrest,hdvd⟩
    refine ⟨rest,hrest,hdvd,?_⟩
    rw [hadd hrest hdvd] at hsum
    omega
  · rintro ⟨rest,hrest,hdvd,hsame⟩
    refine ⟨?_,rest,hrest,hdvd⟩
    rw [hadd hrest hdvd,hsame]

/-- Counting from the outset of the units gives the same number, unless the rest leads into another
unit. -/
theorem ediv_sub_ediv_iff {n σ x rest : ℤ} (hn : 2*σ < n) (hrest : |rest| ≤ σ) (hdvd : n ∣ x-rest)
    (a : ℤ) : (x+σ)/n = (a+x)/n-a/n ↔ (a+rest)/n = a/n := by
  have hnear := ediv_near hn hrest hdvd a
  rw [Int.add_comm a x,hnear,Int.add_comm rest a]
  constructor
  · intro h
    omega
  · intro h
    omega

theorem instant_eq_add_delta (dt1 dt2 : DateTime) : dt2.instant = dt1.instant+delta dt1 dt2 := by
  unfold delta
  ring

/-- The oracle counts the days between the dates, and the rest may lead over midnight. -/
theorem day_agrees_iff {dt1 dt2 dt3 : DateTime} {rest : ℤ}
    (h : NearlyWholeUnits dt1 dt2 dt3 (unitLength .day) rest) :
    AgreesWithOracle dt1 dt2 .day ↔
      (dt1.instant+rest)/unitLength .day = dt1.instant/unitLength .day := by
  have hu : DiffUnit.day.Fixed := .inr (.inr (.inl rfl))
  have hlength := hu.length_ge
  have hslack := slack_le (delta_abs_lt dt1 dt2)
  have hdiv : ∀ dt : DateTime, dt.instant/(unitLength .day : ℤ) = dt.dayNumber := DateTime.instant_div
  have hdays : toRelativeDayNum dt2-toRelativeDayNum dt1 =
      (dt1.instant+delta dt1 dt2)/unitLength .day-dt1.instant/unitLength .day := by
    rw [← instant_eq_add_delta,hdiv,hdiv,toRelativeDayNum_eq,toRelativeDayNum_eq]
    ring
  rw [AgreesWithOracle,dateDiffHelper_fixed hu,Int.cast_inj,hdays]
  exact ediv_sub_ediv_iff (by omega) h.1 h.2.1 _

theorem week_agrees_iff {dt1 dt2 dt3 : DateTime} {rest : ℤ}
    (h : NearlyWholeUnits dt1 dt2 dt3 (unitLength .week) rest) :
    AgreesWithOracle dt1 dt2 .week ↔
      (dt1.instant+rest)/unitLength .week = dt1.instant/unitLength .week ∧
        dt1.dayNumber+8 < january1 10000 ∧ dt2.dayNumber+8 < january1 10000 := by
  have hu : DiffUnit.week.Fixed := .inr (.inr (.inr rfl))
  have hlength := hu.length_ge
  have hslack := slack_le (delta_abs_lt dt1 dt2)
  have hweek : (unitLength .week : ℤ) = dayLength*7 := rfl
  have hdiv : ∀ dt : DateTime, dt.instant/(unitLength .week : ℤ) = (dt.dayNumber : ℤ)/7 := by
    intro dt
    rw [hweek,← Int.ediv_ediv_of_nonneg (by decide),dt.instant_div]
  have hcount : (delta dt1 dt2+slack (delta dt1 dt2))/unitLength .week =
      ((dt2.dayNumber : ℤ)/7-102737)-((dt1.dayNumber : ℤ)/7-102737) ↔
        (dt1.instant+rest)/unitLength .week = dt1.instant/unitLength .week := by
    rw [sub_sub_sub_cancel_right,← hdiv,← hdiv,instant_eq_add_delta dt1 dt2]
    exact ediv_sub_ediv_iff (by omega) h.1 h.2.1 _
  rw [AgreesWithOracle,dateDiffHelper_fixed hu,← hcount]
  simp only [toRelativeWeekNum_eq,Int.cast_inj]
  constructor
  · rintro ⟨m,n,hm,hn,heq⟩
    split_ifs at hm hn with h1 h2
    obtain rfl := Option.some.inj hm
    obtain rfl := Option.some.inj hn
    exact ⟨heq,h1,h2⟩
  · rintro ⟨heq,h1,h2⟩
    exact ⟨_,_,if_pos h1,if_pos h2,heq⟩

/-- Whole sixty-fourths of a second are not rounded. -/
theorem totalSeconds_exact {dt1 dt2 : DateTime} (h : 15625 ∣ delta dt1 dt2) :
    totalSeconds dt1 dt2 = delta dt1 dt2/1000000 := by
  obtain ⟨k,hk⟩ := h
  have hbound := abs_lt.1 (delta_abs_lt dt1 dt2)
  have hsixtyfourths : ((delta dt1 dt2 : ℚ)/1000000) = k*2^(-6 : ℤ) := by
    rw [hk]
    push_cast
    norm_num
    ring
  rw [totalSeconds,hsixtyfourths,float,nearest_eq_self (by rw [abs_lt]; omega)]

theorem totalSeconds_self (dt : DateTime) : totalSeconds dt dt = 0 := by
  rw [totalSeconds,delta,Int.sub_self,Int.cast_zero,zero_div,float,nearest_zero]

theorem second_additive {dt1 dt2 dt3 : DateTime} (h : WholeUnitsApart dt1 dt2 dt3 .second) :
    totalSeconds dt1 dt3 = float (totalSeconds dt1 dt2+totalSeconds dt2 dt3) := by
  have hidempotent : ∀ q, float (float q) = float q := nearest_nearest (by decide)
  rcases h with ⟨h12,h23⟩ | rfl | rfl | rfl
  · have hsum : (delta dt1 dt2/1000000+delta dt2 dt3/1000000 : ℚ) = delta dt1 dt3/1000000 := by
      rw [delta_add dt1 dt2 dt3]
      push_cast
      ring
    rw [totalSeconds_exact h12,totalSeconds_exact h23,hsum,totalSeconds]
  · rw [totalSeconds_self,zero_add,totalSeconds,hidempotent]
  · rw [totalSeconds_self,add_zero,totalSeconds,hidempotent]
  · rw [totalSeconds_self,totalSeconds_swap dt1 dt2,add_neg_cancel,float,nearest_zero]

theorem second_coherent {dt1 dt2 dt3 : DateTime} (h : WholeUnitsApart dt1 dt2 dt3 .second) :
    DiffCoherent dt1 dt2 dt3 .second := by
  refine ⟨second_additive h,?_,trivial⟩
  rw [dateDiffHelper,dateDiffHelper,totalSeconds_swap dt1 dt2,neg_neg]

theorem month_coherent (dt1 dt2 dt3 : DateTime) : DiffCoherent dt1 dt2 dt3 .month := by
  refine ⟨?_,?_,?_⟩
  · simp only [DiffUnit.add,dateDiffHelper,monthsBetween]
    push_cast
    ring
  · simp only [dateDiffHelper,monthsBetween]
    push_cast
    ring
  · simp only [AgreesWithOracle,dateDiffHelper,monthsBetween,toRelativeMonthNum]
    push_cast
    ring

theorem quarter_coherent_iff (dt1 dt2 dt3 : DateTime) :
    DiffCoherent dt1 dt2 dt3 .quarter ↔ 3 ∣ monthsBetween dt1 dt2 := by
  have hsum : monthsBetween dt1 dt3 = monthsBetween dt1 dt2+monthsBetween dt2 dt3 := by
    unfold monthsBetween
    ring
  have hneg : monthsBetween dt2 dt1 = -monthsBetween dt1 dt2 := by
    unfold monthsBetween
    ring
  rw [DiffCoherent,AgreesWithOracle]
  simp only [DiffUnit.add,dateDiffHelper]
  norm_cast
  rw [hsum,hneg]
  constructor
  · rintro ⟨-,hodd,-⟩
    omega
  · intro h
    have h1 := dt1.month_pos
    have h2 := dt2.month_pos
    refine ⟨by omega,by omega,?_⟩
    unfold monthsBetween at h ⊢
    unfold toRelativeQuarterNum
    omega

theorem coherent_iff {dt1 dt2 dt3 : DateTime} {u : DiffUnit} (hu : u ≠ .second) :
    DiffCoherent dt1 dt2 dt3 u ↔ WholeUnitsApart dt1 dt2 dt3 u := by
  cases u with
  | second => exact absurd rfl hu
  | minute =>
    rw [DiffCoherent,← and_assoc,fixed_coherent_iff (.inl rfl)]
    exact and_iff_left trivial
  | hour =>
    rw [DiffCoherent,← and_assoc,fixed_coherent_iff (.inr (.inl rfl))]
    exact and_iff_left trivial
  | day =>
    rw [DiffCoherent,← and_assoc,fixed_coherent_iff (.inr (.inr (.inl rfl))),← exists_and_right]
    exact exists_congr fun rest => and_congr_right fun h => day_agrees_iff h
  | week =>
    rw [DiffCoherent,← and_assoc,fixed_coherent_iff (.inr (.inr (.inr rfl)))]
    constructor
    · rintro ⟨⟨rest,h⟩,hagrees⟩
      obtain ⟨hweek,hrange⟩ := (week_agrees_iff h).1 hagrees
      exact ⟨⟨rest,h,hweek⟩,hrange⟩
    · rintro ⟨⟨rest,h,hweek⟩,hrange⟩
      exact ⟨⟨rest,h⟩,(week_agrees_iff h).2 ⟨hweek,hrange⟩⟩
  | month => exact iff_of_true (month_coherent dt1 dt2 dt3) trivial
  | quarter => exact quarter_coherent_iff dt1 dt2 dt3
  | year =>
    refine iff_of_true ⟨?_,?_,trivial⟩ trivial
    · simp only [DiffUnit.add,dateDiffHelper]
      ring
    · simp only [dateDiffHelper]
      ring

/-- Where the first two datetimes are whole units apart, as far as floats can tell, the helper is
additive, antisymmetric and equal to the difference of the oracles; but for seconds, it is so nowhere
else. -/
theorem dateDiffHelper_coherent (dt1 dt2 dt3 : DateTime) (u : DiffUnit) :
    (WholeUnitsApart dt1 dt2 dt3 u → DiffCoherent dt1 dt2 dt3 u) ∧
      (u ≠ .second → DiffCoherent dt1 dt2 dt3 u → WholeUnitsApart dt1 dt2 dt3 u) := by
  refine ⟨?_,fun hu => (coherent_iff hu).1⟩
  intro h
  by_cases hu : u = .second
  · subst hu
    exact second_coherent h
  · exact (coherent_iff hu).2 h

/-- 2000-01-01 23:00:00. -/
def lateEvening : DateTime := datetime 2000 1 1 23 0 0 0 (by decide)

/-- 2000-01-02 01:00:00. -/
def earlyMorning : DateTime := datetime 2000 1 2 1 0 0 0 (by decide)

/-- Two hours across midnight are no day one way, minus one day the other way, and one day for the
oracle. -/
theorem dateDiffHelper_midnight : ¬ DiffCoherent lateEvening earlyMorning lateEvening .day := by
  rintro ⟨-,hodd,-⟩
  rw [dateDiffHelper_fixed (.inr (.inr (.inl rfl))),dateDiffHelper_fixed (.inr (.inr (.inl rfl))),
    ← Int.cast_neg,Int.cast_inj] at hodd
  exact absurd hodd (by decide +kernel)

/-- A week apart. -/
theorem dateDiffHelper_coherent_week :
    DiffCoherent lateEvening (datetime 2000 1 8 23 0 0 0 (by decide)) earlyMorning .week :=
  (dateDiffHelper_coherent _ _ _ .week).1
    ⟨⟨0,⟨by decide +kernel,by decide +kernel,by decide +kernel⟩,by decide +kernel⟩,
      by decide +kernel,by decide +kernel⟩

end ClickHouseRegression.DateTime64
