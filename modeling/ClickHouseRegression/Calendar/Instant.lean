import ClickHouseRegression.Calendar.Gregorian

/-! Datetimes on one line: by the number of their month, of their day and of their microsecond.
The difference of two datetimes is the difference of their instants. -/
namespace ClickHouseRegression.Calendar

/-- First day of month `i`; month `m` of the year `y` has the number `12*y+(m-1)`. -/
def monthStart (i : ℕ) : ℕ := january1 (i/12)+daysBeforeMonth (i/12) (i % 12+1)

theorem daysInMonth_pos (year month : ℕ) : 0 < daysInMonth year month := by
  unfold daysInMonth
  split_ifs <;> decide

theorem daysBeforeMonth_one (year : ℕ) : daysBeforeMonth year 1 = 0 := by
  simp [daysBeforeMonth]

theorem monthStart_succ {i : ℕ} (h : 12 ≤ i) :
    monthStart (i+1) = monthStart i+daysInMonth (i/12) (i % 12+1) := by
  by_cases hlast : i % 12 = 11
  · -- December is followed by January 1 of the next year
    have hyear : (i+1)/12 = i/12+1 := by omega
    have hmonth : (i+1) % 12 = 0 := by omega
    have hdecember : i % 12+1 = 12 := by omega
    have hend := daysBeforeMonth_succ (i/12) 12 (by decide)
    rw [daysBeforeMonth_thirteen] at hend
    rw [monthStart,monthStart,hyear,hmonth,hdecember,january1_succ _ (by omega),hend,
      daysBeforeMonth_one]
    omega
  · have hyear : (i+1)/12 = i/12 := by omega
    have hmonth : (i+1) % 12 = i % 12+1 := by omega
    rw [monthStart,monthStart,hyear,hmonth,daysBeforeMonth_succ _ _ (by omega)]
    omega

theorem monthStart_lt {a b : ℕ} (ha : 12 ≤ a) (h : a < b) : monthStart a < monthStart b := by
  obtain ⟨k,rfl⟩ := Nat.exists_eq_add_of_lt h
  induction k with
  | zero =>
    rw [Nat.add_zero,monthStart_succ ha]
    exact Nat.lt_add_of_pos_right (daysInMonth_pos _ _)
  | succ k ih =>
    rw [monthStart_succ (i := a+(k+1)) (by omega)]
    have h' := ih (by omega)
    rw [Nat.add_assoc] at h'
    omega

theorem monthStart_le {a b : ℕ} (ha : 12 ≤ a) (h : a ≤ b) : monthStart a ≤ monthStart b := by
  rcases h.lt_or_eq with h | rfl
  · exact (monthStart_lt ha h).le
  · exact le_rfl

theorem monthStart_january (year : ℕ) : monthStart (12*year) = january1 year := by
  have hyear : 12*year/12 = year := by omega
  have hmonth : 12*year % 12 = 0 := by omega
  rw [monthStart,hyear,hmonth,daysBeforeMonth_one,Nat.add_zero]

namespace DateTime

/-- Number of the day. -/
def dayNumber (d : DateTime) : ℕ := january1 d.year+d.yearDay

/-- Number of the month. -/
def monthIndex (d : DateTime) : ℕ := 12*d.year+(d.month-1)

/-- Microseconds since the start of the year 1. -/
def instant (d : DateTime) : ℤ := (d.dayNumber : ℤ)*dayLength+d.timeOfDay

theorem monthIndex_div (d : DateTime) : d.monthIndex/12 = d.year := by
  have h1 := d.month_pos
  have h2 := d.month_le
  unfold monthIndex
  omega

theorem monthIndex_mod (d : DateTime) : d.monthIndex % 12+1 = d.month := by
  have h1 := d.month_pos
  have h2 := d.month_le
  unfold monthIndex
  omega

theorem twelve_le_monthIndex (d : DateTime) : 12 ≤ d.monthIndex := by
  have h := d.year_pos
  unfold monthIndex
  omega

theorem dayNumber_eq (d : DateTime) : d.dayNumber = monthStart d.monthIndex+(d.day-1) := by
  rw [dayNumber,yearDay,monthStart,d.monthIndex_div,d.monthIndex_mod,Nat.add_assoc]

theorem dayNumber_lt (d : DateTime) : d.dayNumber < monthStart (d.monthIndex+1) := by
  have h1 := d.day_pos
  have h2 := d.day_le
  rw [monthStart_succ d.twelve_le_monthIndex,d.monthIndex_div,d.monthIndex_mod,d.dayNumber_eq]
  omega

theorem instant_div (d : DateTime) : d.instant/dayLength = d.dayNumber := by
  have h := d.timeOfDay_lt
  rw [instant,Int.add_comm,Int.add_mul_ediv_right _ _ (by decide)]
  rw [Int.ediv_eq_zero_of_lt (by omega) (by omega),Int.zero_add]

theorem instant_mod (d : DateTime) : d.instant % dayLength = d.timeOfDay := by
  have h := d.timeOfDay_lt
  rw [instant,Int.add_comm,Int.add_mul_emod_self_right]
  exact Int.emod_eq_of_lt (by omega) (by omega)

theorem dayNumber_mono {a b : DateTime} (h : a.instant ≤ b.instant) :
    a.dayNumber ≤ b.dayNumber := by
  have hdiv := Int.ediv_le_ediv (c := (dayLength : ℤ)) (by decide) h
  rw [a.instant_div,b.instant_div] at hdiv
  omega

theorem monthIndex_mono {a b : DateTime} (h : a.dayNumber ≤ b.dayNumber) :
    a.monthIndex ≤ b.monthIndex := by
  by_contra hlt
  have hstart := monthStart_le (by have := b.twelve_le_monthIndex; omega)
    (show b.monthIndex+1 ≤ a.monthIndex by omega)
  have hb := b.dayNumber_lt
  have ha := a.dayNumber_eq
  omega

/-- Days are numbered without repetition. -/
theorem dayNumber_inj {a b : DateTime} :
    a.dayNumber = b.dayNumber ↔ a.year = b.year ∧ a.month = b.month ∧ a.day = b.day := by
  constructor
  · intro h
    have hindex := le_antisymm (monthIndex_mono h.le) (monthIndex_mono h.ge)
    have hyear := congrArg (·/12) hindex
    have hmonth := congrArg (· % 12+1) hindex
    simp only [monthIndex_div,monthIndex_mod] at hyear hmonth
    have ha := a.dayNumber_eq
    have hb := b.dayNumber_eq
    have ha' := a.day_pos
    have hb' := b.day_pos
    rw [hindex] at ha
    exact ⟨hyear,hmonth,by omega⟩
  · rintro ⟨hyear,hmonth,hday⟩
    rw [dayNumber_eq,dayNumber_eq,monthIndex,monthIndex,hyear,hmonth,hday]

end DateTime

theorem dayLength_eq : (dayLength : ℤ) = 86400000000 := rfl

/-- The start of a month as an instant. -/
def monthInstant (i : ℤ) : ℤ := (monthStart i.toNat : ℤ)*dayLength

/-- A month starts before a datetime exactly if it is not a later month. -/
theorem monthInstant_le_iff (dt : DateTime) {i : ℤ} (hi : 12 ≤ i) :
    monthInstant i ≤ dt.instant ↔ i ≤ dt.monthIndex := by
  have ht := dt.timeOfDay_lt
  have hL := dayLength_eq
  have hday : monthInstant i ≤ dt.instant ↔ monthStart i.toNat ≤ dt.dayNumber := by
    rw [monthInstant,DateTime.instant,hL]
    unfold dayLength at ht
    omega
  rw [hday]
  constructor
  · intro hle
    by_contra hlt
    have hnext := monthStart_le (by have := dt.twelve_le_monthIndex; omega)
      (show dt.monthIndex+1 ≤ i.toNat by omega)
    have hbound := dt.dayNumber_lt
    omega
  · intro hle
    have hstart := monthStart_le (show 12 ≤ i.toNat by omega) (show i.toNat ≤ dt.monthIndex by omega)
    have hnumber := dt.dayNumber_eq
    omega

theorem monthInstant_injective {i j : ℤ} (hi : 12 ≤ i) (hj : 12 ≤ j)
    (h : monthInstant i = monthInstant j) : i = j := by
  have hL := dayLength_eq
  have hstart : monthStart i.toNat = monthStart j.toNat := by
    rw [monthInstant,monthInstant,hL] at h
    omega
  rcases lt_trichotomy i j with hlt | heq | hlt
  · have hne := monthStart_lt (show 12 ≤ i.toNat by omega) (show i.toNat < j.toNat by omega)
    omega
  · exact heq
  · have hne := monthStart_lt (show 12 ≤ j.toNat by omega) (show j.toNat < i.toNat by omega)
    omega

/-- 1970-01-01 as a day. -/
def epochDay : ℕ := 719162

theorem january1_epoch : january1 1970 = epochDay := by decide

/-- 1970-01-01 00:00:00 as an instant. -/
def epoch : ℤ := (epochDay : ℤ)*dayLength

theorem epoch_eq : epoch = 719162*86400000000 := rfl

end ClickHouseRegression.Calendar
