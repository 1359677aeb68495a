import Mathlib

/-! The proleptic Gregorian calendar of Python's `datetime`. Days are numbered from
0001-01-01, a Monday, which is day 0; weekdays are numbered from Monday. -/
namespace ClickHouseRegression.Calendar

def isLeap (year : ℕ) : Bool := year % 4 = 0 && (year % 100 ≠ 0 || year % 400 = 0)

def daysInYear (year : ℕ) : ℕ := if isLeap year then 366 else 365

/-- Number of January 1 of the year; for the year 0 it is only a placeholder. -/
def january1 (year : ℕ) : ℕ :=
  365*(year-1)+(year-1)/4-(year-1)/100+(year-1)/400

def daysInMonth (year month : ℕ) : ℕ :=
  if month = 2 then if isLeap year then 29 else 28
  else if month = 4 ∨ month = 6 ∨ month = 9 ∨ month = 11 then 30
  else 31

/-- Days of the year before the month. -/
def daysBeforeMonth (year month : ℕ) : ℕ := ((List.range (month-1)).map (daysInMonth year <| ·+1)).sum

def weekday (day : ℕ) : ℕ := day % 7

theorem isLeap_iff (year : ℕ) :
    isLeap year = true ↔ 4 ∣ year ∧ (¬ 100 ∣ year ∨ 400 ∣ year) := by
  simp [isLeap,Nat.dvd_iff_mod_eq_zero]

theorem january1_succ (year : ℕ) (h : 1 ≤ year) :
    january1 (year+1) = january1 year+daysInYear year := by
  obtain ⟨y,rfl⟩ : ∃ y, year = y+1 := ⟨year-1,by omega⟩
  have hle : y/100 ≤ y/4 := Nat.div_le_div_left (by decide) (by decide)
  have hl := isLeap_iff (y+1)
  have h100 : 100 ∣ y+1 → 4 ∣ y+1 := fun hd => (show 4 ∣ 100 by decide).trans hd
  have h400 : 400 ∣ y+1 → 100 ∣ y+1 := fun hd => (show 100 ∣ 400 by decide).trans hd
  simp only [january1,daysInYear,Nat.add_sub_cancel,Nat.succ_div,hl]
  -- each of the three divisors adds a day exactly when it divides the closing year
  by_cases h1 : 4 ∣ y+1
  · by_cases h2 : 100 ∣ y+1
    · by_cases h3 : 400 ∣ y+1
      · simp only [h1,h2,h3,if_true,not_true_eq_false,or_true,and_self]
        omega
      · simp only [h1,h2,h3,if_true,if_false,not_true_eq_false,or_self,and_false]
        omega
    · have h3 : ¬ 400 ∣ y+1 := fun hd => h2 (h400 hd)
      simp only [h1,h2,h3,if_true,if_false,not_false_eq_true,true_or,and_self]
      omega
  · have h2 : ¬ 100 ∣ y+1 := fun hd => h1 (h100 hd)
    have h3 : ¬ 400 ∣ y+1 := fun hd => h2 (h400 hd)
    simp only [h1,h2,h3,if_false,false_and]
    omega

theorem daysInYear_bounds (year : ℕ) : 365 ≤ daysInYear year ∧ daysInYear year ≤ 366 := by
  unfold daysInYear
  split <;> omega

theorem daysBeforeMonth_succ (year month : ℕ) (h : 1 ≤ month) :
    daysBeforeMonth year (month+1) = daysBeforeMonth year month+daysInMonth year month := by
  obtain ⟨m,rfl⟩ : ∃ m, month = m+1 := ⟨month-1,by omega⟩
  simp [daysBeforeMonth,List.range_succ]

theorem daysBeforeMonth_thirteen (year : ℕ) : daysBeforeMonth year 13 = daysInYear year := by
  cases h : isLeap year <;> simp [daysBeforeMonth,daysInYear,daysInMonth,List.range_succ,h]

theorem daysBeforeMonth_mono (year : ℕ) {a b : ℕ} (h : a ≤ b) :
    daysBeforeMonth year a ≤ daysBeforeMonth year b := by
  obtain ⟨k,rfl⟩ := Nat.exists_eq_add_of_le h
  induction k with
  | zero => rfl
  | succ k ih =>
    refine (ih (by omega)).trans ?_
    by_cases hz : 1 ≤ a+k
    · rw [← Nat.add_assoc,daysBeforeMonth_succ year (a+k) hz]
      omega
    · have h0 : a = 0 ∧ k = 0 := by omega
      obtain ⟨rfl,rfl⟩ := h0
      simp [daysBeforeMonth]

/-- A naive `datetime`; the fields keep the ranges its constructor checks. -/
structure DateTime where
  year : ℕ
  month : ℕ
  day : ℕ
  hour : ℕ
  minute : ℕ
  second : ℕ
  microsecond : ℕ
  year_pos : 1 ≤ year
  year_le : year ≤ 9999
  month_pos : 1 ≤ month
  month_le : month ≤ 12
  day_pos : 1 ≤ day
  day_le : day ≤ daysInMonth year month
  hour_lt : hour < 24
  minute_lt : minute < 60
  second_lt : second < 60
  microsecond_lt : microsecond < 1000000

/-- The arguments in the ranges that the constructor checks. -/
def Accepted (year month day hour minute second microsecond : ℕ) : Prop :=
  (1 ≤ year ∧ year ≤ 9999) ∧ (1 ≤ month ∧ month ≤ 12) ∧ (1 ≤ day ∧ day ≤ daysInMonth year month) ∧
    hour < 24 ∧ minute < 60 ∧ second < 60 ∧ microsecond < 1000000

instance (year month day hour minute second microsecond : ℕ) :
    Decidable (Accepted year month day hour minute second microsecond) := inferInstanceAs (Decidable (_ ∧ _))

/-- The call `datetime(year, month, day, hour, minute, second, microsecond)`. -/
@[simps] def datetime (year month day hour minute second microsecond : ℕ)
    (h : Accepted year month day hour minute second microsecond) : DateTime where
  year := year
  month := month
  day := day
  hour := hour
  minute := minute
  second := second
  microsecond := microsecond
  year_pos := h.1.1
  year_le := h.1.2
  month_pos := h.2.1.1
  month_le := h.2.1.2
  day_pos := h.2.2.1.1
  day_le := h.2.2.1.2
  hour_lt := h.2.2.2.1
  minute_lt := h.2.2.2.2.1
  second_lt := h.2.2.2.2.2.1
  microsecond_lt := h.2.2.2.2.2.2

/-- Microseconds in a day. -/
def dayLength : ℕ := 86400000000

namespace DateTime

/-- Days since January 1 of the same year. -/
def yearDay (d : DateTime) : ℕ := daysBeforeMonth d.year d.month+(d.day-1)

/-- Microseconds since midnight. -/
def timeOfDay (d : DateTime) : ℕ :=
  ((d.hour*60+d.minute)*60+d.second)*1000000+d.microsecond

/-- `dt - datetime(dt.year, 1, 1)` in microseconds. -/
def sinceJanuary1 (d : DateTime) : ℕ := d.yearDay*dayLength+d.timeOfDay

theorem timeOfDay_lt (d : DateTime) : d.timeOfDay < dayLength := by
  have h1 := d.hour_lt
  have h2 := d.minute_lt
  have h3 := d.second_lt
  have h4 := d.microsecond_lt
  unfold timeOfDay dayLength
  omega

theorem yearDay_lt (d : DateTime) : d.yearDay < daysInYear d.year := by
  have h1 := d.month_pos
  have h2 := d.month_le
  have h3 := d.day_pos
  have h4 := d.day_le
  have hs := daysBeforeMonth_succ d.year d.month h1
  have hm := daysBeforeMonth_mono d.year (show d.month+1 ≤ 13 by omega)
  rw [daysBeforeMonth_thirteen] at hm
  unfold yearDay
  omega

theorem sinceJanuary1_div (d : DateTime) : d.sinceJanuary1/dayLength = d.yearDay := by
  have h := d.timeOfDay_lt
  unfold sinceJanuary1
  rw [Nat.add_comm,Nat.add_mul_div_right _ _ (by decide),Nat.div_eq_of_lt h,Nat.zero_add]

end DateTime

end ClickHouseRegression.Calendar
