import ClickHouseRegression.Calendar.Instant

/-! The expected values of the `toRelative*Num` tests, which count units of time from the epoch. -/
namespace ClickHouseRegression.DateTime64
open Calendar

/-- The end of the year 9999; a datetime beyond it is an `OverflowError`. -/
def maxInstant : ℤ := (january1 10000 : ℤ)*dayLength

/-- `t + timedelta(days=n)`. -/
def addDays (t n : ℤ) : Option ℤ :=
  if 0 ≤ t+n*dayLength ∧ t+n*dayLength < maxInstant then some (t+n*dayLength) else none

def toRelativeDayNum (dt : DateTime) : ℤ := (dt.instant-epoch)/dayLength

def toRelativeWeekNum (dt : DateTime) : Option ℤ := do
  let later ← addDays dt.instant 8
  let monday ← addDays later (-(weekday dt.dayNumber : ℤ))
  return (monday-epoch)/dayLength/7

/-- The variable `year` of the test is the year that the datetime was selected in. -/
def toRelativeMonthNum (dt : DateTime) : ℤ := ((dt.year : ℤ)-1970)*12+dt.month

def toRelativeQuarterNum (dt : DateTime) : ℤ := ((dt.year : ℤ)-1970)*4+((dt.month : ℤ)-1)/3

theorem toRelativeDayNum_eq (dt : DateTime) :
    toRelativeDayNum dt = (dt.dayNumber : ℤ)-epochDay := by
  rw [toRelativeDayNum,epoch,Int.sub_mul_ediv_right _ _ (by decide),dt.instant_div]

theorem january1_last : january1 10000 = 3652059 := by decide

theorem addDays_of_lt {t n : ℤ} (h0 : 0 ≤ t+n*dayLength) (h : t+n*dayLength < maxInstant) :
    addDays t n = some (t+n*dayLength) := if_pos ⟨h0,h⟩

/-- Only the last eight days of the year 9999 are too late for the week number. -/
theorem toRelativeWeekNum_eq (dt : DateTime) :
    toRelativeWeekNum dt =
      if dt.dayNumber+8 < january1 10000 then some ((dt.dayNumber : ℤ)/7-102737) else none := by
  have ht := dt.timeOfDay_lt
  have hi : dt.instant = (dt.dayNumber : ℤ)*86400000000+dt.timeOfDay := rfl
  have hlast := january1_last
  have hmax : maxInstant = 3652059*86400000000 := by rw [maxInstant,hlast]; rfl
  have hL := dayLength_eq
  unfold dayLength at ht
  split_ifs with h
  · rw [hlast] at h
    have hlater : addDays dt.instant 8 = some (dt.instant+8*dayLength) :=
      addDays_of_lt (by omega) (by omega)
    have hw : weekday dt.dayNumber = dt.dayNumber % 7 := rfl
    have hmonday : addDays (dt.instant+8*dayLength) (-(weekday dt.dayNumber : ℤ)) =
        some (dt.instant+8*dayLength+-(weekday dt.dayNumber : ℤ)*dayLength) :=
      addDays_of_lt (by rw [hL]; omega) (by rw [hL]; omega)
    have he := epoch_eq
    rw [toRelativeWeekNum,hlater,Option.bind_eq_bind,Option.bind_some,hmonday,Option.bind_some,
      Option.pure_def,Option.some.injEq,hL]
    omega
  · have hnone : addDays dt.instant 8 = none := by
      rw [addDays,if_neg]
      omega
    rw [toRelativeWeekNum,hnone]
    rfl

/-- Both lie in one Monday-started week. -/
def SameWeek (a b : DateTime) : Prop :=
  ∃ monday, weekday monday = 0 ∧ (monday ≤ a.dayNumber ∧ a.dayNumber < monday+7) ∧
    monday ≤ b.dayNumber ∧ b.dayNumber < monday+7

def NextWeek (a b : DateTime) : Prop :=
  ∃ monday, weekday monday = 0 ∧ (monday ≤ a.dayNumber ∧ a.dayNumber < monday+7) ∧
    monday+7 ≤ b.dayNumber ∧ b.dayNumber < monday+14

def SameDay (a b : DateTime) : Prop := a.year = b.year ∧ a.month = b.month ∧ a.day = b.day

def NextDay (a b : DateTime) : Prop := b.dayNumber = a.dayNumber+1

def SameMonth (a b : DateTime) : Prop := a.year = b.year ∧ a.month = b.month

def NextMonth (a b : DateTime) : Prop :=
  (b.year = a.year ∧ b.month = a.month+1) ∨ (b.year = a.year+1 ∧ a.month = 12 ∧ b.month = 1)

/-- The quarter of the year, from 0. -/
def quarter (dt : DateTime) : ℕ := (dt.month-1)/3

def SameQuarter (a b : DateTime) : Prop := a.year = b.year ∧ quarter a = quarter b

def NextQuarter (a b : DateTime) : Prop :=
  (b.year = a.year ∧ quarter b = quarter a+1) ∨
    (b.year = a.year+1 ∧ quarter a = 3 ∧ quarter b = 0)

/-- On datetimes in the range the numbers are computed and never fall, are equal exactly within
one unit, and go up by one from a unit to the next. -/
def CountsUnits (InRange : DateTime → Prop) (num : DateTime → Option ℤ)
    (Same Next : DateTime → DateTime → Prop) : Prop :=
  ∀ a b : DateTime, InRange a → InRange b → a.instant ≤ b.instant →
    ∃ m n, num a = some m ∧ num b = some n ∧ m ≤ n ∧ (m = n ↔ Same a b) ∧ (Next a b → n = m+1)

theorem toRelativeDayNum_counts :
    CountsUnits (fun _ => True) (fun dt => some (toRelativeDayNum dt)) SameDay NextDay := by
  intro a b _ _ hab
  have hle := DateTime.dayNumber_mono hab
  refine ⟨_,_,rfl,rfl,?_,?_,?_⟩
  · rw [toRelativeDayNum_eq,toRelativeDayNum_eq]
    omega
  · rw [toRelativeDayNum_eq,toRelativeDayNum_eq,SameDay,← DateTime.dayNumber_inj]
    omega
  · intro hnext
    rw [toRelativeDayNum_eq,toRelativeDayNum_eq,hnext]
    omega

theorem toRelativeWeekNum_counts :
    CountsUnits (fun dt => dt.dayNumber+8 < january1 10000) toRelativeWeekNum SameWeek
      NextWeek := by
  intro a b ha hb hab
  have hle := DateTime.dayNumber_mono hab
  refine ⟨_,_,by rw [toRelativeWeekNum_eq,if_pos ha],by rw [toRelativeWeekNum_eq,if_pos hb],
    ?_,?_,?_⟩
  · omega
  · constructor
    · intro h
      exact ⟨a.dayNumber/7*7,Nat.mul_mod_left _ _,by omega,by omega⟩
    · rintro ⟨monday,hmonday,ha,hb⟩
      unfold weekday at hmonday
      omega
  · rintro ⟨monday,hmonday,ha,hb⟩
    unfold weekday at hmonday
    omega

theorem toRelativeMonthNum_counts :
    CountsUnits (fun _ => True) (fun dt => some (toRelativeMonthNum dt)) SameMonth NextMonth := by
  intro a b _ _ hab
  have hle := DateTime.monthIndex_mono (DateTime.dayNumber_mono hab)
  have ha := a.month_pos
  have ha' := a.month_le
  have hb := b.month_pos
  have hb' := b.month_le
  unfold DateTime.monthIndex at hle
  refine ⟨_,_,rfl,rfl,?_,?_,?_⟩
  · unfold toRelativeMonthNum
    omega
  · unfold toRelativeMonthNum SameMonth
    omega
  · unfold NextMonth toRelativeMonthNum
    omega

theorem toRelativeQuarterNum_counts :
    CountsUnits (fun _ => True) (fun dt => some (toRelativeQuarterNum dt)) SameQuarter
      NextQuarter := by
  intro a b _ _ hab
  have hle := DateTime.monthIndex_mono (DateTime.dayNumber_mono hab)
  have ha := a.month_pos
  have ha' := a.month_le
  have hb := b.month_pos
  have hb' := b.month_le
  unfold DateTime.monthIndex at hle
  refine ⟨_,_,rfl,rfl,?_,?_,?_⟩
  · unfold toRelativeQuarterNum
    omega
  · unfold toRelativeQuarterNum SameQuarter quarter
    omega
  · unfold NextQuarter toRelativeQuarterNum quarter
    omega

/-- The four oracles count their units; the one for weeks does so before 9999-12-24. -/
theorem toRelativeNums_count :
    CountsUnits (fun _ => True) (fun dt => some (toRelativeDayNum dt)) SameDay NextDay ∧
      CountsUnits (fun dt => dt.dayNumber+8 < january1 10000) toRelativeWeekNum SameWeek NextWeek ∧
      CountsUnits (fun _ => True) (fun dt => some (toRelativeMonthNum dt)) SameMonth NextMonth ∧
      CountsUnits (fun _ => True) (fun dt => some (toRelativeQuarterNum dt)) SameQuarter
        NextQuarter :=
  ⟨toRelativeDayNum_counts,toRelativeWeekNum_counts,toRelativeMonthNum_counts,
    toRelativeQuarterNum_counts⟩

/-- 9999-12-31 00:00:00. -/
def lastDay : DateTime := datetime 9999 12 31 0 0 0 0 (by decide)

/-- Adding eight days to 9999-12-31 raises. -/
theorem toRelativeWeekNum_overflows :
    ¬ CountsUnits (fun _ => True) toRelativeWeekNum SameWeek NextWeek := by
  intro h
  obtain ⟨m,n,hm,-⟩ := h lastDay lastDay trivial trivial le_rfl
  have hnone : toRelativeWeekNum lastDay = none := by decide +kernel
  rw [hnone] at hm
  exact absurd hm (Option.some_ne_none m).symm

end ClickHouseRegression.DateTime64
