import ClickHouseRegression.Calendar.Periods
import ClickHouseRegression.DateTime64.DateText

/-! The dates that `to_monday`, `to_start_of_week` and `to_start_of_quarter` expect. The time is
moved from one zone to another, but the weekday and the year are those before the move. -/
namespace ClickHouseRegression.DateTime64
open Calendar

/-- A time zone: the offset from UTC that `localize` gives to a naive datetime, when it does not
raise, and the offset at a time in UTC. Offsets are in microseconds and follow any rules. -/
structure TimeZone where
  localize : DateTime → Option ℤ
  offset : DateTime → ℤ

/-- `tz1.localize(dt).astimezone(tz2)`; `none` is an `OverflowError`. -/
def asTimezone (tz1 tz2 : TimeZone) (dt : DateTime) : Option DateTime := do
  let offset ← tz1.localize dt
  let utc ← DateTime.ofInstant (dt.instant-offset)
  DateTime.ofInstant (utc.instant+tz2.offset utc)

theorem asTimezone_eq_some {tz1 tz2 : TimeZone} {dt here : DateTime} :
    asTimezone tz1 tz2 dt = some here ↔ ∃ offset utc, tz1.localize dt = some offset ∧
      DateTime.ofInstant (dt.instant-offset) = some utc ∧
        DateTime.ofInstant (utc.instant+tz2.offset utc) = some here := by
  simp only [asTimezone,Option.bind_eq_bind,Option.bind_eq_some_iff,exists_and_left]

/-- The date so many days after the local one. -/
def shiftedDate (timeTz2 : Option DateTime) (days : ℤ) : Option Text := do
  let expectedDate ← (← timeTz2).addDays days
  return dateText expectedDate.year expectedDate.month expectedDate.day

def toMondayExpected (tz1 tz2 : TimeZone) (dt : DateTime) : Option Text :=
  let weekday : ℤ := weekday dt.dayNumber
  shiftedDate (asTimezone tz1 tz2 dt) (if weekday ≤ 3 then -weekday else 7-weekday)

/-- The mode is the weekday on which the weeks begin, 0 for Sunday and 1 for Monday. -/
def toStartOfWeekExpected (mode : ℤ) (tz1 tz2 : TimeZone) (dt : DateTime) : Option Text :=
  let weekday : ℤ := weekday dt.dayNumber
  shiftedDate (asTimezone tz1 tz2 dt) (if weekday ≤ 3+mode then mode-weekday else mode+7-weekday)

/-- The scenario takes `dt` from the dates of the year `year`. -/
def toStartOfQuarterExpected (year : ℕ) (tz1 tz2 : TimeZone) (dt : DateTime) : Option Text := do
  let timeTz2 ← asTimezone tz1 tz2 dt
  return Nat.toDigits 10 year ++ '-' :: (padded 2 (timeTz2.month/3*3+1) ++ "-01".toList)

/-- The local date exists, and what is expected is the date on which its period starts. -/
def ExpectsStart (starts : Set ℕ) (timeTz2 : Option DateTime) (expected : Option Text) : Prop :=
  ∃ here, timeTz2 = some here ∧ ∃ first : DateTime,
    expected = some (dateText first.year first.month first.day) ∧
      IsPeriodStart starts here.dayNumber first.dayNumber

theorem expectsStart_some {starts : Set ℕ} {here : DateTime} {expected : Option Text} :
    ExpectsStart starts (some here) expected ↔ ∃ first : DateTime,
      expected = some (dateText first.year first.month first.day) ∧
        IsPeriodStart starts here.dayNumber first.dayNumber := by
  constructor
  · rintro ⟨_,hsome,h⟩
    obtain rfl := Option.some.inj hsome
    exact h
  · intro h
    exact ⟨here,rfl,h⟩

theorem not_expectsStart_none {starts : Set ℕ} {expected : Option Text} :
    ¬ ExpectsStart starts none expected := by
  rintro ⟨_,h,-⟩
  exact absurd h (by simp)

/-- A shift by days hits the start of the week if it goes back by less than a week to the right
weekday, and not before the year 1. -/
theorem expectsStart_shiftedDate {start : ℕ} {timeTz2 : Option DateTime} {days : ℤ} :
    ExpectsStart (weekStarts start) timeTz2 (shiftedDate timeTz2 days) ↔
      ∃ here, timeTz2 = some here ∧ -7 < days ∧ days ≤ 0 ∧ 0 ≤ here.dayNumber+days ∧
        (here.dayNumber+days) % 7 = start := by
  cases timeTz2 with
  | none => simp [not_expectsStart_none]
  | some here =>
    simp only [expectsStart_some,Option.some.injEq,exists_eq_left']
    constructor
    · rintro ⟨first,htext,hfirst⟩
      obtain ⟨e,he,htext⟩ : ∃ e, here.addDays days = some e ∧
          dateText e.year e.month e.day = dateText first.year first.month first.day := by
        simpa [shiftedDate,Option.bind_eq_some_iff] using htext
      obtain ⟨hday,-⟩ := DateTime.addDays_eq_some.1 he
      rw [DateTime.dayNumber_inj.2 (dateText_inj.1 htext)] at hday
      rw [isPeriodStart_week,weekday] at hfirst
      omega
    · rintro ⟨hlow,hle,h0,hstart⟩
      have hend := here.dayNumber_lt_end
      obtain ⟨e,he⟩ := DateTime.exists_addDays h0 (by omega)
      obtain ⟨hday,-⟩ := DateTime.addDays_eq_some.1 he
      refine ⟨e,by simp [shiftedDate,he],?_⟩
      rw [isPeriodStart_week,weekday]
      omega

/-- Monday is expected for the first four weekdays if the local weekday is the same. -/
theorem expectsStart_toMonday (tz1 tz2 : TimeZone) (dt : DateTime) :
    ExpectsStart (weekStarts 0) (asTimezone tz1 tz2 dt) (toMondayExpected tz1 tz2 dt) ↔
      ∃ here, asTimezone tz1 tz2 dt = some here ∧ weekday dt.dayNumber ≤ 3 ∧
        weekday here.dayNumber = weekday dt.dayNumber := by
  rw [toMondayExpected,expectsStart_shiftedDate]
  apply exists_congr
  intro here
  apply and_congr_right
  intro _
  unfold weekday
  push_cast
  split_ifs <;> omega

/-- Sunday is expected for Monday to Thursday if the local date is a day earlier and has a Sunday
before it. -/
theorem expectsStart_toStartOfWeek_sunday (tz1 tz2 : TimeZone) (dt : DateTime) :
    ExpectsStart (weekStarts 6) (asTimezone tz1 tz2 dt) (toStartOfWeekExpected 0 tz1 tz2 dt) ↔
      ∃ here, asTimezone tz1 tz2 dt = some here ∧ weekday dt.dayNumber ≤ 3 ∧
        weekday (here.dayNumber+1) = weekday dt.dayNumber ∧ 6 ≤ here.dayNumber := by
  rw [toStartOfWeekExpected,expectsStart_shiftedDate]
  apply exists_congr
  intro here
  apply and_congr_right
  intro _
  unfold weekday
  push_cast
  split_ifs <;> omega

/-- With weeks from Monday the local date has to be a day earlier, and only Tuesday to Friday are
shifted back. -/
theorem expectsStart_toStartOfWeek_monday (tz1 tz2 : TimeZone) (dt : DateTime) :
    ExpectsStart (weekStarts 0) (asTimezone tz1 tz2 dt) (toStartOfWeekExpected 1 tz1 tz2 dt) ↔
      ∃ here, asTimezone tz1 tz2 dt = some here ∧ 1 ≤ weekday dt.dayNumber ∧
        weekday dt.dayNumber ≤ 4 ∧ weekday (here.dayNumber+1) = weekday dt.dayNumber := by
  rw [toStartOfWeekExpected,expectsStart_shiftedDate]
  apply exists_congr
  intro here
  apply and_congr_right
  intro _
  unfold weekday
  push_cast
  split_ifs <;> omega

theorem monthStart_first (d : DateTime) :
    d.dayNumber = monthStart d.monthIndex ↔ d.day = 1 := by
  have hday := d.dayNumber_eq
  have hpos := d.day_pos
  omega

/-- The start of a month determines the month. -/
theorem dayNumber_eq_monthStart {d : DateTime} {i : ℕ} (hi : 12 ≤ i) :
    d.dayNumber = monthStart i ↔ d.monthIndex = i ∧ d.day = 1 := by
  constructor
  · intro h
    have hnumber := d.dayNumber_eq
    have hlt := d.dayNumber_lt
    have hpos := d.day_pos
    have hindex : d.monthIndex = i := by
      rcases lt_trichotomy d.monthIndex i with hless | heq | hmore
      · have hnext := monthStart_le (by have := d.twelve_le_monthIndex; omega)
          (show d.monthIndex+1 ≤ i by omega)
        omega
      · exact heq
      · have hnext := monthStart_lt hi hmore
        omega
    rw [hindex] at hnumber
    exact ⟨hindex,by omega⟩
  · rintro ⟨rfl,h⟩
    rw [monthStart_first,h]

/-- The quarter is right in the months that are not the last ones of a quarter, if the local year is
the one before the move. -/
theorem expectsStart_toStartOfQuarter (year : ℕ) (tz1 tz2 : TimeZone) (dt : DateTime) :
    ExpectsStart quarterStarts (asTimezone tz1 tz2 dt) (toStartOfQuarterExpected year tz1 tz2 dt) ↔
      ∃ here, asTimezone tz1 tz2 dt = some here ∧ here.month % 3 ≠ 0 ∧ here.year = year := by
  rw [toStartOfQuarterExpected]
  cases asTimezone tz1 tz2 dt with
  | none => simp [not_expectsStart_none]
  | some here =>
    have htext : Nat.toDigits 10 year ++ '-' :: (padded 2 (here.month/3*3+1) ++ "-01".toList) =
        dateText year (here.month/3*3+1) 1 := rfl
    have h12 := here.twelve_le_monthIndex
    have hdiv := here.monthIndex_div
    have hmod := here.monthIndex_mod
    simp only [Option.some.injEq,exists_eq_left',Option.bind_eq_bind,Option.bind_some,Option.pure_def,
      htext,expectsStart_some,dateText_inj,isPeriodStart_quarter]
    constructor
    · rintro ⟨first,⟨hyear,hmonth,-⟩,hfirst⟩
      obtain ⟨hindex,-⟩ := (dayNumber_eq_monthStart (by omega)).1 hfirst
      have hdiv' := first.monthIndex_div
      have hmod' := first.monthIndex_mod
      omega
    · rintro ⟨hmonth,hyear⟩
      have hpos := here.month_pos
      have hle := here.month_le
      refine ⟨⟨year,here.month/3*3+1,1,0,0,0,0,by rw [← hyear]; exact here.year_pos,
        by rw [← hyear]; exact here.year_le,by omega,by omega,le_rfl,daysInMonth_pos _ _,by decide,
        by decide,by decide,by decide⟩,⟨rfl,rfl,rfl⟩,?_⟩
      rw [dayNumber_eq_monthStart (by omega)]
      refine ⟨?_,rfl⟩
      change 12*year+(here.month/3*3+1-1) = _
      omega

/-- For every datetime and every two time zones, exactly when the expected dates are the first days
of the week and of the quarter of the local date. -/
theorem expectsStart_iff (tz1 tz2 : TimeZone) (dt : DateTime) :
    (ExpectsStart (weekStarts 0) (asTimezone tz1 tz2 dt) (toMondayExpected tz1 tz2 dt) ↔
      ∃ here, asTimezone tz1 tz2 dt = some here ∧ weekday dt.dayNumber ≤ 3 ∧
        weekday here.dayNumber = weekday dt.dayNumber) ∧
    (ExpectsStart (weekStarts 6) (asTimezone tz1 tz2 dt) (toStartOfWeekExpected 0 tz1 tz2 dt) ↔
      ∃ here, asTimezone tz1 tz2 dt = some here ∧ weekday dt.dayNumber ≤ 3 ∧
        weekday (here.dayNumber+1) = weekday dt.dayNumber ∧ 6 ≤ here.dayNumber) ∧
    (ExpectsStart (weekStarts 0) (asTimezone tz1 tz2 dt) (toStartOfWeekExpected 1 tz1 tz2 dt) ↔
      ∃ here, asTimezone tz1 tz2 dt = some here ∧ 1 ≤ weekday dt.dayNumber ∧
        weekday dt.dayNumber ≤ 4 ∧ weekday (here.dayNumber+1) = weekday dt.dayNumber) ∧
    (ExpectsStart quarterStarts (asTimezone tz1 tz2 dt)
        (toStartOfQuarterExpected dt.year tz1 tz2 dt) ↔
      ∃ here, asTimezone tz1 tz2 dt = some here ∧ here.month % 3 ≠ 0 ∧ here.year = dt.year) :=
  ⟨expectsStart_toMonday tz1 tz2 dt,expectsStart_toStartOfWeek_sunday tz1 tz2 dt,
    expectsStart_toStartOfWeek_monday tz1 tz2 dt,expectsStart_toStartOfQuarter dt.year tz1 tz2 dt⟩

def utc : TimeZone := ⟨fun _ => some 0,fun _ => 0⟩

/-- 2000-12-31 23:59:59, a Sunday. -/
def lastSecond2000 : DateTime := datetime 2000 12 31 23 59 59 0 (by decide)

theorem asTimezone_utc (dt : DateTime) : asTimezone utc utc dt = some dt :=
  asTimezone_eq_some.2 ⟨0,dt,rfl,DateTime.ofInstant_eq_some.2 (Int.sub_zero _).symm,
    DateTime.ofInstant_eq_some.2 (Int.add_zero _).symm⟩

/-- On 2000-12-31 all four expected dates are wrong: two Mondays and a Tuesday that are still to
come, and the month 13. -/
theorem expected_lastSecond2000 :
    toMondayExpected utc utc lastSecond2000 = some "2001-01-01".toList ∧
    toStartOfWeekExpected 0 utc utc lastSecond2000 = some "2001-01-01".toList ∧
    toStartOfWeekExpected 1 utc utc lastSecond2000 = some "2001-01-02".toList ∧
    toStartOfQuarterExpected 2000 utc utc lastSecond2000 = some "2000-13-01".toList ∧
    ¬ ExpectsStart (weekStarts 0) (asTimezone utc utc lastSecond2000)
      (toMondayExpected utc utc lastSecond2000) ∧
    ¬ ExpectsStart (weekStarts 6) (asTimezone utc utc lastSecond2000)
      (toStartOfWeekExpected 0 utc utc lastSecond2000) ∧
    ¬ ExpectsStart (weekStarts 0) (asTimezone utc utc lastSecond2000)
      (toStartOfWeekExpected 1 utc utc lastSecond2000) ∧
    ¬ ExpectsStart quarterStarts (asTimezone utc utc lastSecond2000)
      (toStartOfQuarterExpected 2000 utc utc lastSecond2000) := by
  refine ⟨by rfl,by rfl,by rfl,by rfl,?_,?_,?_,?_⟩
  · rw [expectsStart_toMonday,asTimezone_utc]
    rintro ⟨_,-,hweekday,-⟩
    exact absurd hweekday (by decide +kernel)
  · rw [expectsStart_toStartOfWeek_sunday,asTimezone_utc]
    rintro ⟨_,-,hweekday,-⟩
    exact absurd hweekday (by decide +kernel)
  · rw [expectsStart_toStartOfWeek_monday,asTimezone_utc]
    rintro ⟨_,-,-,hweekday,-⟩
    exact absurd hweekday (by decide +kernel)
  · rw [expectsStart_toStartOfQuarter,asTimezone_utc]
    rintro ⟨here,hhere,hmonth,-⟩
    obtain rfl := Option.some.inj hhere
    exact absurd hmonth (by decide)

end ClickHouseRegression.DateTime64
