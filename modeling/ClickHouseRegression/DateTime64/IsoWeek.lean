import ClickHouseRegression.Calendar.Instant
import ClickHouseRegression.DateTime64.ToWeek

/-! The ISO week that the `toISOWeek` test expects, against mode 3 of the `toWeek` oracle. The
oracle recurses into the previous year but never looks ahead into the next one. -/
namespace ClickHouseRegression.DateTime64
open Calendar

/-- The Monday of ISO week 1, as `datetime` computes it. -/
def isoWeek1Monday (year : ℕ) : ℤ :=
  let firstday : ℤ := january1 year
  let week1monday := firstday-weekday (january1 year)
  if 3 < weekday (january1 year) then week1monday+7 else week1monday

/-- `dt.isocalendar()[1]`. -/
def isoWeek (dt : DateTime) : ℤ :=
  let today : ℤ := dt.dayNumber
  let week := (today-isoWeek1Monday dt.year)/7
  if week < 0 then (today-isoWeek1Monday (dt.year-1))/7+1
  else if 52 ≤ week ∧ isoWeek1Monday (dt.year+1) ≤ today then 1
  else week+1

/-- The oracle for `toISOWeek` and mode 3 of the oracle for `toWeek` agree. -/
def WeeksAgree (dt : DateTime) : Prop := toWeekComputeExpected dt 3 false = .ok (str (isoWeek dt))

/-- The days at the end of December that are in a week with a Thursday in the next year. -/
def InNextYearsWeek (dt : DateTime) : Prop :=
  weekday (january1 (dt.year+1)) ≤ 3 ∧
    january1 (dt.year+1) ≤ dt.dayNumber+weekday (january1 (dt.year+1))

theorem isoWeek1Monday_eq (year : ℕ) :
    isoWeek1Monday year = january1 year+((3-(january1 year : ℤ)) % 7-3) := by
  unfold isoWeek1Monday weekday
  simp only
  split_ifs <;> omega

theorem codeWeek_three (year yearDay : ℕ) :
    codeWeek 3 year yearDay = (yearDay-((3-(january1 year : ℤ)) % 7-3))/7+1 := by
  have hoffset : weekOneOffset (weekStart 3) year (weekOneRule 3) =
      (3-(january1 year : ℤ)) % 7-3 := by
    rw [weekOneOffset_eq]
    change (0-(january1 year : ℤ)+3) % 7-3 = _
    omega
  rw [codeWeek_eq,ownWeek_eq,hoffset]
  simp

/-- Mode 3 gives the ISO week except at the end of December, where it does not see that the week
belongs to the next year. -/
theorem weekReturned_three (dt : DateTime) :
    weekReturned 3 dt.year dt.yearDay = some (isoWeek dt) ↔ ¬ InNextYearsWeek dt := by
  have hy := dt.year_pos
  have hd := dt.yearDay_lt
  have hb := daysInYear_bounds dt.year
  have hnext := january1_succ dt.year hy
  have hday : dt.dayNumber = january1 dt.year+dt.yearDay := rfl
  have hfalls : fallsBack 3 = true := rfl
  unfold weekReturned InNextYearsWeek isoWeek weekday
  simp only [codeWeek_three,isoWeek1Monday_eq,hfalls,true_and,hday]
  by_cases hfirst : dt.year = 1
  · have hj : january1 dt.year = 0 := by rw [hfirst]; rfl
    simp only [hj] at *
    split_ifs <;> simp <;> omega
  · have hprev := january1_succ (dt.year-1) (by omega)
    have hb' := daysInYear_bounds (dt.year-1)
    rw [Nat.sub_add_cancel hy] at hprev
    split_ifs <;> simp <;> omega

/-- For every datetime the two oracles agree exactly if its week does not belong to the next
year. -/
theorem weeksAgree_iff (dt : DateTime) : WeeksAgree dt ↔ ¬ InNextYearsWeek dt := by
  rw [← weekReturned_three,WeeksAgree,toWeekComputeExpected_eq (by decide)]
  cases weekReturned 3 dt.year dt.yearDay with
  | none => simp
  | some n =>
    constructor
    · intro h
      exact congrArg some (str_injective (Except.ok.inj h))
    · intro h
      rw [Option.some.inj h]

/-- 2018-12-31 00:00:00. -/
def lastMonday2018 : DateTime := datetime 2018 12 31 0 0 0 0 (by decide)

/-- 2018-12-31 is in ISO week 1, and mode 3 gives 53. -/
theorem toWeek_lastMonday2018 :
    toWeekComputeExpected lastMonday2018 3 false = .ok "53".toList ∧ isoWeek lastMonday2018 = 1 ∧
      ¬ WeeksAgree lastMonday2018 := by
  unfold WeeksAgree
  decide +kernel

end ClickHouseRegression.DateTime64
