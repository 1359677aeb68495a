import ClickHouseRegression.Calendar.Gregorian

/-! Numbering the weeks of a year. A week is named by its first day; the three rules for
week 1 are stated as in the documentation of `toWeek`, and each is shown to single out one
day around January 1. -/
namespace ClickHouseRegression.Calendar

/-- What makes a week count as week 1 of a year. -/
inductive WeekOneRule
  | firstDayInYear
  | fourDays
  | containsJanuary1
  deriving DecidableEq

/-- The days of the week that starts on day `w` which lie in the year. -/
noncomputable def weekDaysInYear (year : ℕ) (w : ℤ) : Finset ℤ :=
  (Finset.Ico w (w+7)).filter fun d => (january1 year : ℤ) ≤ d ∧ d < january1 year+daysInYear year

def WeekOneRule.Qualifies (year : ℕ) (w : ℤ) : WeekOneRule → Prop
  | firstDayInYear => w ∈ weekDaysInYear year w
  | fourDays => 4 ≤ (weekDaysInYear year w).card
  | containsJanuary1 => (january1 year : ℤ) ∈ weekDaysInYear year w

/-- Week 1 is the first qualifying week among those that start on the given weekday. -/
def IsWeekOne (start : ℤ) (rule : WeekOneRule) (year : ℕ) (w : ℤ) : Prop :=
  IsLeast {w : ℤ | w % 7 = start ∧ rule.Qualifies year w} w

/-- Number of the week of day `d`, counted from the week that starts on day `w`. -/
def weekFrom (w d : ℤ) : ℤ := (d-w)/7+1

/-- Days from the start of the week of January 1 to January 1. -/
def january1Position (start : ℤ) (year : ℕ) : ℤ := ((january1 year : ℤ)-start) % 7

/-- Start of week 1, relative to January 1. -/
def weekOneOffset (start : ℤ) (year : ℕ) : WeekOneRule → ℤ
  | .firstDayInYear => if january1Position start year = 0 then 0 else 7-january1Position start year
  | .fourDays =>
    if january1Position start year ≤ 3 then -january1Position start year
    else 7-january1Position start year
  | .containsJanuary1 => -january1Position start year

theorem mem_weekDaysInYear {year : ℕ} {w d : ℤ} :
    d ∈ weekDaysInYear year w ↔
      (w ≤ d ∧ d < w+7) ∧ (january1 year : ℤ) ≤ d ∧ d < january1 year+daysInYear year := by
  simp [weekDaysInYear]

theorem weekDaysInYear_card (year : ℕ) (w : ℤ) :
    (weekDaysInYear year w).card =
      (min (w+7) (january1 year+daysInYear year)-max w (january1 year)).toNat := by
  have h : weekDaysInYear year w =
      Finset.Ico (max w (january1 year)) (min (w+7) (january1 year+daysInYear year)) := by
    ext d
    rw [mem_weekDaysInYear,Finset.mem_Ico]
    omega
  rw [h,Int.card_Ico]

/-- Each rule picks out exactly one week. -/
theorem isWeekOne_iff {start : ℤ} (hs : 0 ≤ start) (hs' : start < 7) (rule : WeekOneRule)
    (year : ℕ) (w : ℤ) :
    IsWeekOne start rule year w ↔ w = january1 year+weekOneOffset start year rule := by
  have hd := daysInYear_bounds year
  have hleast : IsWeekOne start rule year (january1 year+weekOneOffset start year rule) := by
    unfold weekOneOffset january1Position
    cases rule with
    | firstDayInYear =>
      refine ⟨⟨?_,?_⟩,?_⟩
      · simp only
        split_ifs <;> omega
      · simp only [WeekOneRule.Qualifies,mem_weekDaysInYear]
        split_ifs <;> omega
      · rintro v ⟨hv,hq⟩
        simp only [WeekOneRule.Qualifies,mem_weekDaysInYear] at hq ⊢
        split_ifs <;> omega
    | fourDays =>
      refine ⟨⟨?_,?_⟩,?_⟩
      · simp only
        split_ifs <;> omega
      · simp only [WeekOneRule.Qualifies,weekDaysInYear_card]
        split_ifs <;> omega
      · rintro v ⟨hv,hq⟩
        simp only [WeekOneRule.Qualifies,weekDaysInYear_card] at hq ⊢
        split_ifs <;> omega
    | containsJanuary1 =>
      refine ⟨⟨?_,?_⟩,?_⟩
      · simp only
        omega
      · simp only [WeekOneRule.Qualifies,mem_weekDaysInYear]
        omega
      · rintro v ⟨hv,hq⟩
        simp only [WeekOneRule.Qualifies,mem_weekDaysInYear] at hq ⊢
        omega
  constructor
  · intro h
    exact h.unique hleast
  · rintro rfl
    exact hleast

end ClickHouseRegression.Calendar
