import ClickHouseRegression.Text
import ClickHouseRegression.Calendar.Week

/-! The oracle `to_week_compute_expected` of the `toWeek` and `toYearWeek` tests, and the
week number that its comments define for each mode. -/
namespace ClickHouseRegression.DateTime64
open Calendar

/-- `zfill(2)`. -/
def zfill (t : Text) : Text := List.replicate (2-t.length) '0' ++ t

/-- The loop `while ex.weekday() != target: ex += timedelta(days=1)`, counted in days. -/
def daysUntilWeekday (target : ℕ) : ℕ → ℕ → ℕ
  | 0,_ => 0
  | fuel+1,day => if weekday day = target then 0 else daysUntilWeekday target fuel (day+1)+1

/-- `(dt - datetime(year, 1, 1) + timedelta(days=shift)).days`. -/
def shiftedDays (since : ℕ) (shift : ℤ) : ℤ := ((since : ℤ)+shift*dayLength)/dayLength

/-- The value of `expected` after the branches on `mode`, before any return in them; `since`
is `dt - datetime(year, 1, 1)`. No branch assigns it for a mode above 9. -/
def weekExpected (mode year since : ℕ) : Option ℤ :=
  let j1Weekday : ℤ := weekday (january1 year)
  let firstMonday : ℤ := daysUntilWeekday 0 7 (january1 year)
  let firstSunday : ℤ := daysUntilWeekday 6 7 (january1 year)
  match mode with
  | 0 => some (shiftedDays since (-firstSunday)/7+1)
  | 1 => some (if j1Weekday ≤ 3 then shiftedDays since (7+j1Weekday)/7
      else shiftedDays since j1Weekday/7)
  | 2 => some (shiftedDays since (-firstSunday)/7+1)
  | 3 => some (if j1Weekday ≤ 3 then shiftedDays since (7+j1Weekday)/7
      else shiftedDays since j1Weekday/7)
  | 4 => some (if j1Weekday ≤ 3 then shiftedDays since (8+j1Weekday)/7
      else shiftedDays since (j1Weekday+1)/7)
  | 5 => some (shiftedDays since (-firstMonday)/7+1)
  | 6 => some (if j1Weekday ≤ 3 then shiftedDays since (8+j1Weekday)/7
      else shiftedDays since (j1Weekday+1)/7)
  | 7 => some (shiftedDays since (-firstMonday)/7+1)
  | 8 => some (shiftedDays since ((j1Weekday+1) % 7)/7+1)
  | 9 => some (shiftedDays since (j1Weekday % 7)/7+1)
  | _ => none

/-- Modes with `if expected == 0: return to_week_compute_expected(datetime(dt.year-1,12,31), mode)`. -/
def fallsBack (mode : ℕ) : Bool := mode = 2 || mode = 3 || mode = 6 || mode = 7

inductive Failure
  | valueError
  | unboundLocalError
  deriving DecidableEq

/-- The recursion of the source: the call for December 31 of the previous year drops
`ret_year`, and `datetime` has no year 0. -/
def toWeekFrom (mode : ℕ) : ℕ → ℕ → Bool → Except Failure Text
  | 0,_,_ => .error .valueError
  | year+1,since,retYear =>
    match weekExpected mode (year+1) since with
    | none => .error .unboundLocalError
    | some expected =>
      if fallsBack mode && expected = 0 then
        toWeekFrom mode year ((daysInYear year-1)*dayLength) false
      else .ok (if retYear then str (year+1) ++ zfill (str expected) else str expected)

def toWeekComputeExpected (dt : DateTime) (mode : ℕ) (retYear : Bool) : Except Failure Text :=
  toWeekFrom mode dt.year dt.sinceJanuary1 retYear

/-- First day of the week: Sunday in the even modes, Monday in the odd ones. -/
def weekStart (mode : ℕ) : ℤ := if mode % 2 = 0 then 6 else 0

def weekOneRule (mode : ℕ) : WeekOneRule :=
  if mode = 0 ∨ mode = 2 ∨ mode = 5 ∨ mode = 7 then .firstDayInYear
  else if mode = 8 ∨ mode = 9 then .containsJanuary1
  else .fourDays

/-- Modes whose comment says `range 0-53`. -/
def fromZero (mode : ℕ) : Bool := mode = 0 || mode = 1 || mode = 4 || mode = 5

/-- `n` is the number of the week of this day, counted from week 1 of its own year; before
week 1 it is 0 or the number of the last week of the previous year. -/
def IsWeekNumber (mode year yearDay : ℕ) (n : ℤ) : Prop :=
  ∃ w, IsWeekOne (weekStart mode) (weekOneRule mode) year w ∧
    (w ≤ january1 year+yearDay ∧ n = weekFrom w (january1 year+yearDay) ∨
      (january1 year+yearDay : ℤ) < w ∧
        (fromZero mode = true ∧ n = 0 ∨
          fromZero mode = false ∧ ∃ w', IsWeekOne (weekStart mode) (weekOneRule mode) (year-1) w' ∧
            n = weekFrom w' (january1 year-1)))

/-- The range stated for the mode. -/
def InRange (mode : ℕ) (n : ℤ) : Prop := ((fromZero mode = true ∧ n = 0) ∨ 1 ≤ n) ∧ n ≤ 53

/-- The oracle gives the defined week number, within the stated range. -/
def WeekAsDefined (dt : DateTime) (mode : ℕ) : Prop :=
  ∃ n, IsWeekNumber mode dt.year dt.yearDay n ∧ InRange mode n ∧
    toWeekComputeExpected dt mode false = .ok (str n)

theorem daysUntilWeekday_of_gap {target gap fuel day : ℕ} (h : weekday (day+gap) = target)
    (hg : gap < 7) (hf : gap ≤ fuel) : daysUntilWeekday target fuel day = gap := by
  unfold weekday at h
  induction gap generalizing fuel day with
  | zero =>
    cases fuel with
    | zero => rfl
    | succ fuel => exact if_pos h
  | succ gap ih =>
    obtain ⟨fuel,rfl⟩ : ∃ f, fuel = f+1 := ⟨fuel-1,by omega⟩
    have hne : ¬ weekday day = target := by
      unfold weekday
      omega
    rw [daysUntilWeekday,if_neg hne,
      ih (by rw [← h,Nat.add_assoc,Nat.add_comm 1]) (by omega) (by omega)]

theorem daysUntilWeekday_eq {target : ℕ} (h : target < 7) (day : ℕ) :
    daysUntilWeekday target 7 day = (target+7-day % 7) % 7 := by
  refine daysUntilWeekday_of_gap ?_ (by omega) (by omega)
  unfold weekday
  omega

theorem shiftedDays_eq (since : ℕ) (shift : ℤ) :
    shiftedDays since shift = ((since/dayLength : ℕ) : ℤ)+shift := by
  rw [shiftedDays,Int.add_mul_ediv_right _ _ (by decide)]
  push_cast
  rfl

/-- Number of the day's week counted from week 1 of the year itself, or 0 before it. -/
def ownWeek (mode year yearDay : ℕ) : ℤ :=
  if weekOneOffset (weekStart mode) year (weekOneRule mode) ≤ yearDay then
    ((yearDay : ℤ)-weekOneOffset (weekStart mode) year (weekOneRule mode))/7+1
  else 0

/-- The week number by its formula. -/
def weekNumber (mode year yearDay : ℕ) : ℤ :=
  if ownWeek mode year yearDay = 0 ∧ fromZero mode = false then
    ownWeek mode (year-1) (daysInYear (year-1)-1)
  else ownWeek mode year yearDay

/-- Modes 4 and 6 start their week on Sunday but treat a year that begins on a Thursday as the
Monday modes do. -/
def overshoots (mode year : ℕ) : Bool := (mode = 4 || mode = 6) && weekday (january1 year) = 3

/-- What the branches compute. -/
def codeWeek (mode year yearDay : ℕ) : ℤ :=
  ownWeek mode year yearDay+if overshoots mode year then 1 else 0

theorem january1Position_bounds (start : ℤ) (year : ℕ) :
    0 ≤ january1Position start year ∧ january1Position start year < 7 := by
  unfold january1Position
  omega

theorem weekOneOffset_bounds (start : ℤ) (year : ℕ) (rule : WeekOneRule) :
    -6 ≤ weekOneOffset start year rule ∧ weekOneOffset start year rule ≤ 6 := by
  have h := january1Position_bounds start year
  cases rule with
  | firstDayInYear =>
    unfold weekOneOffset
    split <;> omega
  | fourDays =>
    unfold weekOneOffset
    split <;> omega
  | containsJanuary1 =>
    simp only [weekOneOffset]
    omega

theorem ownWeek_eq (mode year yearDay : ℕ) :
    ownWeek mode year yearDay =
      ((yearDay : ℤ)-weekOneOffset (weekStart mode) year (weekOneRule mode))/7+1 := by
  have h := weekOneOffset_bounds (weekStart mode) year (weekOneRule mode)
  unfold ownWeek
  split <;> omega

theorem weekOneOffset_eq (start : ℤ) (year : ℕ) (rule : WeekOneRule) :
    weekOneOffset start year rule =
      match rule with
      | .firstDayInYear => (start-january1 year) % 7
      | .fourDays => (start-january1 year+3) % 7-3
      | .containsJanuary1 => -((january1 year-start) % 7) := by
  cases rule with
  | firstDayInYear =>
    simp only [weekOneOffset,january1Position]
    split_ifs <;> omega
  | fourDays =>
    simp only [weekOneOffset,january1Position]
    split_ifs <;> omega
  | containsJanuary1 => rfl

theorem codeWeek_eq (mode year yearDay : ℕ) :
    codeWeek mode year yearDay = ownWeek mode year yearDay+
      if (mode = 4 ∨ mode = 6) ∧ weekday (january1 year) = 3 then 1 else 0 := by
  simp [codeWeek,overshoots]

theorem overshoots_eq_false_iff (mode year : ℕ) :
    overshoots mode year = false ↔ ¬ ((mode = 4 ∨ mode = 6) ∧ weekday (january1 year) = 3) := by
  rw [← Bool.not_eq_true]
  simp [overshoots]

theorem weekExpected_eq {mode : ℕ} (hm : mode < 10) (year since : ℕ) :
    weekExpected mode year since = some (codeWeek mode year (since/dayLength)) := by
  have h0 := daysUntilWeekday_eq (show 0 < 7 by decide) (january1 year)
  have h6 := daysUntilWeekday_eq (show 6 < 7 by decide) (january1 year)
  rw [codeWeek_eq,ownWeek_eq,weekOneOffset_eq]
  interval_cases mode <;>
    simp only [weekExpected,shiftedDays_eq,h0,h6,weekStart,weekOneRule,weekday,Option.some.injEq]
  case «1» | «3» =>
    norm_num
    split_ifs <;> omega
  case «4» | «6» =>
    norm_num
    split_ifs <;> omega
  case «9» => norm_num
  all_goals
    norm_num
    omega

theorem ownWeek_eq_zero_iff (mode year yearDay : ℕ) :
    ownWeek mode year yearDay = 0 ↔
      (yearDay : ℤ) < weekOneOffset (weekStart mode) year (weekOneRule mode) := by
  unfold ownWeek
  split <;> omega

theorem ownWeek_lastDay (mode year : ℕ) : 52 ≤ ownWeek mode year (daysInYear year-1) := by
  have hb := daysInYear_bounds year
  have ho := weekOneOffset_bounds (weekStart mode) year (weekOneRule mode)
  rw [ownWeek_eq]
  omega

theorem codeWeek_lastDay_pos (mode year : ℕ) : 1 ≤ codeWeek mode year (daysInYear year-1) := by
  have h := ownWeek_lastDay mode year
  unfold codeWeek
  split <;> omega

/-- The result of the recursion, `none` where it asks for the year 0. -/
def weekReturned (mode year yearDay : ℕ) : Option ℤ :=
  if fallsBack mode = true ∧ codeWeek mode year yearDay = 0 then
    if year = 1 then none else some (codeWeek mode (year-1) (daysInYear (year-1)-1))
  else some (codeWeek mode year yearDay)

theorem toWeekFrom_direct {mode year since : ℕ} (hm : mode < 10) (hy : 1 ≤ year)
    (h : ¬ (fallsBack mode = true ∧ codeWeek mode year (since/dayLength) = 0)) :
    toWeekFrom mode year since false = .ok (str (codeWeek mode year (since/dayLength))) := by
  obtain ⟨y,rfl⟩ : ∃ y, year = y+1 := ⟨year-1,by omega⟩
  rw [toWeekFrom,weekExpected_eq hm]
  exact (if_neg (by simpa using h)).trans rfl

theorem toWeekFrom_back {mode year since : ℕ} (hm : mode < 10) (hf : fallsBack mode = true)
    (h : codeWeek mode (year+1) (since/dayLength) = 0) (retYear : Bool) :
    toWeekFrom mode (year+1) since retYear =
      toWeekFrom mode year ((daysInYear year-1)*dayLength) false := by
  rw [toWeekFrom,weekExpected_eq hm]
  simp [hf,h]

theorem toWeekComputeExpected_eq {mode : ℕ} (hm : mode < 10) (dt : DateTime) :
    toWeekComputeExpected dt mode false =
      match weekReturned mode dt.year dt.yearDay with
      | none => .error .valueError
      | some n => .ok (str n) := by
  have hy := dt.year_pos
  unfold toWeekComputeExpected weekReturned
  rw [← dt.sinceJanuary1_div]
  by_cases h : fallsBack mode = true ∧ codeWeek mode dt.year (dt.sinceJanuary1/dayLength) = 0
  · obtain ⟨y,hyear⟩ : ∃ y, dt.year = y+1 := ⟨dt.year-1,by omega⟩
    rw [if_pos h]
    rw [hyear] at h ⊢
    rw [toWeekFrom_back hm h.1 h.2]
    cases y with
    | zero => rfl
    | succ y =>
      have hpos := codeWeek_lastDay_pos mode (y+1)
      have hdiv : (daysInYear (y+1)-1)*dayLength/dayLength = daysInYear (y+1)-1 :=
        Nat.mul_div_cancel _ (by decide)
      rw [toWeekFrom_direct hm (by omega) (by rw [hdiv]; omega),hdiv,if_neg (by omega)]
      rfl
  · rw [if_neg h,toWeekFrom_direct hm hy h]

theorem weekStart_bounds (mode : ℕ) : 0 ≤ weekStart mode ∧ weekStart mode < 7 := by
  unfold weekStart
  split <;> omega

theorem isWeekNumber_iff {mode year yearDay : ℕ} {n : ℤ}
    (h : 2 ≤ year ∨ fromZero mode = true ∨ ownWeek mode year yearDay ≠ 0) :
    IsWeekNumber mode year yearDay n ↔ n = weekNumber mode year yearDay := by
  obtain ⟨hs,hs'⟩ := weekStart_bounds mode
  have hone : ∀ y w, IsWeekOne (weekStart mode) (weekOneRule mode) y w ↔
      w = january1 y+weekOneOffset (weekStart mode) y (weekOneRule mode) := fun y w =>
    isWeekOne_iff hs hs' _ y w
  have hzero := ownWeek_eq_zero_iff mode year yearDay
  simp only [IsWeekNumber,hone,exists_eq_left]
  unfold weekNumber weekFrom
  by_cases hb : ownWeek mode year yearDay = 0
  · have hlt := hzero.1 hb
    cases hf : fromZero mode with
    | true =>
      simp [hb]
      omega
    | false =>
      have hy : 2 ≤ year := by simpa [hb,hf] using h
      have hj := january1_succ (year-1) (by omega)
      have hlast := ownWeek_lastDay mode (year-1)
      have hd := daysInYear_bounds (year-1)
      have hne := (ownWeek_eq_zero_iff mode (year-1) (daysInYear (year-1)-1)).not.1 (by omega)
      rw [Nat.sub_add_cancel (by omega)] at hj
      rw [if_pos ⟨hb,rfl⟩]
      unfold ownWeek
      rw [if_pos (by omega)]
      have heq : (january1 year : ℤ)-1-
          (january1 (year-1)+weekOneOffset (weekStart mode) (year-1) (weekOneRule mode)) =
          ((daysInYear (year-1)-1 : ℕ) : ℤ)-
            weekOneOffset (weekStart mode) (year-1) (weekOneRule mode) := by
        omega
      rw [heq]
      constructor
      · rintro (⟨h1,-⟩ | ⟨-,⟨h1,-⟩ | ⟨-,h1⟩⟩)
        · omega
        · cases h1
        · exact h1
      · intro h1
        exact .inr ⟨by omega,.inr ⟨rfl,h1⟩⟩
  · have hle := hzero.not.1 hb
    rw [if_neg (by simp [hb])]
    unfold ownWeek
    rw [if_pos (by omega),show (january1 year : ℤ)+yearDay-
      (january1 year+weekOneOffset (weekStart mode) year (weekOneRule mode)) =
        yearDay-weekOneOffset (weekStart mode) year (weekOneRule mode) by omega]
    constructor
    · rintro (⟨-,h1⟩ | ⟨h1,-⟩)
      · exact h1
      · omega
    · intro h1
      exact .inl ⟨by omega,h1⟩

/-- The condition under which the oracle is right. It is too high by one in modes 4 and 6 for
a year that begins on a Thursday, and in mode 6 also for the days of the next year that fall
back to it; mode 2 asks for the year 0 in the first days of the year 1; modes 8 and 9 number
the last day of a leap year 54 when the year ends in a new week. -/
def WeekExact (mode year yearDay : ℕ) : Prop :=
  (mode = 2 → ¬ (year = 1 ∧ yearDay < 6)) ∧
  (mode = 4 ∨ mode = 6 → weekday (january1 year) ≠ 3) ∧
  (mode = 6 → ¬ (2 ≤ year ∧ weekday (january1 (year-1)) = 3 ∧
    (weekday (january1 year) = 4 ∧ yearDay < 2 ∨ weekday (january1 year) = 5 ∧ yearDay < 1))) ∧
  (mode = 8 → ¬ (weekday (january1 year) = 5 ∧ yearDay = 365)) ∧
  (mode = 9 → ¬ (weekday (january1 year) = 6 ∧ yearDay = 365))

theorem weekAsDefined_iff_returned {mode : ℕ} (hm : mode < 10) (dt : DateTime) :
    WeekAsDefined dt mode ↔ ∃ n, IsWeekNumber mode dt.year dt.yearDay n ∧ InRange mode n ∧
      weekReturned mode dt.year dt.yearDay = some n := by
  unfold WeekAsDefined
  rw [toWeekComputeExpected_eq hm]
  refine exists_congr fun n => and_congr_right fun _ => and_congr_right fun _ => ?_
  cases weekReturned mode dt.year dt.yearDay with
  | none => simp
  | some k => simp [str_injective.eq_iff]

theorem january1_cases {year : ℕ} (h : 1 ≤ year) :
    year = 1 ∧ january1 year = 0 ∨
      2 ≤ year ∧ january1 year = january1 (year-1)+daysInYear (year-1) := by
  obtain rfl | hy : year = 1 ∨ 2 ≤ year := by omega
  · exact .inl ⟨rfl,rfl⟩
  · have hj := january1_succ (year-1) (by omega)
    rw [Nat.sub_add_cancel (by omega)] at hj
    exact .inr ⟨hy,hj⟩

theorem ownWeek_nonneg (mode year yearDay : ℕ) : 0 ≤ ownWeek mode year yearDay := by
  have h := weekOneOffset_bounds (weekStart mode) year (weekOneRule mode)
  rw [ownWeek_eq]
  omega

theorem ownWeek_le (mode year : ℕ) {yearDay : ℕ} (hd : yearDay < daysInYear year) :
    weekOneRule mode ≠ .containsJanuary1 → ownWeek mode year yearDay ≤ 53 := by
  have hb := daysInYear_bounds year
  rw [ownWeek_eq,weekOneOffset_eq]
  cases weekOneRule mode with
  | firstDayInYear => simp only; omega
  | fourDays => simp only; omega
  | containsJanuary1 => exact fun h => absurd rfl h

/-- Only modes that fall back have days before week 1 and no number 0. -/
theorem fallsBack_iff {mode year yearDay : ℕ} (hm : mode < 10)
    (h : ownWeek mode year yearDay = 0) : fallsBack mode = true ↔ fromZero mode = false := by
  have hz := (ownWeek_eq_zero_iff mode year yearDay).1 h
  rw [weekOneOffset_eq] at hz
  interval_cases mode
  case «8» | «9» =>
    simp only [weekOneRule] at hz
    norm_num at hz
    omega
  all_goals decide

theorem weekReturned_eq_weekNumber_iff {mode : ℕ} (hm : mode < 10) (year yearDay : ℕ) :
    weekReturned mode year yearDay = some (weekNumber mode year yearDay) ↔
      overshoots mode year = false ∧
        (fallsBack mode = true ∧ ownWeek mode year yearDay = 0 →
          year ≠ 1 ∧ overshoots mode (year-1) = false) := by
  have hlast := ownWeek_lastDay mode (year-1)
  unfold weekReturned weekNumber codeWeek
  by_cases hz : ownWeek mode year yearDay = 0
  · have hiff := fallsBack_iff hm hz
    cases hf : fallsBack mode with
    | false =>
      have h0 : ¬ fromZero mode = false := fun h => by simp [hiff.2 h] at hf
      cases ho : overshoots mode year <;> simp [hz,h0]
    | true =>
      have h0 := hiff.1 hf
      cases ho : overshoots mode year with
      | true =>
        simp only [hz,h0]
        norm_num
        omega
      | false =>
        by_cases h1 : year = 1
        · subst h1
          simp [hz]
        · cases ho' : overshoots mode (year-1) <;> simp [hz,h0,h1]
  · have hn : ¬ (ownWeek mode year yearDay = 0 ∧ fromZero mode = false) := fun h => hz h.1
    cases ho : overshoots mode year with
    | false => simp [hz]
    | true =>
      have hpos := ownWeek_nonneg mode year yearDay
      have hne : ownWeek mode year yearDay+1 ≠ 0 := by omega
      simp [hz,hne]

theorem inRange_weekNumber_iff {mode : ℕ} (hm : mode < 10) (year yearDay : ℕ) :
    InRange mode (weekNumber mode year yearDay) ↔ ownWeek mode year yearDay ≤ 53 := by
  have hnn := ownWeek_nonneg mode year yearDay
  have hlast := ownWeek_lastDay mode (year-1)
  have hb := daysInYear_bounds (year-1)
  have hle := ownWeek_le mode (year-1) (show daysInYear (year-1)-1 < daysInYear (year-1) by omega)
  unfold InRange weekNumber
  by_cases hz : ownWeek mode year yearDay = 0 ∧ fromZero mode = false
  · have hrule : weekOneRule mode ≠ .containsJanuary1 := by
      have hf := (fallsBack_iff hm hz.1).2 hz.2
      simp only [fallsBack,Bool.or_eq_true,decide_eq_true_eq] at hf
      obtain ((rfl | rfl) | rfl) | rfl := hf <;> decide
    have hle' := hle hrule
    rw [if_pos hz]
    omega
  · rw [if_neg hz]
    cases hf : fromZero mode with
    | true =>
      simp only [true_and]
      omega
    | false =>
      have hne : ownWeek mode year yearDay ≠ 0 := fun h => hz ⟨h,hf⟩
      omega

/-- The three conditions of `weekReturned_eq_weekNumber_iff` and `inRange_weekNumber_iff`,
written as dates. -/
theorem weekExact_iff {mode year yearDay : ℕ} (hm : mode < 10) (hy : 1 ≤ year)
    (hd : yearDay < daysInYear year) :
    WeekExact mode year yearDay ↔
      (overshoots mode year = false ∧
        (fallsBack mode = true ∧ ownWeek mode year yearDay = 0 →
          year ≠ 1 ∧ overshoots mode (year-1) = false)) ∧ ownWeek mode year yearDay ≤ 53 := by
  have hb := daysInYear_bounds year
  have hb' := daysInYear_bounds (year-1)
  have hj := january1_cases hy
  simp only [WeekExact,overshoots_eq_false_iff,ownWeek_eq,weekOneOffset_eq]
  interval_cases mode
  all_goals simp only [weekOneRule,weekStart,fallsBack,weekday]
  all_goals norm_num
  all_goals omega

/-- For every datetime and mode the oracle agrees with the definition in its comments exactly
outside the listed dates. -/
theorem weekAsDefined_iff (dt : DateTime) {mode : ℕ} (hm : mode < 10) :
    WeekAsDefined dt mode ↔ WeekExact mode dt.year dt.yearDay := by
  rw [weekAsDefined_iff_returned hm,weekExact_iff hm dt.year_pos dt.yearDay_lt,
    ← weekReturned_eq_weekNumber_iff hm,← inRange_weekNumber_iff hm]
  by_cases hb : 2 ≤ dt.year ∨ fromZero mode = true ∨ ownWeek mode dt.year dt.yearDay ≠ 0
  · simp only [isWeekNumber_iff hb,exists_eq_left]
    exact and_comm
  · -- before week 1 of the year 1 the call fails, so neither side holds
    have hy := dt.year_pos
    simp only [not_or,not_le,Bool.not_eq_true,not_not] at hb
    have hnone : weekReturned mode dt.year dt.yearDay = none := by
      have hf := (fallsBack_iff hm hb.2.2).2 hb.2.1
      have ho : overshoots mode dt.year = false := by
        have h1 : dt.year = 1 := by omega
        rw [overshoots_eq_false_iff,h1]
        exact fun h => absurd h.2 (by decide)
      unfold weekReturned codeWeek
      rw [if_pos ⟨hf,by simp [hb.2.2,ho]⟩,if_pos (by omega)]
    simp [hnone]

/-- 2015-01-01, a Thursday. -/
def thursdayNewYear : DateTime := datetime 2015 1 1 0 0 0 0 (by decide)

/-- The Sunday mode 0 on that day. -/
theorem weekAsDefined_iff_mode_zero : 0 < 10 ∧ WeekAsDefined thursdayNewYear 0 :=
  ⟨by decide,(weekAsDefined_iff thursdayNewYear (by decide)).2 (by simp [WeekExact])⟩

/-- On that day mode 4 returns 1, though the first week with four days of 2015 starts on
January 4. -/
theorem toWeek_thursday_new_year :
    toWeekComputeExpected thursdayNewYear 4 false = .ok (str 1) ∧
      ¬ WeekAsDefined thursdayNewYear 4 := by
  have hret : weekReturned 4 thursdayNewYear.year thursdayNewYear.yearDay = some 1 := by
    rfl
  have hcode := toWeekComputeExpected_eq (show 4 < 10 by decide) thursdayNewYear
  rw [hret] at hcode
  refine ⟨hcode,?_⟩
  rintro ⟨n,hn,-,hn'⟩
  rw [isWeekNumber_iff (.inl (by decide)),
    ← str_injective (Except.ok.inj (hcode.symm.trans hn'))] at hn
  exact absurd hn (by decide +kernel)

end ClickHouseRegression.DateTime64
