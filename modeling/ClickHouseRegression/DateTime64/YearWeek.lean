import ClickHouseRegression.DateTime64.ToWeek

/-! The oracle of `toWeek` with `ret_year=True`, which the `toYearWeek` tests use: the year in front
of the week. The recursive call for the previous year does not pass the flag on. -/
namespace ClickHouseRegression.DateTime64
open Calendar

/-- Days before week 1 of their year, in the modes that number them in the previous year. In mode 6 a
year that begins on a Thursday has none. -/
def CountedInPreviousYear (mode : ℕ) (dt : DateTime) : Prop :=
  fallsBack mode = true ∧ overshoots mode dt.year = false ∧
    (dt.yearDay : ℤ) < weekOneOffset (weekStart mode) dt.year (weekOneRule mode)
  deriving Decidable

/-- With the flag the result is the year in which the week is numbered and the two digits of the
week, which is the result without the flag. -/
def YearThenWeek (dt : DateTime) (mode : ℕ) : Prop :=
  ∃ n : ℤ, toWeekComputeExpected dt mode false = .ok (str n) ∧
    toWeekComputeExpected dt mode true =
      .ok (str (if CountedInPreviousYear mode dt then dt.year-1 else dt.year) ++ zfill (str n))

theorem countedInPreviousYear_iff (mode : ℕ) (dt : DateTime) :
    CountedInPreviousYear mode dt ↔
      fallsBack mode = true ∧ codeWeek mode dt.year dt.yearDay = 0 := by
  have hown := ownWeek_eq_zero_iff mode dt.year dt.yearDay
  have hnonneg := ownWeek_nonneg mode dt.year dt.yearDay
  rw [CountedInPreviousYear,codeWeek]
  cases overshoots mode dt.year with
  | false => simp [hown]
  | true =>
    simp only [Bool.true_eq_false,false_and,and_false,false_iff,if_true]
    omega

/-- A year in front of the week makes the text longer. -/
theorem str_ne_year_week (y n : ℤ) : str n ≠ str y ++ zfill (str n) := by
  intro h
  have hlen := congrArg List.length h
  have hpos : 0 < (str y).length := by
    cases y with
    | ofNat y => exact List.length_pos_iff.2 Nat.toDigits_ne_nil
    | negSucc y => exact Nat.succ_pos _
  rw [List.length_append,zfill,List.length_append] at hlen
  omega

/-- For every datetime and mode, the year stands in front of the week exactly if the day is not
counted in the previous year. -/
theorem yearThenWeek_iff (dt : DateTime) {mode : ℕ} (hm : mode < 10) :
    YearThenWeek dt mode ↔ ¬ CountedInPreviousYear mode dt := by
  have hy := dt.year_pos
  obtain ⟨y,hyear⟩ : ∃ y, dt.year = y+1 := ⟨dt.year-1,by omega⟩
  constructor
  · rintro ⟨n,hfalse,htrue⟩ hprev
    obtain ⟨hf,hzero⟩ := (countedInPreviousYear_iff mode dt).1 hprev
    rw [toWeekComputeExpected,hyear] at hfalse htrue
    rw [hyear,← dt.sinceJanuary1_div] at hzero
    -- both calls recurse without the flag
    rw [toWeekFrom_back hm hf hzero] at hfalse htrue
    rw [hfalse] at htrue
    exact str_ne_year_week _ _ (Except.ok.inj htrue)
  · intro hprev
    have hown := hprev
    rw [countedInPreviousYear_iff,← dt.sinceJanuary1_div] at hown
    refine ⟨_,toWeekFrom_direct hm hy hown,?_⟩
    rw [if_neg hprev,toWeekComputeExpected]
    rw [hyear] at hown ⊢
    rw [toWeekFrom,weekExpected_eq hm]
    exact (if_neg (by simpa using hown)).trans rfl

/-- 2236-01-01 00:00:00, a Friday. -/
def newYear2236 : DateTime := datetime 2236 1 1 0 0 0 0 (by decide)

theorem yearThenWeek_newYear2236 : 1 < 10 ∧ YearThenWeek newYear2236 1 :=
  ⟨by decide,(yearThenWeek_iff newYear2236 (by decide)).2 (by decide +kernel)⟩

/-- In mode 3 this day is in week 53 of 2235, and the year is lost. -/
theorem toYearWeek_newYear2236 :
    toWeekComputeExpected newYear2236 3 false = .ok "53".toList ∧
      toWeekComputeExpected newYear2236 3 true = .ok "53".toList ∧ ¬ YearThenWeek newYear2236 3 := by
  have hfalse : toWeekComputeExpected newYear2236 3 false = .ok "53".toList := by decide +kernel
  have htrue : toWeekComputeExpected newYear2236 3 true = .ok "53".toList := by decide +kernel
  refine ⟨hfalse,htrue,?_⟩
  rintro ⟨n,hn,hyear⟩
  rw [hfalse] at hn
  rw [htrue,Except.ok.inj hn] at hyear
  exact str_ne_year_week _ _ (Except.ok.inj hyear)

end ClickHouseRegression.DateTime64
