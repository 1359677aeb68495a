import ClickHouseRegression.Calendar.Civil

/-! Periods of days. A period is named by the day on which it starts, so the period of a day is the
latest start that is not after it. -/
namespace ClickHouseRegression.Calendar

/-- The start of the period in which a day lies. -/
def IsPeriodStart (starts : Set ℕ) (day first : ℕ) : Prop :=
  IsGreatest {n | n ∈ starts ∧ n ≤ day} first

/-- Weeks that start on the given weekday. -/
def weekStarts (start : ℕ) : Set ℕ := {n | weekday n = start}

/-- January, April, July and October 1 of every year. -/
def quarterStarts : Set ℕ := {n | ∃ i, 12 ≤ i ∧ i % 3 = 0 ∧ n = monthStart i}

theorem isPeriodStart_week {start day first : ℕ} :
    IsPeriodStart (weekStarts start) day first ↔
      weekday first = start ∧ first ≤ day ∧ day < first+7 := by
  unfold IsPeriodStart weekStarts weekday
  constructor
  · rintro ⟨⟨hstart,hle⟩,hmax⟩
    refine ⟨hstart,hle,?_⟩
    by_contra hlt
    have hstart' : first % 7 = start := hstart
    have hnext : first+7 ≤ first := hmax ⟨show (first+7) % 7 = start by omega,by omega⟩
    omega
  · rintro ⟨hstart,hle,hlt⟩
    refine ⟨⟨hstart,hle⟩,?_⟩
    rintro n ⟨hn,hn'⟩
    have hn'' : n % 7 = start := hn
    omega

/-- The quarter of a day starts in the month whose number is rounded down to a multiple of 3. -/
theorem isPeriodStart_quarter (d : DateTime) {first : ℕ} :
    IsPeriodStart quarterStarts d.dayNumber first ↔ first = monthStart (d.monthIndex/3*3) := by
  have h12 := d.twelve_le_monthIndex
  have hgreatest : IsPeriodStart quarterStarts d.dayNumber (monthStart (d.monthIndex/3*3)) := by
    refine ⟨⟨⟨d.monthIndex/3*3,by omega,by omega,rfl⟩,?_⟩,?_⟩
    · have hle := monthStart_le (show 12 ≤ d.monthIndex/3*3 by omega)
        (Nat.div_mul_le_self d.monthIndex 3)
      have hday := d.dayNumber_eq
      omega
    · rintro n ⟨⟨i,hi,hi3,rfl⟩,hle⟩
      apply monthStart_le hi
      by_contra hlt
      have hnext := monthStart_le (show 12 ≤ d.monthIndex+1 by omega)
        (show d.monthIndex+1 ≤ i by omega)
      have hday := d.dayNumber_lt
      omega
  constructor
  · intro h
    exact h.unique hgreatest
  · rintro rfl
    exact hgreatest

end ClickHouseRegression.Calendar
