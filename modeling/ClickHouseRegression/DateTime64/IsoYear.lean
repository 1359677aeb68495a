import ClickHouseRegression.DateTime64.DateText
import ClickHouseRegression.DateTime64.IsoWeek

/-! `iso_year_start`: from December 23 on, the first day whose ISO year is the calendar year of the
datetime. Around New Year the ISO year of the datetime is another one. -/
namespace ClickHouseRegression.DateTime64
open Calendar

/-- `dt.isocalendar()[0]`. -/
def isoYear (dt : DateTime) : ℕ :=
  let today : ℤ := dt.dayNumber
  let week := (today-isoWeek1Monday dt.year)/7
  if week < 0 then dt.year-1
  else if 52 ≤ week ∧ isoWeek1Monday (dt.year+1) ≤ today then dt.year+1
  else dt.year

/-- The loop `while dt_s.isocalendar()[0] != year`. -/
def isoYearSearch (year : ℕ) : ℕ → DateTime → Option DateTime
  | 0,_ => none
  | fuel+1,dtS =>
    if isoYear dtS ≠ year then do
      let next ← dtS.addDays 1
      isoYearSearch year fuel next
    else some dtS

theorem december23_accepted (year : ℕ) (hpos : 1 ≤ year) (hle : year ≤ 9999) :
    Accepted year 12 23 0 0 0 0 :=
  ⟨⟨hpos,hle⟩,by decide,⟨by decide,by simp [daysInMonth]⟩,by decide⟩

/-- December 23 at midnight. -/
def december23 (year : ℕ) (hpos : 1 ≤ year) (hle : year ≤ 9999) : DateTime :=
  datetime year 12 23 0 0 0 0 (december23_accepted year hpos hle)

/-- `none` is the `ValueError` for the year 0, or a search that has not ended. -/
def isoYearStart (dt : DateTime) : Option DateTime :=
  if h : 1 ≤ dt.year-1 then
    isoYearSearch dt.year 14 (december23 (dt.year-1) h ((Nat.sub_le _ _).trans dt.year_le))
  else none

/-- A Monday, not later than the datetime, in the same ISO year, and no datetime of this ISO year is
earlier. -/
structure StartsIsoYear (dt r : DateTime) : Prop where
  monday : weekday r.dayNumber = 0
  not_later : r.instant ≤ dt.instant
  same_year : isoYear r = isoYear dt
  first : ∀ e, isoYear e = isoYear dt → r.instant ≤ e.instant

/-- Week 1 starts between December 29 and January 4, on a Monday. -/
theorem isoWeek1Monday_bounds (year : ℕ) :
    (january1 year : ℤ)-3 ≤ isoWeek1Monday year ∧ isoWeek1Monday year ≤ january1 year+3 ∧
      isoWeek1Monday year % 7 = 0 := by
  rw [isoWeek1Monday_eq]
  omega

/-- An ISO year goes from its week 1 to week 1 of the next year. -/
theorem isoYear_bounds (dt : DateTime) :
    isoWeek1Monday (isoYear dt) ≤ dt.dayNumber ∧
      (dt.dayNumber : ℤ) < isoWeek1Monday (isoYear dt+1) := by
  have hpos := dt.year_pos
  have hday : dt.dayNumber = january1 dt.year+dt.yearDay := rfl
  have hlt := dt.yearDay_lt
  have hb := daysInYear_bounds dt.year
  have hnext := january1_succ dt.year hpos
  have hmonday := isoWeek1Monday_bounds dt.year
  have hmonday' := isoWeek1Monday_bounds (dt.year+1)
  unfold isoYear
  simp only
  split_ifs with hbefore hafter
  · -- before week 1 of its own year: the year 1 begins with a Monday, so there is a year before it
    have hsecond : dt.year ≠ 1 := by
      intro hone
      have hfirst : isoWeek1Monday dt.year = 0 := by rw [hone]; decide
      omega
    have hprev := january1_succ (dt.year-1) (by omega)
    have hb' := daysInYear_bounds (dt.year-1)
    have hmonday'' := isoWeek1Monday_bounds (dt.year-1)
    rw [Nat.sub_add_cancel hpos] at hprev ⊢
    omega
  · have hnext' := january1_succ (dt.year+1) (by omega)
    have hb' := daysInYear_bounds (dt.year+1)
    have hmonday'' := isoWeek1Monday_bounds (dt.year+1+1)
    omega
  · omega

theorem isoWeek1Monday_mono {y z : ℕ} (hy : 1 ≤ y) (h : y < z) :
    isoWeek1Monday y < isoWeek1Monday z := by
  have hnext := january1_succ y hy
  have hb := daysInYear_bounds y
  have hle := january1_mono (y := y+1) (z := z) (by omega) h
  have hmonday := isoWeek1Monday_bounds y
  have hmonday' := isoWeek1Monday_bounds z
  omega

theorem isoYear_pos (dt : DateTime) : 1 ≤ isoYear dt := by
  have hpos := dt.year_pos
  by_contra hzero
  have hyear : isoYear dt = 0 := by omega
  have hlt := (isoYear_bounds dt).2
  rw [hyear] at hlt
  have hfirst : isoWeek1Monday (0+1) = 0 := by decide
  omega

/-- The ISO year is the only one with the day between its Mondays. -/
theorem isoYear_eq_iff {dt : DateTime} {y : ℕ} (hy : 1 ≤ y) :
    isoYear dt = y ↔
      isoWeek1Monday y ≤ dt.dayNumber ∧ (dt.dayNumber : ℤ) < isoWeek1Monday (y+1) := by
  have hbounds := isoYear_bounds dt
  have hpos := isoYear_pos dt
  constructor
  · rintro rfl
    exact hbounds
  · rintro ⟨hle,hlt⟩
    rcases lt_trichotomy (isoYear dt) y with hless | heq | hmore
    · rcases (show isoYear dt+1 ≤ y from hless).lt_or_eq with h | h
      · have hmono := isoWeek1Monday_mono (by omega) h
        omega
      · rw [h] at hbounds
        omega
    · exact heq
    · rcases (show y+1 ≤ isoYear dt from hmore).lt_or_eq with h | h
      · have hmono := isoWeek1Monday_mono (by omega) h
        omega
      · rw [h] at hlt
        omega

/-- The search ends on the first day of the ISO year. -/
theorem isoYearSearch_eq {year fuel : ℕ} (dtS : DateTime) (hy : 2 ≤ year) (hy' : year ≤ 9999)
    (hlow : isoWeek1Monday (year-1) ≤ dtS.dayNumber) (hle : dtS.dayNumber ≤ isoWeek1Monday year)
    (hfuel : isoWeek1Monday year-dtS.dayNumber < fuel) :
    ∃ r, isoYearSearch year fuel dtS = some r ∧ (r.dayNumber : ℤ) = isoWeek1Monday year ∧
      r.timeOfDay = dtS.timeOfDay := by
  induction fuel generalizing dtS with
  | zero => omega
  | succ fuel ih =>
    rw [isoYearSearch]
    rcases hle.lt_or_eq with hlt | heq
    · -- still in the previous ISO year
      have hprev : isoYear dtS = year-1 := by
        rw [isoYear_eq_iff (by omega),Nat.sub_add_cancel (by omega)]
        exact ⟨hlow,hlt⟩
      have hmonday := isoWeek1Monday_bounds year
      have hend := january1_mono (y := year+1) (z := 10000) (by omega) (by omega)
      have hb := daysInYear_bounds year
      rw [january1_succ _ (by omega)] at hend
      have hrange : (dtS.dayNumber : ℤ)+1 < january1 10000 := by omega
      obtain ⟨next,hnext⟩ := DateTime.exists_addDays (by omega) hrange
      obtain ⟨hday,htime⟩ := DateTime.addDays_eq_some.1 hnext
      rw [if_pos (by omega),hnext,Option.bind_eq_bind,Option.bind_some,← htime]
      exact ih next (by omega) (by omega) (by omega)
    · have hthis : isoYear dtS = year := by
        rw [isoYear_eq_iff (by omega)]
        exact ⟨heq.ge,by rw [heq]; exact isoWeek1Monday_mono (by omega) (by omega)⟩
      exact ⟨dtS,if_neg (not_not_intro hthis),heq,rfl⟩

theorem december23_dayNumber (year : ℕ) (hpos : 1 ≤ year) (hle : year ≤ 9999) :
    (december23 year hpos hle).dayNumber+9 = january1 (year+1) := by
  have hmonth := daysBeforeMonth_succ year 12 (by decide)
  rw [daysBeforeMonth_thirteen] at hmonth
  have hdays : daysInMonth year 12 = 31 := by simp [daysInMonth]
  rw [january1_succ year hpos,DateTime.dayNumber]
  change january1 year+(daysBeforeMonth year 12+(23-1))+9 = _
  omega

theorem december23_timeOfDay {year : ℕ} {hpos : 1 ≤ year} {hle : year ≤ 9999} :
    (december23 year hpos hle).timeOfDay = 0 := by
  simp [december23,DateTime.timeOfDay]

/-- The helper returns the Monday of week 1 of the calendar year, for every year but the first. -/
theorem isoYearStart_eq {dt : DateTime} (hy : 2 ≤ dt.year) :
    ∃ r, isoYearStart dt = some r ∧ (r.dayNumber : ℤ) = isoWeek1Monday dt.year ∧
      r.timeOfDay = 0 := by
  have hle := dt.year_le
  have hstart := december23_dayNumber (dt.year-1) (by omega) (by omega)
  have hprev := january1_succ (dt.year-1) (by omega)
  have hb := daysInYear_bounds (dt.year-1)
  have hmonday := isoWeek1Monday_bounds dt.year
  have hmonday' := isoWeek1Monday_bounds (dt.year-1)
  rw [Nat.sub_add_cancel (by omega)] at hstart hprev
  rw [isoYearStart,dif_pos (by omega)]
  have hfuel : isoWeek1Monday dt.year-
      (december23 (dt.year-1) (by omega) (by omega)).dayNumber < ((14 : ℕ) : ℤ) := by omega
  obtain ⟨r,hr,hday,htime⟩ := isoYearSearch_eq (december23 (dt.year-1) _ _) hy hle
    (by omega) (by omega) hfuel
  exact ⟨r,hr,hday,htime.trans december23_timeOfDay⟩

/-- For every datetime the helper finds the start of its ISO year exactly if its year is not the
first one and the datetime is neither before week 1 of its year nor in week 1 of the next. -/
theorem isoYearStart_iff (dt : DateTime) :
    (∃ r, isoYearStart dt = some r ∧ StartsIsoYear dt r) ↔
      2 ≤ dt.year ∧ isoWeek1Monday dt.year ≤ dt.dayNumber ∧ ¬ InNextYearsWeek dt := by
  have hnextMonday : ¬ InNextYearsWeek dt ↔ (dt.dayNumber : ℤ) < isoWeek1Monday (dt.year+1) := by
    have hpos := dt.year_pos
    have hday : dt.dayNumber = january1 dt.year+dt.yearDay := rfl
    have hlt := dt.yearDay_lt
    have hnext := january1_succ dt.year hpos
    unfold InNextYearsWeek isoWeek1Monday weekday
    simp only
    split_ifs <;> omega
  rw [hnextMonday]
  by_cases hy : 2 ≤ dt.year
  · obtain ⟨r,hr,hday,htime⟩ := isoYearStart_eq hy
    have hmonday := isoWeek1Monday_bounds dt.year
    have hyear : isoYear r = dt.year := by
      rw [isoYear_eq_iff (by omega)]
      exact ⟨hday.ge,by rw [hday]; exact isoWeek1Monday_mono (by omega) (by omega)⟩
    have hfirst : ∀ e : DateTime, isoWeek1Monday dt.year ≤ e.dayNumber → r.instant ≤ e.instant := by
      intro e he
      rw [DateTime.instant,DateTime.instant,htime,dayLength_eq]
      omega
    constructor
    · rintro ⟨r',hr',hstart⟩
      obtain rfl := Option.some.inj (hr.symm.trans hr')
      have hsame := hstart.same_year
      rw [hyear] at hsame
      exact ⟨hy,(isoYear_eq_iff (by omega)).1 hsame.symm⟩
    · rintro ⟨-,hle,hlt⟩
      have hsame : isoYear dt = dt.year := (isoYear_eq_iff (by omega)).2 ⟨hle,hlt⟩
      refine ⟨r,hr,by unfold weekday; omega,hfirst dt hle,hyear.trans hsame.symm,?_⟩
      intro e he
      rw [hsame,isoYear_eq_iff (by omega)] at he
      exact hfirst e he.1
  · have hnone : isoYearStart dt = none := by
      rw [isoYearStart,dif_neg (by omega)]
    constructor
    · rintro ⟨r,hr,-⟩
      rw [hnone] at hr
      exact absurd hr (by simp)
    · rintro ⟨h,-⟩
      exact absurd h hy

/-- 2000-01-01 00:00:00. -/
def newYear2000 : DateTime := datetime 2000 1 1 0 0 0 0 (by decide)

/-- The ISO year of 2000-01-01 is 1999, and the Monday that is found is two days later. -/
theorem isoYearStart_newYear2000 :
    (isoYearStart newYear2000).map secondsText = some "2000-01-03 00:00:00".toList ∧
      isoYear newYear2000 = 1999 ∧
      ¬ ∃ r, isoYearStart newYear2000 = some r ∧ StartsIsoYear newYear2000 r := by
  refine ⟨by rfl,by rfl,?_⟩
  rintro ⟨r,hr,hstart⟩
  have hlater : (isoYearStart newYear2000).map (fun r => decide (r.instant ≤ newYear2000.instant)) =
      some false := by decide +kernel
  rw [hr] at hlater
  have hle := hstart.not_later
  simp only [Option.map_some,Option.some.injEq,decide_eq_false_iff_not] at hlater
  exact hlater hle

end ClickHouseRegression.DateTime64
