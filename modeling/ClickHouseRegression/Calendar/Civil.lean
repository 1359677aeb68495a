import ClickHouseRegression.Calendar.Instant

/-! From a number back to the date: the year and month of a day, and the datetime of an instant.
An instant outside the years 1 to 9999 has none. -/
namespace ClickHouseRegression.Calendar

/-- The year of a day, by cycles of 400, 100, 4 and 1 years. -/
def yearOfDay (n : ℕ) : ℕ :=
  let n100 := min (n % 146097/36524) 3
  let rest := n % 146097-36524*n100
  let n1 := min (rest % 1461/365) 3
  400*(n/146097)+100*n100+4*(rest/1461)+n1+1

theorem january1_cycles {a b c d : ℕ} (hb : b ≤ 3) (hc : c ≤ 24) (hd : d ≤ 3) :
    january1 (400*a+100*b+4*c+d+1) = 146097*a+36524*b+1461*c+365*d := by
  unfold january1
  have h4 : (400*a+100*b+4*c+d)/4 = 100*a+25*b+c := by omega
  have h100 : (400*a+100*b+4*c+d)/100 = 4*a+b := by omega
  have h400 : (400*a+100*b+4*c+d)/400 = a := by omega
  rw [Nat.add_sub_cancel,h4,h100,h400]
  omega

/-- The cycles of a day, and what is left of it in the year. -/
theorem yearOfDay_cycles (n : ℕ) :
    ∃ a b c d r, b ≤ 3 ∧ c ≤ 24 ∧ d ≤ 3 ∧ yearOfDay n = 400*a+100*b+4*c+d+1 ∧
      n = 146097*a+36524*b+1461*c+365*d+r ∧ (r < 365 ∨ r = 365 ∧ d = 3 ∧ (c = 24 → b = 3)) := by
  refine ⟨n/146097,min (n % 146097/36524) 3,
    (n % 146097-36524*min (n % 146097/36524) 3)/1461,
    min ((n % 146097-36524*min (n % 146097/36524) 3) % 1461/365) 3,
    (n % 146097-36524*min (n % 146097/36524) 3) % 1461-
      365*min ((n % 146097-36524*min (n % 146097/36524) 3) % 1461/365) 3,
    by omega,by omega,by omega,rfl,by omega,by omega⟩

theorem yearOfDay_pos (n : ℕ) : 1 ≤ yearOfDay n := by
  obtain ⟨a,b,c,d,r,-,-,-,hy,-⟩ := yearOfDay_cycles n
  omega

/-- A day lies in its year. -/
theorem yearOfDay_bounds (n : ℕ) :
    january1 (yearOfDay n) ≤ n ∧ n < january1 (yearOfDay n+1) := by
  have hpos := yearOfDay_pos n
  obtain ⟨a,b,c,d,r,hb,hc,hd,hy,hn,hr⟩ := yearOfDay_cycles n
  rw [january1_succ _ hpos,hy,january1_cycles hb hc hd]
  refine ⟨by omega,?_⟩
  have hdays := daysInYear_bounds (400*a+100*b+4*c+d+1)
  rcases hr with hr | ⟨hr,rfl,hcb⟩
  · omega
  · -- the day 365 of a year is there only in leap years
    have hleap : isLeap (400*a+100*b+4*c+3+1) = true := by
      rw [isLeap_iff]
      omega
    rw [daysInYear,if_pos hleap]
    omega

theorem january1_mono {y z : ℕ} (hy : 1 ≤ y) (h : y ≤ z) : january1 y ≤ january1 z := by
  rw [← monthStart_january,← monthStart_january]
  exact monthStart_le (by omega) (by omega)

theorem yearOfDay_le {n : ℕ} (h : n < january1 10000) : yearOfDay n ≤ 9999 := by
  by_contra hlt
  have hmono := january1_mono (y := 10000) (z := yearOfDay n) (by decide) (by omega)
  have hle := (yearOfDay_bounds n).1
  omega

/-- The month of a day of the year, counted from January 1. -/
def monthOfYearDay (year yearDay : ℕ) : ℕ :=
  Nat.findGreatest (fun m => daysBeforeMonth year (m+1) ≤ yearDay) 11+1

theorem monthOfYearDay_pos (year yearDay : ℕ) : 1 ≤ monthOfYearDay year yearDay :=
  Nat.le_add_left 1 _

theorem monthOfYearDay_le (year yearDay : ℕ) : monthOfYearDay year yearDay ≤ 12 :=
  Nat.succ_le_succ (Nat.findGreatest_le 11)

/-- A day of the year lies in its month. -/
theorem monthOfYearDay_bounds {year yearDay : ℕ} (h : yearDay < daysInYear year) :
    daysBeforeMonth year (monthOfYearDay year yearDay) ≤ yearDay ∧
      yearDay < daysBeforeMonth year (monthOfYearDay year yearDay+1) := by
  have hfirst : daysBeforeMonth year (0+1) ≤ yearDay := by
    rw [Nat.zero_add,daysBeforeMonth_one]
    exact Nat.zero_le _
  constructor
  · exact Nat.findGreatest_spec (P := fun m => daysBeforeMonth year (m+1) ≤ yearDay)
      (Nat.zero_le 11) hfirst
  · rcases (monthOfYearDay_le year yearDay).lt_or_eq with hlt | heq
    · exact not_le.1 (Nat.findGreatest_is_greatest
        (P := fun m => daysBeforeMonth year (m+1) ≤ yearDay) (Nat.lt_succ_self _)
        (Nat.lt_of_succ_lt_succ hlt))
    · rw [heq,daysBeforeMonth_thirteen]
      exact h

/-- The days since January 1 of the year of a day. -/
def yearDayOfDay (n : ℕ) : ℕ := n-january1 (yearOfDay n)

theorem yearDayOfDay_lt (n : ℕ) : yearDayOfDay n < daysInYear (yearOfDay n) := by
  have hbounds := yearOfDay_bounds n
  rw [january1_succ _ (yearOfDay_pos n)] at hbounds
  rw [yearDayOfDay]
  omega

namespace DateTime

theorem instant_nonneg (d : DateTime) : 0 ≤ d.instant := by
  rw [instant]
  positivity

theorem dayNumber_lt_end (d : DateTime) : d.dayNumber < january1 10000 := by
  have hle := d.year_le
  have hyear := january1_mono (y := d.year+1) (z := 10000) (by omega) (by omega)
  rw [january1_succ _ d.year_pos] at hyear
  have hday := d.yearDay_lt
  rw [dayNumber]
  omega

theorem instant_lt (d : DateTime) : d.instant < (january1 10000 : ℤ)*dayLength := by
  have hday := d.dayNumber_lt_end
  have htime := d.timeOfDay_lt
  rw [instant,dayLength_eq]
  unfold dayLength at htime
  omega

/-- Instants determine all fields. -/
theorem instant_injective : Function.Injective instant := by
  intro a b h
  have hday : a.dayNumber = b.dayNumber := by
    have hdiv := congrArg (·/(dayLength : ℤ)) h
    simp only [instant_div] at hdiv
    exact_mod_cast hdiv
  have htime : a.timeOfDay = b.timeOfDay := by
    have hmod := congrArg (· % (dayLength : ℤ)) h
    simp only [instant_mod] at hmod
    exact_mod_cast hmod
  obtain ⟨hyear,hmonth,hd⟩ := dayNumber_inj.1 hday
  unfold timeOfDay at htime
  have ha := a.microsecond_lt
  have hb := b.microsecond_lt
  have ha' := a.second_lt
  have hb' := b.second_lt
  have ha'' := a.minute_lt
  have hb'' := b.minute_lt
  have hmicro : a.microsecond = b.microsecond := by omega
  have hsecond : a.second = b.second := by omega
  have hminute : a.minute = b.minute := by omega
  have hhour : a.hour = b.hour := by omega
  cases a
  cases b
  simp only at hyear hmonth hd hmicro hsecond hminute hhour
  subst hyear hmonth hd hmicro hsecond hminute hhour
  rfl

/-- The datetime on a given day after the given microseconds. -/
def ofDay (n time : ℕ) (hn : n < january1 10000) (ht : time < dayLength) : DateTime where
  year := yearOfDay n
  month := monthOfYearDay (yearOfDay n) (yearDayOfDay n)
  day := yearDayOfDay n-daysBeforeMonth (yearOfDay n) (monthOfYearDay (yearOfDay n) (yearDayOfDay n))+1
  hour := time/3600000000
  minute := time/60000000 % 60
  second := time/1000000 % 60
  microsecond := time % 1000000
  year_pos := yearOfDay_pos n
  year_le := yearOfDay_le hn
  month_pos := monthOfYearDay_pos _ _
  month_le := monthOfYearDay_le _ _
  day_pos := Nat.le_add_left 1 _
  day_le := by
    have hmonth := monthOfYearDay_bounds (yearDayOfDay_lt n)
    rw [daysBeforeMonth_succ _ _ (monthOfYearDay_pos _ _)] at hmonth
    omega
  hour_lt := by
    unfold dayLength at ht
    omega
  minute_lt := Nat.mod_lt _ (by decide)
  second_lt := Nat.mod_lt _ (by decide)
  microsecond_lt := Nat.mod_lt _ (by decide)

theorem dayNumber_ofDay (n time : ℕ) (hn : n < january1 10000) (ht : time < dayLength) :
    (ofDay n time hn ht).dayNumber = n := by
  have hyear := (yearOfDay_bounds n).1
  have hmonth := (monthOfYearDay_bounds (yearDayOfDay_lt n)).1
  change january1 (yearOfDay n)+(daysBeforeMonth (yearOfDay n)
    (monthOfYearDay (yearOfDay n) (yearDayOfDay n))+(_+1-1)) = n
  rw [Nat.add_sub_cancel,Nat.add_sub_cancel' hmonth,yearDayOfDay]
  omega

theorem timeOfDay_ofDay (n time : ℕ) (hn : n < january1 10000) (ht : time < dayLength) :
    (ofDay n time hn ht).timeOfDay = time := by
  change ((time/3600000000*60+time/60000000 % 60)*60+time/1000000 % 60)*1000000+time % 1000000 = time
  omega

/-- The datetime of an instant. -/
def ofInstant (t : ℤ) : Option DateTime :=
  if h : (t/dayLength).toNat < january1 10000 ∧ (t % dayLength).toNat < dayLength ∧ 0 ≤ t then
    some (ofDay (t/dayLength).toNat (t % dayLength).toNat h.1 h.2.1)
  else none

theorem instant_of_ofInstant {t : ℤ} {d : DateTime} (h : ofInstant t = some d) : d.instant = t := by
  rw [ofInstant] at h
  split_ifs at h with hrange
  obtain rfl := Option.some.inj h
  obtain ⟨-,-,hpos⟩ := hrange
  rw [instant,dayNumber_ofDay,timeOfDay_ofDay,dayLength_eq]
  omega

/-- Instants in the years 1 to 9999 have a datetime. -/
theorem exists_ofInstant {t : ℤ} (h0 : 0 ≤ t) (h : t < (january1 10000 : ℤ)*dayLength) :
    ∃ d, ofInstant t = some d := by
  have hday : (t/dayLength).toNat < january1 10000 := by
    have hlt := Int.ediv_lt_of_lt_mul (by decide) h
    have hnonneg := Int.ediv_nonneg h0 (by decide : (0 : ℤ) ≤ dayLength)
    exact (Int.toNat_lt hnonneg).2 hlt
  have htime : (t % dayLength).toNat < dayLength := by
    have hlt := Int.emod_lt_of_pos t (by decide : (0 : ℤ) < dayLength)
    have hnonneg := Int.emod_nonneg t (by decide : (dayLength : ℤ) ≠ 0)
    exact (Int.toNat_lt hnonneg).2 hlt
  exact ⟨_,dif_pos ⟨hday,htime,h0⟩⟩

/-- Every datetime is the one of its instant, and of no other. -/
theorem ofInstant_eq_some {t : ℤ} {d : DateTime} : ofInstant t = some d ↔ d.instant = t := by
  constructor
  · exact instant_of_ofInstant
  · rintro rfl
    obtain ⟨e,he⟩ := exists_ofInstant d.instant_nonneg d.instant_lt
    rw [he,instant_injective (instant_of_ofInstant he)]

/-- `d + timedelta(days=days)`. -/
def addDays (d : DateTime) (days : ℤ) : Option DateTime := ofInstant (d.instant+days*dayLength)

/-- Adding days moves the day and keeps the time, as long as the years are 1 to 9999. -/
theorem addDays_eq_some {d e : DateTime} {days : ℤ} :
    d.addDays days = some e ↔
      (e.dayNumber : ℤ) = d.dayNumber+days ∧ e.timeOfDay = d.timeOfDay := by
  have hd := d.timeOfDay_lt
  have he := e.timeOfDay_lt
  rw [addDays,ofInstant_eq_some,instant,instant,dayLength_eq]
  unfold dayLength at hd he
  omega

theorem exists_addDays {d : DateTime} {days : ℤ} (h0 : 0 ≤ (d.dayNumber : ℤ)+days)
    (h : (d.dayNumber : ℤ)+days < january1 10000) : ∃ e, d.addDays days = some e := by
  have hd := d.timeOfDay_lt
  have hL := dayLength_eq
  unfold dayLength at hd
  apply exists_ofInstant
  · rw [instant,hL]
    omega
  · rw [instant,hL]
    omega

end DateTime

end ClickHouseRegression.Calendar
