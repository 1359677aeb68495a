import ClickHouseRegression.Calendar.Instant
import ClickHouseRegression.DateTime64.ToWeek

/-! The datetimes and the times that the tests walk through: a few of them by default, and under
stress the ones of a generator or of nested ranges. -/
namespace ClickHouseRegression.DateTime64
open Calendar

/-- `range(start, stop, step)`; a step of zero is an error and has no elements here. -/
def range (start stop step : ℤ) : List ℤ :=
  if 0 < step then (List.range ((stop-start+step-1)/step).toNat).map fun k : ℕ => start+step*(k : ℤ)
  else if step < 0 then (List.range ((start-stop-step-1)/(-step)).toNat).map fun k : ℕ => start+step*(k : ℤ)
  else []

theorem mem_range_up (a b x : ℤ) : x ∈ range a b 1 ↔ a ≤ x ∧ x < b := by
  rw [range,if_pos (by decide),List.mem_map]
  constructor
  · rintro ⟨k,hk,rfl⟩
    rw [List.mem_range] at hk
    omega
  · rintro ⟨ha,hb⟩
    exact ⟨(x-a).toNat,List.mem_range.2 (by omega),by omega⟩

theorem mem_range_down (a b x : ℤ) : x ∈ range a b (-1) ↔ b < x ∧ x ≤ a := by
  have hcount : (a-b-(-1)-1)/(-(-1)) = a-b := by
    rw [Int.neg_neg,Int.ediv_one]
    omega
  rw [range,if_neg (by decide),if_pos (by decide),hcount,List.mem_map]
  constructor
  · rintro ⟨k,hk,rfl⟩
    rw [List.mem_range] at hk
    omega
  · rintro ⟨hb,ha⟩
    exact ⟨(a-x).toNat,List.mem_range.2 (by omega),by omega⟩

/-- A year that `datetime` has. -/
structure Year where
  number : ℕ
  pos : 1 ≤ number
  le : number ≤ 9999

/-- The microseconds of the selected datetimes. -/
def markMicroseconds (microseconds : Bool) : ℕ := if microseconds then 123000 else 0

theorem markMicroseconds_lt (microseconds : Bool) : markMicroseconds microseconds < 1000000 := by
  cases microseconds <;> decide

theorem newYear_accepted (year : Year) (microseconds : Bool) :
    Accepted year.number 1 1 0 0 0 (markMicroseconds microseconds) :=
  ⟨⟨year.pos,year.le⟩,by decide,⟨le_rfl,daysInMonth_pos _ _⟩,by decide,by decide,by decide,
    markMicroseconds_lt microseconds⟩

theorem newYearsEve_accepted (year : Year) (microseconds : Bool) :
    Accepted year.number 12 31 23 59 59 (markMicroseconds microseconds) :=
  ⟨⟨year.pos,year.le⟩,by decide,⟨by decide,le_rfl⟩,by decide,by decide,by decide,
    markMicroseconds_lt microseconds⟩

theorem leapDay_accepted (year : Year) (h : isLeap year.number = true) :
    Accepted year.number 2 29 11 11 11 123000 :=
  ⟨⟨year.pos,year.le⟩,by decide,⟨by decide,by simp [daysInMonth,h]⟩,by decide⟩

/-- `datetime(year, 1, 1, 0, 0, 0)`. -/
def newYear (year : Year) (microseconds : Bool) : DateTime :=
  datetime year.number 1 1 0 0 0 (markMicroseconds microseconds) (newYear_accepted year microseconds)

/-- `datetime(year, 12, 31, 23, 59, 59)`. -/
def newYearsEve (year : Year) (microseconds : Bool) : DateTime :=
  datetime year.number 12 31 23 59 59 (markMicroseconds microseconds) (newYearsEve_accepted year microseconds)

/-- `datetime(year, 2, 29, 11, 11, 11, 123000)`. -/
def leapDay (year : Year) (h : isLeap year.number = true) : DateTime :=
  datetime year.number 2 29 11 11 11 123000 (leapDay_accepted year h)

/-- `timedelta(days=1, hours=1, minutes=1, seconds=1)` in microseconds. -/
def generatorStep : ℤ := (86400+3600+60+1)*1000000

/-- `date.month == 12 and date.day == 31` for an instant in the year. -/
def isDecember31 (year : Year) (date : ℤ) : Bool := date/dayLength+1 = january1 (year.number+1)

/-- The loop of `datetime_generator`. -/
def generate (year : Year) : ℕ → ℤ → List ℤ
  | 0,_ => []
  | fuel+1,date =>
    if isDecember31 year date then [] else date :: generate year fuel (date+generatorStep)

/-- The instants that `datetime_generator` yields. -/
def datetimeGenerator (year : Year) (microseconds : Bool) : List ℤ :=
  generate year 366 (newYear year microseconds).instant

/-- The instants of `select_dates_in_year`; the call of the generator does not pass the flag
on. -/
def selectDatesInYear (year : Year) (stress microseconds : Bool) : List ℤ :=
  if stress then datetimeGenerator year false
  else ([newYear year microseconds,newYearsEve year microseconds] ++
    if h : isLeap year.number = true then [leapDay year h] else []).map DateTime.instant

theorem instant_isDecember31 (year : Year) {d : DateTime} (h : d.year = year.number) :
    isDecember31 year d.instant = true ↔ d.month = 12 ∧ d.day = 31 := by
  have hend : january1 (year.number+1) = monthStart (12*year.number+12) := by
    rw [← monthStart_january]
    rfl
  have hlast : monthStart (12*year.number+12) = monthStart (12*year.number+11)+31 := by
    have hpos := year.pos
    rw [monthStart_succ (i := 12*year.number+11) (by omega)]
    congr 1
    have hmonth : (12*year.number+11) % 12+1 = 12 := by omega
    rw [hmonth]
    rfl
  have hmonth := d.month_le
  have hmonth' := d.month_pos
  have hday := d.day_pos
  have hday' := d.day_le
  have hnumber := d.dayNumber_eq
  have hbound := d.dayNumber_lt
  rw [isDecember31,decide_eq_true_eq,d.instant_div,hend,hlast]
  have hindex : d.monthIndex = 12*year.number+(d.month-1) := by rw [DateTime.monthIndex,h]
  constructor
  · intro he
    by_cases hdec : d.month = 12
    · rw [(by omega : d.monthIndex = 12*year.number+11)] at hnumber
      exact ⟨hdec,by omega⟩
    · have hle := monthStart_le (a := d.monthIndex+1) (b := 12*year.number+11)
        (by have := year.pos; omega) (by omega)
      omega
  · rintro ⟨hdec,h31⟩
    rw [(by omega : d.monthIndex = 12*year.number+11)] at hnumber
    omega

/-- The generator yields no instant on December 31. -/
theorem generate_not_december31 (year : Year) (fuel : ℕ) (start date : ℤ)
    (h : date ∈ generate year fuel start) : isDecember31 year date = false := by
  induction fuel generalizing start with
  | zero => exact absurd h List.not_mem_nil
  | succ fuel ih =>
    rw [generate] at h
    cases hd : isDecember31 year start with
    | true =>
      rw [hd] at h
      exact absurd h List.not_mem_nil
    | false =>
      rw [hd] at h
      rcases List.mem_cons.1 h with rfl | h
      · exact hd
      · exact ih _ h

/-- The loop yields evenly spaced instants up to the first one on December 31. -/
theorem generate_eq (year : Year) {n : ℕ} {start : ℤ}
    (hbefore : ∀ k < n, isDecember31 year (start+generatorStep*k) = false)
    (hend : isDecember31 year (start+generatorStep*n) = true) {fuel : ℕ} (hfuel : n < fuel) :
    generate year fuel start = (List.range n).map fun k : ℕ => start+generatorStep*(k : ℤ) := by
  induction n generalizing start fuel with
  | zero =>
    obtain ⟨fuel,rfl⟩ := Nat.exists_eq_add_of_lt hfuel
    simp only [Int.natCast_zero,Int.mul_zero,Int.add_zero] at hend
    rw [generate,if_pos hend]
    rfl
  | succ n ih =>
    obtain ⟨fuel,rfl⟩ : ∃ f, fuel = f+1 := ⟨fuel-1,by omega⟩
    have hstart := hbefore 0 (by omega)
    simp only [Int.natCast_zero,Int.mul_zero,Int.add_zero] at hstart
    have hshift : ∀ k : ℕ, start+generatorStep*((k+1 : ℕ) : ℤ) =
        start+generatorStep+generatorStep*(k : ℤ) := by
      intro k
      push_cast
      ring
    have hrest : generate year fuel (start+generatorStep) = (List.range n).map fun k : ℕ =>
        start+generatorStep+generatorStep*(k : ℤ) := by
      apply ih
      · intro k hk
        rw [← hshift]
        exact hbefore (k+1) (by omega)
      · rw [← hshift]
        exact hend
      · omega
    rw [generate,hstart,if_neg (by decide),hrest,List.range_succ_eq_map,List.map_cons,
      List.map_map]
    congr 1
    · simp
    · exact List.map_congr_left fun k _ => (hshift k).symm

theorem newYear_instant (year : Year) (microseconds : Bool) :
    (newYear year microseconds).instant =
      (january1 year.number : ℤ)*86400000000+markMicroseconds microseconds := by
  simp [newYear,DateTime.instant,DateTime.dayNumber,DateTime.yearDay,DateTime.timeOfDay,
    daysBeforeMonth_one,dayLength]

/-- The generator stops in every year, after 350 instants or after 351 in a leap year. -/
theorem datetimeGenerator_eq (year : Year) (microseconds : Bool) :
    datetimeGenerator year microseconds =
      (List.range (daysInYear year.number-15)).map fun k : ℕ =>
        (newYear year microseconds).instant+generatorStep*(k : ℤ) := by
  have hb := daysInYear_bounds year.number
  have hnext := january1_succ year.number year.pos
  have hstart := newYear_instant year microseconds
  have hmark := markMicroseconds_lt microseconds
  have hL := dayLength_eq
  have hstep : generatorStep = 90061000000 := rfl
  apply generate_eq
  · intro k hk
    rw [isDecember31,decide_eq_false_iff_not,hstart,hstep,hL]
    omega
  · rw [isDecember31,decide_eq_true_eq,hstart,hstep,hL]
    omega
  · omega

/-- `f"00{'.' * (precision > 0)}{'0' * precision}"`. -/
def secondsField (precision : ℤ) : Text :=
  ['0','0'] ++ (if 0 < precision then ['.'] else []) ++ List.replicate precision.toNat '0'

/-- The variable `datetime` of both walks. -/
def timeText (date : Text) (precision hrs mins : ℤ) : Text :=
  date ++ ' ' :: (zfill (str hrs) ++ ':' :: (zfill (str mins) ++ ':' :: secondsField precision))

/-- The times checked for the given hours and minutes. -/
def timesChecked (date : Text) (precision : ℤ) (hours minutes : List ℤ) : List Text :=
  hours.flatMap fun hrs => minutes.map fun mins => timeText date precision hrs mins

def walkDatetimeInIncrementingSteps (stress : Bool) (date : Text) (hrsRange : ℤ × ℤ)
    (step precision : ℤ) : List Text :=
  timesChecked date precision
    (if stress then range hrsRange.1 hrsRange.2 1 else [hrsRange.1,hrsRange.2-1])
    (if stress then range 0 60 step else [0,59])

def walkDatetimeInDecrementingSteps (stress : Bool) (date : Text) (hrsRange : ℤ × ℤ)
    (step precision : ℤ) : List Text :=
  timesChecked date precision
    (if stress then range hrsRange.1 hrsRange.2 (-1) else [hrsRange.2,hrsRange.1])
    (if stress then range 59 0 (-step) else [59,0])

theorem mem_timesChecked {date : Text} {precision : ℤ} {hours minutes : List ℤ} {t : Text} :
    t ∈ timesChecked date precision hours minutes ↔
      ∃ hrs ∈ hours, ∃ mins ∈ minutes, t = timeText date precision hrs mins := by
  rw [timesChecked,List.mem_flatMap]
  constructor
  · rintro ⟨hrs,hhrs,ht⟩
    obtain ⟨mins,hmins,rfl⟩ := List.mem_map.1 ht
    exact ⟨hrs,hhrs,mins,hmins,rfl⟩
  · rintro ⟨hrs,hhrs,mins,hmins,rfl⟩
    exact ⟨hrs,hhrs,List.mem_map.2 ⟨mins,hmins,rfl⟩⟩

/-- Every time checked by default is also checked under stress. -/
def StressAdds (checked : Bool → List Text) : Prop := ∀ t ∈ checked false, t ∈ checked true

theorem walkIncrementing_stressAdds_iff (date : Text) (hrsRange : ℤ × ℤ) (precision : ℤ) :
    StressAdds (walkDatetimeInIncrementingSteps · date hrsRange 1 precision) ↔
      hrsRange.1 < hrsRange.2 := by
  constructor
  · intro h
    have hfirst : timeText date precision hrsRange.1 0 ∈
        walkDatetimeInIncrementingSteps false date hrsRange 1 precision :=
      mem_timesChecked.2 ⟨hrsRange.1,List.mem_cons_self,0,List.mem_cons_self,rfl⟩
    obtain ⟨hrs,hhrs,-⟩ := mem_timesChecked.1 (h _ hfirst)
    have hrange := (mem_range_up _ _ _).1 hhrs
    omega
  · intro hlt t ht
    obtain ⟨hrs,hhrs,mins,hmins,rfl⟩ := mem_timesChecked.1 ht
    simp only [Bool.false_eq_true,if_false,List.mem_cons,List.not_mem_nil,or_false] at hhrs hmins
    refine mem_timesChecked.2 ⟨hrs,?_,mins,?_,rfl⟩
    · exact (mem_range_up _ _ _).2 (by omega)
    · exact (mem_range_up _ _ _).2 (by omega)

/-- Minutes are written with two digits. -/
theorem zfill_minutes : ∀ m < 60, (zfill (str (m : ℕ))).length = 2 ∧
    (zfill (str (m : ℕ)) = zfill (str 0) → m = 0) := by
  decide +kernel

theorem timeText_minutes {date : Text} {precision hrs hrs' mins mins' : ℤ}
    (hlength : (zfill (str mins)).length = (zfill (str mins')).length)
    (h : timeText date precision hrs mins = timeText date precision hrs' mins') :
    zfill (str mins) = zfill (str mins') := by
  have hsplit : ∀ hrs mins, timeText date precision hrs mins =
      (date ++ ' ' :: (zfill (str hrs) ++ [':'])) ++
        (zfill (str mins) ++ ':' :: secondsField precision) := by
    intro hrs mins
    simp [timeText]
  rw [hsplit,hsplit] at h
  have htail := (List.append_inj' h (by simp [hlength])).2
  exact List.append_cancel_right htail

/-- Under stress the decrementing walk never comes to minute 0. -/
theorem walkDecrementing_not_stressAdds (date : Text) (hrsRange : ℤ × ℤ) (precision : ℤ) :
    ¬ StressAdds (walkDatetimeInDecrementingSteps · date hrsRange 1 precision) := by
  intro h
  have hlast : timeText date precision hrsRange.1 0 ∈
      walkDatetimeInDecrementingSteps false date hrsRange 1 precision :=
    mem_timesChecked.2 ⟨hrsRange.1,by simp,0,by simp,rfl⟩
  obtain ⟨hrs,-,mins,hmins,htext⟩ := mem_timesChecked.1 (h _ hlast)
  obtain ⟨hpos,hle⟩ := (mem_range_down _ _ _).1 hmins
  obtain ⟨m,rfl⟩ := Int.eq_ofNat_of_zero_le hpos.le
  obtain ⟨hlength,hzero⟩ := zfill_minutes m (by omega)
  have hzero' : (zfill (str 0)).length = (zfill (str m)).length := hlength.symm
  have heq := timeText_minutes hzero' htext
  have hm := hzero heq.symm
  omega

/-- Every datetime selected by default is also selected under stress. -/
def SelectionStressAdds (year : Year) (microseconds : Bool) : Prop :=
  ∀ t ∈ selectDatesInYear year false microseconds, t ∈ selectDatesInYear year true microseconds

/-- New Year's Eve is not selected under stress. -/
theorem selection_not_stressAdds (year : Year) (microseconds : Bool) :
    ¬ SelectionStressAdds year microseconds := by
  intro h
  have hmem : (newYearsEve year microseconds).instant ∈
      selectDatesInYear year false microseconds := by
    rw [selectDatesInYear,if_neg (by decide)]
    exact List.mem_map_of_mem (List.mem_append_left _ (by simp))
  have hstress := h _ hmem
  rw [selectDatesInYear,if_pos rfl,datetimeGenerator] at hstress
  have hnot := generate_not_december31 year 366 _ _ hstress
  have hyes := (instant_isDecember31 year rfl).2 (⟨rfl,rfl⟩ :
    (newYearsEve year microseconds).month = 12 ∧ (newYearsEve year microseconds).day = 31)
  rw [hyes] at hnot
  exact Bool.noConfusion hnot

/-- Stress drops New Year's Eve in every year and the full hours in every decrementing walk; the
incrementing walk only adds times exactly if its range of hours is not empty. -/
theorem stress_adds_iff (year : Year) (microseconds : Bool) (date : Text) (hrsRange : ℤ × ℤ)
    (precision : ℤ) :
    ¬ SelectionStressAdds year microseconds ∧
      (StressAdds (walkDatetimeInIncrementingSteps · date hrsRange 1 precision) ↔
        hrsRange.1 < hrsRange.2) ∧
      ¬ StressAdds (walkDatetimeInDecrementingSteps · date hrsRange 1 precision) := by
  refine ⟨?_,?_,?_⟩
  · exact selection_not_stressAdds year microseconds
  · exact walkIncrementing_stressAdds_iff date hrsRange precision
  · exact walkDecrementing_not_stressAdds date hrsRange precision

/-- In 2000 the datetime 2000-12-31 23:59:59 is only selected without stress, and the default
decrementing walk only comes to 23:00 without it. -/
theorem stress_drops_boundaries :
    ¬ SelectionStressAdds ⟨2000,by decide,by decide⟩ false ∧
      ¬ StressAdds (walkDatetimeInDecrementingSteps · "2000-01-01".toList (23,0) 1 0) :=
  ⟨selection_not_stressAdds _ _,walkDecrementing_not_stressAdds _ _ _⟩

end ClickHouseRegression.DateTime64
