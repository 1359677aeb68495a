import ClickHouseRegression.Calendar.Civil
import ClickHouseRegression.DateTime64.Sweeps

/-! The loop of `datetime_generator` on datetimes. It ends on a December 31 only, with a step of more
than a day. -/
namespace ClickHouseRegression.DateTime64
open Calendar

/-- `date + datetime.timedelta(days=1, hours=1, minutes=1, seconds=1)`, which raises after the year
9999. -/
def nextDate (date : DateTime) : Option DateTime := DateTime.ofInstant (date.instant+generatorStep)

/-- The datetimes that the loop yields within `fuel` turns, and the one on which it ends, unless the
addition raises. -/
def walk : ℕ → DateTime → Option (List DateTime × Option DateTime)
  | 0,_ => none
  | fuel+1,date =>
    if date.month = 12 ∧ date.day = 31 then some ([],some date)
    else (nextDate date).elim (some ([date],none)) fun next =>
      (walk fuel next).map fun r => (date :: r.1,r.2)

theorem walk_succ (fuel : ℕ) (date : DateTime) : walk (fuel+1) date =
    if date.month = 12 ∧ date.day = 31 then some ([],some date)
    else (nextDate date).elim (some ([date],none)) fun next =>
      (walk fuel next).map fun r => (date :: r.1,r.2) := rfl

theorem year_eq_of_dayNumber {year : ℕ} (hyear : 1 ≤ year) {d : DateTime} (hlow : january1 year ≤ d.dayNumber)
    (hhigh : d.dayNumber < january1 (year+1)) : d.year = year := by
  have hnumber : d.dayNumber = january1 d.year+d.yearDay := rfl
  have hday := d.yearDay_lt
  have hnext := january1_succ d.year d.year_pos
  rcases lt_trichotomy d.year year with hlt | heq | hgt
  · have hmono := january1_mono (y := d.year+1) (z := year) (by omega) (by omega)
    omega
  · exact heq
  · have hmono := january1_mono (y := year+1) (z := d.year) (by omega) (by omega)
    omega

/-- The instants of a year. -/
def InYear (year : Year) (t : ℤ) : Prop :=
  (january1 year.number : ℤ)*dayLength ≤ t ∧ t < (january1 (year.number+1) : ℤ)*dayLength

section
variable {year : Year} {d : DateTime}

theorem InYear.year_eq (h : InYear year d.instant) : d.year = year.number := by
  have hlow := Int.ediv_le_ediv (by decide : (0 : ℤ) < dayLength) h.1
  have hhigh := Int.ediv_lt_of_lt_mul (by decide) h.2
  rw [Int.mul_ediv_cancel _ (by decide)] at hlow
  rw [d.instant_div] at hlow hhigh
  exact year_eq_of_dayNumber year.pos (by omega) (by omega)

theorem InYear.exists_nextDate (h : InYear year (d.instant+generatorStep)) :
    ∃ next, nextDate d = some next ∧ next.instant = d.instant+generatorStep := by
  have hstep : (0 : ℤ) ≤ generatorStep := by decide
  have hend := january1_mono (y := year.number+1) (z := 10000) (by omega) (by have := year.le; omega)
  have hbound : (january1 (year.number+1) : ℤ)*dayLength ≤ (january1 10000 : ℤ)*dayLength :=
    Int.mul_le_mul_of_nonneg_right (by omega) (by decide)
  obtain ⟨next,hnext⟩ := DateTime.exists_ofInstant
    (Int.add_nonneg d.instant_nonneg hstep) (lt_of_lt_of_le h.2 hbound)
  exact ⟨next,hnext,DateTime.instant_of_ofInstant hnext⟩

end

/-- The datetimes of a walk that stays in the year until it lands on its last day. -/
structure Lands (year : Year) (start : DateTime) (n : ℕ) (dates : List DateTime) (last : DateTime) : Prop where
  instants : dates.map DateTime.instant = (List.range n).map fun k : ℕ => start.instant+generatorStep*(k : ℤ)
  inYear : ∀ d ∈ dates, d.year = year.number ∧ ¬ (d.month = 12 ∧ d.day = 31)
  lastInstant : last.instant = start.instant+generatorStep*n
  last : last.year = year.number ∧ last.month = 12 ∧ last.day = 31

section
variable {year : Year} {n : ℕ} {start next last : DateTime} {dates : List DateTime}

theorem Lands.here (hyear : start.year = year.number) (hday : start.month = 12 ∧ start.day = 31) :
    Lands year start 0 [] start where
  instants := rfl
  inYear := by simp
  lastInstant := by rw [Nat.cast_zero,mul_zero,add_zero]
  last := ⟨hyear,hday⟩

theorem Lands.cons (h : Lands year next n dates last) (hinstant : next.instant = start.instant+generatorStep)
    (hyear : start.year = year.number) (hday : ¬ (start.month = 12 ∧ start.day = 31)) :
    Lands year start (n+1) (start :: dates) last := by
  refine ⟨?_,?_,?_,h.last⟩
  · rw [List.map_cons,h.instants,List.range_succ_eq_map,List.map_cons,List.map_map,
      List.cons_eq_cons,Nat.cast_zero,mul_zero,add_zero]
    refine ⟨rfl,List.map_congr_left ?_⟩
    intro k _
    rw [hinstant]
    change _ = start.instant+generatorStep*((k+1 : ℕ) : ℤ)
    push_cast
    ring
  · intro d hd
    rcases List.mem_cons.1 hd with rfl | hd
    · exact ⟨hyear,hday⟩
    · exact h.inYear d hd
  · rw [h.lastInstant,hinstant]
    push_cast
    ring

/-- Each turn shifts the start by a step; the induction is on the steps that are left. -/
theorem walk_lands (hyear : ∀ k ≤ n, InYear year (start.instant+generatorStep*k))
    (hbefore : ∀ k < n, isDecember31 year (start.instant+generatorStep*k) = false)
    (hend : isDecember31 year (start.instant+generatorStep*n) = true) {fuel : ℕ} (hfuel : n < fuel) :
    ∃ dates last, walk fuel start = some (dates,some last) ∧ Lands year start n dates last := by
  induction n generalizing start fuel with
  | zero =>
    obtain ⟨fuel,rfl⟩ : ∃ f, fuel = f+1 := ⟨fuel-1,by omega⟩
    have hin := hyear 0 le_rfl
    simp only [Int.natCast_zero,Int.mul_zero,Int.add_zero] at hin hend
    have hday := (instant_isDecember31 year hin.year_eq).1 hend
    exact ⟨[],start,by rw [walk_succ,if_pos hday],.here hin.year_eq hday⟩
  | succ n ih =>
    obtain ⟨fuel,rfl⟩ : ∃ f, fuel = f+1 := ⟨fuel-1,by omega⟩
    have hin := hyear 0 (Nat.zero_le _)
    have hfirst := hbefore 0 (Nat.succ_pos n)
    have hsecond := hyear 1 (by omega)
    simp only [Int.natCast_zero,Int.mul_zero,Int.add_zero] at hin hfirst
    simp only [Nat.cast_one,Int.mul_one] at hsecond
    have hday : ¬ (start.month = 12 ∧ start.day = 31) := by
      intro hday
      rw [(instant_isDecember31 year hin.year_eq).2 hday] at hfirst
      cases hfirst
    obtain ⟨next,hnext,hinstant⟩ := hsecond.exists_nextDate
    have hshift : ∀ k : ℕ, next.instant+generatorStep*(k : ℤ) =
        start.instant+generatorStep*((k+1 : ℕ) : ℤ) := by
      intro k
      rw [hinstant]
      push_cast
      ring
    obtain ⟨dates,last,hwalk,hlands⟩ : ∃ dates last, walk fuel next = some (dates,some last) ∧
        Lands year next n dates last := by
      apply ih
      · intro k hk
        rw [hshift]
        exact hyear (k+1) (by omega)
      · intro k hk
        rw [hshift]
        exact hbefore (k+1) (by omega)
      · rw [hshift]
        exact hend
      · omega
    refine ⟨start :: dates,last,?_,hlands.cons hinstant hin.year_eq hday⟩
    rw [walk_succ,if_neg hday,hnext,Option.elim_some,hwalk,Option.map_some]

end

theorem Lands.increasing {year : Year} {start : DateTime} {n : ℕ} {dates : List DateTime} {last : DateTime}
    (h : Lands year start n dates last) : dates.Pairwise fun a b => a.instant < b.instant := by
  have hstep : generatorStep = 90061000000 := rfl
  rw [← List.pairwise_map (f := DateTime.instant) (R := (· < ·)),h.instants,List.pairwise_map]
  apply List.pairwise_lt_range.imp
  intro k l hkl
  rw [hstep]
  omega

theorem Lands.head {year : Year} {start : DateTime} {n : ℕ} {dates : List DateTime} {last : DateTime}
    (h : Lands year start n dates last) (hn : 0 < n) : dates.head? = some start := by
  obtain ⟨m,rfl⟩ : ∃ m, n = m+1 := ⟨n-1,by omega⟩
  have hinstants := h.instants
  rw [List.range_succ_eq_map,List.map_cons,Nat.cast_zero,mul_zero,add_zero] at hinstants
  cases dates with
  | nil => cases hinstants
  | cons d rest =>
    rw [List.map_cons,List.cons_eq_cons] at hinstants
    rw [List.head?_cons,DateTime.instant_injective hinstants.1]

/-- The steps of a year: fifteen fewer than its days. -/
theorem newYear_walk (year : Year) (microseconds : Bool) {fuel : ℕ} (hfuel : daysInYear year.number-15 < fuel) :
    ∃ dates last, walk fuel (newYear year microseconds) = some (dates,some last) ∧
      Lands year (newYear year microseconds) (daysInYear year.number-15) dates last := by
  have hb := daysInYear_bounds year.number
  have hnext := january1_succ year.number year.pos
  have hmark := markMicroseconds_lt microseconds
  have hL := dayLength_eq
  have hstep : generatorStep = 90061000000 := rfl
  apply walk_lands (n := daysInYear year.number-15)
  · intro k hk
    rw [newYear_instant,hstep]
    constructor
    · rw [hL]
      omega
    · rw [hL]
      omega
  · intro k hk
    rw [isDecember31,decide_eq_false_iff_not,newYear_instant,hstep,hL]
    omega
  · rw [isDecember31,decide_eq_true_eq,newYear_instant,hstep,hL]
    omega
  · exact hfuel

/-- Every other day of the year comes before its December 31. -/
theorem dayNumber_lt_newYearsEve (year : Year) (microseconds : Bool) {d : DateTime} (hyear : d.year = year.number)
    (hday : ¬ (d.month = 12 ∧ d.day = 31)) : d.dayNumber < (newYearsEve year microseconds).dayNumber := by
  have hlast := (instant_isDecember31 year (d := newYearsEve year microseconds) rfl).2 ⟨rfl,rfl⟩
  have hother := mt (instant_isDecember31 year hyear).1 hday
  rw [isDecember31,decide_eq_true_eq,DateTime.instant_div] at hlast hother
  have hnumber : d.dayNumber = january1 d.year+d.yearDay := rfl
  have hnext := january1_succ year.number year.pos
  have hbound := d.yearDay_lt
  rw [hyear] at hnumber hbound
  omega

/-- `datetime_generator(year, microseconds)` within `fuel` turns. -/
def datetimesInYear (year : Year) (microseconds : Bool) (fuel : ℕ) : Option (List DateTime × Option DateTime) :=
  walk fuel (newYear year microseconds)

/-- The generator ends in every year, on the December 31 of that year, and what it yields before goes up
from January 1 within the year, in equal steps: these are the instants of the sweep. -/
theorem datetimesInYear_ends (year : Year) (microseconds : Bool) :
    ∃ fuel dates last, datetimesInYear year microseconds fuel = some (dates,some last) ∧
      (last.year = year.number ∧ last.month = 12 ∧ last.day = 31) ∧
      dates.head? = some (newYear year microseconds) ∧
      dates.Pairwise (fun a b => a.instant < b.instant) ∧
      (∀ d ∈ dates, d.year = year.number ∧ d.dayNumber < (newYearsEve year microseconds).dayNumber) ∧
      (dates.map DateTime.instant = (List.range dates.length).map fun k : ℕ =>
        (newYear year microseconds).instant+generatorStep*(k : ℤ)) ∧
      last.instant = (newYear year microseconds).instant+generatorStep*dates.length ∧
      dates.map DateTime.instant = datetimeGenerator year microseconds := by
  obtain ⟨dates,last,hwalk,hlands⟩ := newYear_walk year microseconds (Nat.lt_succ_self _)
  have hdays := daysInYear_bounds year.number
  have hlength : dates.length = daysInYear year.number-15 := by
    simpa using congrArg List.length hlands.instants
  refine ⟨_,dates,last,hwalk,hlands.last,hlands.head (by omega),hlands.increasing,?_,?_,?_,?_⟩
  · intro d hd
    obtain ⟨hyear,hday⟩ := hlands.inYear d hd
    exact ⟨hyear,dayNumber_lt_newYearsEve year microseconds hyear hday⟩
  · rw [hlength]
    exact hlands.instants
  · rw [hlength]
    exact hlands.lastInstant
  · rw [hlands.instants,datetimeGenerator_eq]

end ClickHouseRegression.DateTime64
