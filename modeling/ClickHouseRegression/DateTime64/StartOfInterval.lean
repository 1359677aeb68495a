import ClickHouseRegression.Calendar.Instant

/-! `to_start_of_interval_helper`: where the interval that contains a datetime starts, when intervals
are counted from 1970-01-01. The helper formats a datetime; the model gives its instant. The sum with
a `relativedelta` of `dateutil` is a parameter. -/
namespace ClickHouseRegression.DateTime64
open Calendar

inductive IntervalType
  | second
  | minute
  | hour
  | day
  | week
  | month
  | quarter
  | year

/-- The table `intervals_in_seconds`. -/
def intervalsInSeconds : IntervalType → Option ℤ
  | .second => some 1
  | .minute => some 60
  | .hour => some 3600
  | .day => some 68400
  | .week => some 604800
  | _ => none

/-- The number of January 1970 among the months. -/
def epochMonth : ℤ := 23640

def zeroDatetime : DateTime := datetime 1970 1 1 0 0 0 0 (by decide)

/-- What `dateutil` documents of `dt + relativedelta(years=years, months=months)`: the month moves
by so many years and months, the day is cut to the length of the new month and the time stays; a
year outside 1 to 9999 is an exception. -/
structure AddsRelativedelta (plus : DateTime → ℤ → ℤ → Option DateTime) : Prop where
  sum : ∀ (dt : DateTime) (years months : ℤ), 12 ≤ dt.monthIndex+(12*years+months) →
    dt.monthIndex+(12*years+months) < 120000 → ∃ r, plus dt years months = some r ∧
      (r.monthIndex : ℤ) = dt.monthIndex+(12*years+months) ∧
      r.day = min dt.day (daysInMonth r.year r.month) ∧ r.timeOfDay = dt.timeOfDay
  overflow : ∀ (dt : DateTime) (years months : ℤ),
    ¬ (12 ≤ dt.monthIndex+(12*years+months) ∧ dt.monthIndex+(12*years+months) < 120000) →
      plus dt years months = none

/-- `(dt - zero_datetime).seconds`, without the days of the difference. -/
def deltaSeconds (dt : DateTime) : ℤ := (dt.instant-epoch) % dayLength/1000000

/-- The months, quarters and years that the helper counts since 1970. -/
def monthDiff (dt : DateTime) : ℤ := ((dt.year : ℤ)-1970)*12+((dt.month : ℤ)-1)

def quarterDiff (dt : DateTime) : ℤ := ((dt.year : ℤ)-1970)*4+((dt.month/4 : ℕ)-(1/4 : ℕ) : ℤ)

def yearDiff (dt : DateTime) : ℤ := (dt.year : ℤ)-1970

def toStartOfIntervalHelper (plus : DateTime → ℤ → ℤ → Option DateTime) (dt : DateTime)
    (t : IntervalType) (n : ℤ) : Option ℤ :=
  match intervalsInSeconds t with
  | some seconds =>
    let divisor := n*seconds
    some (epoch+deltaSeconds dt/divisor*divisor*1000000)
  | none => match t with
    | .month => (plus zeroDatetime 0 (monthDiff dt/n*n)).map (·.instant)
    | .quarter => (plus zeroDatetime 0 (quarterDiff dt/n*n*4)).map (·.instant)
    | _ => (plus zeroDatetime (yearDiff dt/n*n) 0).map (·.instant)

/-- The real length of the units of fixed length, in seconds, and of the others, in months. -/
def unitSeconds : IntervalType → Option ℤ
  | .second => some 1
  | .minute => some 60
  | .hour => some 3600
  | .day => some 86400
  | .week => some 604800
  | _ => none

def unitMonths : IntervalType → ℤ
  | .quarter => 3
  | .year => 12
  | _ => 1

/-- `b` is a whole number of intervals after the epoch and its interval contains the datetime. -/
def IsIntervalStart (dt : DateTime) (t : IntervalType) (n b : ℤ) : Prop :=
  match unitSeconds t with
  | some u => ∃ k, b = epoch+k*(n*u)*1000000 ∧ b ≤ dt.instant ∧ dt.instant < b+n*u*1000000
  | none => ∃ k, 12 ≤ epochMonth+k*(n*unitMonths t) ∧ b = monthInstant (epochMonth+k*(n*unitMonths t)) ∧
      b ≤ dt.instant ∧ dt.instant < monthInstant (epochMonth+(k+1)*(n*unitMonths t))

/-- The helper gives the start of the interval. -/
def HelperExact (plus : DateTime → ℤ → ℤ → Option DateTime) (dt : DateTime) (t : IntervalType)
    (n : ℤ) : Prop :=
  ∃ b, toStartOfIntervalHelper plus dt t n = some b ∧ IsIntervalStart dt t n b

section
variable {plus : DateTime → ℤ → ℤ → Option DateTime}

theorem deltaSeconds_eq (dt : DateTime) :
    deltaSeconds dt = (dt.hour*60+dt.minute)*60+dt.second := by
  have hmod : (dt.instant-epoch) % dayLength = dt.timeOfDay := by
    rw [epoch,Int.sub_mul_emod_self_right,dt.instant_mod]
  have hmicro := dt.microsecond_lt
  rw [deltaSeconds,hmod,DateTime.timeOfDay]
  push_cast
  omega

/-- A floor is above a bound when the number is above the least multiple above it. -/
theorem neg_le_ediv_mul_iff {x n m : ℤ} (hn : 0 < n) : -m ≤ x/n*n ↔ -(m/n*n) ≤ x := by
  calc -m ≤ x/n*n ↔ -(x/n)*n ≤ m := by rw [Int.neg_mul]; omega
    _ ↔ -(x/n) ≤ m/n := (Int.le_ediv_iff_mul_le hn).symm
    _ ↔ -(m/n) ≤ x/n := by omega
    _ ↔ -(m/n)*n ≤ x := Int.le_ediv_iff_mul_le hn
    _ ↔ -(m/n*n) ≤ x := by rw [Int.neg_mul]

theorem ediv_mul_eq_zero {x n : ℤ} (h0 : 0 ≤ x) (h : x < n) : x/n*n = 0 := by
  rw [Int.ediv_eq_zero_of_lt h0 h,Int.zero_mul]

/-- The seconds of the difference without its days. -/
theorem deltaSeconds_bounds (dt : DateTime) :
    0 ≤ deltaSeconds dt ∧ deltaSeconds dt < 86400 := by
  have h1 := dt.hour_lt
  have h2 := dt.minute_lt
  have h3 := dt.second_lt
  rw [deltaSeconds_eq]
  omega

/-- The time since the epoch, split into days and the seconds that the helper looks at. -/
theorem instant_split (dt : DateTime) :
    ∃ days : ℤ, ∃ micros : ℤ, 0 ≤ micros ∧ micros < 1000000 ∧
      dt.instant-epoch = days*86400000000+deltaSeconds dt*1000000+micros := by
  have hL := dayLength_eq
  refine ⟨(dt.instant-epoch)/86400000000,(dt.instant-epoch) % 86400000000 % 1000000,?_,?_,?_⟩
  · omega
  · omega
  · rw [deltaSeconds,hL]
    omega

/-- A unit of fixed length that the table has right. -/
theorem fixed_exact_iff {dt : DateTime} {t : IntervalType} {n u : ℤ} (hn : 1 ≤ n) (hu : 0 < u)
    (htable : intervalsInSeconds t = some u) (hunit : unitSeconds t = some u) :
    HelperExact plus dt t n ↔ epoch ≤ dt.instant ∧
      (dt.instant < epoch+dayLength ∨ dt.instant < epoch+n*u*1000000) := by
  have hpos : 0 < n*u := Int.mul_pos (by omega) hu
  have hb := (Int.ediv_eq_iff_of_pos (x := deltaSeconds dt) hpos).1 rfl
  have hzero := ediv_mul_eq_zero (n := n*u) (deltaSeconds_bounds dt).1
  have hseconds := deltaSeconds_bounds dt
  obtain ⟨days,micros,hm0,hm,hsplit⟩ := instant_split dt
  have hL := dayLength_eq
  simp only [HelperExact,toStartOfIntervalHelper,IsIntervalStart,htable,hunit,hL]
  constructor
  · rintro ⟨b,hb',k,-,hle,hlt⟩
    obtain rfl := Option.some.inj hb'
    generalize deltaSeconds dt/(n*u)*(n*u) = start at *
    generalize n*u = length at *
    omega
  · rintro ⟨hepoch,hlt⟩
    refine ⟨_,rfl,deltaSeconds dt/(n*u),rfl,?_,?_⟩
    · generalize deltaSeconds dt/(n*u)*(n*u) = start at *
      generalize n*u = length at *
      omega
    · generalize deltaSeconds dt/(n*u)*(n*u) = start at *
      generalize n*u = length at *
      omega

/-- The table has 68400 seconds for a day, so a single day is cut at 19:00. -/
theorem day_exact_iff {dt : DateTime} {n : ℤ} (hn : 1 ≤ n) :
    HelperExact plus dt .day n ↔ epoch ≤ dt.instant ∧ dt.instant < epoch+n*dayLength ∧
      (n = 1 → dt.hour < 19) := by
  have hb := (Int.ediv_eq_iff_of_pos (x := deltaSeconds dt) (show 0 < n*68400 by omega)).1 rfl
  have hzero := ediv_mul_eq_zero (n := n*68400) (deltaSeconds_bounds dt).1
  have hseconds := deltaSeconds_bounds dt
  have hhour : deltaSeconds dt < 68400 ↔ dt.hour < 19 := by
    have h2 := dt.minute_lt
    have h3 := dt.second_lt
    rw [deltaSeconds_eq]
    omega
  obtain ⟨days,micros,hm0,hm,hsplit⟩ := instant_split dt
  have hL := dayLength_eq
  simp only [HelperExact,toStartOfIntervalHelper,IsIntervalStart,intervalsInSeconds,unitSeconds,hL]
  rw [← hhour]
  constructor
  · rintro ⟨b,hb',k,hk,hle,hlt⟩
    obtain rfl := Option.some.inj hb'
    -- the start is on the first day, so it is the epoch itself
    have hk0 : k = 0 := by
      have hstart : deltaSeconds dt/(n*68400)*(n*68400) = k*(n*86400) := by omega
      have hlow : 0 ≤ deltaSeconds dt/(n*68400)*(n*68400) :=
        Int.mul_nonneg (Int.ediv_nonneg hseconds.1 (by omega)) (by omega)
      by_contra hne
      rcases lt_or_gt_of_ne hne with hneg | hpos
      · nlinarith
      · nlinarith
    subst hk0
    refine ⟨by omega,by omega,?_⟩
    rintro rfl
    omega
  · rintro ⟨hepoch,hlt,hone⟩
    have hs : deltaSeconds dt < n*68400 := by
      by_cases h1 : n = 1
      · have := hone h1
        omega
      · omega
    rw [hzero hs]
    exact ⟨_,rfl,0,by omega,by omega,by omega⟩

theorem zeroDatetime_monthIndex : (zeroDatetime.monthIndex : ℤ) = epochMonth := rfl

/-- The sum of the start of 1970 and some months is the start of a month. -/
theorem AddsRelativedelta.instant_eq_some (hplus : AddsRelativedelta plus) {years months b : ℤ} :
    (plus zeroDatetime years months).map (·.instant) = some b ↔
      (12 ≤ epochMonth+(12*years+months) ∧ epochMonth+(12*years+months) < 120000) ∧
        monthInstant (epochMonth+(12*years+months)) = b := by
  have hsum := hplus.sum zeroDatetime years months
  have hoverflow := hplus.overflow zeroDatetime years months
  rw [zeroDatetime_monthIndex] at hsum hoverflow
  by_cases h : 12 ≤ epochMonth+(12*years+months) ∧ epochMonth+(12*years+months) < 120000
  · obtain ⟨r,hr,hmonth,hday,htime⟩ := hsum h.1 h.2
    have hfirst : r.day = 1 := by
      rw [hday]
      exact min_eq_left (daysInMonth_pos _ _)
    have hinstant : r.instant = monthInstant (epochMonth+(12*years+months)) := by
      rw [DateTime.instant,r.dayNumber_eq,hfirst,htime,monthInstant,← hmonth,Int.toNat_natCast]
      exact Int.add_zero _
    rw [hr,Option.map_some,Option.some.injEq,hinstant]
    exact ⟨fun hb => ⟨h,hb⟩,fun hb => hb.2⟩
  · rw [hoverflow h]
    exact ⟨fun hb => absurd hb (Option.some_ne_none b).symm,fun hb => absurd hb.1 h⟩

theorem monthIndex_lt (dt : DateTime) : dt.monthIndex < 120000 := by
  have h1 := dt.year_le
  have h2 := dt.month_le
  unfold DateTime.monthIndex
  omega

/-- Intervals of months, in terms of the numbers of the months. -/
theorem isIntervalStart_months {dt : DateTime} {t : IntervalType} {n : ℤ} (hn : 1 ≤ n)
    (hunit : unitSeconds t = none) (hmonths : 1 ≤ unitMonths t) {i : ℤ} (hi : 12 ≤ i) :
    IsIntervalStart dt t n (monthInstant i) ↔ ∃ k, i = epochMonth+k*(n*unitMonths t) ∧
      i ≤ dt.monthIndex ∧ (dt.monthIndex : ℤ) < i+n*unitMonths t := by
  have hpos : 0 < n*unitMonths t := Int.mul_pos (by omega) (by omega)
  simp only [IsIntervalStart,hunit]
  have hnext : ∀ k, epochMonth+(k+1)*(n*unitMonths t) =
      epochMonth+k*(n*unitMonths t)+n*unitMonths t := by
    intro k
    ring
  constructor
  · rintro ⟨k,hk,hb,hle,hlt⟩
    obtain rfl := monthInstant_injective hi hk hb
    refine ⟨k,rfl,(monthInstant_le_iff dt hi).1 hle,?_⟩
    rw [hnext] at hlt
    exact not_le.1 fun h => absurd ((monthInstant_le_iff dt (by omega)).2 h) (not_le.2 hlt)
  · rintro ⟨k,rfl,hle,hlt⟩
    refine ⟨k,hi,rfl,(monthInstant_le_iff dt hi).2 hle,?_⟩
    rw [hnext]
    exact not_le.1 fun h => absurd ((monthInstant_le_iff dt (by omega)).1 h) (not_le.2 hlt)

theorem month_exact_iff (hplus : AddsRelativedelta plus) {dt : DateTime} {n : ℤ} (hn : 1 ≤ n) :
    HelperExact plus dt .month n ↔ epochMonth ≤ dt.monthIndex+23628/n*n := by
  have hb := (Int.ediv_eq_iff_of_pos (x := monthDiff dt) (show 0 < n by omega)).1 rfl
  have hmonth : monthDiff dt = dt.monthIndex-epochMonth := by
    have h := dt.month_pos
    unfold monthDiff epochMonth DateTime.monthIndex
    omega
  have hmax := monthIndex_lt dt
  have hepoch : epochMonth = 23640 := rfl
  have hfirst := neg_le_ediv_mul_iff (x := monthDiff dt) (m := 23628) (show 0 < n by omega)
  change (∃ b, (plus zeroDatetime 0 (monthDiff dt/n*n)).map (·.instant) = some b ∧ _) ↔ _
  simp only [hplus.instant_eq_some,Int.mul_zero,Int.zero_add]
  constructor
  · rintro ⟨b,⟨⟨h,-⟩,-⟩,-⟩
    have := hfirst.1 (by omega)
    omega
  · intro h
    have hstart : 12 ≤ epochMonth+monthDiff dt/n*n := by
      have := hfirst.2 (by omega)
      omega
    refine ⟨_,⟨⟨hstart,by omega⟩,rfl⟩,(isIntervalStart_months hn rfl (by decide) hstart).2
      ⟨monthDiff dt/n,?_,by omega,?_⟩⟩
    · rw [show unitMonths .month = 1 from rfl,Int.mul_one]
    · rw [show unitMonths .month = 1 from rfl,Int.mul_one]
      omega

theorem year_exact_iff (hplus : AddsRelativedelta plus) {dt : DateTime} {n : ℤ} (hn : 1 ≤ n) :
    HelperExact plus dt .year n ↔ 1970 ≤ dt.year+1969/n*n := by
  have hb := (Int.ediv_eq_iff_of_pos (x := yearDiff dt) (show 0 < n by omega)).1 rfl
  have hmax := monthIndex_lt dt
  have hm := dt.month_le
  have hepoch : epochMonth = 23640 := rfl
  have hyear : yearDiff dt = dt.year-1970 := rfl
  have hfirst := neg_le_ediv_mul_iff (x := yearDiff dt) (m := 1969) (show 0 < n by omega)
  change (∃ b, (plus zeroDatetime (yearDiff dt/n*n) 0).map (·.instant) = some b ∧ _) ↔ _
  simp only [hplus.instant_eq_some,Int.add_zero]
  constructor
  · rintro ⟨b,⟨⟨h,-⟩,-⟩,-⟩
    have := hfirst.1 (by omega)
    omega
  · intro h
    have hstart' := hfirst.2 (by omega)
    have hindex : (dt.monthIndex : ℤ) = epochMonth+yearDiff dt*12+(dt.month-1 : ℕ) := by
      unfold DateTime.monthIndex yearDiff
      omega
    have hstart : 12 ≤ epochMonth+12*(yearDiff dt/n*n) := by omega
    refine ⟨_,⟨⟨hstart,by omega⟩,rfl⟩,(isIntervalStart_months hn rfl (by decide) hstart).2
      ⟨yearDiff dt/n,?_,by omega,?_⟩⟩
    · rw [show unitMonths .year = 12 from rfl]
      ring
    · rw [show unitMonths .year = 12 from rfl]
      omega

/-- The quarters of the helper, four months long and counted by `month // 4`, start a real interval
only where both counts are zero. -/
theorem quarter_counts {y m n u k : ℤ} (hm : 1 ≤ m) (hm' : m ≤ 12) (hn : 1 ≤ n)
    (hu : u*n ≤ y*4+m/4) (hu' : y*4+m/4 < u*n+n) (he : u*n*4 = k*(n*3))
    (hk : k*(n*3) ≤ y*12+(m-1)) (hk' : y*12+(m-1) < k*(n*3)+n*3) :
    0 ≤ y*12+(m-1) ∧ y*12+(m-1) < n*3 := by
  have hcancel : 4*u = 3*k := by
    have hn0 : n ≠ 0 := by omega
    apply Int.eq_of_mul_eq_mul_right hn0
    calc 4*u*n = u*n*4 := by ring
      _ = k*(n*3) := he
      _ = 3*k*n := by ring
  -- with `w = k-u` the two counts are `3*w` and `4*w`
  have hw : u*n = 3*((k-u)*n) := by
    linear_combination n*hcancel
  have hkn : k*(n*3) = 12*((k-u)*n) := by
    rw [← he,hw]
    ring
  have hlow : -n < (k-u)*n := by omega
  have hhigh : (k-u)*n ≤ n := by omega
  have hw0 : 0 ≤ k-u := by
    by_contra hneg
    nlinarith
  have hw1 : k-u ≤ 1 := by
    by_contra hbig
    nlinarith
  rcases (by omega : k-u = 0 ∨ k-u = 1) with h | h
  · rw [h,Int.zero_mul] at hkn
    omega
  · rw [h,Int.one_mul] at hkn hw
    omega

theorem monthInstant_epochMonth : monthInstant epochMonth = epoch := by
  rw [monthInstant,show epochMonth.toNat = 12*1970 from rfl,monthStart_january,january1_epoch,epoch]

theorem quarter_exact_iff (hplus : AddsRelativedelta plus) {dt : DateTime} {n : ℤ} (hn : 1 ≤ n) :
    HelperExact plus dt .quarter n ↔ epoch ≤ dt.instant ∧ dt.instant < monthInstant (epochMonth+3*n) := by
  have hepoch : epochMonth = 23640 := rfl
  have hm := dt.month_pos
  have hm' := dt.month_le
  have hb := (Int.ediv_eq_iff_of_pos (x := quarterDiff dt) (show 0 < n by omega)).1 rfl
  have hquarter : quarterDiff dt = yearDiff dt*4+(dt.month : ℤ)/4 := by
    unfold quarterDiff yearDiff
    omega
  have hindex : (dt.monthIndex : ℤ) = epochMonth+(yearDiff dt*12+((dt.month : ℤ)-1)) := by
    unfold DateTime.monthIndex yearDiff
    omega
  have hthree : unitMonths .quarter = 3 := rfl
  rw [← monthInstant_epochMonth,monthInstant_le_iff dt (by decide),← not_le,
    monthInstant_le_iff dt (by omega)]
  change (∃ b, (plus zeroDatetime 0 (quarterDiff dt/n*n*4)).map (·.instant) = some b ∧ _) ↔ _
  simp only [hplus.instant_eq_some,Int.mul_zero,Int.zero_add]
  constructor
  · rintro ⟨b,⟨⟨h,-⟩,rfl⟩,hstart⟩
    obtain ⟨k,hk,hle,hlt⟩ := (isIntervalStart_months hn rfl (by decide) h).1 hstart
    rw [hthree] at hk hlt
    have hcounts := quarter_counts (y := yearDiff dt) (m := dt.month) (n := n)
      (u := quarterDiff dt/n) (k := k) (by omega) (by omega) hn (by omega) (by omega) (by omega)
      (by omega) (by omega)
    omega
  · rintro ⟨hle,hlt⟩
    have hzero : quarterDiff dt/n*n = 0 := ediv_mul_eq_zero (by omega) (by omega)
    have hstart : 12 ≤ epochMonth+0*4 := by decide
    rw [hzero]
    refine ⟨_,⟨⟨hstart,by decide⟩,rfl⟩,(isIntervalStart_months hn rfl (by decide) hstart).2
      ⟨0,by omega,by omega,?_⟩⟩
    rw [hthree]
    omega

/-- Where the helper can be right. Up to weeks only the time of day counts, so the datetime is in the
first day or in the first interval after the epoch; quarters are right in the first interval only.
Months and years are right from the first interval that starts in the years 1 to 9999. -/
def InExactRange (dt : DateTime) (n : ℤ) : IntervalType → Prop
  | .second => InFirst 1
  | .minute => InFirst 60
  | .hour => InFirst 3600
  | .day => epoch ≤ dt.instant ∧ dt.instant < epoch+n*dayLength ∧ (n = 1 → dt.hour < 19)
  | .week => InFirst 604800
  | .month => epochMonth ≤ dt.monthIndex+23628/n*n
  | .quarter => epoch ≤ dt.instant ∧ dt.instant < monthInstant (epochMonth+3*n)
  | .year => 1970 ≤ dt.year+1969/n*n
where
  InFirst (u : ℤ) : Prop := epoch ≤ dt.instant ∧
    (dt.instant < epoch+dayLength ∨ dt.instant < epoch+n*u*1000000)

theorem helperExact_iff (hplus : AddsRelativedelta plus) (dt : DateTime) (t : IntervalType) {n : ℤ}
    (hn : 1 ≤ n) :
    HelperExact plus dt t n ↔ InExactRange dt n t := by
  cases t with
  | second => exact fixed_exact_iff hn (by decide) rfl rfl
  | minute => exact fixed_exact_iff hn (by decide) rfl rfl
  | hour => exact fixed_exact_iff hn (by decide) rfl rfl
  | day => exact day_exact_iff hn
  | week => exact fixed_exact_iff hn (by decide) rfl rfl
  | month => exact month_exact_iff hplus hn
  | quarter => exact quarter_exact_iff hplus hn
  | year => exact year_exact_iff hplus hn

theorem isIntervalStart_unique {dt : DateTime} {t : IntervalType} {n b c : ℤ} (hn : 1 ≤ n)
    (hb : IsIntervalStart dt t n b) (hc : IsIntervalStart dt t n c) : b = c := by
  cases hunit : unitSeconds t with
  | some u =>
    simp only [IsIntervalStart,hunit] at hb hc
    have hbucket : ∀ {a k : ℤ}, a = epoch+k*(n*u)*1000000 → a ≤ dt.instant →
        dt.instant < a+n*u*1000000 → (dt.instant-epoch)/(n*u*1000000) = k := by
      intro a k ha hle hlt
      have hassoc : k*(n*u)*1000000 = k*(n*u*1000000) := Int.mul_assoc _ _ _
      apply (Int.ediv_eq_iff_of_pos (by omega)).2
      omega
    obtain ⟨k,hk,hle,hlt⟩ := hb
    obtain ⟨k',hk',hle',hlt'⟩ := hc
    rw [hk,hk',← hbucket hk hle hlt,← hbucket hk' hle' hlt']
  | none =>
    have hmonths : 1 ≤ unitMonths t := by
      cases t <;> decide
    have hbucket : ∀ {a : ℤ}, IsIntervalStart dt t n a →
        a = monthInstant (epochMonth+(dt.monthIndex-epochMonth)/(n*unitMonths t)*(n*unitMonths t)) := by
      intro a ha
      have hshape := ha
      simp only [IsIntervalStart,hunit] at hshape
      obtain ⟨k,hk,rfl,-,-⟩ := hshape
      obtain ⟨k',hk',hle,hlt⟩ := (isIntervalStart_months hn hunit hmonths hk).1 ha
      rw [hk'] at hle hlt ⊢
      have hk0 : (dt.monthIndex-epochMonth)/(n*unitMonths t) = k' := by
        apply (Int.ediv_eq_iff_of_pos (by omega)).2
        omega
      rw [hk0]
    rw [hbucket hb,hbucket hc]

/-- The helper gives the one start of the interval exactly in that range. -/
theorem toStartOfIntervalHelper_exact_iff (hplus : AddsRelativedelta plus) (dt : DateTime)
    (t : IntervalType) (n : ℤ) (hn : 1 ≤ n) :
    (∃ b, toStartOfIntervalHelper plus dt t n = some b ∧ IsIntervalStart dt t n b ∧
      ∀ c, IsIntervalStart dt t n c → c = b) ↔ InExactRange dt n t := by
  rw [← helperExact_iff hplus dt t hn]
  constructor
  · rintro ⟨b,hb,hstart,-⟩
    exact ⟨b,hb,hstart⟩
  · rintro ⟨b,hb,hstart⟩
    exact ⟨b,hb,hstart,fun c hc => isIntervalStart_unique hn hc hstart⟩

end

/-- The datetime in another month, at the same time; a later day than the last becomes the last. -/
def moveMonth (dt : DateTime) (i : ℕ) (h : 12 ≤ i ∧ i < 120000) : DateTime where
  year := i/12
  month := i % 12+1
  day := min dt.day (daysInMonth (i/12) (i % 12+1))
  hour := dt.hour
  minute := dt.minute
  second := dt.second
  microsecond := dt.microsecond
  year_pos := by omega
  year_le := by omega
  month_pos := by omega
  month_le := by omega
  day_pos := le_min dt.day_pos (daysInMonth_pos _ _)
  day_le := min_le_right _ _
  hour_lt := dt.hour_lt
  minute_lt := dt.minute_lt
  second_lt := dt.second_lt
  microsecond_lt := dt.microsecond_lt

/-- The documented sum, computed. -/
def addRelativedelta (dt : DateTime) (years months : ℤ) : Option DateTime :=
  let i := (dt.monthIndex+(12*years+months)).toNat
  if h : 12 ≤ i ∧ i < 120000 then some (moveMonth dt i h) else none

theorem addRelativedelta_adds : AddsRelativedelta addRelativedelta where
  sum dt years months h h' := by
    have hrange : 12 ≤ (dt.monthIndex+(12*years+months)).toNat ∧
        (dt.monthIndex+(12*years+months)).toNat < 120000 := by omega
    refine ⟨moveMonth dt _ hrange,dif_pos hrange,?_,rfl,rfl⟩
    simp only [DateTime.monthIndex,moveMonth] at hrange ⊢
    omega
  overflow dt years months h := by
    refine dif_neg ?_
    omega

/-- 1969-12-31 23:30:00. -/
def lastEvening1969 : DateTime := datetime 1969 12 31 23 30 0 0 (by decide)

theorem toStartOfIntervalHelper_exact_fiveMonths :
    InExactRange lastEvening1969 5 .month ∧
      ∃ b, toStartOfIntervalHelper addRelativedelta lastEvening1969 .month 5 = some b ∧
        IsIntervalStart lastEvening1969 .month 5 b ∧
        ∀ c, IsIntervalStart lastEvening1969 .month 5 c → c = b := by
  have hrange : InExactRange lastEvening1969 5 .month := by
    change epochMonth ≤ (lastEvening1969.monthIndex : ℤ)+23628/5*5
    decide
  exact ⟨hrange,(toStartOfIntervalHelper_exact_iff addRelativedelta_adds _ _ 5 (by decide)).2 hrange⟩

/-- 1970-01-01 20:00:00. -/
def firstEvening1970 : DateTime := datetime 1970 1 1 20 0 0 0 (by decide)

/-- The day that starts at 19:00. -/
theorem toStartOfIntervalHelper_firstEvening1970 :
    toStartOfIntervalHelper addRelativedelta firstEvening1970 .day 1 = some (epoch+68400*1000000) ∧
      ¬ ∀ (dt : DateTime) (t : IntervalType) (n : ℤ), 1 ≤ n →
        ∃ b, toStartOfIntervalHelper addRelativedelta dt t n = some b ∧ IsIntervalStart dt t n b ∧
          ∀ c, IsIntervalStart dt t n c → c = b := by
  refine ⟨by decide +kernel,?_⟩
  intro hall
  obtain ⟨b,hb,hstart,-⟩ := hall firstEvening1970 .day 1 (by decide)
  have hhour := (day_exact_iff (by decide)).1 ⟨b,hb,hstart⟩
  exact absurd (hhour.2.2 rfl) (by decide)

end ClickHouseRegression.DateTime64
