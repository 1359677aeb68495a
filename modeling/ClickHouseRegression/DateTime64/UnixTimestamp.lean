import ClickHouseRegression.Text
import ClickHouseRegression.DateTime64.RelativeNumbers

/-! The oracles of the `toUnixTimestamp64*` and `fromUnixTimestamp64*` tests. The timestamp of a
datetime is taken as an exact number of seconds, and so are the powers of ten it is scaled by. -/
namespace ClickHouseRegression.DateTime64
open Calendar

/-- The three functions, by the digits they keep after the second. -/
inductive Scale
  | milli
  | micro
  | nano

def Scale.digits : Scale → ℕ
  | milli => 3
  | micro => 6
  | nano => 9

/-- `int(q)`: rounded toward zero. -/
def truncate (q : ℚ) : ℤ := if 0 ≤ q then ⌊q⌋ else ⌈q⌉

/-- The datetime, local with the given offset in seconds, as an instant in UTC; `none` if it
leaves the range of `datetime`. -/
def toUtc (d : DateTime) (offset : ℤ) : Option ℤ :=
  let t := d.instant-offset*1000000
  if 0 ≤ t ∧ t < maxInstant then some t else none

/-- `dt.timestamp()` of an instant in UTC. -/
def timestamp (t : ℤ) : ℚ := ((t-epoch : ℤ) : ℚ)/1000000

/-- The value that both tests compute, from the instant in UTC and the microseconds of `dt`. -/
def scaledTimestamp (t : ℤ) (microsecond : ℕ) (s : Scale) : ℚ :=
  let expected := truncate (timestamp t*10^s.digits)
  if 0 ≤ expected then expected+microsecond*(10 : ℚ)^((s.digits : ℤ)-6)
  else expected-microsecond*(10 : ℚ)^((s.digits : ℤ)-6)

/-- The value `expected` of `to_unix_timestamp64_milli_micro_nano`. -/
def toUnixTimestamp64Expected (d : DateTime) (offset : ℤ) (s : Scale) : Option ℚ :=
  (toUtc d offset).map fun t => scaledTimestamp t d.microsecond s

/-- The number `ts` in the query of `from_unix_timestamp64_milli_micro_nano`. -/
def fromUnixTimestamp64Ts (d : DateTime) (offset : ℤ) (s : Scale) : Option ℚ :=
  (toUtc d offset).map fun t => scaledTimestamp t d.microsecond s

/-- A number with at least the given digits. -/
def padded (width n : ℕ) : Text :=
  List.replicate (width-(Nat.toDigits 10 n).length) '0' ++ Nat.toDigits 10 n

/-- `d.strftime("%Y-%m-%d %H:%M:%S")`. -/
def secondsText (d : DateTime) : Text :=
  Nat.toDigits 10 d.year ++ '-' :: (padded 2 d.month ++ '-' :: (padded 2 d.day ++
    ' ' :: (padded 2 d.hour ++ ':' :: (padded 2 d.minute ++ ':' :: padded 2 d.second))))

/-- What `d_str` has after the dot: the six digits of `%f` and the zeros that are appended. -/
def fractionText (d : DateTime) (s : Scale) : Text :=
  padded 6 d.microsecond ++ List.replicate (s.digits-3) '0'

/-- The string `d_str` expected by `from_unix_timestamp64_milli_micro_nano`. -/
def fromUnixTimestamp64Expected (d : DateTime) (s : Scale) : Text :=
  secondsText d ++ '.' :: fractionText d s

/-- The digits after the dot of a time. -/
def fractionOf (t : Text) : Text := (t.dropWhile fun c => decide (c ≠ '.')).drop 1

/-- The number of seconds since the epoch that a local time with this fraction denotes. -/
def denotedSeconds (d : DateTime) (offset : ℤ) (fraction : Text) : ℚ :=
  ((d.instant-d.microsecond-epoch : ℤ) : ℚ)/1000000-offset+
    (Nat.ofDigitChars 10 fraction 0 : ℚ)/10^fraction.length

/-- The value expected by the first test is the scaled instant, rounded down. -/
def ValueExact (d : DateTime) (offset : ℤ) (s : Scale) : Prop :=
  ∃ t, toUtc d offset = some t ∧
    toUnixTimestamp64Expected d offset s = some (⌊timestamp t*10^s.digits⌋ : ℚ)

/-- The number in the query of the second test is the integer that the expected string denotes. -/
def SameInstant (d : DateTime) (offset : ℤ) (s : Scale) : Prop :=
  ∃ ts : ℤ, fromUnixTimestamp64Ts d offset s = some (ts : ℚ) ∧
    (ts : ℚ) = denotedSeconds d offset (fractionOf (fromUnixTimestamp64Expected d s))*10^s.digits

/-- The two oracles are exact and inverse to each other. -/
def OraclesExact (d : DateTime) (offset : ℤ) (s : Scale) : Prop :=
  ValueExact d offset s ∧ (fractionOf (fromUnixTimestamp64Expected d s)).length = s.digits ∧
    SameInstant d offset s

theorem padded_length {width n : ℕ} (hw : 0 < width) (h : n < 10^width) :
    (padded width n).length = width := by
  have hlength := (Nat.length_toDigits_le_iff (by decide : 1 < 10) hw).2 h
  rw [padded,List.length_append,List.length_replicate]
  omega

theorem dot_not_mem_digits (n : ℕ) : '.' ∉ Nat.toDigits 10 n := by
  intro h
  have hd := Nat.isDigit_of_mem_toDigits (by decide) le_rfl h
  exact absurd hd (by decide)

theorem dot_not_mem_padded (width n : ℕ) : '.' ∉ padded width n := by
  rw [padded,List.mem_append]
  rintro (h | h)
  · exact absurd (List.eq_of_mem_replicate h) (by decide)
  · exact dot_not_mem_digits n h

theorem dot_not_mem_secondsText (d : DateTime) : '.' ∉ secondsText d := by
  simp [secondsText,dot_not_mem_digits,dot_not_mem_padded]

theorem fractionOf_expected (d : DateTime) (s : Scale) :
    fractionOf (fromUnixTimestamp64Expected d s) = fractionText d s := by
  have hdrop : ∀ t : Text, '.' ∉ t → ∀ r : Text, (t ++ '.' :: r).dropWhile
      (fun c => decide (c ≠ '.')) = '.' :: r := by
    intro t ht r
    induction t with
    | nil => simp
    | cons c t ih =>
      have hc : c ≠ '.' := fun he => ht (he ▸ List.mem_cons_self)
      rw [List.cons_append,List.dropWhile_cons_of_pos (by simpa using hc)]
      exact ih fun h => ht (List.mem_cons_of_mem c h)
  rw [fractionOf,fromUnixTimestamp64Expected,hdrop _ (dot_not_mem_secondsText d)]
  rfl

/-- The expected string has three digits more than it should. -/
theorem fractionText_length (d : DateTime) (s : Scale) :
    (fractionText d s).length = s.digits+3 := by
  rw [fractionText,List.length_append,List.length_replicate,
    padded_length (by decide) d.microsecond_lt]
  cases s <;> rfl

/-- The digits of the fraction denote the microseconds. -/
theorem fractionText_value (d : DateTime) (s : Scale) :
    Nat.ofDigitChars 10 (fractionText d s) 0 = 10^(s.digits-3)*d.microsecond := by
  rw [fractionText,padded,Nat.ofDigitChars_append,Nat.ofDigitChars_append,
    Nat.ofDigitChars_replicate_zero,Nat.ofDigitChars_replicate_zero,Nat.mul_zero,
    Nat.ofDigitChars_ten_toDigits]

/-- The expected string denotes the instant that the datetime is. -/
theorem denotedSeconds_eq (d : DateTime) (offset : ℤ) (s : Scale) :
    denotedSeconds d offset (fractionText d s) = timestamp (d.instant-offset*1000000) := by
  have hfraction : ((10^(s.digits-3)*d.microsecond : ℕ) : ℚ)/10^(s.digits+3) =
      (d.microsecond : ℚ)/1000000 := by
    cases s <;> (simp only [Scale.digits]; push_cast; ring)
  rw [denotedSeconds,fractionText_value,fractionText_length,hfraction,timestamp]
  push_cast
  ring

theorem toUtc_of_range (d : DateTime) (offset : ℤ) (h0 : 0 ≤ d.instant-offset*1000000)
    (h : d.instant-offset*1000000 < maxInstant) :
    toUtc d offset = some (d.instant-offset*1000000) := if_pos ⟨h0,h⟩

theorem toUtc_eq {d : DateTime} {offset t : ℤ} (h : toUtc d offset = some t) :
    t = d.instant-offset*1000000 := by
  rw [toUtc] at h
  split at h
  · exact (Option.some.inj h).symm
  · exact absurd h (Option.some_ne_none t).symm

/-- Offsets are whole seconds, so the microseconds survive the conversion to UTC. -/
theorem microsecond_of_toUtc {d : DateTime} {offset t : ℤ} (h : toUtc d offset = some t) :
    (t-epoch) % 1000000 = d.microsecond := by
  have hm := d.microsecond_lt
  have hL := dayLength_eq
  have he := epoch_eq
  rw [toUtc_eq h,DateTime.instant,DateTime.timeOfDay,hL,he]
  push_cast
  omega

/-- Rounding a fraction toward zero. -/
theorem truncate_div (x : ℤ) {n : ℕ} (hn : 0 < n) :
    truncate ((x : ℚ)/n) = if 0 ≤ x then x/n else -((-x)/n) := by
  have hn' : (0 : ℚ) < n := by exact_mod_cast hn
  have hsign : 0 ≤ (x : ℚ)/n ↔ 0 ≤ x := by
    rw [le_div_iff₀ hn',zero_mul]
    exact Int.cast_nonneg_iff
  rw [truncate]
  by_cases hx : 0 ≤ x
  · rw [if_pos hx,if_pos (hsign.2 hx),Rat.floor_intCast_div_natCast]
  · have hneg : ((-x : ℤ) : ℚ)/n = -((x : ℚ)/n) := by
      push_cast
      ring
    rw [if_neg hx,if_neg (hsign.not.2 hx),← Rat.floor_intCast_div_natCast,hneg,Int.floor_neg,
      Int.neg_neg]

/-- The timestamp in milliseconds, rounded toward zero. -/
def truncatedMillis (x : ℤ) : ℤ := if 0 ≤ x then x/1000 else -((-x)/1000)

theorem timestamp_milli (t : ℤ) :
    timestamp t*10^Scale.milli.digits = ((t-epoch : ℤ) : ℚ)/(1000 : ℕ) := by
  rw [timestamp,Scale.digits]
  push_cast
  ring

theorem scaledTimestamp_milli (t : ℤ) (m : ℕ) :
    scaledTimestamp t m .milli =
      ((if 0 ≤ truncatedMillis (t-epoch) then 1000*truncatedMillis (t-epoch)+m
        else 1000*truncatedMillis (t-epoch)-m : ℤ) : ℚ)/1000 := by
  have htrunc : truncate (timestamp t*10^Scale.milli.digits) = truncatedMillis (t-epoch) := by
    rw [timestamp_milli,truncate_div _ (by decide)]
    rfl
  have hpower : (10 : ℚ)^((Scale.milli.digits : ℤ)-6) = 1/1000 := by
    norm_num [Scale.digits]
  rw [scaledTimestamp,htrunc,hpower]
  split_ifs
  · push_cast
    ring
  · push_cast
    ring

theorem timestamp_fine {s : Scale} {k : ℕ} (t : ℤ) (hscale : (10 : ℚ)^s.digits = 1000000*k) :
    timestamp t*10^s.digits = ((k*(t-epoch) : ℤ) : ℚ) := by
  rw [timestamp,hscale]
  push_cast
  ring

/-- At the finer scales nothing is rounded. -/
theorem scaledTimestamp_fine {s : Scale} {k : ℕ} (t : ℤ) (m : ℕ) (hk : 0 < k)
    (hscale : (10 : ℚ)^s.digits = 1000000*k) :
    scaledTimestamp t m s =
      ((if 0 ≤ t-epoch then k*(t-epoch)+k*m else k*(t-epoch)-k*m : ℤ) : ℚ) := by
  have hproduct : timestamp t*10^s.digits = ((k*(t-epoch) : ℤ) : ℚ)/(1 : ℕ) := by
    rw [timestamp_fine t hscale,Nat.cast_one,div_one]
  have hpower : (10 : ℚ)^((s.digits : ℤ)-6) = k := by
    rw [zpow_sub₀ (by norm_num),zpow_natCast,hscale]
    norm_num
  have hsign : 0 ≤ (k : ℤ)*(t-epoch) ↔ 0 ≤ t-epoch := by
    have hk' : (0 : ℤ) < k := by exact_mod_cast hk
    exact mul_nonneg_iff_of_pos_left hk'
  have htrunc : truncate (timestamp t*10^s.digits) = k*(t-epoch) := by
    rw [hproduct,truncate_div _ (by decide)]
    simp
  rw [scaledTimestamp,htrunc,hpower]
  by_cases h : 0 ≤ t-epoch
  · rw [if_pos (hsign.2 h),if_pos h]
    push_cast
    ring
  · rw [if_neg (hsign.not.2 h),if_neg h]
    push_cast
    ring

theorem floor_milli (t : ℤ) : ⌊timestamp t*10^Scale.milli.digits⌋ = (t-epoch)/1000 := by
  rw [timestamp_milli,Rat.floor_intCast_div_natCast]
  rfl

theorem micro_power : (10 : ℚ)^Scale.micro.digits = 1000000*(1 : ℕ) := by
  norm_num [Scale.digits]

theorem nano_power : (10 : ℚ)^Scale.nano.digits = 1000000*(1000 : ℕ) := by
  norm_num [Scale.digits]

section
variable {d : DateTime} {offset t : ℤ} (h : toUtc d offset = some t)
include h

/-- The microseconds are counted once exactly if there are none. -/
theorem valueExact_iff (s : Scale) : ValueExact d offset s ↔ d.microsecond = 0 := by
  have hm := microsecond_of_toUtc h
  have hvalue : ValueExact d offset s ↔
      scaledTimestamp t d.microsecond s = (⌊timestamp t*10^s.digits⌋ : ℚ) := by
    simp [ValueExact,toUnixTimestamp64Expected,h]
  rw [hvalue]
  cases s with
  | milli =>
    rw [scaledTimestamp_milli,floor_milli,div_eq_iff (by norm_num)]
    norm_cast
    unfold truncatedMillis
    split_ifs <;> omega
  | micro =>
    rw [scaledTimestamp_fine _ _ (by decide) micro_power,timestamp_fine _ micro_power,
      Int.floor_intCast,Int.cast_inj]
    split_ifs <;> omega
  | nano =>
    rw [scaledTimestamp_fine _ _ (by decide) nano_power,timestamp_fine _ nano_power,
      Int.floor_intCast,Int.cast_inj]
    split_ifs <;> omega

/-- The query and the expected string name one instant exactly if there are no microseconds. -/
theorem sameInstant_iff (s : Scale) : SameInstant d offset s ↔ d.microsecond = 0 := by
  have hm := microsecond_of_toUtc h
  have hsame : SameInstant d offset s ↔ ∃ ts : ℤ, scaledTimestamp t d.microsecond s = (ts : ℚ) ∧
      (ts : ℚ) = timestamp t*10^s.digits := by
    rw [SameInstant,fractionOf_expected,denotedSeconds_eq,← toUtc_eq h]
    simp [fromUnixTimestamp64Ts,h]
  rw [hsame]
  cases s with
  | milli =>
    rw [scaledTimestamp_milli,timestamp_milli]
    constructor
    · rintro ⟨ts,hts,hinstant⟩
      rw [div_eq_iff (by norm_num)] at hts
      rw [eq_div_iff (by norm_num)] at hinstant
      norm_cast at hts hinstant
      unfold truncatedMillis at hts
      split_ifs at hts <;> omega
    · intro h0
      refine ⟨(t-epoch)/1000,?_,?_⟩
      · rw [div_eq_iff (by norm_num)]
        norm_cast
        unfold truncatedMillis
        split_ifs <;> omega
      · rw [eq_div_iff (by norm_num)]
        norm_cast
        omega
  | micro =>
    rw [scaledTimestamp_fine _ _ (by decide) micro_power,timestamp_fine _ micro_power]
    simp only [Int.cast_inj,exists_eq_left']
    split_ifs <;> omega
  | nano =>
    rw [scaledTimestamp_fine _ _ (by decide) nano_power,timestamp_fine _ nano_power]
    simp only [Int.cast_inj,exists_eq_left']
    split_ifs <;> omega

end

/-- The oracles are never both exact: the expected string always has three digits too many. The
values in them are right exactly for datetimes without microseconds. -/
theorem unixTimestamp64_never_exact (d : DateTime) (offset : ℤ) (s : Scale) :
    ¬ OraclesExact d offset s ∧
      (fractionOf (fromUnixTimestamp64Expected d s)).length = s.digits+3 ∧
      ∀ t, toUtc d offset = some t →
        (ValueExact d offset s ↔ d.microsecond = 0) ∧
          (SameInstant d offset s ↔ d.microsecond = 0) := by
  have hlength : (fractionOf (fromUnixTimestamp64Expected d s)).length = s.digits+3 := by
    rw [fractionOf_expected,fractionText_length]
  refine ⟨?_,hlength,fun t h => ⟨valueExact_iff h s,sameInstant_iff h s⟩⟩
  rintro ⟨-,hdigits,-⟩
  omega

/-- 2000-01-01 00:00:00.500000. -/
def halfSecond : DateTime := datetime 2000 1 1 0 0 0 500000 (by decide)

/-- Half a second is counted as a whole one. -/
theorem unixTimestamp64_never_exact_half :
    ¬ OraclesExact halfSecond 0 .micro ∧ ¬ ValueExact halfSecond 0 .micro ∧
      ¬ SameInstant halfSecond 0 .micro := by
  have h := unixTimestamp64_never_exact halfSecond 0 .micro
  have hutc := toUtc_of_range halfSecond 0 (by decide +kernel) (by decide +kernel)
  obtain ⟨hvalue,hsame⟩ := h.2.2 _ hutc
  exact ⟨h.1,hvalue.not.2 (by decide),hsame.not.2 (by decide)⟩

/-- The expected string `2000-01-01 00:00:00.500000000` has nine digits after the dot. -/
theorem fromUnixTimestamp64_half_digits : ¬ OraclesExact halfSecond 0 .micro := by
  rintro ⟨-,hdigits,-⟩
  exact absurd hdigits (by decide +kernel)

end ClickHouseRegression.DateTime64
