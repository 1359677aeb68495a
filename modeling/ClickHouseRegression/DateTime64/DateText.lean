import ClickHouseRegression.Calendar.Civil
import ClickHouseRegression.Code.Delimited
import ClickHouseRegression.DateTime64.UnixTimestamp

/-! The texts of dates and of times without a fraction can be read back: their fields are digits
between other characters. -/
namespace ClickHouseRegression.DateTime64
open Calendar Delimited

/-- A year, a month and a day as in `strftime("%Y-%m-%d")`. -/
def dateText (year month day : ℕ) : Text :=
  Nat.toDigits 10 year ++ '-' :: (padded 2 month ++ '-' :: padded 2 day)

theorem padded_isDigit {width n : ℕ} {c : Char} (h : c ∈ padded width n) : c.isDigit = true := by
  rcases List.mem_append.1 h with h | h
  · rw [List.eq_of_mem_replicate h]
    decide
  · exact Nat.isDigit_of_mem_toDigits (by decide) le_rfl h

theorem padded_value (width n : ℕ) : Nat.ofDigitChars 10 (padded width n) 0 = n := by
  rw [padded,Nat.ofDigitChars_append,Nat.ofDigitChars_replicate_zero,Nat.mul_zero,
    Nat.ofDigitChars_ten_toDigits]

theorem padded_injective (width : ℕ) : Function.Injective (padded width) := by
  intro a b h
  rw [← padded_value width a,h,padded_value]

theorem toDigits_eq_padded (n : ℕ) : Nat.toDigits 10 n = padded 0 n := by
  simp [padded]

/-- A field ends at the first character that is not a digit. -/
theorem field_unique {c : Char} (hc : c.isDigit = false) {v w a b : ℕ} {r r' : Text}
    (h : padded v a ++ c :: r = padded w b ++ c :: r') : padded v a = padded w b ∧ r = r' := by
  have hfield : ∀ v a, c ∉ padded v a := by
    intro v a hmem
    rw [padded_isDigit hmem] at hc
    exact Bool.noConfusion hc
  obtain ⟨hw,hr⟩ := word_unique c (hfield v a) (hfield w b) (by simp) (by simp) h
  exact ⟨hw,(List.cons.inj hr).2⟩

theorem dateText_append_unique {year month day year' month' day' : ℕ} {c : Char}
    (hc : c.isDigit = false) {r r' : Text}
    (h : dateText year month day ++ c :: r = dateText year' month' day' ++ c :: r') :
    (year = year' ∧ month = month' ∧ day = day') ∧ r = r' := by
  simp only [dateText,List.append_assoc,List.cons_append,toDigits_eq_padded] at h
  obtain ⟨hyear,h⟩ := field_unique (by decide) h
  obtain ⟨hmonth,h⟩ := field_unique (by decide) h
  obtain ⟨hday,h⟩ := field_unique hc h
  exact ⟨⟨padded_injective _ hyear,padded_injective _ hmonth,padded_injective _ hday⟩,h⟩

theorem dateText_inj {year month day year' month' day' : ℕ} :
    dateText year month day = dateText year' month' day' ↔
      year = year' ∧ month = month' ∧ day = day' := by
  constructor
  · intro h
    have h' : dateText year month day ++ [' '] = dateText year' month' day' ++ [' '] := by rw [h]
    exact (dateText_append_unique (by decide) h').1
  · rintro ⟨rfl,rfl,rfl⟩
    rfl

theorem secondsText_eq (d : DateTime) :
    secondsText d = dateText d.year d.month d.day ++ ' ' :: (padded 2 d.hour ++ ':' ::
      (padded 2 d.minute ++ ':' :: padded 2 d.second)) := by
  simp [secondsText,dateText]

/-- Whole seconds with the same text are the same. -/
theorem secondsText_inj {d e : DateTime} (hd : d.microsecond = 0) (he : e.microsecond = 0) :
    secondsText d = secondsText e ↔ d = e := by
  constructor
  · intro h
    rw [secondsText_eq,secondsText_eq] at h
    obtain ⟨hdate,h⟩ := dateText_append_unique (by decide) h
    obtain ⟨hhour,h⟩ := field_unique (by decide) h
    obtain ⟨hminute,h⟩ := field_unique (by decide) h
    apply DateTime.instant_injective
    rw [DateTime.instant,DateTime.instant,DateTime.dayNumber_inj.2 hdate,DateTime.timeOfDay,
      DateTime.timeOfDay,padded_injective _ hhour,padded_injective _ hminute,
      padded_injective _ h,hd,he]
  · rintro rfl
    rfl

theorem instant_mod_second (d : DateTime) : d.instant % 1000000 = d.microsecond := by
  have hm := d.microsecond_lt
  rw [DateTime.instant,DateTime.timeOfDay,dayLength_eq]
  push_cast
  omega

end ClickHouseRegression.DateTime64
