import ClickHouseRegression.Text.Lines

/-! Decimal numerals: a sign, digits, a fraction and an exponent, as `str` writes a float and as SQL
reads a number. -/
namespace ClickHouseRegression.Text

/-- The number `digits * 10^exponent`. -/
structure Numeral where
  digits : ℤ
  exponent : ℤ
  deriving DecidableEq

def Numeral.value (n : Numeral) : ℚ := n.digits*10^n.exponent

def readNat (t : Text) : Option ℕ :=
  if t ≠ [] ∧ t.all Char.isDigit then some (Nat.ofDigitChars 10 t 0) else none

/-- Digits with an optional fraction. -/
def readFixed (t : Text) : Option Numeral :=
  match t.splitOn '.' with
  | [a] => (readNat a).map fun m : ℕ => ⟨m,0⟩
  | [a,b] => do
    let m ← readNat a
    let n ← readNat b
    return ⟨m*10^b.length+n,-b.length⟩
  | _ => none

def readMantissa : Text → Option Numeral
  | '-' :: t => (readFixed t).map fun n => ⟨-n.digits,n.exponent⟩
  | t => readFixed t

def readExponent : Text → Option ℤ
  | '-' :: t => (readNat t).map fun n : ℕ => -(n : ℤ)
  | '+' :: t => (readNat t).map fun n : ℕ => (n : ℤ)
  | t => (readNat t).map fun n : ℕ => (n : ℤ)

def readNumeral (t : Text) : Option Numeral :=
  match t.splitOn 'e' with
  | [m] => readMantissa m
  | [m,e] => do
    let n ← readMantissa m
    let k ← readExponent e
    return ⟨n.digits,n.exponent+k⟩
  | _ => none

/-- The characters of numerals. -/
def isNumeralChar (c : Char) : Bool := c.isDigit || c = '.' || c = '-' || c = '+' || c = 'e'

section
variable {t : Text}

theorem readNat_chars {n : ℕ} (h : readNat t = some n) : ∀ c ∈ t, isNumeralChar c = true := by
  unfold readNat at h
  split at h
  · rename_i hd
    intro c hc
    simp [isNumeralChar,List.all_eq_true.1 hd.2 c hc]
  · cases h

/-- Characters of a text that was cut at one of them. -/
theorem mem_of_splitOn {p : Char → Prop} {a : Char} (ha : p a) {ls : List Text} (h : t.splitOn a = ls)
    (hls : ∀ l ∈ ls, ∀ c ∈ l, p c) : ∀ c ∈ t, p c := by
  intro c hc
  have hjoin : List.intercalate [a] (t.splitOn a) = t := List.intercalate_splitOn a
  rw [← hjoin,h] at hc
  rcases mem_intercalate hc with hc | ⟨l,hl,hc⟩
  · rwa [List.mem_singleton.1 hc]
  · exact hls l hl c hc

theorem readFixed_chars {n : Numeral} (h : readFixed t = some n) : ∀ c ∈ t, isNumeralChar c = true := by
  unfold readFixed at h
  split at h
  · rename_i a hs
    obtain ⟨m,hm,-⟩ := Option.map_eq_some_iff.1 h
    exact mem_of_splitOn (by decide) hs (by simpa using readNat_chars hm)
  · rename_i a b hs
    obtain ⟨m,hm,h⟩ := Option.bind_eq_some_iff.1 h
    obtain ⟨k,hk,-⟩ := Option.bind_eq_some_iff.1 h
    refine mem_of_splitOn (by decide) hs ?_
    simp only [List.mem_cons,List.not_mem_nil,or_false,forall_eq_or_imp,forall_eq]
    exact ⟨readNat_chars hm,readNat_chars hk⟩
  · cases h

theorem readMantissa_chars {n : Numeral} (h : readMantissa t = some n) :
    ∀ c ∈ t, isNumeralChar c = true := by
  unfold readMantissa at h
  split at h
  · obtain ⟨m,hm,-⟩ := Option.map_eq_some_iff.1 h
    exact List.forall_mem_cons.2 ⟨by decide,readFixed_chars hm⟩
  · exact readFixed_chars h

theorem readExponent_chars {k : ℤ} (h : readExponent t = some k) : ∀ c ∈ t, isNumeralChar c = true := by
  unfold readExponent at h
  split at h
  · obtain ⟨m,hm,-⟩ := Option.map_eq_some_iff.1 h
    exact List.forall_mem_cons.2 ⟨by decide,readNat_chars hm⟩
  · obtain ⟨m,hm,-⟩ := Option.map_eq_some_iff.1 h
    exact List.forall_mem_cons.2 ⟨by decide,readNat_chars hm⟩
  · obtain ⟨m,hm,-⟩ := Option.map_eq_some_iff.1 h
    exact readNat_chars hm

theorem readNumeral_chars {n : Numeral} (h : readNumeral t = some n) : ∀ c ∈ t, isNumeralChar c = true := by
  unfold readNumeral at h
  split at h
  · rename_i m hs
    exact mem_of_splitOn (by decide) hs (by simpa using readMantissa_chars h)
  · rename_i m e hs
    obtain ⟨k,hk,h⟩ := Option.bind_eq_some_iff.1 h
    obtain ⟨j,hj,-⟩ := Option.bind_eq_some_iff.1 h
    refine mem_of_splitOn (by decide) hs ?_
    simp only [List.mem_cons,List.not_mem_nil,or_false,forall_eq_or_imp,forall_eq]
    exact ⟨readMantissa_chars hk,readExponent_chars hj⟩
  · cases h

theorem readNat_toDigits (n : ℕ) : readNat (Nat.toDigits 10 n) = some n := by
  have hd : Nat.toDigits 10 n ≠ [] ∧ (Nat.toDigits 10 n).all Char.isDigit = true :=
    ⟨Nat.toDigits_ne_nil,
      List.all_eq_true.2 fun c hc => Nat.isDigit_of_mem_toDigits (by decide) le_rfl hc⟩
  rw [readNat,if_pos hd,Nat.ofDigitChars_toDigits (by decide) le_rfl]

theorem readExponent_str (n : ℕ) : readExponent (str n) = some (n : ℤ) := by
  have hdigit : ∀ c ∈ Nat.toDigits 10 n, c.isDigit = true :=
    fun c hc => Nat.isDigit_of_mem_toDigits (by decide) le_rfl hc
  change readExponent (Nat.toDigits 10 n) = _
  unfold readExponent
  split
  · rename_i he
    exact absurd (hdigit '-' (by simp [he])) (by decide)
  · rename_i he
    exact absurd (hdigit '+' (by simp [he])) (by decide)
  · rw [readNat_toDigits]
    rfl

/-- An exponent behind a numeral; behind another exponent it is none. -/
theorem readNumeral_exponent {n : Numeral} {k : ℕ} (h : readNumeral (t ++ 'e' :: str k) = some n) :
    ∃ m, readNumeral t = some m ∧ n.value = m.value*10^k := by
  have hk : (str k).splitOn 'e' = [str k] := by
    refine List.splitOn_eq_singleton fun he => ?_
    rcases str_chars k he with h | h
    · exact absurd h (by decide)
    · exact absurd h (by decide)
  unfold readNumeral at h ⊢
  rw [List.splitOn_append_cons_self,hk] at h
  match hs : t.splitOn 'e' with
  | [] => exact absurd hs (List.splitOn_ne_nil 'e' t)
  | [m] =>
    rw [hs] at h
    obtain ⟨q,hq,h⟩ := Option.bind_eq_some_iff.1 h
    obtain ⟨j,hj,h⟩ := Option.bind_eq_some_iff.1 h
    rw [readExponent_str] at hj
    cases hj
    cases h
    refine ⟨q,hq,?_⟩
    rw [Numeral.value,Numeral.value,zpow_add₀ (by norm_num),zpow_natCast,mul_assoc]
  | m :: e :: [] =>
    rw [hs] at h
    cases h
  | m :: e :: f :: ls =>
    rw [hs] at h
    cases h

end

end ClickHouseRegression.Text
