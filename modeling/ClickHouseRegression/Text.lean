import Mathlib

/-! Python strings as lists of code points, with the few operations the harness
uses on them: the substring test, concatenation with a separator, and whitespace. -/
namespace ClickHouseRegression

abbrev Text := List Char

namespace Text

instance lawfulBEq : LawfulBEq Text := List.instLawfulBEq

/-- The substring test `sub in s`. -/
def contains (s sub : Text) : Bool := decide (sub <:+: s)

@[simp] theorem contains_iff (s sub : Text) : s.contains sub = true ↔ sub <:+: s := by
  simp [contains]

theorem contains_append_right (a b : Text) : (a ++ b).contains b = true := by
  simpa using (List.suffix_append a b).isInfix

theorem contains_append_left (a b : Text) : (a ++ b).contains a = true := by
  simpa using (List.prefix_append a b).isInfix

theorem contains_self (a : Text) : a.contains a = true := by
  simp

/-- Truth value of an optional string: `None` and the empty string are false. -/
def truthy : Option Text → Bool
  | none => false
  | some s => !s.isEmpty

/-- `n * t`. -/
def times (n : ℕ) (t : Text) : Text := (List.replicate n t).flatten

/-- The code points for which `str.isspace` holds. -/
def isSpace (c : Char) : Bool :=
  let n := c.toNat
  (9 ≤ n && n ≤ 13) || (28 ≤ n && n ≤ 32) || n = 0x85 || n = 0xA0 || n = 0x1680 ||
    (0x2000 ≤ n && n ≤ 0x200A) || n = 0x2028 || n = 0x2029 || n = 0x202F || n = 0x205F || n = 0x3000

/-- `t.strip()`. -/
def strip (t : Text) : Text := ((t.dropWhile isSpace).reverse.dropWhile isSpace).reverse

theorem strip_eq_nil_iff (t : Text) : t.strip = [] ↔ ∀ c ∈ t, isSpace c = true := by
  constructor
  · intro h
    have hd : ∀ c ∈ t.dropWhile isSpace, isSpace c = true := by
      intro c hc
      exact List.dropWhile_eq_nil_iff.1 (List.reverse_eq_nil_iff.1 h) c (List.mem_reverse.2 hc)
    intro c hc
    rw [← List.takeWhile_append_dropWhile (p := isSpace) (l := t)] at hc
    rcases List.mem_append.1 hc with hc | hc
    · exact List.mem_takeWhile_imp hc
    · exact hd c hc
  · intro h
    rw [strip,List.dropWhile_eq_nil_iff.2 h]
    rfl

theorem times_strip (n : ℕ) {t : Text} (h : t.strip = []) : (times n t).strip = [] := by
  rw [strip_eq_nil_iff] at h ⊢
  intro c hc
  obtain ⟨l,hl,hc⟩ := List.mem_flatten.1 hc
  rw [List.eq_of_mem_replicate hl] at hc
  exact h c hc

theorem append_strip {a b : Text} (ha : a.strip = []) (hb : b.strip = []) :
    (a ++ b).strip = [] := by
  rw [strip_eq_nil_iff] at ha hb ⊢
  intro c hc
  rcases List.mem_append.1 hc with hc | hc
  · exact ha c hc
  · exact hb c hc

end Text

/-- `str` of an integer. -/
def str : ℤ → Text
  | .ofNat n => Nat.toDigits 10 n
  | .negSucc n => '-' :: Nat.toDigits 10 (n+1)

theorem str_injective : Function.Injective str := by
  have hdigits : ∀ a b : ℕ, Nat.toDigits 10 a = Nat.toDigits 10 b → a = b := by
    intro a b h
    rw [← Nat.ofDigitChars_toDigits (by decide : 1 < 10) le_rfl (n := a),h,
      Nat.ofDigitChars_toDigits (by decide) le_rfl]
  have hminus : ∀ n : ℕ, ∀ t, Nat.toDigits 10 n ≠ '-' :: t := by
    intro n t h
    have hd : Char.isDigit '-' = true :=
      Nat.isDigit_of_mem_toDigits (by decide) le_rfl (h ▸ List.mem_cons_self)
    exact absurd hd (by decide)
  intro a b h
  cases a with
  | ofNat a =>
    cases b with
    | ofNat b => exact congrArg Int.ofNat (hdigits a b h)
    | negSucc b => exact absurd h (hminus a _)
  | negSucc a =>
    cases b with
    | ofNat b => exact absurd h.symm (hminus b _)
    | negSucc b =>
      have h' := hdigits (a+1) (b+1) (List.cons.inj h).2
      exact congrArg Int.negSucc (by omega)

theorem str_chars (n : ℤ) {c : Char} (h : c ∈ str n) : c = '-' ∨ c.isDigit = true := by
  cases n with
  | ofNat n => exact .inr (Nat.isDigit_of_mem_toDigits (by decide) le_rfl h)
  | negSucc n =>
    rcases List.mem_cons.1 h with rfl | h
    · exact .inl rfl
    · exact .inr (Nat.isDigit_of_mem_toDigits (by decide) le_rfl h)

end ClickHouseRegression
