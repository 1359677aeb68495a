import ClickHouseRegression.Text

/-! The helper `hex` of the AES suite: every element is formatted with `%X` on its own and the
digits are put one after the other. -/
namespace ClickHouseRegression.AesEncryption

/-- `"%X" % n`. -/
def upperHex (n : ℕ) : Text := (Nat.toDigits 16 n).map Char.toUpper

/-- The built-in `hex`, kept as `_hex`. -/
def builtinHex : ℤ → Text
  | .ofNat n => "0x".toList ++ Nat.toDigits 16 n
  | .negSucc n => "-0x".toList ++ Nat.toDigits 16 (n+1)

/-- What `hex` is called with. -/
inductive HexArg
  | str (s : Text)
  | bytes (s : List UInt8)
  | int (n : ℤ)

def hex : HexArg → Text
  | .str s => (s.map fun c => upperHex c.toNat).flatten
  | .bytes s => (s.map fun c => upperHex c.toNat).flatten
  | .int n => builtinHex n

/-- A hexadecimal digit and its value. -/
def digitValue (c : Char) : Option ℕ :=
  if '0' ≤ c ∧ c ≤ '9' then some (c.toNat-48)
  else if 'A' ≤ c ∧ c ≤ 'F' then some (c.toNat-55)
  else if 'a' ≤ c ∧ c ≤ 'f' then some (c.toNat-87)
  else none

/-- Pairs of digits read as numbers. -/
def unhex : Text → Option (List ℕ)
  | [] => some []
  | [_] => none
  | a :: b :: rest => do
    let high ← digitValue a
    let low ← digitValue b
    let values ← unhex rest
    return (16*high+low) :: values

/-- A string of code points below 256 or a byte string. -/
inductive Data
  | str (s : Text) (narrow : ∀ c ∈ s, c.toNat < 256)
  | bytes (s : List UInt8)

namespace Data

def arg : Data → HexArg
  | str s _ => .str s
  | bytes s => .bytes s

def elements : Data → List ℕ
  | str s _ => s.map Char.toNat
  | bytes s => s.map UInt8.toNat

theorem hex_arg (d : Data) : hex d.arg = (d.elements.map upperHex).flatten := by
  cases d with
  | str s _ => simp only [arg,hex,elements,List.map_map,Function.comp_def]
  | bytes s => simp only [arg,hex,elements,List.map_map,Function.comp_def]

theorem elements_lt (d : Data) : ∀ n ∈ d.elements, n < 256 := by
  intro n hn
  cases d with
  | str s narrow =>
    obtain ⟨c,hc,rfl⟩ := List.mem_map.1 hn
    exact narrow c hc
  | bytes s =>
    obtain ⟨b,-,rfl⟩ := List.mem_map.1 hn
    exact b.toNat_lt

end Data

theorem digitValue_toUpper {d : ℕ} (h : d < 16) : digitValue (Nat.digitChar d).toUpper = some d := by
  have hall : ∀ d < 16, digitValue (Nat.digitChar d).toUpper = some d := by decide
  exact hall d h

/-- A small number is written with one digit. -/
theorem upperHex_small {n : ℕ} (h : n < 16) : upperHex n = [(Nat.digitChar n).toUpper] := by
  rw [upperHex,Nat.toDigits_of_lt_base h]
  rfl

theorem upperHex_pair {n : ℕ} (h : 16 ≤ n) (hn : n < 256) :
    upperHex n = [(Nat.digitChar (n/16)).toUpper,(Nat.digitChar (n%16)).toUpper] := by
  rw [upperHex,Nat.toDigits_of_base_le (by decide) h,Nat.toDigits_of_lt_base (by omega)]
  rfl

/-- One step of the decoding, over a number that takes two digits. -/
theorem unhex_upperHex_append {n : ℕ} (h : 16 ≤ n) (hn : n < 256) (rest : Text) :
    unhex (upperHex n ++ rest) = (unhex rest).map (n :: ·) := by
  have hvalue : 16*(n/16)+n%16 = n := by omega
  rw [upperHex_pair h hn]
  simp only [List.cons_append,List.nil_append,unhex,digitValue_toUpper (show n/16 < 16 by omega),
    digitValue_toUpper (show n%16 < 16 by omega)]
  cases unhex rest with
  | none => rfl
  | some values => exact congrArg (fun m => some (m :: values)) hvalue

section
variable {ns : List ℕ} (hns : ∀ n ∈ ns, n < 256)
include hns

theorem flatten_length_le : (ns.map upperHex).flatten.length ≤ 2*ns.length := by
  induction ns with
  | nil => simp
  | cons n ns ih =>
    have htail := ih fun m hm => hns m (List.mem_cons_of_mem n hm)
    have hhead : (upperHex n).length ≤ 2 := by
      rcases Nat.lt_or_ge n 16 with h | h
      · simp [upperHex_small h]
      · simp [upperHex_pair h (hns n List.mem_cons_self)]
    simp only [List.map_cons,List.flatten_cons,List.length_append,List.length_cons]
    omega

/-- One element below 16 leaves the text a digit short. -/
theorem flatten_length_lt {m : ℕ} (hm : m ∈ ns) (h : m < 16) :
    (ns.map upperHex).flatten.length < 2*ns.length := by
  obtain ⟨a,b,rfl⟩ := List.append_of_mem hm
  have ha : (a.map upperHex).flatten.length ≤ 2*a.length :=
    flatten_length_le fun n hn => hns n (List.mem_append_left _ hn)
  have hb : (b.map upperHex).flatten.length ≤ 2*b.length := flatten_length_le fun n hn =>
    hns n (List.mem_append_right a (List.mem_cons_of_mem m hn))
  simp only [List.map_append,List.map_cons,List.flatten_append,List.flatten_cons,List.length_append,
    List.length_cons,upperHex_small h,List.length_nil]
  omega

variable (hwide : ∀ n ∈ ns, 16 ≤ n)
include hwide

theorem flatten_length_eq : (ns.map upperHex).flatten.length = 2*ns.length := by
  induction ns with
  | nil => rfl
  | cons n ns ih =>
    have htail := ih (fun m hm => hns m (List.mem_cons_of_mem n hm))
      fun m hm => hwide m (List.mem_cons_of_mem n hm)
    simp only [List.map_cons,List.flatten_cons,List.length_append,List.length_cons,htail,
      upperHex_pair (hwide n List.mem_cons_self) (hns n List.mem_cons_self),List.length_nil]
    omega

theorem unhex_flatten : unhex (ns.map upperHex).flatten = some ns := by
  induction ns with
  | nil => rfl
  | cons n ns ih =>
    have htail := ih (fun m hm => hns m (List.mem_cons_of_mem n hm))
      fun m hm => hwide m (List.mem_cons_of_mem n hm)
    rw [List.map_cons,List.flatten_cons,
      unhex_upperHex_append (hwide n List.mem_cons_self) (hns n List.mem_cons_self),htail]
    rfl

theorem flatten_digits : ∀ c ∈ (ns.map upperHex).flatten, (digitValue c).isSome = true := by
  intro c hc
  obtain ⟨l,hl,hc⟩ := List.mem_flatten.1 hc
  obtain ⟨n,hn,rfl⟩ := List.mem_map.1 hl
  have hlt := hns n hn
  rw [upperHex_pair (hwide n hn) hlt] at hc
  simp only [List.mem_cons,List.not_mem_nil,or_false] at hc
  rcases hc with rfl | rfl
  · rw [digitValue_toUpper (by omega)]
    rfl
  · rw [digitValue_toUpper (by omega)]
    rfl

end

/-- Two digits for each element, which decode to the input. -/
structure Decodes (d : Data) : Prop where
  digits : ∀ c ∈ hex d.arg, (digitValue c).isSome = true
  two : (hex d.arg).length = 2*d.elements.length
  back : unhex (hex d.arg) = some d.elements

theorem unhex_hex (d : Data) (hwide : ∀ n ∈ d.elements, 16 ≤ n) : unhex (hex d.arg) = some d.elements := by
  rw [d.hex_arg]
  exact unhex_flatten d.elements_lt hwide

/-- The text decodes exactly if every element takes two digits, and among such inputs it determines
the elements. -/
theorem hex_decodes_iff (d : Data) :
    (Decodes d ↔ ∀ n ∈ d.elements, 16 ≤ n) ∧
      ((∀ n ∈ d.elements, 16 ≤ n) → ∀ d' : Data, (∀ n ∈ d'.elements, 16 ≤ n) →
        hex d.arg = hex d'.arg → d.elements = d'.elements) := by
  refine ⟨⟨fun h n hn => ?_,fun hwide => ⟨?_,?_,unhex_hex d hwide⟩⟩,?_⟩
  · by_contra hsmall
    have hlen := h.two
    rw [d.hex_arg] at hlen
    exact absurd hlen (flatten_length_lt d.elements_lt hn (Nat.lt_of_not_le hsmall)).ne
  · rw [d.hex_arg]
    exact flatten_digits d.elements_lt hwide
  · rw [d.hex_arg]
    exact flatten_length_eq d.elements_lt hwide
  · intro hd d' hd' heq
    refine Option.some.inj ?_
    rw [← unhex_hex d hd,heq,unhex_hex d' hd']

theorem hex_decodes_hello :
    Decodes (.bytes [104,101,108,108,111]) ∧
      (Data.bytes [104,101,108,108,111]).elements = (Data.str "hello".toList (by simp)).elements :=
  ⟨(hex_decodes_iff _).1.2 (by decide +kernel),
    (hex_decodes_iff _).2 (by decide +kernel) _ (by decide +kernel) (by decide +kernel)⟩

/-- Two byte strings with one text, which has an odd number of digits. -/
theorem hex_not_injective :
    ¬ Decodes (.bytes [1,17]) ∧ hex (.bytes [1,17]) = "111".toList ∧
      hex (.bytes [1,17]) = hex (.bytes [17,1]) := by
  refine ⟨fun h => ?_,by rfl,by rfl⟩
  have hlen := h.two
  revert hlen
  decide +kernel

end ClickHouseRegression.AesEncryption
