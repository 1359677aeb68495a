import ClickHouseRegression.Text

/-! The guards of `to_int_8_16_32_64_128_256`, `to_uint_8_16_32_64_256` and
`to_decimal_32_64_128_256`, which decide for a timestamp whether the conversion is asked for at all.
The conversions of `numpy` are a parameter; they may raise. -/
namespace ClickHouseRegression.DateTime64

inductive IntType
  | int8
  | int16
  | int32
  | int64
  | int128
  | int256
  deriving DecidableEq

inductive UIntType
  | uint8
  | uint16
  | uint32
  | uint64
  | uint256
  deriving DecidableEq

inductive DecimalType
  | decimal32
  | decimal64
  | decimal128
  | decimal256
  deriving DecidableEq

def IntType.bits : IntType → ℕ
  | int8 => 8
  | int16 => 16
  | int32 => 32
  | int64 => 64
  | int128 => 128
  | int256 => 256

def UIntType.bits : UIntType → ℕ
  | uint8 => 8
  | uint16 => 16
  | uint32 => 32
  | uint64 => 64
  | uint256 => 256

namespace DecimalType

def bits : DecimalType → ℕ
  | decimal32 => 32
  | decimal64 => 64
  | decimal128 => 128
  | decimal256 => 256

/-- The dictionary `scales`. -/
def scales : DecimalType → ℕ
  | decimal32 => 9
  | decimal64 => 18
  | decimal128 => 38
  | decimal256 => 76

end DecimalType

/-- A target type; the scales of a decimal are `range(scales[decimal_type])`. -/
inductive Target
  | int (t : IntType)
  | uint (t : UIntType)
  | decimal (t : DecimalType) (scale : Fin t.scales)

/-- The query that is executed, and the output it is compared with. -/
structure Check where
  query : Text
  expected : Text
  deriving DecidableEq

/-- `toDateTime64('{dt_str}', 0, '{tz}')`. -/
def toDateTime64 (dtStr tz : Text) : Text :=
  "toDateTime64('".toList ++ dtStr ++ "', 0, '".toList ++ tz ++ "')".toList

/-- Both spellings of a conversion. -/
def conversionQuery (cast : Bool) (value castType function : Text) : Text :=
  if cast then "SELECT cast(".toList ++ value ++ ", '".toList ++ castType ++ "')".toList
  else "SELECT ".toList ++ function ++ "(".toList ++ value ++ ")".toList

section
variable {ε : Type} (numpy : Text → ℤ → Except ε ℤ)

/-- `exec` runs the code and returns `None`. -/
def exec (code : Except ε ℤ) : Except ε (Option ℤ) := code.map fun _ => none

/-- The scenarios for integers: `fits` are the types into which all dates fit, and `None` is never
equal to a number. -/
def integerCheck (fits : Bool) (name : Text) (bits : ℕ) (cast : Bool) (dtStr tz : Text) (pyRes : ℤ) :
    Except ε (Option Check) := do
  let npRes ← if !fits then exec (numpy ("np.".toList ++ name.map Char.toLower ++ str bits) pyRes)
    else pure (some pyRes)
  if npRes = some pyRes then
    return some ⟨conversionQuery cast (toDateTime64 dtStr tz) (name ++ str bits)
      ("to".toList ++ name ++ str bits),str pyRes⟩
  else return none

def toIntCheck (intType : IntType) (cast : Bool) (dtStr tz : Text) (pyRes : ℤ) :
    Except ε (Option Check) :=
  integerCheck numpy (intType.bits = 128 || intType.bits = 256) "Int".toList intType.bits cast dtStr tz
    pyRes

def toUIntCheck (intType : UIntType) (cast : Bool) (dtStr tz : Text) (pyRes : ℤ) :
    Except ε (Option Check) :=
  integerCheck numpy (intType.bits = 256) "UInt".toList intType.bits cast dtStr tz pyRes

def validDecimalRange (t : DecimalType) (scale : ℕ) : ℤ :=
  match t with
  | .decimal32 => -1*10^(9-scale)
  | .decimal64 => -1*10^(18-scale)
  | .decimal128 => -1*10^(38-scale)
  | .decimal256 => -1*10^(76-scale)

def toDecimalCheck (t : DecimalType) (scale : Fin t.scales) (cast : Bool) (dtStr tz : Text)
    (expected : ℤ) : Option Check :=
  let validRange := validDecimalRange t scale
  if -validRange < expected ∧ expected < validRange then
    some ⟨conversionQuery cast (toDateTime64 dtStr tz)
      ("Decimal(".toList ++ str t.bits ++ ", ".toList ++ str scale ++ ")".toList)
      ("toDecimal".toList ++ str t.bits),str expected⟩
  else none

/-- What a scenario does with a timestamp and a target type. -/
def Target.check (cast : Bool) (dtStr tz : Text) (v : ℤ) : Target → Except ε (Option Check)
  | int t => toIntCheck numpy t cast dtStr tz v
  | uint t => toUIntCheck numpy t cast dtStr tz v
  | decimal t scale => .ok (toDecimalCheck t scale cast dtStr tz v)

/-- The conversion is executed. -/
def Target.Executed (cast : Bool) (dtStr tz : Text) (v : ℤ) (target : Target) : Prop :=
  ∃ check, target.check numpy cast dtStr tz v = .ok (some check)

end

/-- The value is in the range of the type. -/
def Target.Represents (v : ℤ) : Target → Prop
  | int t => -2^(t.bits-1) ≤ v ∧ v < 2^(t.bits-1)
  | uint t => 0 ≤ v ∧ v < 2^t.bits
  | decimal t scale => -10^(t.scales-scale) < v ∧ v < 10^(t.scales-scale)

/-- `Int128`, `Int256` and `UInt256`. -/
def Target.unguarded : Target → Bool
  | int .int128 => true
  | int .int256 => true
  | uint .uint256 => true
  | _ => false

section
variable {ε : Type} (numpy : Text → ℤ → Except ε ℤ)

/-- The check for integers is made exactly for the types that are not looked at. -/
theorem integerCheck_executed (fits : Bool) (name : Text) (bits : ℕ) (cast : Bool) (dtStr tz : Text)
    (v : ℤ) :
    (∃ check, integerCheck numpy fits name bits cast dtStr tz v = .ok (some check)) ↔
      fits = true := by
  unfold integerCheck
  cases fits with
  | false =>
    -- whatever `numpy` does, `exec` gives no number
    cases numpy ("np.".toList ++ name.map Char.toLower ++ str bits) v with
    | error e => simp [exec,Except.map,bind,Except.bind]
    | ok n => simp [exec,Except.map,bind,Except.bind,pure,Except.pure]
  | true => simp [bind,Except.bind,pure,Except.pure]

theorem validDecimalRange_eq (t : DecimalType) (scale : ℕ) :
    validDecimalRange t scale = -10^(t.scales-scale) := by
  cases t <;> exact neg_one_mul _

/-- The bounds are the wrong way round, so that no number is between them. -/
theorem toDecimalCheck_eq_none (t : DecimalType) (scale : Fin t.scales) (cast : Bool)
    (dtStr tz : Text) (v : ℤ) : toDecimalCheck t scale cast dtStr tz v = none := by
  have hpos : (0 : ℤ) < 10^(t.scales-scale) := pow_pos (by decide) _
  have hrange := validDecimalRange_eq t scale
  rw [toDecimalCheck,if_neg]
  omega

/-- Whether a conversion is executed depends on the type alone. -/
theorem executed_iff (cast : Bool) (dtStr tz : Text) (v : ℤ) (target : Target) :
    target.Executed numpy cast dtStr tz v ↔ target.unguarded = true := by
  cases target with
  | int t =>
    refine (integerCheck_executed numpy _ _ _ cast dtStr tz v).trans ?_
    cases t <;> decide
  | uint t =>
    refine (integerCheck_executed numpy _ _ _ cast dtStr tz v).trans ?_
    cases t <;> decide
  | decimal t scale =>
    simp [Target.Executed,Target.check,toDecimalCheck_eq_none,Target.unguarded]

/-- For every timestamp and every target type, the guard admits exactly the values of the type if
the type is unguarded and has the value, or is guarded and does not have it. -/
theorem guard_exact_iff (cast : Bool) (dtStr tz : Text) (v : ℤ) (target : Target) :
    (target.Executed numpy cast dtStr tz v ↔ target.Represents v) ↔
      (target.unguarded = true ∧ target.Represents v ∨
        target.unguarded = false ∧ ¬ target.Represents v) := by
  rw [executed_iff]
  cases target.unguarded with
  | false => simp
  | true => simp

end

/-- With conversions that keep the value 0 it is converted to none of `Int64`, `UInt64` and
`Decimal32(0)`; and `UInt256` is asked for -1. -/
theorem guard_zero :
    let numpy : Text → ℤ → Except Unit ℤ := fun _ v => .ok v
    (∀ cast dtStr tz, ¬ (Target.int .int64).Executed numpy cast dtStr tz 0 ∧
      ¬ (Target.uint .uint64).Executed numpy cast dtStr tz 0 ∧
      ¬ (Target.decimal .decimal32 ⟨0,by decide⟩).Executed numpy cast dtStr tz 0 ∧
      (Target.uint .uint256).Executed numpy cast dtStr tz (-1)) ∧
    (Target.int .int64).Represents 0 ∧ (Target.uint .uint64).Represents 0 ∧
      (Target.decimal .decimal32 ⟨0,by decide⟩).Represents 0 ∧
      ¬ (Target.uint .uint256).Represents (-1) := by
  refine ⟨?_,by simp [Target.Represents],by simp [Target.Represents],by simp [Target.Represents],
    by simp [Target.Represents]⟩
  intro cast dtStr tz
  simp only [executed_iff]
  decide

end ClickHouseRegression.DateTime64
