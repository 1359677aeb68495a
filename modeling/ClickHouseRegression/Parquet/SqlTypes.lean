import ClickHouseRegression.Helpers.Literals
import ClickHouseRegression.Text.Decimal

/-! Values in the three databases. ClickHouse is given by what its documentation says about the texts of
values; the columns of MySQL and PostgreSQL by the ranges that theirs give for each type. -/
namespace ClickHouseRegression.Parquet
open Helpers Text Sql

/-- A date and a time of day. -/
structure Moment where
  year : ℕ
  month : ℕ
  day : ℕ
  hour : ℕ
  minute : ℕ
  second : ℕ
  nanosecond : ℕ
  deriving DecidableEq

/-- The first `precision` digits of the fraction. -/
def Moment.truncate (m : Moment) (precision : ℕ) : Moment :=
  { m with nanosecond := m.nanosecond/10^(9-precision)*10^(9-precision) }

/-- `YYYY-MM-DD`. -/
def readDate (t : Text) : Option (ℕ × ℕ × ℕ) :=
  match t.splitOn '-' with
  | [y,m,d] => do
    let year ← readNat y
    let month ← readNat m
    let day ← readNat d
    return (year,month,day)
  | _ => none

/-- `ss` or `ss.f`, with a fraction of at most nine digits; in nanoseconds. -/
def readSeconds (t : Text) : Option (ℕ × ℕ) :=
  match t.splitOn '.' with
  | [s] => (readNat s).map (·,0)
  | [s,f] =>
    if f.length ≤ 9 then do
      let second ← readNat s
      let digits ← readNat f
      return (second,digits*10^(9-f.length))
    else none
  | _ => none

/-- `YYYY-MM-DD hh:mm:ss`, with an optional fraction. -/
def readMoment (t : Text) : Option Moment :=
  match t.splitOn ' ' with
  | [date,time] =>
    match time.splitOn ':' with
    | [h,m,s] => do
      let (year,month,day) ← readDate date
      let hour ← readNat h
      let minute ← readNat m
      let (second,nanosecond) ← readSeconds s
      return ⟨year,month,day,hour,minute,second,nanosecond⟩
    | _ => none
  | _ => none

/-- A binary floating point format: the width of the significand and the range of the exponent. -/
structure FloatFormat where
  width : ℕ
  least : ℤ
  greatest : ℤ

namespace FloatFormat

def binary32 : FloatFormat := ⟨24,-149,104⟩

def binary64 : FloatFormat := ⟨53,-1074,971⟩

/-- The finite numbers of the format. -/
def Contains (f : FloatFormat) (q : ℚ) : Prop :=
  ∃ m e : ℤ, |m| < 2^f.width ∧ f.least ≤ e ∧ e ≤ f.greatest ∧ q = m*2^e

/-- Smaller numbers round to a finite number, larger ones to an infinite one: the largest number of the
format and half a unit in its last place. -/
def overflow (f : FloatFormat) : ℚ := (2^f.width-1/2)*2^f.greatest

theorem Contains.wider {f g : FloatFormat} {q : ℚ} (hw : f.width ≤ g.width) (hl : g.least ≤ f.least)
    (hg : f.greatest ≤ g.greatest) (h : f.Contains q) : g.Contains q := by
  obtain ⟨m,e,hm,hle,hge,hq⟩ := h
  refine ⟨m,e,hm.trans_le ?_,hl.trans hle,hge.trans hg,hq⟩
  exact pow_le_pow_right₀ (by norm_num) hw

end FloatFormat

inductive Value
  | null
  | int (n : ℤ)
  | real (q : ℚ)
  | infinite (negative : Bool)
  | nan
  | date (year month day : ℕ)
  | dateTime (m : Moment)
  | bytes (b : List UInt8)
  | array (vs : List Value)

/-- The values of a floating point type. -/
def Value.IsFloat (f : FloatFormat) (v : Value) : Prop :=
  (∃ q, v = .real q ∧ f.Contains q) ∨ (∃ s, v = .infinite s) ∨ v = .nan

theorem Value.IsFloat.contains {f : FloatFormat} {q : ℚ} (h : Value.IsFloat f (.real q)) : f.Contains q := by
  rcases h with ⟨q',hq,hc⟩ | ⟨s,hs⟩ | hn
  · cases hq
    exact hc
  · cases hs
  · cases hn

/-- The integers of so many bits. -/
def Value.IsInteger (bits : ℕ) (unsigned : Bool) (v : Value) : Prop :=
  ∃ n, v = .int n ∧ if unsigned then 0 ≤ n ∧ n < 2^bits else -2^(bits-1) ≤ n ∧ n < 2^(bits-1)

/-- The bytes of a text in ASCII. -/
def ascii (t : Text) : List UInt8 := t.map fun c => c.toNat.toUInt8

/-- The longest `FixedString`. -/
def fixedStringLimit : ℤ := 0xFFFFFF

/-- What the documentation of ClickHouse says about the texts that `datatypes.py` writes: `Denotes d t v`
if the text `t`, given for a column of the type `d`, stores the value `v`. -/
structure Server where
  Denotes : DataType → Text → Value → Prop
  nullable_null : ∀ d v, Denotes (.nullable d) "Null".toList v ↔ v = .null
  nullable_value : ∀ d t v, t ≠ "Null".toList → (Denotes (.nullable d) t v ↔ Denotes d t v)
  lowCardinality : ∀ d t v, Denotes (.lowCardinality d) t v ↔ Denotes d t v
  /-- An array literal with one element. -/
  array : ∀ d t v, Whole t → t ≠ [] →
    (Denotes (.array d) ('[' :: (t ++ [']'])) v ↔ ∃ w, Denotes d t w ∧ v = .array [w])
  int_range : ∀ k t v, Denotes (.leaf (.int k)) t v → ∃ n, v = .int n ∧ k.min ≤ n ∧ n ≤ k.max
  int_value : ∀ (k : IntType) n, k.min ≤ n → n ≤ k.max →
    Denotes (.leaf (.int k)) ((Leaf.int k).convert (str n)) (.int n)
  float32_range : ∀ t v, Denotes (.leaf .float32) t v → v.IsFloat .binary32
  float64_range : ∀ t v, Denotes (.leaf .float64) t v → v.IsFloat .binary64
  /-- A numeral is rounded to the type. -/
  float32_finite : ∀ x n v, readNumeral x = some n → |n.value| < FloatFormat.binary32.overflow →
    Denotes (.leaf .float32) (Leaf.float32.convert x) v → ∃ q, v = .real q
  float64_finite : ∀ x n v, readNumeral x = some n → |n.value| < FloatFormat.binary64.overflow →
    Denotes (.leaf .float64) (Leaf.float64.convert x) v → ∃ q, v = .real q
  /-- A numeral with a second exponent is not an expression. -/
  float64_numeral : ∀ x n k v, readNumeral x = some n →
    Denotes (.leaf .float64) (Leaf.float64.convert (x ++ "e".toList ++ str k)) v →
    ∃ m, readNumeral (x ++ "e".toList ++ str k) = some m
  date_range : ∀ t v, Denotes (.leaf .date) t v →
    ∃ y m d, v = .date y m d ∧ 1970 ≤ y ∧ y ≤ 2149
  date32_range : ∀ t v, Denotes (.leaf .date32) t v →
    ∃ y m d, v = .date y m d ∧ 1900 ≤ y ∧ y ≤ 2299
  /-- Time zones west of Greenwich see the end of 1969. -/
  dateTime_range : ∀ t v, Denotes (.leaf .dateTime) t v →
    ∃ m, v = .dateTime m ∧ 1969 ≤ m.year ∧ m.year ≤ 2106 ∧ m.nanosecond = 0
  dateTime64_range : ∀ p b t v, Denotes (.leaf (.dateTime64 p b)) t v →
    0 ≤ p ∧ p ≤ 9 ∧ ∃ m, v = .dateTime m ∧ 1900 ≤ m.year ∧ m.year ≤ 2299 ∧ m.nanosecond < 10^9 ∧
      m.truncate p.toNat = m
  /-- The limits of the type, given as text or converted from it. -/
  dateTime64_limit : ∀ p b t m v, 0 ≤ p → p ≤ 9 →
    quote t = (Leaf.dateTime64 p b).max ∨ quote t = (Leaf.dateTime64 p b).min → readMoment t = some m →
    (Denotes (.leaf (.dateTime64 p b)) ((Leaf.dateTime64 p b).limitValue (quote t)) v ↔
        v = .dateTime (m.truncate p.toNat)) ∧
      (Denotes (.leaf (.dateTime64 p b)) (quote t) v ↔ v = .dateTime (m.truncate p.toNat))
  /-- A number of seconds since 1970. -/
  dateTime64_seconds : ∀ p b (n : ℤ) v,
    Denotes (.leaf (.dateTime64 p b)) (call "toDateTime64".toList (str n ++ ",".toList ++ str p)) v →
    ∃ m, v = .dateTime m ∧ m.nanosecond = 0
  string_value : ∀ t v, (∀ c ∈ t, c.isAlphanum = true) →
    (Denotes (.leaf .string) (quote t) v ↔ v = .bytes (ascii t)) ∧
      (Denotes (.leaf .string) (Leaf.string.convert (quote t)) v ↔ v = .bytes (ascii t))
  fixedString_range : ∀ n t v, Denotes (.leaf (.fixedString n)) t v →
    1 ≤ n ∧ n ≤ fixedStringLimit ∧ ∃ b, v = .bytes b ∧ b.length = n.toNat
  /-- The empty text is filled up with null bytes. -/
  fixedString_empty : ∀ n, 1 ≤ n → n ≤ fixedStringLimit →
    Denotes (.leaf (.fixedString n)) (quote []) (.bytes (List.replicate n.toNat 0))

/-- A source of random numbers whose random floats lie between the bounds. -/
structure FloatSource extends RandomSource where
  uniform_mem : ∀ lo hi s a b, readNumeral lo = some a → readNumeral hi = some b → a.value ≤ b.value →
    ∃ n, readNumeral (uniform lo hi s).1 = some n ∧ a.value ≤ n.value ∧ n.value ≤ b.value

inductive MySqlType
  | tinyint (unsigned : Bool)
  | smallint (unsigned : Bool)
  | int (unsigned : Bool)
  | bigint (unsigned : Bool)
  | double
  | blob
  | datetime
  | date
  deriving DecidableEq

namespace MySqlType

/-- An integer type by its name. -/
def integerText (base : Text) (unsigned : Bool) : Text :=
  base ++ if unsigned then " UNSIGNED".toList else " SIGNED".toList

def text : MySqlType → Text
  | tinyint u => integerText "TINYINT".toList u
  | smallint u => integerText "SMALLINT".toList u
  | int u => integerText "INT".toList u
  | bigint u => integerText "BIGINT".toList u
  | double => "DOUBLE".toList
  | blob => "BLOB".toList
  | datetime => "DATETIME".toList
  | date => "DATE".toList

/-- The values of a type: `DOUBLE` has no infinities, `DATETIME` no fractions, and both date types have
the years from 1000 to 9999. -/
def Represents : MySqlType → Value → Prop
  | tinyint u,v => v.IsInteger 8 u
  | smallint u,v => v.IsInteger 16 u
  | int u,v => v.IsInteger 32 u
  | bigint u,v => v.IsInteger 64 u
  | double,v => ∃ q, v = .real q ∧ FloatFormat.binary64.Contains q
  | blob,v => ∃ b, v = .bytes b ∧ b.length ≤ 65535
  | datetime,v => ∃ m, v = .dateTime m ∧ 1000 ≤ m.year ∧ m.year ≤ 9999 ∧ m.nanosecond = 0
  | date,v => ∃ y m d, v = .date y m d ∧ 1000 ≤ y ∧ y ≤ 9999

end MySqlType

inductive PostgreSqlType
  | smallint
  | integer
  | bigint
  | real
  | doublePrecision
  | timestamp
  | date
  | text
  deriving DecidableEq

namespace PostgreSqlType

def name : PostgreSqlType → Text
  | smallint => "SMALLINT".toList
  | integer => "INTEGER".toList
  | bigint => "BIGINT".toList
  | real => "REAL".toList
  | doublePrecision => "DOUBLE PRECISION".toList
  | timestamp => "TIMESTAMP".toList
  | date => "DATE".toList
  | text => "TEXT".toList

/-- The values of a type: `TIMESTAMP` counts microseconds and `TEXT` has no null byte. -/
def Represents : PostgreSqlType → Value → Prop
  | smallint,v => v.IsInteger 16 false
  | integer,v => v.IsInteger 32 false
  | bigint,v => v.IsInteger 64 false
  | real,v => v.IsFloat .binary32
  | doublePrecision,v => v.IsFloat .binary64
  | timestamp,v => ∃ m, v = .dateTime m ∧ m.year ≤ 294276 ∧ m.nanosecond % 1000 = 0
  | date,v => ∃ y m d, v = .date y m d ∧ y ≤ 5874897
  | text,v => ∃ b, v = .bytes b ∧ 0 ∉ b

end PostgreSqlType

end ClickHouseRegression.Parquet
