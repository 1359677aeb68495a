import ClickHouseRegression.Sql.Split
import ClickHouseRegression.Loop.Fallible

/-! The datatypes of `helpers/datatypes.py`: their names and the four texts each of them gives
for a value. -/
namespace ClickHouseRegression.Helpers
open Sql Fallible

inductive IntType
  | int8
  | int16
  | int32
  | int64
  | int128
  | int256
  | uint8
  | uint16
  | uint32
  | uint64
  | uint128
  | uint256
  deriving DecidableEq

namespace IntType

def name : IntType → Text
  | int8 => "Int8".toList
  | int16 => "Int16".toList
  | int32 => "Int32".toList
  | int64 => "Int64".toList
  | int128 => "Int128".toList
  | int256 => "Int256".toList
  | uint8 => "UInt8".toList
  | uint16 => "UInt16".toList
  | uint32 => "UInt32".toList
  | uint64 => "UInt64".toList
  | uint128 => "UInt128".toList
  | uint256 => "UInt256".toList

def max : IntType → ℤ
  | int8 => 127
  | int16 => 32767
  | int32 => 2147483647
  | int64 => 9223372036854775807
  | int128 => 170141183460469231731687303715884105727
  | int256 => 57896044618658097711785492504343953926634992332820282019728792003956564819967
  | uint8 => 255
  | uint16 => 65535
  | uint32 => 4294967295
  | uint64 => 18446744073709551615
  | uint128 => 340282366920938463463374607431768211455
  | uint256 => 115792089237316195423570985008687907853269984665640564039457584007913129639935

def min : IntType → ℤ
  | int8 => -128
  | int16 => -32768
  | int32 => -2147483648
  | int64 => -9223372036854775808
  | int128 => -170141183460469231731687303715884105728
  | int256 => -57896044618658097711785492504343953926634992332820282019728792003956564819968
  | _ => 0

end IntType

inductive DecimalType
  | decimal32
  | decimal64
  | decimal128
  | decimal256
  deriving DecidableEq

namespace DecimalType

def base : DecimalType → Text
  | decimal32 => "Decimal32".toList
  | decimal64 => "Decimal64".toList
  | decimal128 => "Decimal128".toList
  | decimal256 => "Decimal256".toList

/-- Number of digits. -/
def digits : DecimalType → ℤ
  | decimal32 => 9
  | decimal64 => 18
  | decimal128 => 38
  | decimal256 => 76

/-- `"9" * n`; there is nothing for a negative `n`. -/
def nines (n : ℤ) : Text := List.replicate n.toNat '9'

def limit (t : DecimalType) (scale : ℤ) : Text :=
  if scale = t.digits then "0.".toList ++ nines (scale-1)
  else nines (t.digits-scale) ++ ".".toList ++ nines scale

end DecimalType

inductive Leaf
  | int (t : IntType)
  | float32
  | float64
  | decimal (t : DecimalType) (scale : ℤ)
  | date
  | date32
  | dateTime
  | dateTime64 (precision : ℤ) (before228 : Bool)
  | string
  | fixedString (length : ℤ)
  | boolean
  | uuid
  deriving DecidableEq

/-- `f"{f}({a})"`. -/
def call (f a : Text) : Text := f ++ '(' :: (a ++ [')'])

/-- `f"'{t}'"`. -/
def quote (t : Text) : Text := '\'' :: (t ++ ['\''])

/-- `letters[0:length]`. -/
def takeLetters (t : Text) (length : ℤ) : Text :=
  if 0 ≤ length then t.take length.toNat else t.take (t.length-(-length).toNat)

def letters : Text := "abcdefghijklmnopqrstuvwxyzABCDEFGHIJKLMNOPQRTUVWXYZ".toList

/-- The text between the quotes of `FixedString.max`. -/
def fixedLetters (length : ℤ) : Text :=
  if length ≤ 51 then takeLetters letters length
  else letters ++ List.replicate (length-51).toNat 'a'

namespace Leaf

def name : Leaf → Text
  | int t => t.name
  | float32 => "Float32".toList
  | float64 => "Float64".toList
  | decimal t scale => call t.base (str scale)
  | date => "Date".toList
  | date32 => "Date32".toList
  | dateTime => "DateTime".toList
  | dateTime64 precision _ => call "DateTime64".toList (str precision)
  | string => "String".toList
  | fixedString length => call "FixedString".toList (str length)
  | boolean => "Bool".toList
  | uuid => "UUID".toList

def float32Max : Text := "3.4028235e38".toList

def float32Min : Text := "-3.4028235e38".toList

def float64Max : Text := "1.7976909999999999e308".toList

def float64Min : Text := "-1.7976909999999999e308".toList

def dateTime64Max (precision : ℤ) (before228 : Bool) : Text :=
  if precision ≠ 9 then
    if before228 then quote "2283-11-11 23:59:59.99999999".toList
    else quote "2299-12-31 23:59:59.99999999".toList
  else quote "2262-04-11 23:47:16".toList

def dateTime64Min (before228 : Bool) : Text :=
  if before228 then quote "1925-01-01 00:00:00.00000000".toList
  else quote "1900-01-01 00:00:00.00000000".toList

/-- The attribute `max`, as it is formatted. -/
def max : Leaf → Text
  | int t => str t.max
  | float32 => float32Max
  | float64 => float64Max
  | decimal t scale => t.limit scale
  | date => quote "2149-06-06".toList
  | date32 => quote "2299-12-31".toList
  | dateTime => quote "2106-02-07 06:28:15".toList
  | dateTime64 precision before228 => dateTime64Max precision before228
  | string => quote letters
  | fixedString length => quote (fixedLetters length)
  | boolean => "true".toList
  | uuid => quote "ffffffff-ffff-ffff-ffff-ffffffffffff".toList

/-- The attribute `min`, as it is formatted. -/
def min : Leaf → Text
  | int t => str t.min
  | float32 => float32Min
  | float64 => float64Min
  | decimal t scale => "-".toList ++ t.limit scale
  | date => quote "1970-01-01".toList
  | date32 => quote "1900-01-01".toList
  | dateTime => quote "1970-01-01 00:00:00".toList
  | dateTime64 _ before228 => dateTime64Min before228
  | string => quote []
  | fixedString _ => quote []
  | boolean => "false".toList
  | uuid => quote "00000000-0000-0000-0000-000000000000".toList

/-- `f"to{self.name}({a})"`. -/
def convert (l : Leaf) (a : Text) : Text := call ("to".toList ++ l.name) a

/-- The value `limit` of the leaf, converted to its type. -/
def limitValue (l : Leaf) (limit : Text) : Text :=
  match l with
  | decimal _ scale => l.convert (limit ++ ", ".toList ++ str scale)
  | dateTime64 precision _ => call "toDateTime64".toList (limit ++ ",".toList ++ str precision)
  | fixedString length => l.convert (limit ++ ",".toList ++ str length)
  | _ => l.convert limit

def maxValue (l : Leaf) : Text := l.limitValue l.max

def minValue (l : Leaf) : Text := l.limitValue l.min

def zeroOrNullValue (l : Leaf) : Text :=
  match l with
  | int _ => l.convert "0".toList
  | float32 => l.convert "0".toList
  | float64 => l.convert "0".toList
  | decimal _ scale => l.convert ("0,".toList ++ str scale)
  | boolean => "false".toList
  | _ => l.min

end Leaf

/-- A source of random numbers; the text of a random float holds only what `str` writes for
floats. -/
structure RandomSource where
  State : Type
  integer : ℤ → ℤ → State → ℤ × State
  uniform : Text → Text → State → Text × State
  integer_mem : ∀ lo hi s, lo ≤ hi → lo ≤ (integer lo hi s).1 ∧ (integer lo hi s).1 ≤ hi
  uniform_chars : ∀ lo hi s, ∀ c ∈ (uniform lo hi s).1,
    c.isAlphanum = true ∨ c = '.' ∨ c = '-' ∨ c = '+'

/-- Computations that draw random numbers and may raise. -/
abbrev Rand (R : RandomSource) := StateT R.State Option

variable {R : RandomSource}

/-- `random.randint(lo, hi)`, which raises on an empty range. -/
def randint (lo hi : ℤ) : Rand R ℤ := fun s =>
  if lo ≤ hi then some (R.integer lo hi s) else none

/-- `random.uniform(float(lo), float(hi))` as text. -/
def uniform (lo hi : Text) : Rand R Text := fun s => some (R.uniform lo hi s)

/-- `f"{hex(n)[2:]:>0width}"`. -/
def hexField (width : ℕ) (n : ℤ) : Text :=
  List.replicate (width-(Nat.toDigits 16 n.toNat).length) '0' ++ Nat.toDigits 16 n.toNat

/-- A random letter of `max`, repeated at most `most` times, in quotes. -/
def randString (max : Text) (most : ℤ) : Rand R Text := do
  let i ← randint 1 (max.length-2)
  let c ← item max i.toNat
  let n ← randint 0 most
  return quote (List.replicate n.toNat c)

def Leaf.randValue (l : Leaf) : Rand R Text :=
  match l with
  | int t => do
    let n ← randint t.min t.max
    return l.convert (str n)
  | float32 => do
    let x ← uniform l.min l.max
    return l.convert x
  | float64 => do
    let x ← uniform "-1.79769".toList "1.79769".toList
    let n ← randint 0 308
    return l.convert (x ++ "e".toList ++ str n)
  | decimal _ scale => do
    let x ← uniform l.min l.max
    return l.convert (x ++ ",".toList ++ str scale)
  | date => do
    let n ← randint 1072549200 1672549200
    return l.convert (str n)
  | date32 => do
    let n ← randint 1072549200 1672549200
    return l.convert (str n)
  | dateTime => do
    let n ← randint 1072549200 1672549200
    return l.convert (str n)
  | dateTime64 precision _ => do
    let n ← randint 1072549200 1672549200
    return call "toDateTime64".toList (str n ++ ",".toList ++ str precision)
  | string => randString l.max 100
  | fixedString length => randString l.max length
  | boolean => do
    let n ← randint 0 1
    return if n ≠ 0 then "true".toList else "false".toList
  | uuid => do
    let a ← randint 0 4294967295
    let b ← randint 0 65535
    let c ← randint 0 65535
    let d ← randint 0 65535
    let e ← randint 0 281474976710655
    return quote (hexField 8 a ++ "-".toList ++ hexField 4 b ++ "-".toList ++ hexField 4 c ++
      "-".toList ++ hexField 4 d ++ "-".toList ++ hexField 12 e)

inductive DataType
  | leaf (l : Leaf)
  | nullable (d : DataType)
  | lowCardinality (d : DataType)
  | tuple (ds : List DataType)
  | map (key value : DataType)
  | array (d : DataType)

namespace DataType

mutual
def name : DataType → Text
  | leaf l => l.name
  | nullable d => call "Nullable".toList d.name
  | lowCardinality d => call "LowCardinality".toList d.name
  | tuple ds => call "Tuple".toList (join (names ds))
  | map key value => call "Map".toList (key.name ++ ",".toList ++ value.name)
  | array d => call "Array".toList d.name

def names : List DataType → List Text
  | [] => []
  | d :: ds => d.name :: names ds
end

mutual
/-- The three fixed values differ in the leaf values and in what `Nullable` makes of them. -/
def render (leafValue : Leaf → Text) (nullValue : Text → Text) : DataType → Text
  | leaf l => leafValue l
  | nullable d => nullValue (d.render leafValue nullValue)
  | lowCardinality d => d.render leafValue nullValue
  | tuple ds => call "tuple".toList (join (renderAll leafValue nullValue ds))
  | map key value =>
    call "map".toList (key.render leafValue nullValue ++ ",".toList ++ value.render leafValue nullValue)
  | array d => '[' :: (d.render leafValue nullValue ++ [']'])

def renderAll (leafValue : Leaf → Text) (nullValue : Text → Text) : List DataType → List Text
  | [] => []
  | d :: ds => d.render leafValue nullValue :: renderAll leafValue nullValue ds
end

def maxValue : DataType → Text := render Leaf.maxValue id

def minValue : DataType → Text := render Leaf.minValue id

def zeroOrNullValue : DataType → Text := render Leaf.zeroOrNullValue fun _ => "Null".toList

mutual
def randValue : DataType → Rand R Text
  | leaf l => l.randValue
  | nullable d => d.randValue
  | lowCardinality d => d.randValue
  | tuple ds => do
    let items ← randValues ds
    return call "tuple".toList (join items)
  | map key value => do
    let k ← key.randValue
    let v ← value.randValue
    return call "map".toList (k ++ ",".toList ++ v)
  | array d => do
    let v ← d.randValue
    return '[' :: (v ++ [']'])

def randValues : List DataType → Rand R (List Text)
  | [] => return []
  | d :: ds => do
    let v ← d.randValue
    let vs ← randValues ds
    return v :: vs
end

mutual
/-- Every `FixedString` in the type has at least one character. -/
def fixedStringsPositive : DataType → Bool
  | leaf (.fixedString length) => 1 ≤ length
  | leaf _ => true
  | nullable d => d.fixedStringsPositive
  | lowCardinality d => d.fixedStringsPositive
  | tuple ds => allFixedStringsPositive ds
  | map key value => key.fixedStringsPositive && value.fixedStringsPositive
  | array d => d.fixedStringsPositive

def allFixedStringsPositive : List DataType → Bool
  | [] => true
  | d :: ds => d.fixedStringsPositive && allFixedStringsPositive ds
end

end DataType

end ClickHouseRegression.Helpers
