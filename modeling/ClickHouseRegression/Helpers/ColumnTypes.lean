import ClickHouseRegression.Helpers.Tables
import ClickHouseRegression.Helpers.Version

/-! The generators of `helpers/tables.py`: from a list of datatypes to the columns of a table
with every kind of type. The version of the server is asked on the way, and asking may raise. -/
namespace ClickHouseRegression.Helpers

namespace Leaf

def supportsLowCardinality : Leaf → Bool
  | decimal _ _ => false
  | dateTime64 _ _ => false
  | _ => true

def isValidMapKey : Leaf → Bool
  | float32 => false
  | float64 => false
  | decimal _ _ => false
  | dateTime64 _ _ => false
  | _ => true

/-- `isinstance(datatype, String)`; `FixedString` is a subclass. -/
def isString : Leaf → Bool
  | string => true
  | fixedString _ => true
  | _ => false

end Leaf

namespace DataType

def supportsLowCardinality : DataType → Bool
  | leaf l => l.supportsLowCardinality
  | nullable d => d.supportsLowCardinality
  | _ => false

def isString : DataType → Bool
  | leaf l => l.isString
  | _ => false

def isNullable : DataType → Bool
  | nullable _ => true
  | _ => false

def isValidMapKey : DataType → Bool
  | leaf l => l.isValidMapKey
  | lowCardinality d => d.isString
  | _ => false

/-- Unwrap to the inner most datatype if needed. -/
def unwrap : DataType → DataType
  | nullable d => d.unwrap
  | lowCardinality d => d.unwrap
  | d => d

end DataType

/-- `t.replace(old, new)` for single characters. -/
def replace (old new : Char) (t : Text) : Text := t.map fun c => if c = old then new else c

/-- `t.lower()`; the names of datatypes are in ASCII. -/
def lower (t : Text) : Text := t.map Char.toLower

/-- The name that `Column` makes of the name of a datatype. -/
def columnText (t : Text) : Text :=
  lower (replace ',' '_' (replace ')' '_' (replace '(' '_' t)))

def columnName (d : DataType) : Text := columnText d.name

section
variable (numeric : Char → Bool) (server : Option Text)

/-- The condition on an element of the list in `generate_low_card_datatypes`. -/
def lowCardAllowed (d : DataType) : Option Bool :=
  if d.unwrap.supportsLowCardinality then
    (checkClickhouseVersion numeric "<22.4".toList server).map fun below =>
      if below then !d.isNullable else true
  else some false

def generateLowCardDatatypes : List DataType → Option (List DataType)
  | [] => some []
  | d :: ds => do
    let allowed ← lowCardAllowed numeric server d
    let rest ← generateLowCardDatatypes ds
    return if allowed then .lowCardinality d :: rest else rest

def generateNullableDatatypes (ds : List DataType) : List DataType := ds.map .nullable

def generateArrayDatatypes (ds : List DataType) : List DataType := ds.map .array

def generateTupleDatatype (ds : List DataType) : DataType := .tuple ds

/-- Every combination between datatypes that are valid keys and all provided ones. -/
def generateMapDatatypes (ds : List DataType) : List DataType :=
  ds.flatMap fun key => if key.isValidMapKey then ds.map (.map key) else []

def commonComplexDatatypes : List DataType :=
  [.array (.leaf .string),.map (.leaf .string) (.lowCardinality (.leaf .float64)),
    .tuple [.leaf .string]]

/-- `DateTime64(precision)`; its limits depend on the server. -/
def dateTime64 (precision : ℤ) : Option Leaf :=
  (checkClickhouseVersion numeric "<22.8".toList server).map (.dateTime64 precision)

def basicDatatypes : Option (List DataType) :=
  (dateTime64 numeric server 3).map fun dt =>
    [.int .uint8,.int .uint16,.int .uint32,.int .uint64,.int .uint128,.int .int8,.int .int16,
      .int .int32,.int .int64,.int .int128,.float32,.float64,.decimal .decimal128 38,.date,
      .dateTime,dt,.boolean,.string,.fixedString 51,.uuid].map DataType.leaf

/-- `include if include else basic_datatypes()`. -/
def includedOrBasic (included : List DataType) : Option (List DataType) :=
  if included.isEmpty then basicDatatypes numeric server else some included

/-- The datatypes inside the generated arrays, maps and the tuple. -/
def elementDatatypes (basic nulls lowCards : List DataType) : List DataType :=
  basic ++ nulls ++ lowCards ++ commonComplexDatatypes

/-- All datatypes made from the basic ones, given those of low cardinality. -/
def allTestDatatypes (basic lowCards : List DataType) : List DataType :=
  let nulls := generateNullableDatatypes basic
  let elements := elementDatatypes basic nulls lowCards
  basic ++ generateMapDatatypes elements ++ nulls ++ generateArrayDatatypes elements ++ lowCards ++
    [generateTupleDatatype elements]

/-- A column as `Column(datatype)` makes it, without its random source. -/
structure NamedColumn where
  datatype : DataType
  name : Text

def column (d : DataType) : NamedColumn := ⟨d,columnName d⟩

/-- The columns for the included datatypes; `none` if the server version cannot be read. -/
def generateAllColumnTypes (included : List DataType) : Option (List NamedColumn) := do
  let basic ← includedOrBasic numeric server included
  let lowCards ← generateLowCardDatatypes numeric server (basic ++ generateNullableDatatypes basic)
  return (allTestDatatypes basic lowCards).map column

end

end ClickHouseRegression.Helpers
