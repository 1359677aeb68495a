import ClickHouseRegression.Helpers.ColumnTypes

/-! `mysql_conversion` and `postgresql_conversion`: for a column of ClickHouse, the definition of a
column in another database. Both are chains of `isinstance` tests. -/
namespace ClickHouseRegression.Helpers

/-- The classes of datatypes that the chains ask for. -/
inductive TypeClass
  | int (t : IntType)
  | float32
  | float64
  | date
  | dateTime
  | string
  | fixedString
  deriving DecidableEq

namespace Leaf

/-- `isinstance(datatype, c)`: a `DateTime64` is a `DateTime`, which is a `Date`, as is a `Date32`, and a
`FixedString` is a `String`. -/
def isInstance : Leaf → TypeClass → Bool
  | int t,.int u => t = u
  | float32,.float32 => true
  | float64,.float64 => true
  | date,.date => true
  | date32,.date => true
  | dateTime,.date => true
  | dateTime,.dateTime => true
  | dateTime64 _ _,.date => true
  | dateTime64 _ _,.dateTime => true
  | string,.string => true
  | fixedString _,.string => true
  | fixedString _,.fixedString => true
  | _,_ => false

def className : Leaf → Text
  | int t => t.name
  | decimal t _ => t.base
  | dateTime64 _ _ => "DateTime64".toList
  | fixedString _ => "FixedString".toList
  | boolean => "Boolean".toList
  | l => l.name

end Leaf

namespace DataType

def isInstance : DataType → TypeClass → Bool
  | leaf l,c => l.isInstance c
  | _,_ => false

def isArray : DataType → Bool
  | array _ => true
  | _ => false

/-- `datatype.datatype` of an array. -/
def element : DataType → DataType
  | array d => d
  | d => d

/-- The name of `type(datatype)`. -/
def className : DataType → Text
  | leaf l => l.className
  | nullable _ => "Nullable".toList
  | lowCardinality _ => "LowCardinality".toList
  | tuple _ => "Tuple".toList
  | map _ _ => "Map".toList
  | array _ => "Array".toList

theorem isInstance_or_unwrap (d : DataType) (c : TypeClass) :
    (d.isInstance c || d.unwrap.isInstance c) = d.unwrap.isInstance c := by
  cases d with
  | leaf l => exact Bool.or_self _
  | _ => rfl

end DataType

end ClickHouseRegression.Helpers

namespace ClickHouseRegression.Parquet
open Helpers

/-- The branches of `mysql_conversion`: the class that is asked for and the type that is given. -/
def mysqlBranches : List (TypeClass × Text) :=
  [(.int .uint8,"TINYINT UNSIGNED".toList),
    (.int .int8,"TINYINT SIGNED".toList),
    (.int .uint16,"SMALLINT UNSIGNED".toList),
    (.int .int16,"SMALLINT SIGNED".toList),
    (.int .uint32,"INT UNSIGNED".toList),
    (.int .int32,"INT UNSIGNED".toList),
    (.int .uint64,"BIGINT UNSIGNED".toList),
    (.int .int64,"BIGINT SIGNED".toList),
    (.float32,"DOUBLE".toList),
    (.float64,"DOUBLE".toList),
    (.fixedString,"BLOB".toList),
    (.string,"BLOB".toList),
    (.dateTime,"DATETIME".toList),
    (.date,"DATE".toList)]

/-- What every branch returns. -/
def mysqlDefinition (name type : Text) (null : Bool) : Text :=
  "`".toList ++ name ++ "` ".toList ++ type ++ " ".toList ++
    if null then "NULL".toList else "NOT NULL".toList

/-- The definition, or the message of the exception. -/
def mysqlConversion (name : Text) (d : DataType) : Except Text Text :=
  match mysqlBranches.find? fun b => d.isInstance b.1 || d.unwrap.isInstance b.1 with
  | some b => .ok (mysqlDefinition name b.2 d.isNullable)
  | none => .error ("invalid type <class 'helpers.datatypes.".toList ++ d.className ++ "'>".toList)

def postgresqlBranches : List (TypeClass × Text) :=
  [(.int .int16,"SMALLINT".toList),
    (.int .int32,"INTEGER".toList),
    (.int .int64,"BIGINT".toList),
    (.float32,"REAL".toList),
    (.float64,"DOUBLE PRECISION".toList),
    (.dateTime,"TIMESTAMP".toList),
    (.date,"DATE".toList),
    (.string,"TEXT".toList)]

def postgresqlDefinition (name type : Text) (array null : Bool) : Text :=
  name ++ " ".toList ++ type ++ (if array then "[]".toList else []) ++
    if null then [] else " NOT NULL".toList

/-- The definition, or `None` behind the last branch. -/
def postgresqlConversion (name : Text) (d : DataType) : Option Text :=
  (postgresqlBranches.find? fun b => d.element.unwrap.isInstance b.1).map fun b =>
    postgresqlDefinition name b.2 d.isArray d.isNullable

theorem mysqlConversion_eq (name : Text) (d : DataType) :
    mysqlConversion name d =
      match mysqlBranches.find? fun b => d.unwrap.isInstance b.1 with
      | some b => .ok (mysqlDefinition name b.2 d.isNullable)
      | none => .error ("invalid type <class 'helpers.datatypes.".toList ++ d.className ++ "'>".toList) := by
  simp only [mysqlConversion,DataType.isInstance_or_unwrap]

end ClickHouseRegression.Parquet
