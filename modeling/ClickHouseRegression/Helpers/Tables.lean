import ClickHouseRegression.Helpers.DataTypes

/-! `Column.values` and the statement that `Table.insert_test_data` builds. A generator runs up
to its first value when it is first asked, so the columns draw their random values in order
while the first row is built. -/
namespace ClickHouseRegression.Helpers
open Sql Fallible

variable {R : RandomSource}

/-- A column with the state of its own random source. -/
structure Column (R : RandomSource) where
  datatype : DataType
  random : R.State

/-- The random values after the first three. -/
def extraValues (d : DataType) (rowCount : ℕ) : Rand R (List Text) :=
  if 3 < rowCount then (List.replicate (rowCount-3) d).mapM DataType.randValue else pure []

/-- The values that `Column.values` yields. -/
def columnValues (d : DataType) (rowCount cardinality : ℕ) : Rand R (List Text) := do
  let extra ← extraValues d rowCount
  let values := [d.maxValue,d.minValue,d.zeroOrNullValue] ++ extra
  let repeated := (List.replicate cardinality values).flatten
  (List.range rowCount).mapM (item repeated)

/-- The values of all columns; they share the given source, or each uses its own. -/
def columnsValues (rowCount cardinality : ℕ) :
    Option R.State → List (Column R) → Option (List (List Text))
  | _,[] => some []
  | shared,c :: cs => do
    let (values,s) ← columnValues c.datatype rowCount cardinality (shared.getD c.random)
    let rest ← columnsValues rowCount cardinality (shared.map fun _ => s) cs
    return values :: rest

/-- The text of a row, made of the next value of each column. -/
def rowText (values : List (List Text)) (row : ℕ) : Option Text :=
  (values.mapM fun column => column[row]?).map fun cells => '(' :: (join cells ++ [')'])

/-- The text after `VALUES`. -/
def valuesText (values : List (List Text)) (rowCount : ℕ) : Option Text :=
  ((List.range rowCount).mapM (rowText values)).map join

/-- The query of `Table.insert_test_data`; `none` if a generator raises. -/
def insertTestData (name : Text) (columns : List (Column R)) (rowCount cardinality : ℕ)
    (random : Option R.State) : Option Text := do
  let values ← columnsValues rowCount cardinality random columns
  let text ← valuesText values rowCount
  return "INSERT INTO ".toList ++ name ++ " VALUES ".toList ++ text

/-- The rows of a `VALUES` text; an empty text has none. -/
def rowsOf (t : Text) : Option (List Text) := if t = [] then some [] else pieces t

/-- The cells of a row, between its parentheses. -/
def cellsOf (row : Text) : Option (List Text) :=
  if row.head? = some '(' ∧ row.getLast? = some ')' then pieces (row.tail.dropLast) else none

end ClickHouseRegression.Helpers
