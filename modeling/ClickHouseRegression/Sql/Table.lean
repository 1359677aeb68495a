import Mathlib

/-! A partitioned table of integer columns, the conditions on its rows and the commands that change it.
A command fails when it names a column that it cannot use. -/
namespace ClickHouseRegression.Sql

inductive Condition (C : Type)
  | equals (column : C) (value : ℤ)
  | differs (column : C) (value : ℤ)
  | remainder (column : C) (modulus value : ℤ)
  | both (a b : Condition C)
  | either (a b : Condition C)
  | negate (a : Condition C)

namespace Condition
variable {C : Type}

/-- The remainder `%` has the sign of the dividend. -/
@[simp] def eval : Condition C → (C → ℤ) → Bool
  | equals c v,row => decide (row c = v)
  | differs c v,row => decide (row c ≠ v)
  | remainder c m v,row => decide ((row c).tmod m = v)
  | both a b,row => a.eval row && b.eval row
  | either a b,row => a.eval row || b.eval row
  | negate a,row => !a.eval row

@[simp] def columns : Condition C → List C
  | equals c _ => [c]
  | differs c _ => [c]
  | remainder c _ _ => [c]
  | both a b => a.columns ++ b.columns
  | either a b => a.columns ++ b.columns
  | negate a => a.columns

end Condition

/-- The active rows, those of the detached parts, and the frozen ones with the name of their backup. -/
structure Table (C : Type) where
  columns : List C
  rows : List (C → ℤ)
  detached : List (C → ℤ)
  backups : List (Option String × (C → ℤ))

inductive Command (C : Type)
  | deleteFrom (condition : Condition C)
  | alterDelete (condition : Condition C)
  | detachPartition (partition : ℤ)
  | dropPartition (partition : ℤ)
  | attachPartition (partition : ℤ)
  | freezePartition (partition : ℤ) (name : Option String)
  | unfreezePartition (partition : ℤ) (name : String)
  | addColumn (column : C) (default : ℤ)
  | dropColumn (column : C)
  | clearColumn (column : C) (partition : ℤ)

namespace Table
variable {C : Type} [DecidableEq C]

/-- `SELECT count(*) FROM table WHERE condition`. -/
def count (t : Table C) : Option (Condition C) → Option ℕ
  | none => some t.rows.length
  | some condition =>
    if condition.columns ⊆ t.columns then some (t.rows.countP condition.eval) else none

def deleteWhere (t : Table C) (condition : Condition C) : Option (Table C) :=
  if condition.columns ⊆ t.columns then
    some { t with rows := t.rows.filter fun row => !condition.eval row }
  else none

/-- One command on a table that is partitioned by the column `key`. -/
def exec (key : C) (t : Table C) : Command C → Option (Table C)
  | .deleteFrom condition => t.deleteWhere condition
  | .alterDelete condition => t.deleteWhere condition
  | .detachPartition p => some { t with
      rows := t.rows.filter fun row => row key ≠ p
      detached := t.detached ++ t.rows.filter fun row => row key = p }
  | .dropPartition p => some { t with rows := t.rows.filter fun row => row key ≠ p }
  | .attachPartition p => some { t with
      rows := t.rows ++ t.detached.filter fun row => row key = p
      detached := t.detached.filter fun row => row key ≠ p }
  | .freezePartition p name => some { t with
      backups := t.backups ++ (t.rows.filter fun row => row key = p).map fun row => (name,row) }
  | .unfreezePartition p name => some { t with
      backups := t.backups.filter fun b => ¬ (b.1 = some name ∧ b.2 key = p) }
  | .addColumn column default =>
    -- `IF NOT EXISTS`
    if column ∈ t.columns then some t
    else some { t with
      columns := column :: t.columns
      rows := t.rows.map fun row => Function.update row column default
      detached := t.detached.map fun row => Function.update row column default }
  | .dropColumn column =>
    -- `IF EXISTS`
    if column ∉ t.columns then some t
    else if column = key then none
    else some { t with columns := t.columns.filter fun c => c ≠ column }
  | .clearColumn column p =>
    if column ∉ t.columns then some t
    else if column = key then none
    else some { t with
      rows := t.rows.map fun row => if row key = p then Function.update row column 0 else row }

/-- The commands in their order, up to the first that fails. -/
def run (key : C) (commands : List (Command C)) (t : Table C) : Option (Table C) :=
  commands.foldlM (exec key) t

theorem run_append (key : C) (first second : List (Command C)) (t : Table C) :
    run key (first ++ second) t = (run key first t).bind (run key second) := by
  rw [run,List.foldlM_append]
  rfl

theorem run_cons (key : C) (command : Command C) (rest : List (Command C)) (t : Table C) :
    run key (command :: rest) t = (exec key t command).bind (run key rest) := by
  rw [run,List.foldlM_cons]
  rfl

theorem run_singleton (key : C) (command : Command C) (t : Table C) :
    run key [command] t = exec key t command := by
  rw [run_cons]
  exact Option.bind_fun_some _

theorem count_none (t : Table C) : t.count none = some t.rows.length := rfl

theorem count_some {t : Table C} {condition : Condition C} (h : condition.columns ⊆ t.columns) :
    t.count (some condition) = some (t.rows.countP condition.eval) := if_pos h

/-- A sequence of deletes keeps the rows that match none of the conditions. -/
theorem run_deletes (key : C) {delete : Condition C → Command C}
    (hdelete : ∀ (t : Table C) c, exec key t (delete c) = t.deleteWhere c)
    (conditions : List (Condition C)) (t : Table C) (hcolumns : ∀ c ∈ conditions, c.columns ⊆ t.columns) :
    run key (conditions.map delete) t =
      some { t with rows := t.rows.filter fun row => !conditions.any fun c => c.eval row } := by
  induction conditions generalizing t with
  | nil =>
    have hrows : (t.rows.filter fun row => !([] : List (Condition C)).any fun c => c.eval row) = t.rows :=
      List.filter_eq_self.2 fun _ _ => rfl
    rw [hrows]
    rfl
  | cons c rest ih =>
    rw [List.map_cons,run_cons,hdelete,deleteWhere,if_pos (hcolumns c List.mem_cons_self),Option.bind_some,ih]
    · simp only [List.filter_filter,List.any_cons,Bool.not_or,Bool.and_comm]
    · intro c' hc'
      exact hcolumns c' (List.mem_cons_of_mem c hc')

end Table

end ClickHouseRegression.Sql
