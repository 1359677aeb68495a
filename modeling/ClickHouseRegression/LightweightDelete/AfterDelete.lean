import ClickHouseRegression.Sql.Table

/-! The steps that count rows before a lightweight delete and an `ALTER` of the table, and again after
them. -/
namespace ClickHouseRegression.LightweightDelete
open Sql

/-- `delete`: one command or the other, by `context.use_alter_delete`. -/
def delete (useAlterDelete : Bool) (condition : Condition String) : Command String :=
  if useAlterDelete then .alterDelete condition else .deleteFrom condition

/-- `x % 2 = 0`. -/
def evenX : Condition String := .remainder "x" 2 0

/-- The condition `(id = {i}) AND (x % 2 = 0)`. -/
def evenIn (i : ℕ) : Condition String := .both (.equals "id" i) evenX

def deleteOdd (useAlterDelete : Bool) (numPartitions : ℕ) : List (Command String) :=
  ((List.range numPartitions).map evenIn).map (delete useAlterDelete)

def alterDetachPartition (partitionExpr : ℤ) : Command String := .detachPartition partitionExpr
def alterDropPartition (partitionExpr : ℤ) : Command String := .dropPartition partitionExpr
def alterAttachPartition (partitionExpr : ℤ) : Command String := .attachPartition partitionExpr
def alterFreezePartition (partitionExpr : ℤ) : Command String := .freezePartition partitionExpr none
def alterUnfreezePartition (partitionExpr : ℤ) : Command String :=
  .unfreezePartition partitionExpr "backup_name"
def alterAddColumn (columnName : String) (default : ℤ) : Command String := .addColumn columnName default
def alterDropColumn (columnName : String) : Command String := .dropColumn columnName
def alterClearColumn (columnName : String) (partition : ℤ) : Command String :=
  .clearColumn columnName partition

/-- The counts computed first, the commands, and the counts that have to equal the first ones. -/
structure Step where
  expected : List (Condition String)
  commands : List (Command String)
  checked : List (Option (Condition String))

/-- The outputs that a step compares, unless one of its queries raises. -/
def Step.outputs (s : Step) (t : Table String) : Option (List ℕ × List ℕ) := do
  let expected ← s.expected.mapM fun condition => t.count (some condition)
  let changed ← Table.run "id" s.commands t
  let counted ← s.checked.mapM changed.count
  return (expected,counted)

/-- One count beforehand, and `SELECT count(*)` at the end. -/
def countedAfter (expected : Condition String) (commands : List (Command String)) : Step where
  expected := [expected]
  commands := commands
  checked := [none]

section
variable (useAlterDelete : Bool) (partitions : ℕ) (partitionExpr : ℤ)

def detachPartitionAfterDeleteInTheTable : Step :=
  countedAfter (.negate (.either evenX (.equals "id" partitionExpr)))
    (deleteOdd useAlterDelete partitions ++ [alterDetachPartition partitionExpr])

def dropPartitionAfterDeleteInTheTable : Step :=
  countedAfter (.negate (.either evenX (.equals "id" partitionExpr)))
    (deleteOdd useAlterDelete partitions ++ [alterDropPartition partitionExpr])

def attachPartitionAfterDeleteInTheTable : Step :=
  countedAfter (.negate (.both evenX (.differs "id" partitionExpr)))
    (alterDetachPartition partitionExpr :: (deleteOdd useAlterDelete partitions ++
      [alterAttachPartition partitionExpr]))

def freezePartitionAfterDeleteInTheTable : Step :=
  countedAfter (.negate evenX) (deleteOdd useAlterDelete partitions ++ [alterFreezePartition partitionExpr])

def unfreezePartitionAfterDeleteInTheTable : Step :=
  countedAfter (.negate evenX)
    (alterFreezePartition partitionExpr :: (deleteOdd useAlterDelete partitions ++
      [alterUnfreezePartition partitionExpr]))

def addColumnAfterDeleteInTheTable (columnName : String) (default : ℤ) : Step :=
  countedAfter (.negate evenX) (deleteOdd useAlterDelete partitions ++ [alterAddColumn columnName default])

def dropColumnAfterDeleteInTheTable (columnName : String) : Step :=
  countedAfter (.negate evenX) (deleteOdd useAlterDelete partitions ++ [alterDropColumn columnName])

/-- The zeros of the cleared partition are counted too. -/
def clearColumnAfterDeleteInTheTable (columnName : String) : Step where
  expected := [.negate (.either evenX (.differs "id" 0)),.negate evenX]
  commands := deleteOdd useAlterDelete partitions ++ [alterClearColumn columnName 0]
  checked := [some (.equals "x" 0),none]

end

/-- The steps with their own arguments; the columns to drop and to clear are `x`. -/
inductive AfterDelete
  | detachPartition (partitionExpr : ℤ)
  | dropPartition (partitionExpr : ℤ)
  | attachPartition (partitionExpr : ℤ)
  | freezePartition (partitionExpr : ℤ)
  | unfreezePartition (partitionExpr : ℤ)
  | addColumn (columnName : String) (default : ℤ)
  | dropColumn
  | clearColumn

def AfterDelete.step (useAlterDelete : Bool) (partitions : ℕ) : AfterDelete → Step
  | detachPartition p => detachPartitionAfterDeleteInTheTable useAlterDelete partitions p
  | dropPartition p => dropPartitionAfterDeleteInTheTable useAlterDelete partitions p
  | attachPartition p => attachPartitionAfterDeleteInTheTable useAlterDelete partitions p
  | freezePartition p => freezePartitionAfterDeleteInTheTable useAlterDelete partitions p
  | unfreezePartition p => unfreezePartitionAfterDeleteInTheTable useAlterDelete partitions p
  | addColumn name default => addColumnAfterDeleteInTheTable useAlterDelete partitions name default
  | dropColumn => dropColumnAfterDeleteInTheTable useAlterDelete partitions "x"
  | clearColumn => clearColumnAfterDeleteInTheTable useAlterDelete partitions "x"

/-- A table partitioned by `id`, with nothing detached. -/
structure PartitionedTable (partitions : ℕ) extends Table String where
  id_mem : "id" ∈ columns
  x_mem : "x" ∈ columns
  inRange : ∀ row ∈ rows, 0 ≤ row "id" ∧ row "id" < partitions
  attached : detached = []

def pairRow (id x : ℤ) : String → ℤ := fun c => if c = "id" then id else if c = "x" then x else 0

/-- The table that `create_partitioned_table` makes, with the values of `insert`. -/
def inserted (partitions partsPerPartition blockSize : ℕ) : PartitionedTable partitions where
  columns := ["id","x"]
  rows := (List.range partitions).flatMap fun x : ℕ =>
    (List.range (blockSize*partsPerPartition)).map fun y : ℕ => pairRow x y
  detached := []
  backups := []
  id_mem := by decide
  x_mem := by decide
  inRange := by
    intro row hrow
    obtain ⟨x,hx,hrow⟩ := List.mem_flatMap.1 hrow
    obtain ⟨y,_,rfl⟩ := List.mem_map.1 hrow
    have hlt := List.mem_range.1 hx
    have hid : pairRow x y "id" = x := rfl
    rw [hid]
    omega
  attached := rfl

/-- The rows that satisfy the conditions counted beforehand. -/
def Step.counts (s : Step) (t : Table String) : List ℕ :=
  s.expected.map fun condition => t.rows.countP condition.eval

/-- Every query of the step succeeds and both outputs are the counts. -/
def Step.Predicts (s : Step) (t : Table String) : Prop := s.outputs t = some (s.counts t,s.counts t)

theorem Step.predicts_of {s : Step} {t changed : Table String}
    (hcolumns : ∀ condition ∈ s.expected, condition.columns ⊆ t.columns)
    (hrun : Table.run "id" s.commands t = some changed)
    (hchecked : s.checked.mapM changed.count = some (s.counts t)) : s.Predicts t := by
  have hexpected : (s.expected.mapM fun condition => t.count (some condition)) = some (s.counts t) := by
    have hcount : ∀ l ⊆ s.expected, (l.mapM fun condition => t.count (some condition)) =
        some (l.map fun condition => t.rows.countP condition.eval) := by
      intro l hl
      induction l with
      | nil => rfl
      | cons c l ih =>
        rw [List.cons_subset] at hl
        rw [List.mapM_cons,Table.count_some (hcolumns c hl.1),ih hl.2]
        rfl
    exact hcount _ (List.Subset.refl _)
  rw [Predicts,outputs,hexpected,hrun]
  change (s.checked.mapM changed.count).bind _ = _
  rw [hchecked]
  rfl

theorem countedAfter_predicts {condition : Condition String} {commands : List (Command String)}
    {t changed : Table String} (hcolumns : condition.columns ⊆ t.columns)
    (hrun : Table.run "id" commands t = some changed)
    (hcount : changed.rows.length = t.rows.countP condition.eval) :
    (countedAfter condition commands).Predicts t := by
  apply Step.predicts_of
  · intro c hc
    obtain rfl := List.mem_singleton.1 hc
    exact hcolumns
  · exact hrun
  · exact congrArg (fun n => some [n]) hcount

section
variable (useAlterDelete : Bool) {partitions : ℕ}

theorem exec_delete (t : Table String) (condition : Condition String) :
    Table.exec "id" t (delete useAlterDelete condition) = t.deleteWhere condition := by
  cases useAlterDelete <;> rfl

/-- Over all partitions, exactly the rows with an odd `x` are left. -/
theorem run_deleteOdd {t : Table String} (hid : "id" ∈ t.columns) (hx : "x" ∈ t.columns)
    (hrange : ∀ row ∈ t.rows, 0 ≤ row "id" ∧ row "id" < partitions) :
    Table.run "id" (deleteOdd useAlterDelete partitions) t =
      some { t with rows := t.rows.filter fun row => !evenX.eval row } := by
  have hcolumns : ∀ c ∈ (List.range partitions).map evenIn, c.columns ⊆ t.columns := by
    intro c hc
    obtain ⟨i,_,rfl⟩ := List.mem_map.1 hc
    simp [evenIn,evenX,hid,hx]
  rw [deleteOdd,Table.run_deletes "id" (exec_delete useAlterDelete) _ _ hcolumns]
  have hrows : (t.rows.filter fun row => !((List.range partitions).map evenIn).any fun c => c.eval row) =
      t.rows.filter fun row => !evenX.eval row := by
    apply List.filter_congr
    intro row hrow
    obtain ⟨hlow,hhigh⟩ := hrange row hrow
    congr 1
    rw [Bool.eq_iff_iff,List.any_eq_true]
    constructor
    · rintro ⟨c,hc,heval⟩
      obtain ⟨i,_,rfl⟩ := List.mem_map.1 hc
      exact (Bool.and_eq_true_iff.1 heval).2
    · intro heven
      refine ⟨evenIn (row "id").toNat,List.mem_map.2 ⟨_,List.mem_range.2 (by omega),rfl⟩,?_⟩
      apply Bool.and_eq_true_iff.2
      refine ⟨?_,heven⟩
      simp [hlow]
  rw [hrows]

theorem run_deleteOdd_append {t : Table String} (hid : "id" ∈ t.columns) (hx : "x" ∈ t.columns)
    (hrange : ∀ row ∈ t.rows, 0 ≤ row "id" ∧ row "id" < partitions) (commands : List (Command String)) :
    Table.run "id" (deleteOdd useAlterDelete partitions ++ commands) t =
      Table.run "id" commands { t with rows := t.rows.filter fun row => !evenX.eval row } := by
  rw [Table.run_append,run_deleteOdd useAlterDelete hid hx hrange,Option.bind_some]

variable (t : PartitionedTable partitions)

theorem run_deleteOdd_singleton (command : Command String) :
    Table.run "id" (deleteOdd useAlterDelete partitions ++ [command]) t.toTable =
      Table.exec "id" { t.toTable with rows := t.rows.filter fun row => !evenX.eval row } command := by
  rw [run_deleteOdd_append useAlterDelete t.id_mem t.x_mem t.inRange,Table.run_singleton]

/-- The detached partition keeps its even rows. -/
theorem run_detach_deleteOdd (partitionExpr : ℤ) (commands : List (Command String)) :
    Table.run "id" (alterDetachPartition partitionExpr ::
        (deleteOdd useAlterDelete partitions ++ commands)) t.toTable =
      Table.run "id" commands { t.toTable with
        rows := (t.rows.filter fun row => row "id" ≠ partitionExpr).filter fun row => !evenX.eval row
        detached := t.rows.filter fun row => row "id" = partitionExpr } := by
  have hdetach : Table.exec "id" t.toTable (alterDetachPartition partitionExpr) =
      some { t.toTable with
        rows := t.rows.filter fun row => row "id" ≠ partitionExpr
        detached := t.rows.filter fun row => row "id" = partitionExpr } := by
    rw [alterDetachPartition,Table.exec,t.attached,List.nil_append]
  rw [Table.run_cons,hdetach,Option.bind_some,run_deleteOdd_append useAlterDelete]
  · exact t.id_mem
  · exact t.x_mem
  · intro row hrow
    exact t.inRange row (List.mem_filter.1 hrow).1

/-- The rows with an odd `x` outside a partition. -/
theorem oddOutside_predicts {partitionExpr : ℤ} {commands : List (Command String)} {changed : Table String}
    (hrun : Table.run "id" commands t.toTable = some changed)
    (hrows : changed.rows = (t.rows.filter fun row => !evenX.eval row).filter fun row =>
      row "id" ≠ partitionExpr) :
    (countedAfter (.negate (.either evenX (.equals "id" partitionExpr))) commands).Predicts t.toTable := by
  apply countedAfter_predicts _ hrun
  · rw [hrows,List.filter_filter,← List.countP_eq_length_filter]
    apply List.countP_congr
    intro row _
    simp [and_comm]
  · simp [evenX,t.id_mem,t.x_mem]

theorem detachPartition_predicts (partitionExpr : ℤ) :
    (detachPartitionAfterDeleteInTheTable useAlterDelete partitions partitionExpr).Predicts t.toTable := by
  apply oddOutside_predicts
  · rw [run_deleteOdd_singleton]
    rfl
  · rfl

theorem dropPartition_predicts (partitionExpr : ℤ) :
    (dropPartitionAfterDeleteInTheTable useAlterDelete partitions partitionExpr).Predicts t.toTable := by
  apply oddOutside_predicts
  · rw [run_deleteOdd_singleton]
    rfl
  · rfl

theorem attachPartition_predicts (partitionExpr : ℤ) :
    (attachPartitionAfterDeleteInTheTable useAlterDelete partitions partitionExpr).Predicts t.toTable := by
  apply countedAfter_predicts
  · simp [evenX,t.id_mem,t.x_mem]
  · rw [run_detach_deleteOdd,Table.run_singleton]
    rfl
  · -- the rows outside the partition, and those inside it
    have hsplit := List.countP_eq_countP_filter_add t.rows
      (Condition.eval (.negate (.both evenX (.differs "id" partitionExpr))))
      fun row => decide (row "id" ≠ partitionExpr)
    rw [hsplit,List.countP_filter,List.countP_filter,List.length_append,List.filter_filter,List.filter_filter,
      ← List.countP_eq_length_filter,← List.countP_eq_length_filter]
    congr 1
    · apply List.countP_congr
      intro row _
      simp
      tauto
    · apply List.countP_congr
      intro row _
      simp
      intro hid
      exact Or.inr hid

/-- The rows with an odd `x`, in a table with as many rows. -/
theorem oddRows_predicts {commands : List (Command String)} {changed : Table String}
    (hrun : Table.run "id" commands t.toTable = some changed)
    (hlength : changed.rows.length = (t.rows.filter fun row => !evenX.eval row).length) :
    (countedAfter (.negate evenX) commands).Predicts t.toTable := by
  apply countedAfter_predicts _ hrun
  · rw [hlength,← List.countP_eq_length_filter]
    rfl
  · simp [evenX,t.x_mem]

theorem freezePartition_predicts (partitionExpr : ℤ) :
    (freezePartitionAfterDeleteInTheTable useAlterDelete partitions partitionExpr).Predicts t.toTable := by
  apply oddRows_predicts
  · rw [run_deleteOdd_singleton]
    rfl
  · rfl

theorem unfreezePartition_predicts (partitionExpr : ℤ) :
    (unfreezePartitionAfterDeleteInTheTable useAlterDelete partitions partitionExpr).Predicts t.toTable := by
  apply oddRows_predicts
  · rw [Table.run_cons,alterFreezePartition,Table.exec,Option.bind_some,run_deleteOdd_append useAlterDelete,
      Table.run_singleton]
    · rfl
    · exact t.id_mem
    · exact t.x_mem
    · exact t.inRange
  · rfl

theorem addColumn_predicts (columnName : String) (default : ℤ) :
    (addColumnAfterDeleteInTheTable useAlterDelete partitions columnName default).Predicts t.toTable := by
  by_cases hmem : columnName ∈ t.columns
  · apply oddRows_predicts
    · rw [run_deleteOdd_singleton,alterAddColumn,Table.exec,if_pos hmem]
    · rfl
  · apply oddRows_predicts
    · rw [run_deleteOdd_singleton,alterAddColumn,Table.exec,if_neg hmem]
    · exact List.length_map _

theorem dropColumn_predicts :
    (dropColumnAfterDeleteInTheTable useAlterDelete partitions "x").Predicts t.toTable := by
  apply oddRows_predicts
  · rw [run_deleteOdd_singleton,alterDropColumn,Table.exec,if_neg (not_not_intro t.x_mem),
      if_neg (by decide)]
  · rfl

theorem evenX_of_zero {row : String → ℤ} (h : row "x" = 0) : evenX.eval row = true := by
  simp [evenX,h]

/-- The zeros are the rows of the cleared partition, since no zero is left elsewhere. -/
theorem countP_cleared (rows : List (String → ℤ)) :
    ((rows.filter fun row => !evenX.eval row).map fun row =>
        if row "id" = 0 then Function.update row "x" 0 else row).countP (Condition.eval (.equals "x" 0)) =
      rows.countP (Condition.eval (.negate (.either evenX (.differs "id" 0)))) := by
  rw [List.countP_map,List.countP_filter]
  apply List.countP_congr
  intro row _
  by_cases hid : row "id" = 0
  · simp [hid]
  · simp only [Function.comp_apply,if_neg hid,Condition.eval,Bool.and_eq_true,decide_eq_true_eq,
      Bool.not_eq_true',Bool.or_eq_false_iff,decide_eq_false_iff_not]
    constructor
    · intro h
      rw [evenX_of_zero h.1] at h
      cases h.2
    · intro h
      exact absurd hid h.2

theorem clearColumn_predicts :
    (clearColumnAfterDeleteInTheTable useAlterDelete partitions "x").Predicts t.toTable := by
  apply Step.predicts_of
  · intro c hc
    rcases List.mem_pair.1 hc with rfl | rfl
    · simp [evenX,t.id_mem,t.x_mem]
    · simp [evenX,t.x_mem]
  · rw [clearColumnAfterDeleteInTheTable,run_deleteOdd_singleton,alterClearColumn,Table.exec,
      if_neg (not_not_intro t.x_mem),if_neg (by decide)]
  · rw [clearColumnAfterDeleteInTheTable]
    simp only [List.mapM_cons,List.mapM_nil,Table.count_none]
    rw [Table.count_some]
    · rw [countP_cleared,List.length_map,← List.countP_eq_length_filter]
      rfl
    · simp [t.x_mem]

/-- What is to be left of the rows; the step that clears the column counts its zeros first. -/
def AfterDelete.left (rows : List (String → ℤ)) : AfterDelete → List ℕ
  | detachPartition p => [rows.countP fun row => Odd (row "x") ∧ row "id" ≠ p]
  | dropPartition p => [rows.countP fun row => Odd (row "x") ∧ row "id" ≠ p]
  | attachPartition p => [rows.countP fun row => Odd (row "x") ∨ row "id" = p]
  | freezePartition _ => [rows.countP fun row => Odd (row "x")]
  | unfreezePartition _ => [rows.countP fun row => Odd (row "x")]
  | addColumn _ _ => [rows.countP fun row => Odd (row "x")]
  | dropColumn => [rows.countP fun row => Odd (row "x")]
  | clearColumn => [rows.countP fun row => Odd (row "x") ∧ row "id" = 0,rows.countP fun row => Odd (row "x")]

theorem evenX_eval (row : String → ℤ) : evenX.eval row = !decide (Odd (row "x")) := by
  rw [evenX,Condition.eval,← decide_not,decide_eq_decide,Int.not_odd_iff_even,even_iff_two_dvd,
    Int.dvd_iff_tmod_eq_zero]

theorem AfterDelete.counts_eq (check : AfterDelete) :
    (check.step useAlterDelete partitions).counts t.toTable = check.left t.rows := by
  have hcount : ∀ {c : Condition String} {p : (String → ℤ) → Bool}, (∀ row, c.eval row = p row) →
      t.rows.countP c.eval = t.rows.countP p := fun h => congrArg (t.rows.countP ·) (funext h)
  have hodd := hcount (c := .negate evenX) (p := fun row => Odd (row "x")) fun row => by simp [evenX_eval]
  cases check with
  | detachPartition p => exact congrArg ([·]) (hcount fun row => by simp [evenX_eval])
  | dropPartition p => exact congrArg ([·]) (hcount fun row => by simp [evenX_eval])
  | attachPartition p => exact congrArg ([·]) (hcount fun row => by simp [evenX_eval])
  | freezePartition p => exact congrArg ([·]) hodd
  | unfreezePartition p => exact congrArg ([·]) hodd
  | addColumn name default => exact congrArg ([·]) hodd
  | dropColumn => exact congrArg ([·]) hodd
  | clearColumn => exact congrArg₂ ([·,·]) (hcount fun row => by simp [evenX_eval]) hodd

/-- What each step counts beforehand is what is left after its deletes and its `ALTER`: the rows with an
odd `x` outside the partition that is taken away, with all rows of the partition that is attached again. -/
theorem afterDelete_predicts (check : AfterDelete) :
    (check.step useAlterDelete partitions).outputs t.toTable = some (check.left t.rows,check.left t.rows) := by
  rw [← AfterDelete.counts_eq useAlterDelete]
  cases check with
  | detachPartition p => exact detachPartition_predicts useAlterDelete t p
  | dropPartition p => exact dropPartition_predicts useAlterDelete t p
  | attachPartition p => exact attachPartition_predicts useAlterDelete t p
  | freezePartition p => exact freezePartition_predicts useAlterDelete t p
  | unfreezePartition p => exact unfreezePartition_predicts useAlterDelete t p
  | addColumn name default => exact addColumn_predicts useAlterDelete t name default
  | dropColumn => exact dropColumn_predicts useAlterDelete t
  | clearColumn => exact clearColumn_predicts useAlterDelete t

example : ((AfterDelete.attachPartition 1).step false 3).outputs (inserted 3 1 4).toTable = some ([8],[8]) := rfl

end

end ClickHouseRegression.LightweightDelete
