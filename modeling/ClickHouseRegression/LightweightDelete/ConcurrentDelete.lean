import ClickHouseRegression.Concurrent.Removal
import ClickHouseRegression.LightweightDelete.AfterDelete

/-! Several threads that delete rows of one table, each with a check that the rows are deleted. The server is a
store that is known only by what it removes. -/
namespace ClickHouseRegression.LightweightDelete.ConcurrentDelete
open Sql Concurrent.Removal

/-- `DELETE` or `ALTER TABLE … DELETE`, with `mutations_sync` of 2: there is no reply before the rows are gone. -/
structure Delete where
  useAlterDelete : Bool
  condition : Condition String

def Delete.hits (d : Delete) (row : String → ℤ) : Bool := d.condition.eval row

/-- A check counts the rows of the condition until there are none. -/
def delete (useAlterDelete check : Bool) (condition : Condition String) : List (Action Delete) :=
  .remove ⟨useAlterDelete,condition⟩ :: if check then [.expectNone ⟨useAlterDelete,condition⟩] else []

/-- `id == {i} AND x % 2 == 1`. -/
def oddIn (i : ℕ) : Condition String := .both (.equals "id" i) (.remainder "x" 2 1)

def deleteOdd (numPartitions : ℕ) (check useAlterDelete : Bool) : List (Action Delete) :=
  (List.range numPartitions).flatMap fun i => delete useAlterDelete check (evenIn i)

def deleteEven (numPartitions : ℕ) (check useAlterDelete : Bool) : List (Action Delete) :=
  (List.range numPartitions).flatMap fun i => delete useAlterDelete check (oddIn i)

/-- The scenarios, each with two threads. -/
inductive Scenario
  | withoutOverlap
  | withoutOverlapWithAlterDelete
  | withOverlap
  | withOverlapWithAlterDelete
  deriving DecidableEq

def Scenario.threads (numPartitions : ℕ) : Scenario → Bool → List (Action Delete)
  | withoutOverlap => pair (deleteOdd numPartitions true false) (deleteEven numPartitions true false)
  | withoutOverlapWithAlterDelete =>
    pair (deleteOdd numPartitions true false) (deleteEven numPartitions false true)
  | withOverlap => pair (deleteOdd numPartitions true false) (deleteOdd numPartitions true false)
  | withOverlapWithAlterDelete =>
    pair (deleteOdd numPartitions true false) (deleteOdd numPartitions false true)

/-- The output that is expected at the end, computed before the threads start. -/
def Scenario.expected (t : Table String) : Scenario → Option ℕ
  | withoutOverlap => some 0
  | withoutOverlapWithAlterDelete => some 0
  | withOverlap => t.count (some (.negate evenX))
  | withOverlapWithAlterDelete => t.count (some (.negate evenX))

def Scenario.Overlaps : Scenario → Bool
  | withoutOverlap => false
  | withoutOverlapWithAlterDelete => false
  | withOverlap => true
  | withOverlapWithAlterDelete => true

section
variable {numPartitions : ℕ} {check useAlterDelete : Bool}

theorem ordered_delete (useAlterDelete check : Bool) (condition : Condition String) :
    Ordered Delete.hits [] (delete useAlterDelete check condition) := by
  cases check with
  | false => trivial
  | true => exact ⟨⟨_,List.mem_singleton_self _,rfl⟩,trivial⟩

theorem ordered_threads (s : Scenario) (i : Bool) : Ordered Delete.hits [] (s.threads numPartitions i) := by
  have hodd : ∀ check useAlterDelete, Ordered Delete.hits [] (deleteOdd numPartitions check useAlterDelete) :=
    fun check useAlterDelete => ordered_flatMap (fun _ => ordered_delete _ _ _) _
  have heven : ∀ check useAlterDelete, Ordered Delete.hits [] (deleteEven numPartitions check useAlterDelete) :=
    fun check useAlterDelete => ordered_flatMap (fun _ => ordered_delete _ _ _) _
  cases s <;> cases i
  all_goals first
    | exact hodd _ _
    | exact heven _ _

theorem removals_delete (condition : Condition String) :
    removals (delete useAlterDelete check condition) = [⟨useAlterDelete,condition⟩] := by
  cases check <;> rfl

theorem removals_deleteOdd : removals (deleteOdd numPartitions check useAlterDelete) =
    (List.range numPartitions).map fun i => ⟨useAlterDelete,evenIn i⟩ := by
  simp only [deleteOdd,removals_flatMap,removals_delete]
  exact List.flatMap_pure_eq_map (fun i => Delete.mk useAlterDelete (evenIn i)) _

theorem removals_deleteEven : removals (deleteEven numPartitions check useAlterDelete) =
    (List.range numPartitions).map fun i => ⟨useAlterDelete,oddIn i⟩ := by
  simp only [deleteEven,removals_flatMap,removals_delete]
  exact List.flatMap_pure_eq_map (fun i => Delete.mk useAlterDelete (oddIn i)) _

theorem eval_evenIn (i x y : ℕ) :
    (evenIn i).eval (pairRow x y) = true ↔ x = i ∧ evenX.eval (pairRow x y) = true := by
  have hid : pairRow x y "id" = x := rfl
  rw [evenIn,Condition.eval,Bool.and_eq_true,Condition.eval,hid,decide_eq_true_eq,Nat.cast_inj]

theorem eval_oddIn (i x y : ℕ) :
    (oddIn i).eval (pairRow x y) = true ↔ x = i ∧ evenX.eval (pairRow x y) = false := by
  have hid : pairRow x y "id" = x := rfl
  have hvalue : pairRow x y "x" = y := rfl
  have hmod : (y : ℤ).tmod 2 = y % 2 := Int.tmod_eq_emod_of_nonneg (Int.natCast_nonneg y)
  simp only [oddIn,evenX,Condition.eval,Bool.and_eq_true,hid,hvalue,hmod,decide_eq_true_eq,Nat.cast_inj,
    decide_eq_false_iff_not]
  refine and_congr_right fun _ => ?_
  omega

/-- A row of the partitions matches some delete of a thread that runs through them. -/
theorem exists_deleteOdd {x : ℕ} (hx : x < numPartitions) (y : ℕ) :
    (∃ d ∈ removals (deleteOdd numPartitions check useAlterDelete), d.hits (pairRow x y) = true) ↔
      evenX.eval (pairRow x y) = true := by
  rw [removals_deleteOdd]
  simp only [List.mem_map,List.mem_range,exists_exists_and_eq_and,Delete.hits,eval_evenIn]
  exact ⟨fun ⟨_,_,_,h⟩ => h,fun h => ⟨x,hx,rfl,h⟩⟩

theorem exists_deleteEven {x : ℕ} (hx : x < numPartitions) (y : ℕ) :
    (∃ d ∈ removals (deleteEven numPartitions check useAlterDelete), d.hits (pairRow x y) = true) ↔
      evenX.eval (pairRow x y) = false := by
  rw [removals_deleteEven]
  simp only [List.mem_map,List.mem_range,exists_exists_and_eq_and,Delete.hits,eval_oddIn]
  exact ⟨fun ⟨_,_,_,h⟩ => h,fun h => ⟨x,hx,rfl,h⟩⟩

/-- An inserted row matches a delete of the threads if its `x` is even, or in any case without overlap. -/
theorem exists_threads (s : Scenario) {x : ℕ} (hx : x < numPartitions) (y : ℕ) :
    (∃ i, ∃ d ∈ removals (s.threads numPartitions i), d.hits (pairRow x y) = true) ↔
      evenX.eval (pairRow x y) = true ∨ s.Overlaps = false := by
  rw [Bool.exists_bool]
  cases s <;> simp only [Scenario.threads,pair_false,pair_true,exists_deleteOdd hx,exists_deleteEven hx,
    Scenario.Overlaps,or_self,or_true,reduceCtorEq,or_false]
  all_goals cases evenX.eval (pairRow x y) <;> simp

theorem inserted_row {partitions partsPerPartition blockSize : ℕ} {row : String → ℤ}
    (h : row ∈ (inserted partitions partsPerPartition blockSize).rows) :
    ∃ (x y : ℕ), x < partitions ∧ row = pairRow x y := by
  obtain ⟨x,hx,hrow⟩ := List.mem_flatMap.1 h
  obtain ⟨y,_,rfl⟩ := List.mem_map.1 hrow
  exact ⟨x,y,List.mem_range.1 hx,rfl⟩

section
variable {σ : Type} {S : Store σ (String → ℤ) Delete} (hS : S.Removes Delete.hits) {s₀ : σ}
  {partsPerPartition blockSize : ℕ}
  (hs₀ : S.rows s₀ = ((inserted numPartitions partsPerPartition blockSize).rows : Multiset (String → ℤ)))
include hS hs₀

/-- Whatever the server does in between, no check has to be repeated and the count at the end is the expected
one. -/
theorem scenario_count (scenario : Scenario) {x : State σ Delete Bool}
    (hrun : Run S Delete.hits (start s₀ (scenario.threads numPartitions)) x) :
    (∀ i d rest, x.left i = .expectNone d :: rest → x.waiting i = none →
        (S.rows x.store).countP (fun row => d.condition.eval row = true) = 0) ∧
      (x.Ended → some (Multiset.card (S.rows x.store)) =
        scenario.expected (inserted numPartitions partsPerPartition blockSize).toTable) := by
  refine ⟨?_,?_⟩
  · intro i d rest hnext hidle
    rw [Multiset.countP_eq_zero]
    intro row hrow heval
    have hgone := hrun.expectNone hS (ordered_threads scenario) hnext hidle row hrow
    rw [Delete.hits,heval] at hgone
    cases hgone
  · intro hend
    have hkept : ∀ row ∈ S.rows s₀, (!(evenX.eval row || !scenario.Overlaps)) = true ↔
        ∀ i, ∀ d ∈ removals (scenario.threads numPartitions i), d.hits row = false := by
      intro row hrow
      rw [hs₀] at hrow
      obtain ⟨x,y,hx,rfl⟩ := inserted_row hrow
      have hsome := exists_threads scenario hx y
      rw [← not_iff_not,Bool.not_eq_true,Bool.not_eq_false',Bool.or_eq_true,Bool.not_eq_true',← hsome]
      simp only [not_forall,Bool.not_eq_false,exists_prop]
    rw [hrun.rows_of_ended hS (ordered_threads scenario) hend hkept,hs₀,Multiset.filter_coe,Multiset.coe_card,
      ← List.countP_eq_length_filter]
    have hodd : (inserted numPartitions partsPerPartition blockSize).count (some (.negate evenX)) =
        some ((inserted numPartitions partsPerPartition blockSize).rows.countP fun row => !evenX.eval row) :=
      Table.count_some (by simp [evenX,inserted])
    cases scenario with
    | withoutOverlap => simp [Scenario.expected,Scenario.Overlaps]
    | withoutOverlapWithAlterDelete => simp [Scenario.expected,Scenario.Overlaps]
    | withOverlap => simpa [Scenario.expected,Scenario.Overlaps] using hodd.symm
    | withOverlapWithAlterDelete => simpa [Scenario.expected,Scenario.Overlaps] using hodd.symm

end

/-- On a server that deletes when it likes to. -/
theorem scenario_count_anyTime :
    ∃ x : State (Multiset (String → ℤ)) Delete Bool,
      Run (anyTime Delete.hits) Delete.hits
        (start ↑(inserted 2 1 3).rows (Scenario.withoutOverlapWithAlterDelete.threads 2)) x ∧
      some (Multiset.card x.store) = Scenario.withoutOverlapWithAlterDelete.expected (inserted 2 1 3).toTable := by
  obtain ⟨x,hrun,hend⟩ := anyTime_exists_ended ((inserted 2 1 3).rows : Multiset (String → ℤ))
    (@ordered_threads 2 .withoutOverlapWithAlterDelete false)
    (@ordered_threads 2 .withoutOverlapWithAlterDelete true)
  exact ⟨x,hrun,(scenario_count (anyTime_removes Delete.hits) rfl .withoutOverlapWithAlterDelete hrun).2 hend⟩

end

end ClickHouseRegression.LightweightDelete.ConcurrentDelete
