import ClickHouseRegression.Concurrent.WorkQueue
import ClickHouseRegression.LightweightDelete.ConcurrentDelete

/-! The scenarios that delete random groups of rows in two threads: each thread its own groups, which
overlap those of the other one, or both of them groups of one list. -/
namespace ClickHouseRegression.LightweightDelete.RandomDelete
open Sql Concurrent Concurrent.Removal ConcurrentDelete

/-- The values of the random generator, of `randint(1, bound)`. -/
structure Draws (bound : ℕ) where
  draw : ℕ → ℕ
  pos : ∀ k, 0 < draw k
  le : ∀ k, draw k ≤ bound

/-- `order[start : stop]`. -/
def slice {α : Type} (order : List α) (start stop : ℕ) : List α := (order.take stop).drop start

section
variable {α : Type} {bound : ℕ}

theorem Draws.sub_lt (draws : Draws bound) {total i : ℕ} (h : i < total) (k : ℕ) :
    total - (i + draws.draw k) < total - i := by
  have hpos := draws.pos k
  omega

/-- The loop that picks the groups from the position `i` on; `k` numbers the draws. -/
def groupsFrom (order : List α) (total : ℕ) (draws : Draws bound) (k i : ℕ) (left : ℤ) : List (List α) :=
  if _h : i < total then
    slice order i (i + min (draws.draw k : ℤ) left).toNat ::
      groupsFrom order total draws (k+1) (i + draws.draw k) (left - draws.draw k)
  else []
termination_by total - i
decreasing_by exact draws.sub_lt _h k

def delList (order : List α) (total : ℕ) (draws : Draws bound) : List (List α) :=
  groupsFrom order total draws 0 0 total

end

/-- `[(i, j) for i in range(num_partitions) for j in range(block_size)]`. -/
def deleteOrder (numPartitions blockSize : ℕ) : List (ℕ × ℕ) :=
  List.range numPartitions ×ˢ List.range blockSize

/-- `(id = {i} AND x = {j})`. -/
def pairCondition (j : ℕ × ℕ) : Condition String := .both (.equals "id" j.1) (.equals "x" j.2)

/-- `" OR ".join(...)`, unless the condition is empty. -/
def groupCondition : List (ℕ × ℕ) → Option (Condition String)
  | [] => none
  | j :: rest => some ((rest.map pairCondition).foldl .either (pairCondition j))

/-- The deletes of the groups, unless one of them has no condition. -/
def queries (groups : List (List (ℕ × ℕ))) : Option (List (Action Delete)) :=
  groups.mapM fun group => (groupCondition group).map fun condition => .remove ⟨false,condition⟩

/-- `random.shuffle`. -/
structure Shuffled {α : Type} (l : List α) where
  order : List α
  perm : order.Perm l

def randomDelete (numPartitions blockSize : ℕ) (shuffled : Shuffled (deleteOrder numPartitions blockSize))
    (draws : Draws 30) : Option (List (Action Delete)) :=
  queries (delList shuffled.order (numPartitions*blockSize) draws)

/-- The list that both threads of the scenario without overlap take their groups from. -/
def sharedDelList (partitions blockSize percentToDelete : ℕ) (shuffled : Shuffled (deleteOrder partitions blockSize))
    (draws : Draws 50) : List (List (ℕ × ℕ)) :=
  delList shuffled.order (partitions*blockSize*percentToDelete/100) draws

/-- The output that is expected when a percentage of the table is deleted. -/
def expectedCount (partitions blockSize percentToDelete : ℕ) : ℕ :=
  blockSize*partitions*(100 - percentToDelete)/100

section
variable {α : Type} {bound : ℕ} {order : List α} {total : ℕ}

theorem slice_append {start middle stop : ℕ} (hstart : start ≤ middle) (hstop : middle ≤ stop) :
    slice order start middle ++ slice order middle stop = slice order start stop := by
  have htake : order.take middle = (order.take stop).take middle := by
    rw [List.take_take,Nat.min_eq_left hstop]
  have hdrop : (order.take stop).drop middle = ((order.take stop).drop start).drop (middle - start) := by
    rw [List.drop_drop,Nat.add_sub_cancel' hstart]
  have hmiddle : ((order.take stop).take middle).drop start =
      ((order.take stop).drop start).take (middle - start) := List.drop_take
  rw [slice,slice,slice,htake,hmiddle,hdrop,List.take_append_drop]

theorem slice_self (i : ℕ) : slice order i i = [] :=
  List.drop_eq_nil_of_le (List.length_take_le i order)

theorem length_slice (order : List α) (start : ℕ) {stop : ℕ} (hstop : stop ≤ order.length) :
    (slice order start stop).length = stop - start := by
  rw [slice,List.length_drop,List.length_take,Nat.min_eq_left hstop]

/-- The end of a group does not go beyond the rows to delete. -/
theorem group_stop (draws : Draws bound) {k i : ℕ} (h : i < total) :
    (i + min (draws.draw k : ℤ) (total - i)).toNat = min (i + draws.draw k) total := by
  omega

/-- The groups are slices of the order, one after the other, and none of them is empty. -/
theorem groupsFrom_flatten (draws : Draws bound) (htotal : total ≤ order.length) {k i : ℕ} {left : ℤ}
    (hleft : i < total → left = total - i) :
    (groupsFrom order total draws k i left).flatten = slice order (min i total) total ∧
      ∀ group ∈ groupsFrom order total draws k i left, group ≠ [] ∧ group.length ≤ bound := by
  fun_induction groupsFrom order total draws k i left with
  | case1 k i left h ih =>
    have hpos := draws.pos k
    have hle := draws.le k
    have hnext : i + draws.draw k < total → left - draws.draw k = total - (i + draws.draw k : ℕ) := by
      intro hlt
      rw [hleft h]
      push_cast
      omega
    obtain ⟨hflatten,hgroups⟩ := ih hnext
    rw [hleft h,group_stop draws h]
    constructor
    · rw [List.flatten_cons,← hleft h,hflatten,Nat.min_eq_left (Nat.le_of_lt h)]
      exact slice_append (by omega) (Nat.min_le_right _ _)
    · intro group hgroup
      cases List.mem_cons.1 hgroup with
      | inl heq =>
        have hlength := length_slice order i
          (Nat.le_trans (Nat.min_le_right (i + draws.draw k) total) htotal)
        rw [← heq] at hlength
        constructor
        · intro hnil
          rw [hnil,List.length_nil] at hlength
          omega
        · omega
      | inr hrest => exact hgroups group (by rwa [hleft h])
  | case2 k i left h =>
    rw [Nat.min_eq_right (Nat.le_of_not_lt h),slice_self]
    exact ⟨rfl,fun group hgroup => nomatch hgroup⟩

end

section

theorem delList_flatten {α : Type} {bound : ℕ} (order : List α) (draws : Draws bound) {total : ℕ}
    (htotal : total ≤ order.length) : (delList order total draws).flatten = order.take total := by
  have h := (groupsFrom_flatten (k := 0) (i := 0) draws htotal (fun _ => (Int.sub_zero _).symm)).1
  rwa [Nat.zero_min,slice,List.drop_zero] at h

theorem delList_ne_nil {α : Type} {bound : ℕ} (order : List α) (draws : Draws bound) {total : ℕ}
    (htotal : total ≤ order.length) {group : List α} (h : group ∈ delList order total draws) : group ≠ [] :=
  ((groupsFrom_flatten draws htotal (fun _ => (Int.sub_zero _).symm)).2 group h).1

theorem eval_pairCondition (j : ℕ × ℕ) (x y : ℕ) :
    (pairCondition j).eval (pairRow x y) = true ↔ j = (x,y) := by
  have hid : pairRow x y "id" = x := rfl
  have hvalue : pairRow x y "x" = y := rfl
  obtain ⟨a,b⟩ := j
  simp only [pairCondition,Condition.eval,hid,hvalue,Bool.and_eq_true,decide_eq_true_eq,Prod.mk.injEq,
    Nat.cast_inj]
  exact and_congr eq_comm eq_comm

theorem eval_foldl_either (conditions : List (Condition String)) (c : Condition String) (row : String → ℤ) :
    (conditions.foldl .either c).eval row = true ↔ ∃ c' ∈ c :: conditions, c'.eval row = true := by
  induction conditions generalizing c with
  | nil => simp
  | cons d rest ih =>
    rw [List.foldl_cons,ih]
    simp only [List.mem_cons,exists_eq_or_imp,Condition.eval,Bool.or_eq_true,or_assoc]

/-- The condition of a group matches the rows of the group. -/
theorem groupCondition_spec {group : List (ℕ × ℕ)} (h : group ≠ []) :
    ∃ c, groupCondition group = some c ∧ ∀ x y, c.eval (pairRow (x : ℕ) (y : ℕ)) = true ↔ (x,y) ∈ group := by
  cases group with
  | nil => exact absurd rfl h
  | cons j rest =>
    refine ⟨_,rfl,?_⟩
    intro x y
    rw [eval_foldl_either,← List.map_cons]
    constructor
    · intro h
      obtain ⟨c,hc,heval⟩ := h
      obtain ⟨j',hj',rfl⟩ := List.mem_map.1 hc
      exact (eval_pairCondition j' x y).1 heval ▸ hj'
    · exact fun hmem => ⟨_,List.mem_map_of_mem hmem,(eval_pairCondition _ x y).2 rfl⟩

/-- The deletes of groups that are not empty, and the rows that they match. -/
theorem queries_spec {groups : List (List (ℕ × ℕ))} (h : ∀ group ∈ groups, group ≠ []) :
    ∃ qs, queries groups = some qs ∧ Ordered Delete.hits [] qs ∧
      ∀ x y, (∃ d ∈ removals qs, d.hits (pairRow (x : ℕ) (y : ℕ)) = true) ↔ (x,y) ∈ groups.flatten := by
  induction groups with
  | nil => exact ⟨[],rfl,trivial,by simp [removals]⟩
  | cons group rest ih =>
    obtain ⟨c,hcondition,heval⟩ := groupCondition_spec (h group List.mem_cons_self)
    obtain ⟨qs,hqueries,hordered,hdeleted⟩ := ih fun g hg => h g (List.mem_cons_of_mem _ hg)
    refine ⟨.remove ⟨false,c⟩ :: qs,?_,hordered.mono (List.nil_subset _),?_⟩
    · rw [queries] at hqueries
      rw [queries,List.mapM_cons,hcondition,hqueries]
      rfl
    · intro x y
      rw [removals_remove,List.flatten_cons,List.mem_append,← hdeleted x y,← heval x y]
      simp only [List.mem_cons,exists_eq_or_imp,Delete.hits]

/-- The rows of the table that are left when a set of them is deleted. -/
theorem length_filter_notMem {order deleted : List (ℕ × ℕ)} (horder : order.Nodup) (hdeleted : deleted.Nodup)
    (hsub : deleted ⊆ order) : (order.filter fun j => j ∉ deleted).length = order.length - deleted.length := by
  have hsplit := List.length_eq_length_filter_add (l := order) fun j => decide (j ∈ deleted)
  have hperm : (order.filter fun j => j ∈ deleted).Perm deleted := by
    apply (List.perm_ext_iff_of_nodup (horder.filter _) hdeleted).2
    intro j
    rw [List.mem_filter,decide_eq_true_eq]
    exact ⟨fun h => h.2,fun h => ⟨hsub h,h⟩⟩
  have hnot : (order.filter fun j => !decide (j ∈ deleted)) = order.filter fun j => j ∉ deleted := by
    apply List.filter_congr
    intro j _
    exact decide_not.symm
  rw [hperm.length_eq,hnot] at hsplit
  omega

theorem inserted_rows (partitions blockSize : ℕ) :
    (inserted partitions 1 blockSize).rows =
      (deleteOrder partitions blockSize).map fun j => pairRow (j.1 : ℕ) (j.2 : ℕ) := by
  change ((List.range partitions).flatMap fun x : ℕ =>
    (List.range (blockSize*1)).map fun y : ℕ => pairRow x y) = _
  have horder : deleteOrder partitions blockSize =
      (List.range partitions).flatMap fun x => (List.range blockSize).map (Prod.mk x) := rfl
  rw [horder,List.map_flatMap,Nat.mul_one]
  simp only [List.map_map]
  rfl

theorem nodup_deleteOrder (partitions blockSize : ℕ) : (deleteOrder partitions blockSize).Nodup :=
  List.Nodup.product List.nodup_range List.nodup_range

theorem length_deleteOrder (partitions blockSize : ℕ) :
    (deleteOrder partitions blockSize).length = partitions*blockSize := by
  rw [deleteOrder,List.length_product,List.length_range,List.length_range]

theorem pair_of_pairRow (j : ℕ × ℕ) :
    ((pairRow (j.1 : ℕ) (j.2 : ℕ) "id").toNat,(pairRow (j.1 : ℕ) (j.2 : ℕ) "x").toNat) = j :=
  Prod.ext (Int.toNat_natCast _) (Int.toNat_natCast _)

/-- The count at the end, when the deletes of the threads match the rows of `deleted`. -/
theorem card_rows_of_ended {σ : Type} {S : Store σ (String → ℤ) Delete} (hS : S.Removes Delete.hits) {s₀ : σ}
    {partitions blockSize : ℕ} (hs₀ : S.rows s₀ = ((inserted partitions 1 blockSize).rows : Multiset (String → ℤ)))
    {threads : Bool → List (Action Delete)} (hordered : ∀ i, Ordered Delete.hits [] (threads i))
    {deleted : List (ℕ × ℕ)} (hnodup : deleted.Nodup) (hsub : deleted ⊆ deleteOrder partitions blockSize)
    (hhits : ∀ x y, (∃ i, ∃ d ∈ removals (threads i), d.hits (pairRow (x : ℕ) (y : ℕ)) = true) ↔ (x,y) ∈ deleted)
    {x : State σ Delete Bool} (hrun : Run S Delete.hits (start s₀ threads) x) (hend : x.Ended) :
    Multiset.card (S.rows x.store) = partitions*blockSize - deleted.length := by
  have hkept : ∀ row ∈ S.rows s₀, decide (((row "id").toNat,(row "x").toNat) ∉ deleted) = true ↔
      ∀ i, ∀ d ∈ removals (threads i), d.hits row = false := by
    intro row hrow
    rw [hs₀,inserted_rows] at hrow
    obtain ⟨j,_,rfl⟩ := List.mem_map.1 hrow
    rw [pair_of_pairRow,decide_eq_true_eq,← hhits j.1 j.2]
    simp only [not_exists,not_and,Bool.not_eq_true]
  have hpairs : ((inserted partitions 1 blockSize).rows.filter fun row =>
      decide (((row "id").toNat,(row "x").toNat) ∉ deleted) = true) =
        ((deleteOrder partitions blockSize).filter fun j => j ∉ deleted).map fun j =>
          pairRow (j.1 : ℕ) (j.2 : ℕ) := by
    rw [inserted_rows,List.filter_map]
    congr 1
    apply List.filter_congr
    intro j _
    rw [Function.comp_apply,pair_of_pairRow,Bool.decide_eq_true]
  rw [hrun.rows_of_ended hS hordered hend hkept,hs₀,Multiset.filter_coe,Multiset.coe_card,hpairs,List.length_map,
    length_filter_notMem (nodup_deleteOrder _ _) hnodup hsub,length_deleteOrder]

/-- A percentage of the rows, rounded down before it is subtracted and after it. -/
theorem sub_percentage_eq_iff {rows percent : ℕ} (h : percent ≤ 100) (factor : ℕ) :
    factor*(rows - rows*percent/100) = rows*factor*(100 - percent)/100 ↔
      factor = 0 ∨ 100 ∣ rows*percent := by
  have hdiv := Nat.div_add_mod (rows*percent) 100
  have hmod := Nat.mod_lt (rows*percent) (show 0 < 100 by decide)
  have hle : rows*percent ≤ 100*rows := by
    rw [Nat.mul_comm 100]
    exact Nat.mul_le_mul_left rows h
  have hproduct : rows*factor*(100 - percent) =
      factor*(100*(rows - rows*percent/100) - rows*percent%100) := by
    have hrest : 100*(rows - rows*percent/100) - rows*percent%100 = 100*rows - rows*percent := by omega
    rw [hrest,Nat.mul_comm rows,Nat.mul_assoc,Nat.mul_sub,Nat.mul_comm rows 100]
  rw [hproduct,Nat.dvd_iff_mod_eq_zero]
  by_cases hfactor : factor = 0
  · simp [hfactor]
  · by_cases hrest : rows*percent%100 = 0
    · have hcancel : factor*(100*(rows - rows*percent/100)) = 100*(factor*(rows - rows*percent/100)) := by ring
      simp only [hrest,Nat.sub_zero,hcancel,or_true,iff_true]
      rw [Nat.mul_div_cancel_left _ (by decide)]
    · have hlt : factor*(100*(rows - rows*percent/100) - rows*percent%100) <
          100*(factor*(rows - rows*percent/100)) := by
        have hcancel : 100*(factor*(rows - rows*percent/100)) = factor*(100*(rows - rows*percent/100)) := by ring
        rw [hcancel]
        exact Nat.mul_lt_mul_of_pos_left (by omega) (Nat.pos_of_ne_zero hfactor)
      have hne := Nat.div_lt_of_lt_mul hlt
      simp only [hfactor,hrest,or_self,iff_false]
      omega

variable {partitions blockSize percentToDelete : ℕ}

theorem blockPercentage_le (hpercent : percentToDelete ≤ 100) : blockSize*percentToDelete/100 ≤ blockSize := by
  apply Nat.div_le_of_le_mul
  rw [Nat.mul_comm]
  exact Nat.mul_le_mul_right _ hpercent

theorem deleteOrder_subset {size : ℕ} (h : size ≤ blockSize) :
    deleteOrder partitions size ⊆ deleteOrder partitions blockSize := by
  intro j hj
  obtain ⟨hx,hy⟩ := List.mem_product.1 hj
  exact List.mem_product.2 ⟨hx,List.mem_range.2 (Nat.lt_of_lt_of_le (List.mem_range.1 hy) h)⟩

/-- The deletes of a thread, and the rows that they match. -/
theorem randomDelete_spec (shuffled : Shuffled (deleteOrder partitions blockSize)) (draws : Draws 30) :
    ∃ qs, randomDelete partitions blockSize shuffled draws = some qs ∧ Ordered Delete.hits [] qs ∧
      ∀ x y, (∃ d ∈ removals qs, d.hits (pairRow (x : ℕ) (y : ℕ)) = true) ↔
        (x,y) ∈ deleteOrder partitions blockSize := by
  have hlength : partitions*blockSize = shuffled.order.length := by
    rw [shuffled.perm.length_eq,length_deleteOrder]
  obtain ⟨qs,hqs,hordered,hhits⟩ := queries_spec fun group =>
    delList_ne_nil shuffled.order draws (Nat.le_of_eq hlength)
  refine ⟨qs,hqs,hordered,fun x y => ?_⟩
  rw [hhits,delList_flatten shuffled.order draws (Nat.le_of_eq hlength),hlength,List.take_length,
    shuffled.perm.mem_iff]

theorem ordered_pair {first second : List (Action Delete)} (hfirst : Ordered Delete.hits [] first)
    (hsecond : Ordered Delete.hits [] second) (i : Bool) : Ordered Delete.hits [] (pair first second i) := by
  cases i with
  | false => exact hfirst
  | true => exact hsecond

section
variable {σ : Type} {S : Store σ (String → ℤ) Delete} (hS : S.Removes Delete.hits) {s₀ : σ}
  (hs₀ : S.rows s₀ = ((inserted partitions 1 blockSize).rows : Multiset (String → ℤ)))
include hS hs₀

/-- Both threads delete the same rows, each in its own groups. The expected count is the right one
exactly if the rows to delete are a whole number in each partition. -/
theorem randomDelete_count (hpercent : percentToDelete ≤ 100)
    (first second : Shuffled (deleteOrder partitions (blockSize*percentToDelete/100)))
    (draws draws' : Draws 30) :
    ∃ qs qs', randomDelete partitions (blockSize*percentToDelete/100) first draws = some qs ∧
      randomDelete partitions (blockSize*percentToDelete/100) second draws' = some qs' ∧
      ∀ x, Run S Delete.hits (start s₀ (pair qs qs')) x → x.Ended →
        (Multiset.card (S.rows x.store) = expectedCount partitions blockSize percentToDelete ↔
          partitions = 0 ∨ 100 ∣ blockSize*percentToDelete) := by
  obtain ⟨qs,hqs,hordered,hhits⟩ := randomDelete_spec first draws
  obtain ⟨qs',hqs',hordered',hhits'⟩ := randomDelete_spec second draws'
  refine ⟨qs,qs',hqs,hqs',?_⟩
  intro x hrun hend
  have hboth : ∀ x y, (∃ i, ∃ d ∈ removals (pair qs qs' i), d.hits (pairRow (x : ℕ) (y : ℕ)) = true) ↔
      (x,y) ∈ deleteOrder partitions (blockSize*percentToDelete/100) := by
    intro x y
    rw [Bool.exists_bool,pair_false,pair_true,hhits,hhits',or_self]
  have hcount := card_rows_of_ended hS hs₀ (ordered_pair hordered hordered') (nodup_deleteOrder _ _)
    (deleteOrder_subset (blockPercentage_le hpercent)) hboth hrun hend
  rw [hcount,length_deleteOrder,← Nat.mul_sub]
  exact sub_percentage_eq_iff hpercent partitions

/-- The threads delete the groups, each of them some, in any order. -/
theorem card_rows_of_groups (shuffled : Shuffled (deleteOrder partitions blockSize)) (draws : Draws 50)
    (hpercent : percentToDelete ≤ 100) {first second : List (List (ℕ × ℕ))}
    (hgroups : (first ++ second).Perm (sharedDelList partitions blockSize percentToDelete shuffled draws)) :
    ∃ qs qs', queries first = some qs ∧ queries second = some qs' ∧
      ∀ x, Run S Delete.hits (start s₀ (pair qs qs')) x → x.Ended →
        Multiset.card (S.rows x.store) = partitions*blockSize - partitions*blockSize*percentToDelete/100 := by
  have hlength : partitions*blockSize = shuffled.order.length := by
    rw [shuffled.perm.length_eq,length_deleteOrder]
  have htotal : partitions*blockSize*percentToDelete/100 ≤ shuffled.order.length :=
    hlength ▸ blockPercentage_le hpercent
  have hne : ∀ group ∈ first ++ second, group ≠ [] := fun group hgroup =>
    delList_ne_nil shuffled.order draws htotal (hgroups.mem_iff.1 hgroup)
  obtain ⟨qs,hqs,hordered,hhits⟩ := queries_spec fun group hgroup => hne group (List.mem_append_left _ hgroup)
  obtain ⟨qs',hqs',hordered',hhits'⟩ := queries_spec fun group hgroup => hne group (List.mem_append_right _ hgroup)
  refine ⟨qs,qs',hqs,hqs',?_⟩
  intro x hrun hend
  have hflatten : (first ++ second).flatten.Perm
      (shuffled.order.take (partitions*blockSize*percentToDelete/100)) :=
    delList_flatten shuffled.order draws htotal ▸ hgroups.flatten
  have hnodup : shuffled.order.Nodup := shuffled.perm.nodup_iff.2 (nodup_deleteOrder _ _)
  have hsub : (first ++ second).flatten ⊆ deleteOrder partitions blockSize := fun j hj =>
    shuffled.perm.mem_iff.1 (List.mem_of_mem_take (hflatten.mem_iff.1 hj))
  have hboth : ∀ x y, (∃ i, ∃ d ∈ removals (pair qs qs' i), d.hits (pairRow (x : ℕ) (y : ℕ)) = true) ↔
      (x,y) ∈ (first ++ second).flatten := by
    intro x y
    rw [Bool.exists_bool,pair_false,pair_true,hhits,hhits',List.flatten_append,List.mem_append]
  rw [card_rows_of_ended hS hs₀ (ordered_pair hordered hordered')
    (hflatten.nodup_iff.2 (hnodup.sublist (List.take_sublist _ _))) hsub hboth hrun hend,hflatten.length_eq,
    List.length_take,Nat.min_eq_left htotal]

/-- In every run of the two threads there are only so many steps. When none is possible both have stopped
and not both have failed, every group is deleted once, and the expected count is the right one exactly if
the rows to delete are a whole number, whichever of the threads has deleted which groups. -/
theorem sharedDelList_count (hpercent : percentToDelete ≤ 100)
    (shuffled : Shuffled (deleteOrder partitions blockSize)) (draws : Draws 50) {n : ℕ}
    {s : WorkQueue.State Bool (List (ℕ × ℕ))}
    (h : WorkQueue.Run n (WorkQueue.start (sharedDelList partitions blockSize percentToDelete shuffled draws)) s) :
    n ≤ 5*(sharedDelList partitions blockSize percentToDelete shuffled draws).length + 10 ∧
      ((∀ i s', ¬ WorkQueue.Step i s s') →
        (∀ i, (s.workers i).Stopped) ∧ (∃ i, s.workers i = .finished) ∧
        s.done.Perm (sharedDelList partitions blockSize percentToDelete shuffled draws) ∧
        ∀ first second, (first ++ second).Perm s.done →
          ∃ qs qs', queries first = some qs ∧ queries second = some qs' ∧
            ∀ x, Run S Delete.hits (start s₀ (pair qs qs')) x → x.Ended →
              (Multiset.card (S.rows x.store) = expectedCount partitions blockSize percentToDelete ↔
                100 ∣ partitions*blockSize*percentToDelete)) := by
  have hbound := h.length_add_measure_le
  rw [WorkQueue.measure_start,Fintype.card_bool] at hbound
  refine ⟨Nat.le_trans (Nat.le_add_right _ _) hbound,?_⟩
  intro hend
  have hinvariant := h.invariant (WorkQueue.invariant_start _)
  have hstopped := hinvariant.stopped hend
  obtain ⟨hperm,hfinished⟩ := hinvariant.done_perm hstopped
  refine ⟨hstopped,hfinished,hperm,?_⟩
  intro first second hsplit
  obtain ⟨qs,qs',hqs,hqs',hcount⟩ := card_rows_of_groups hS hs₀ shuffled draws hpercent (hsplit.trans hperm)
  refine ⟨qs,qs',hqs,hqs',?_⟩
  intro x hrun hended
  have hiff : 1*(partitions*blockSize - partitions*blockSize*percentToDelete/100) = _ ↔ _ :=
    sub_percentage_eq_iff hpercent 1
  simp only [Nat.one_mul,Nat.mul_one,one_ne_zero,false_or] at hiff
  rw [hcount x hrun hended,expectedCount,Nat.mul_comm blockSize]
  exact hiff

end

/-- The two threads on a server that deletes when it likes to. -/
theorem randomDelete_count_half :
    ∃ qs qs', randomDelete 2 (4*50/100) ⟨deleteOrder 2 (4*50/100),List.Perm.refl _⟩ ⟨fun _ => 1,by simp,by simp⟩ =
        some qs ∧
      randomDelete 2 (4*50/100) ⟨(deleteOrder 2 (4*50/100)).reverse,List.reverse_perm _⟩
        ⟨fun _ => 3,by simp,by simp⟩ = some qs' ∧
      ∀ x, Run (anyTime Delete.hits) Delete.hits (start ↑(inserted 2 1 4).rows (pair qs qs')) x → x.Ended →
        (Multiset.card x.store = expectedCount 2 4 50 ↔ 2 = 0 ∨ 100 ∣ 4*50) :=
  randomDelete_count (anyTime_removes Delete.hits) rfl (by decide) _ _ _ _

/-- Eight rows in groups of four, half of them to be deleted. -/
def halfDelList : List (List (ℕ × ℕ)) :=
  sharedDelList 2 4 50 ⟨deleteOrder 2 4,List.Perm.refl _⟩ ⟨fun _ => 4,by simp,by simp⟩

theorem sharedDelList_count_half :
    ∃ n,∃ s : WorkQueue.State Bool (List (ℕ × ℕ)),WorkQueue.Run n (WorkQueue.start halfDelList) s ∧
      n ≤ 5*halfDelList.length + 10 ∧
      (∀ i, (s.workers i).Stopped) ∧ (∃ i, s.workers i = .finished) ∧ s.done.Perm halfDelList ∧
      ∃ qs qs', queries s.done = some qs ∧ queries [] = some qs' ∧
        ∀ x, Run (anyTime Delete.hits) Delete.hits (start ↑(inserted 2 1 4).rows (pair qs qs')) x → x.Ended →
          (Multiset.card x.store = expectedCount 2 4 50 ↔ 100 ∣ 2*4*50) := by
  obtain ⟨n,s,hrun,hend⟩ := WorkQueue.exists_end (WorkQueue.start halfDelList : WorkQueue.State Bool _)
  have h := sharedDelList_count (anyTime_removes Delete.hits) rfl (by decide) _ _ hrun
  obtain ⟨hstopped,hfinished,hperm,hcount⟩ := h.2 hend
  exact ⟨n,s,hrun,h.1,hstopped,hfinished,hperm,hcount s.done [] (by rw [List.append_nil])⟩

/-- A thread can pop from the empty list exactly if there is anything to delete. -/
theorem sharedDelList_fails_iff (hpercent : percentToDelete ≤ 100)
    (shuffled : Shuffled (deleteOrder partitions blockSize)) (draws : Draws 50) :
    (∃ n s, WorkQueue.Run n (WorkQueue.start
        (sharedDelList partitions blockSize percentToDelete shuffled draws) :
          WorkQueue.State Bool (List (ℕ × ℕ))) s ∧
      ∃ i, s.workers i = .failed) ↔ 100 ≤ partitions*blockSize*percentToDelete := by
  have hlength : partitions*blockSize = shuffled.order.length := by
    rw [shuffled.perm.length_eq,length_deleteOrder]
  have htotal : partitions*blockSize*percentToDelete/100 ≤ shuffled.order.length :=
    hlength ▸ blockPercentage_le hpercent
  have hsize := congrArg List.length (delList_flatten shuffled.order draws htotal)
  rw [List.length_take,Nat.min_eq_left htotal] at hsize
  rw [WorkQueue.exists_failed_iff,Fintype.card_bool]
  constructor
  · intro h
    obtain ⟨group,hgroup⟩ := List.exists_mem_of_ne_nil _ h.1
    have hne := delList_ne_nil shuffled.order draws htotal hgroup
    have hsub : group.length ≤ (delList shuffled.order (partitions*blockSize*percentToDelete/100)
        draws).flatten.length := (List.sublist_flatten_of_mem hgroup).length_le
    have hpos := List.length_pos_of_ne_nil hne
    omega
  · intro h
    refine ⟨?_,by decide⟩
    intro hnil
    rw [sharedDelList] at hnil
    rw [hnil,List.flatten_nil,List.length_nil] at hsize
    omega

theorem sharedDelList_fails_iff_quarter :
    (∃ n s, WorkQueue.Run n (WorkQueue.start (sharedDelList 2 4 25 ⟨deleteOrder 2 4,List.Perm.refl _⟩
        ⟨fun _ => 1,by simp,by simp⟩) : WorkQueue.State Bool (List (ℕ × ℕ))) s ∧
      ∃ i, s.workers i = .failed) ↔ 100 ≤ 2*4*25 :=
  sharedDelList_fails_iff (by decide) _ _

end

end ClickHouseRegression.LightweightDelete.RandomDelete
