import ClickHouseRegression.Text
import ClickHouseRegression.Loop.Fallible
import ClickHouseRegression.Loop.Indexed

/-! The steps of the `selects` suite that create views, and `create_all_views`, which appends to the
list of tables that it iterates over. -/
namespace ClickHouseRegression.Selects
open Fallible

structure Table where
  name : Text
  engine : Text
  finalModifierAvailable : Bool
  cluster : Option Text
  deriving DecidableEq

/-- A query with its settings. -/
structure Query where
  text : Text
  settings : List (Text × Text)
  deriving DecidableEq

/-- A call of a step that creates a view: the queries of its `try` and of its `finally` block, and the
table that it yields. -/
structure ViewStep where
  coreTable : Text
  creates : List Query
  drops : List Query
  table : Table
  deriving DecidableEq

/-- `{'_final' if final else ''}`. -/
def finalSuffix (final : Bool) : Text := if final then "_final".toList else []

/-- `{' FINAL' if final else ''}`. -/
def finalModifier (final : Bool) : Text := if final then " FINAL".toList else []

def plainQuery (text : Text) : Query := ⟨text,[]⟩

def dropView (viewName : Text) : Query := plainQuery ("DROP VIEW IF EXISTS ".toList ++ viewName)

/-- `CREATE {view_type} IF NOT EXISTS {view_name}`. -/
def createView (viewType viewName : Text) : Text :=
  "CREATE ".toList ++ viewType ++ " IF NOT EXISTS ".toList ++ viewName

section
variable (coreTable : Text) (finalModifierAvailable final : Bool)

def createNormalView : ViewStep :=
  let viewType := "VIEW".toList
  let viewName := coreTable ++ ("_nview".toList ++ finalSuffix final)
  { coreTable
    creates := [plainQuery (createView viewType viewName ++ " AS SELECT * FROM ".toList ++ coreTable ++
      finalModifier (final && finalModifierAvailable))]
    drops := [dropView viewName]
    table := ⟨viewName,viewType,finalModifierAvailable,none⟩ }

def createMaterializedView : ViewStep :=
  let viewType := "MATERIALIZED VIEW".toList
  let viewName := coreTable ++ "_mview".toList
  let copy := coreTable ++ "_mcopy".toList
  { coreTable
    creates := [plainQuery ("CREATE TABLE ".toList ++ copy ++ " AS ".toList ++ coreTable),
      plainQuery (createView viewType viewName ++ " TO ".toList ++ copy ++
        " AS SELECT * FROM ".toList ++ coreTable)]
    drops := [dropView viewName,plainQuery ("DROP TABLE IF EXISTS ".toList ++ copy)]
    table := ⟨viewName,viewType,finalModifierAvailable,none⟩ }

def createLiveView : ViewStep :=
  let viewType := "LIVE VIEW".toList
  let viewName := coreTable ++ ("_lview".toList ++ finalSuffix final)
  { coreTable
    creates := [⟨createView viewType viewName ++ " AS SELECT * FROM ".toList ++ coreTable ++
      finalModifier (final && finalModifierAvailable),[("allow_experimental_live_view".toList,"1".toList)]⟩]
    drops := [dropView viewName]
    table := ⟨viewName,viewType,finalModifierAvailable,none⟩ }

def createWindowView : ViewStep :=
  let viewType := "WINDOW VIEW".toList
  let viewName := coreTable ++ ("_wview".toList ++ finalSuffix final)
  let windowCore := coreTable ++ "_windowcore".toList ++ finalSuffix final
  { coreTable
    creates := [plainQuery ("CREATE TABLE ".toList ++ windowCore ++
        " (w_start DateTime, counter UInt64) ENGINE=MergeTree ORDER BY w_start".toList),
      ⟨createView viewType viewName ++ " TO ".toList ++ windowCore ++
        " AS select tumbleStart(w_id) AS w_start, count(someCol) as counter FROM ".toList ++ coreTable ++
        finalModifier final ++ " GROUP BY tumble(now(), INTERVAL '5' SECOND) as w_id".toList,
        [("allow_experimental_window_view".toList,"1".toList)]⟩]
    drops := [dropView viewName,plainQuery ("DROP TABLE IF EXISTS ".toList ++ windowCore)]
    table := ⟨viewName,viewType,finalModifierAvailable,none⟩ }

end

/-- The condition under which `create_all_views` passes over a table. -/
def passedOver (name : Text) : Bool :=
  "system".toList.isPrefixOf name || "expr_subquery".toList.isPrefixOf name ||
    "distr".toList.isPrefixOf name || "Replicated".toList.isPrefixOf name ||
    "view".toList.isSuffixOf name || "final".toList.isSuffixOf name

/-- The calls for one table, in their order. -/
def viewSteps (t : Table) : List ViewStep :=
  [createNormalView t.name t.finalModifierAvailable false,
    createNormalView t.name t.finalModifierAvailable true,
    createMaterializedView t.name t.finalModifierAvailable,
    createLiveView t.name t.finalModifierAvailable false,
    createLiveView t.name t.finalModifierAvailable true] ++
  if t.finalModifierAvailable then [createWindowView t.name t.finalModifierAvailable true] else []

/-- The context of the test with a record of the queries and of the calls made. -/
structure Context where
  tables : List Table
  issued : List Query
  calls : List ViewStep

section
variable (raises : List Query → Query → Bool)

/-- `node.query`; what was issued before may decide whether it raises. -/
def issue (s : Context) (q : Query) : Except Context Context :=
  if raises s.issued q then .error { s with issued := s.issued ++ [q] }
  else .ok { s with issued := s.issued ++ [q] }

/-- The queries of a `finally` block; one that raises ends it. -/
def cleanUp (s : Context) (qs : List Query) : Context := endState (qs.foldlM (issue raises) s)

/-- A call of a step and the append of what it yields; if it raises, its `finally` block runs. -/
def runStep (s : Context) (v : ViewStep) : Except Context Context :=
  match v.creates.foldlM (issue raises) { s with calls := s.calls ++ [v] } with
  | .ok s' => .ok { s' with tables := s'.tables ++ [v.table] }
  | .error s' => .error (cleanUp raises s' v.drops)

/-- The body of the loop over the tables. -/
def viewsTurn (t : Table) (s : Context) : Except Context Context :=
  if passedOver t.name then .ok s else (viewSteps t).foldlM (runStep raises) s

def createAllViews (fuel : ℕ) (s : Context) : Option (Except Context Context) :=
  Loop.indexed Context.tables (fun _ => viewsTurn raises) fuel 0 s

end

/-- All calls for a list of tables. -/
def allSteps (tables : List Table) : List ViewStep :=
  (tables.filter fun t => !passedOver t.name).flatMap viewSteps

theorem passedOver_append {a b : Text} (h : "view".toList <:+ b ∨ "final".toList <:+ b) :
    passedOver (a ++ b) = true := by
  have hsuffix : "view".toList.isSuffixOf (a ++ b) = true ∨ "final".toList.isSuffixOf (a ++ b) = true := by
    rw [List.isSuffixOf_iff_suffix,List.isSuffixOf_iff_suffix]
    exact h.imp (·.trans (List.suffix_append a b)) (·.trans (List.suffix_append a b))
  unfold passedOver
  rcases hsuffix with h | h
  · rw [h,Bool.or_true,Bool.true_or]
  · rw [h,Bool.or_true]

/-- The views are named after the core table, with an ending that is passed over. -/
theorem viewSteps_spec {t : Table} {v : ViewStep} (h : v ∈ viewSteps t) :
    v.coreTable = t.name ∧ passedOver v.table.name = true := by
  have hmem : v ∈ [createNormalView t.name t.finalModifierAvailable false,
      createNormalView t.name t.finalModifierAvailable true,
      createMaterializedView t.name t.finalModifierAvailable,
      createLiveView t.name t.finalModifierAvailable false,
      createLiveView t.name t.finalModifierAvailable true,
      createWindowView t.name t.finalModifierAvailable true] := by
    unfold viewSteps at h
    split at h
    · exact h
    · exact List.mem_append_left [_] h
  simp only [List.mem_cons,List.not_mem_nil,or_false] at hmem
  rcases hmem with rfl | rfl | rfl | rfl | rfl | rfl
  · exact ⟨rfl,passedOver_append (by decide +kernel)⟩
  · exact ⟨rfl,passedOver_append (by decide +kernel)⟩
  · exact ⟨rfl,passedOver_append (by decide +kernel)⟩
  · exact ⟨rfl,passedOver_append (by decide +kernel)⟩
  · exact ⟨rfl,passedOver_append (by decide +kernel)⟩
  · exact ⟨rfl,passedOver_append (by decide +kernel)⟩

/-- The views of a table, by name. -/
theorem viewSteps_names (t : Table) :
    (viewSteps t).map (·.table.name) =
      [t.name ++ "_nview".toList,t.name ++ "_nview_final".toList,t.name ++ "_mview".toList,
        t.name ++ "_lview".toList,t.name ++ "_lview_final".toList] ++
      if t.finalModifierAvailable then [t.name ++ "_wview_final".toList] else [] := by
  unfold viewSteps
  cases t.finalModifierAvailable <;> rfl

theorem allSteps_spec {tables : List Table} {v : ViewStep} (h : v ∈ allSteps tables) :
    (∃ t ∈ tables, v.coreTable = t.name) ∧ passedOver v.coreTable = false ∧
      passedOver v.table.name = true := by
  obtain ⟨t,ht,hv⟩ := List.mem_flatMap.1 h
  obtain ⟨ht,hpassed⟩ := List.mem_filter.1 ht
  obtain ⟨hcore,hname⟩ := viewSteps_spec hv
  exact ⟨⟨t,ht,hcore⟩,by rw [hcore]; simpa using hpassed,hname⟩

/-- The calls made from `s` on: all of them with their queries, or those up to one that raised, with the
queries of its `try` block up to the one that raised and those of its `finally` block. -/
def Made (steps : List ViewStep) (s : Context) : Except Context Context → Prop
  | .ok s' => s'.tables = s.tables ++ steps.map ViewStep.table ∧ s'.calls = s.calls ++ steps ∧
      s'.issued = s.issued ++ steps.flatMap ViewStep.creates
  | .error s' => ∃ done v rest creates drops, steps = done ++ v :: rest ∧
      creates <+: v.creates ∧ drops <+: v.drops ∧ s'.tables = s.tables ++ done.map ViewStep.table ∧
      s'.calls = s.calls ++ (done ++ [v]) ∧
      s'.issued = s.issued ++ (done.flatMap ViewStep.creates ++ (creates ++ drops))

section
variable (raises : List Query → Query → Bool)

/-- Queries change nothing but the record of them: a prefix of the list is issued, all of it if none
raises. -/
theorem issueAll_issued (qs : List Query) (s : Context) :
    ∃ pre, pre <+: qs ∧ endState (qs.foldlM (issue raises) s) = { s with issued := s.issued ++ pre } ∧
      ∀ s', qs.foldlM (issue raises) s = .ok s' → pre = qs := by
  induction qs generalizing s with
  | nil => exact ⟨[],List.prefix_rfl,by rw [List.append_nil]; rfl,fun _ _ => rfl⟩
  | cons q qs ih =>
    rw [List.foldlM_cons]
    by_cases hq : raises s.issued q
    · refine ⟨[q],⟨qs,rfl⟩,?_,?_⟩
      · rw [issue,if_pos hq]
        rfl
      · rw [issue,if_pos hq]
        intro s' hs'
        cases hs'
    · obtain ⟨pre,hpre,hend,hall⟩ := ih { s with issued := s.issued ++ [q] }
      refine ⟨q :: pre,List.cons_prefix_cons.2 ⟨rfl,hpre⟩,?_,?_⟩
      · rw [issue,if_neg hq]
        refine hend.trans ?_
        rw [List.append_assoc,List.singleton_append]
      · rw [issue,if_neg hq]
        intro s' hs'
        rw [hall s' hs']

theorem runStep_made (s : Context) (v : ViewStep) : Made [v] s (runStep raises s v) := by
  obtain ⟨creates,hcreates,hend,hall⟩ := issueAll_issued raises v.creates { s with calls := s.calls ++ [v] }
  unfold runStep
  cases h : v.creates.foldlM (issue raises) { s with calls := s.calls ++ [v] } with
  | ok s' =>
    rw [h] at hend
    obtain rfl : s' = _ := hend
    rw [hall _ h]
    exact ⟨rfl,rfl,by rw [List.flatMap_singleton]⟩
  | error s' =>
    rw [h] at hend
    obtain rfl : s' = _ := hend
    obtain ⟨drops,hdrops,hend',-⟩ := issueAll_issued raises v.drops
      { s with calls := s.calls ++ [v], issued := s.issued ++ creates }
    refine ⟨[],v,[],creates,drops,rfl,hcreates,hdrops,?_,?_,?_⟩
    · rw [cleanUp,hend']
      exact (List.append_nil _).symm
    · rw [cleanUp,hend']
      rfl
    · rw [cleanUp,hend']
      exact List.append_assoc ..

theorem runSteps_made (steps : List ViewStep) (s : Context) :
    Made steps s (steps.foldlM (runStep raises) s) := by
  induction steps generalizing s with
  | nil => exact ⟨(List.append_nil _).symm,(List.append_nil _).symm,(List.append_nil _).symm⟩
  | cons v steps ih =>
    have hfirst := runStep_made raises s v
    rw [List.foldlM_cons]
    cases hrun : runStep raises s v with
    | error s' =>
      rw [hrun] at hfirst
      obtain ⟨done,w,rest,creates,drops,heq,hmade⟩ := hfirst
      obtain ⟨rfl,rfl,rfl⟩ : done = [] ∧ w = v ∧ rest = [] := by
        cases done with
        | nil => simpa using heq.symm
        | cons => simp at heq
      exact ⟨[],w,steps,creates,drops,rfl,hmade⟩
    | ok s' =>
      rw [hrun] at hfirst
      obtain ⟨htables,hcalls,hissued⟩ := hfirst
      have hrest := ih s'
      show Made (v :: steps) s (steps.foldlM (runStep raises) s')
      cases hsteps : steps.foldlM (runStep raises) s' with
      | ok s'' =>
        rw [hsteps] at hrest
        refine ⟨?_,?_,?_⟩
        · rw [hrest.1,htables]
          simp
        · rw [hrest.2.1,hcalls]
          simp
        · rw [hrest.2.2,hissued]
          simp
      | error s'' =>
        rw [hsteps] at hrest
        obtain ⟨done,w,rest,creates,drops,rfl,hcreates,hdrops,htables',hcalls',hissued'⟩ := hrest
        refine ⟨v :: done,w,rest,creates,drops,rfl,hcreates,hdrops,?_,?_,?_⟩
        · rw [htables',htables]
          simp
        · rw [hcalls',hcalls]
          simp
        · rw [hissued',hissued]
          simp

/-- If no query raises, no step does. -/
theorem runSteps_ok (hraises : ∀ issued q, raises issued q = false) (steps : List ViewStep) (s : Context) :
    ∃ s', steps.foldlM (runStep raises) s = .ok s' := by
  refine foldlM_ok (fun s v _ => ?_) s
  obtain ⟨s',hs'⟩ : ∃ s', v.creates.foldlM (issue raises) { s with calls := s.calls ++ [v] } = .ok s' :=
    foldlM_ok (fun s q _ => ⟨_,by rw [issue,hraises,if_neg Bool.false_ne_true]⟩) _
  exact ⟨_,by rw [runStep,hs']⟩

theorem viewsTurn_grows {t : Table} {s s' : Context} (h : viewsTurn raises t s = .ok s') :
    ∃ new, s'.tables = s.tables ++ new ∧ ∀ y ∈ new, passedOver y.name = true := by
  unfold viewsTurn at h
  split at h
  · cases h
    exact ⟨[],(List.append_nil _).symm,by simp⟩
  · have hmade := runSteps_made raises (viewSteps t) s
    rw [h] at hmade
    refine ⟨_,hmade.1,fun y hy => ?_⟩
    obtain ⟨v,hv,rfl⟩ := List.mem_map.1 hy
    exact (viewSteps_spec hv).2

theorem foldlM_viewsTurn (tables : List Table) (s : Context) :
    tables.foldlM (fun s t => viewsTurn raises t s) s = (allSteps tables).foldlM (runStep raises) s := by
  induction tables generalizing s with
  | nil => rfl
  | cons t tables ih =>
    rw [List.foldlM_cons]
    cases hpassed : passedOver t.name with
    | true =>
      have hall : allSteps (t :: tables) = allSteps tables := by
        rw [allSteps,List.filter_cons_of_neg (by simp [hpassed])]
        rfl
      rw [hall,viewsTurn,hpassed,if_pos rfl]
      exact ih s
    | false =>
      have hall : allSteps (t :: tables) = viewSteps t ++ allSteps tables := by
        rw [allSteps,List.filter_cons_of_pos (by simp [hpassed]),List.flatMap_cons]
        rfl
      rw [hall,List.foldlM_append,viewsTurn,hpassed,if_neg Bool.false_ne_true]
      exact congrArg _ (funext ih)

end

/-- `create_all_views` ends whatever its queries do: it makes the calls for the tables of the start
that are not passed over, each once and in order, up to one that raises, with their queries, and appends
what they yield: views named after the table. No view is made on a view that it made. -/
theorem createAllViews_spec (raises : List Query → Query → Bool) (s : Context) :
    ∃ fuel r, createAllViews raises fuel s = some r ∧ Made (allSteps s.tables) s r ∧
      ((∀ issued q, raises issued q = false) → ∃ s', r = .ok s') ∧
      (∀ t, (viewSteps t).map (·.table.name) =
        [t.name ++ "_nview".toList,t.name ++ "_nview_final".toList,t.name ++ "_mview".toList,
          t.name ++ "_lview".toList,t.name ++ "_lview_final".toList] ++
        if t.finalModifierAvailable then [t.name ++ "_wview_final".toList] else []) ∧
      ∀ v ∈ allSteps s.tables, (∃ t ∈ s.tables, v.coreTable = t.name) ∧
        ∀ w ∈ allSteps s.tables, v.coreTable ≠ w.table.name := by
  have hends : Loop.Ends Context.tables (fun _ => viewsTurn raises) ([] : List Table).length s
      (s.tables.foldlM (fun s t => viewsTurn raises t s) s) := by
    refine .growing (fun t => passedOver t.name = true) ?_ (fun _ _ _ => viewsTurn_grows raises) s.tables
      [] [] (by simp) (by simp)
    intro t ht s
    rw [viewsTurn,if_pos ht]
  obtain ⟨fuel,hfuel⟩ := hends
  rw [foldlM_viewsTurn] at hfuel
  refine ⟨fuel,_,hfuel,runSteps_made raises _ s,fun h => runSteps_ok raises h _ s,viewSteps_names,
    fun v hv => ?_⟩
  obtain ⟨hcore,hpassed,-⟩ := allSteps_spec hv
  refine ⟨hcore,fun w hw heq => ?_⟩
  rw [heq,(allSteps_spec hw).2.2] at hpassed
  cases hpassed

/-- A table with `FINAL` and one that is passed over. -/
def twoTables : Context where
  tables := [⟨"MergeTree_table_core".toList,"ReplacingMergeTree".toList,true,none⟩,
    ⟨"system.numbers".toList,"SystemNumbers".toList,false,none⟩]
  issued := []
  calls := []

theorem createAllViews_twoTables :
    ∃ fuel s', createAllViews (fun _ _ => false) fuel twoTables = some (.ok s') ∧
      s'.tables = twoTables.tables ++ (allSteps twoTables.tables).map ViewStep.table ∧
      s'.issued = (allSteps twoTables.tables).flatMap ViewStep.creates ∧ s'.issued.length = 8 := by
  obtain ⟨fuel,r,hrun,hmade,hok,-⟩ := createAllViews_spec (fun _ _ => false) twoTables
  obtain ⟨s',rfl⟩ := hok fun _ _ => rfl
  exact ⟨fuel,s',hrun,hmade.1,hmade.2.2,by rw [hmade.2.2]; rfl⟩

end ClickHouseRegression.Selects
