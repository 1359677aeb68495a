import ClickHouseRegression.Selects.Views

/-! `create_normal_view_with_join`: one view for each pair of a core table and a duplicate of its
engine, with the parameters `final1`, `final2` and the variable `view_name` reused from pair to pair. -/
namespace ClickHouseRegression.Selects
open Fallible

/-- A view as its `CREATE` statement describes it. -/
structure JoinView where
  name : Text
  core : Text
  final1 : Bool
  duplicate : Text
  final2 : Bool
  deriving DecidableEq

def JoinView.query (v : JoinView) : Query where
  text := "CREATE VIEW IF NOT EXISTS ".toList ++ v.name ++ " AS SELECT * FROM ".toList ++ v.core ++
    " a".toList ++ finalModifier v.final1 ++ " JOIN (SELECT * FROM ".toList ++ v.duplicate ++
    finalModifier v.final2 ++ ") b on a.id = b.id ORDER BY id".toList
  settings := [("joined_subquery_requires_alias".toList,"0".toList)]

/-- The local variables, the queries issued, the names of the tables and views on the server, the views
that were created and the names for which a `DROP` was issued. -/
structure JoinState where
  viewName : Option Text
  final1 : Option Bool
  final2 : Option Bool
  issued : List Query
  existing : List Text
  created : List JoinView
  dropped : List Text

def isCore (t : Table) : Bool := "core".toList.isSuffixOf t.name

/-- `table2` is a duplicate for the engine of `table`. -/
def isDuplicateOf (table table2 : Table) : Bool :=
  "duplicate".toList.isSuffixOf table2.name && table.engine.isPrefixOf table2.name

def joinViewName (table : Table) : Text :=
  table.name ++ ("_nview_join".toList ++ finalSuffix table.finalModifierAvailable)

/-- The view that the variables describe for a pair, after `None` was replaced. -/
def JoinState.view (s : JoinState) (table table2 : Table) : JoinView where
  name := joinViewName table
  core := table.name
  final1 := s.final1.getD table.finalModifierAvailable
  duplicate := table2.name
  final2 := s.final2.getD table2.finalModifierAvailable

/-- The assignments before the query, and the query. -/
def JoinState.ask (s : JoinState) (v : JoinView) : JoinState :=
  { s with viewName := some v.name,final1 := some v.final1,final2 := some v.final2,
           issued := s.issued ++ [v.query] }

/-- The effect of `CREATE VIEW IF NOT EXISTS` on the server. -/
def JoinState.create (s : JoinState) (v : JoinView) : JoinState :=
  if v.name ∈ s.existing then s
  else { s with existing := s.existing ++ [v.name],created := s.created ++ [v] }

/-- `DROP VIEW IF EXISTS`. -/
def JoinState.drop (s : JoinState) (name : Text) : JoinState :=
  { s with issued := s.issued ++ [dropView name],existing := s.existing.filter (· ≠ name),
           dropped := s.dropped ++ [name] }

section
variable (raises : List Query → Query → Bool)

/-- The body of the inner loop for a matching pair. -/
def joinTurn (table table2 : Table) (s : JoinState) : Except JoinState JoinState :=
  let v := s.view table table2
  if raises s.issued v.query then .error (s.ask v) else .ok ((s.ask v).create v)

/-- The two loops. -/
def joinLoop (tables : List Table) (s : JoinState) : Except JoinState JoinState :=
  tables.foldlM (fun s table =>
    if isCore table then
      tables.foldlM (fun s table2 =>
        if isDuplicateOf table table2 then joinTurn raises table table2 s else .ok s) s
    else .ok s) s

inductive JoinOutcome
  | yields (t : Table)
  | queryError
  | unboundLocalError
  deriving DecidableEq

/-- The `finally` block; without a `view_name` it raises itself. -/
def joinFinally (s : JoinState) : JoinState :=
  match s.viewName with
  | none => s
  | some name => s.drop name

/-- The step: how its `try` block ends and the state after the `finally` block. The table that is
yielded carries the flag of the last table of the context. -/
def createNormalViewWithJoin (tables : List Table) (final1 final2 : Option Bool) (existing : List Text) :
    JoinOutcome × JoinState :=
  match joinLoop raises tables ⟨none,final1,final2,[],existing,[],[]⟩ with
  | .error s => (.queryError,joinFinally s)
  | .ok s =>
    match s.viewName,tables.getLast? with
    | some name,some table =>
      (.yields ⟨name,"VIEW".toList,table.finalModifierAvailable,none⟩,joinFinally s)
    | _,_ => (.unboundLocalError,joinFinally s)

end

/-- The matching pairs, in the order of the loops. -/
def joinPairs (tables : List Table) : List (Table × Table) :=
  (tables.filter isCore).flatMap fun table => (tables.filter (isDuplicateOf table)).map (table,·)

/-- The view a pair is to have: the given flags, or its own where `None` was given. -/
def ownView (final1 final2 : Option Bool) (p : Table × Table) : JoinView where
  name := joinViewName p.1
  core := p.1.name
  final1 := final1.getD p.1.finalModifierAvailable
  duplicate := p.2.name
  final2 := final2.getD p.2.finalModifierAvailable

/-- Every view that was created is the one of a pair and a `DROP` was issued for it, and unless a query
raised every pair has its view. -/
structure Joined (tables : List Table) (final1 final2 : Option Bool) (run : JoinOutcome × JoinState) :
    Prop where
  own : ∀ v ∈ run.2.created, ∃ p ∈ joinPairs tables, v = ownView final1 final2 p
  all : run.1 ≠ .queryError → ∀ p ∈ joinPairs tables, ownView final1 final2 p ∈ run.2.created
  gone : ∀ v ∈ run.2.created, v.name ∈ run.2.dropped

theorem foldlM_filter_turn {σ α : Type} (p : α → Bool) (turn : α → σ → Except σ σ) (l : List α) (s : σ) :
    l.foldlM (fun s x => if p x then turn x s else .ok s) s = (l.filter p).foldlM (fun s x => turn x s) s := by
  induction l generalizing s with
  | nil => rfl
  | cons x l ih =>
    rw [List.foldlM_cons]
    cases hx : p x with
    | true =>
      rw [List.filter_cons_of_pos hx,List.foldlM_cons,if_pos rfl]
      exact congrArg _ (funext ih)
    | false =>
      rw [List.filter_cons_of_neg (by simp [hx]),if_neg Bool.false_ne_true]
      exact ih s

/-- The two loops are one loop over the pairs. -/
theorem joinLoop_eq (raises : List Query → Query → Bool) (tables : List Table) (s : JoinState) :
    joinLoop raises tables s = (joinPairs tables).foldlM (fun s p => joinTurn raises p.1 p.2 s) s := by
  have hinner : ∀ (cores : List Table) (s : JoinState),
      cores.foldlM (fun s table => tables.foldlM (fun s table2 =>
        if isDuplicateOf table table2 then joinTurn raises table table2 s else .ok s) s) s =
      (cores.flatMap fun table => (tables.filter (isDuplicateOf table)).map (table,·)).foldlM
        (fun s p => joinTurn raises p.1 p.2 s) s := by
    intro cores
    induction cores with
    | nil => exact fun _ => rfl
    | cons table cores ih =>
      intro s
      rw [List.foldlM_cons,List.flatMap_cons,List.foldlM_append,List.foldlM_map,
        foldlM_filter_turn (isDuplicateOf table) (joinTurn raises table)]
      exact congrArg _ (funext ih)
  rw [joinLoop,foldlM_filter_turn isCore,hinner]
  rfl

namespace JoinState
variable (s : JoinState) (v : JoinView)

@[simp] theorem create_viewName : (s.create v).viewName = s.viewName := by
  unfold create
  split <;> rfl

@[simp] theorem create_final1 : (s.create v).final1 = s.final1 := by
  unfold create
  split <;> rfl

@[simp] theorem create_final2 : (s.create v).final2 = s.final2 := by
  unfold create
  split <;> rfl

variable {s v}

theorem mem_create {w : JoinView} (h : w ∈ (s.create v).created) : w ∈ s.created ∨ w = v := by
  unfold create at h
  split at h
  · exact .inl h
  · exact (List.mem_append.1 h).imp_right List.mem_singleton.1

theorem mem_create_of_mem {w : JoinView} (h : w ∈ s.created) : w ∈ (s.create v).created := by
  unfold create
  split
  · exact h
  · exact List.mem_append_left _ h

end JoinState

/-- What a turn can do: ask for the view and raise, or ask for it and have it created. -/
theorem joinTurn_cases (raises : List Query → Query → Bool) (table table2 : Table) (s : JoinState) :
    joinTurn raises table table2 s = .error (s.ask (s.view table table2)) ∨
      joinTurn raises table table2 s =
        .ok ((s.ask (s.view table table2)).create (s.view table table2)) := by
  unfold joinTurn
  dsimp only
  split
  · exact .inl rfl
  · exact .inr rfl

/-- What the server holds: the tables of the start and the created views, under different names. -/
structure Kept (existing : List Text) (s : JoinState) : Prop where
  names : s.existing = existing ++ s.created.map JoinView.name
  fresh : ∀ v ∈ s.created, v.name ∉ existing
  nodup : (s.created.map JoinView.name).Nodup
  undropped : s.dropped = []

theorem Kept.create {existing : List Text} {s : JoinState} (h : Kept existing s) (v : JoinView) :
    Kept existing (s.create v) := by
  unfold JoinState.create
  split
  case isTrue => exact h
  case isFalse hnew =>
    rw [h.names,List.mem_append,not_or] at hnew
    refine ⟨?_,?_,?_,h.undropped⟩
    · show s.existing ++ [v.name] = existing ++ (s.created ++ [v]).map JoinView.name
      rw [h.names,List.map_append,List.append_assoc]
      rfl
    · intro w hw
      rcases List.mem_append.1 hw with hw | hw
      · exact h.fresh w hw
      · rw [List.mem_singleton.1 hw]
        exact hnew.1
    · show ((s.created ++ [v]).map JoinView.name).Nodup
      rw [List.map_append,List.nodup_append]
      refine ⟨h.nodup,List.nodup_singleton _,?_⟩
      intro a ha b hb hab
      rw [List.map_singleton,List.mem_singleton] at hb
      exact hnew.2 (hb ▸ hab ▸ ha)

section
variable {raises : List Query → Query → Bool} {existing : List Text}

theorem Kept.turn {s : JoinState} (h : Kept existing s) (table table2 : Table) :
    Kept existing (endState (joinTurn raises table table2 s)) := by
  have hask : Kept existing (s.ask (s.view table table2)) := ⟨h.names,h.fresh,h.nodup,h.undropped⟩
  obtain hturn | hturn := joinTurn_cases raises table table2 s
  · rw [hturn]
    exact hask
  · rw [hturn]
    exact hask.create _

theorem kept_joinLoop (tables : List Table) (final1 final2 : Option Bool) :
    Kept existing (endState (joinLoop raises tables ⟨none,final1,final2,[],existing,[],[]⟩)) := by
  rw [joinLoop_eq]
  refine endState_foldlM (fun s p _ h => h.turn p.1 p.2) ?_
  exact ⟨(List.append_nil _).symm,by simp,List.nodup_nil,rfl⟩

end

/-- The state after the `finally` block. -/
theorem createNormalViewWithJoin_state (raises : List Query → Query → Bool) (tables : List Table)
    (final1 final2 : Option Bool) (existing : List Text) :
    (createNormalViewWithJoin raises tables final1 final2 existing).2 =
      joinFinally (endState (joinLoop raises tables ⟨none,final1,final2,[],existing,[],[]⟩)) := by
  unfold createNormalViewWithJoin
  cases joinLoop raises tables ⟨none,final1,final2,[],existing,[],[]⟩ with
  | error s => rfl
  | ok s =>
    dsimp only
    split <;> rfl

theorem joinFinally_created (s : JoinState) : (joinFinally s).created = s.created := by
  unfold joinFinally
  split <;> rfl

theorem joinFinally_dropped {s : JoinState} (h : s.dropped = []) :
    (joinFinally s).dropped = s.viewName.toList := by
  unfold joinFinally
  cases hname : s.viewName with
  | none => exact h
  | some name =>
    show s.dropped ++ [name] = _
    rw [h]
    rfl

section OneView

variable {raises : List Query → Query → Bool} {existing : List Text} {final1 final2 : Option Bool}
  {v : JoinView}

/-- So far only the view `v` was asked for. -/
structure OnlyView (existing : List Text) (final1 final2 : Option Bool) (v : JoinView) (s : JoinState) :
    Prop where
  kept : Kept existing s
  first : s.final1 = final1 ∨ s.final1 = some v.final1
  second : s.final2 = final2 ∨ s.final2 = some v.final2
  only : ∀ w ∈ s.created, w = v ∧ s.viewName = some v.name

theorem OnlyView.view_eq {s : JoinState} (h : OnlyView existing final1 final2 v s) {p : Table × Table}
    (hp : ownView final1 final2 p = v) : s.view p.1 p.2 = v := by
  have hfirst : s.final1.getD p.1.finalModifierAvailable = v.final1 := by
    rcases h.first with h | h
    · rw [h,← hp]
      rfl
    · rw [h]
      rfl
  have hsecond : s.final2.getD p.2.finalModifierAvailable = v.final2 := by
    rcases h.second with h | h
    · rw [h,← hp]
      rfl
    · rw [h]
      rfl
  rw [JoinState.view,hfirst,hsecond,← hp]
  rfl

theorem OnlyView.turn {s : JoinState} (h : OnlyView existing final1 final2 v s) {p : Table × Table}
    (hp : ownView final1 final2 p = v) :
    OnlyView existing final1 final2 v (endState (joinTurn raises p.1 p.2 s)) := by
  have hkept : Kept existing (endState (joinTurn raises p.1 p.2 s)) := h.kept.turn p.1 p.2
  obtain hturn | hturn := joinTurn_cases raises p.1 p.2 s
  · rw [h.view_eq hp] at hturn
    rw [hturn] at hkept ⊢
    exact ⟨hkept,.inr rfl,.inr rfl,fun w hw => ⟨(h.only w hw).1,rfl⟩⟩
  · rw [h.view_eq hp] at hturn
    rw [hturn] at hkept ⊢
    refine ⟨hkept,.inr (by simp [endState,JoinState.ask]),.inr (by simp [endState,JoinState.ask]),?_⟩
    intro w hw
    refine ⟨?_,by simp [endState,JoinState.ask]⟩
    exact (JoinState.mem_create hw).elim (fun hw => (h.only w hw).1) id

/-- After a turn that does not raise the view is there. -/
theorem OnlyView.mem_of_turn {s s' : JoinState} (h : OnlyView existing final1 final2 v s)
    (hfresh : v.name ∉ existing) {p : Table × Table} (hp : ownView final1 final2 p = v)
    (hturn : joinTurn raises p.1 p.2 s = .ok s') : v ∈ s'.created := by
  obtain hcase | hcase := joinTurn_cases raises p.1 p.2 s
  · rw [hcase] at hturn
    cases hturn
  · rw [hcase,h.view_eq hp] at hturn
    cases hturn
    unfold JoinState.create
    split
    case isTrue hmem =>
      change v.name ∈ s.existing at hmem
      rw [h.kept.names,List.mem_append] at hmem
      obtain ⟨w,hw,-⟩ := List.mem_map.1 (hmem.resolve_left hfresh)
      show v ∈ s.created
      rwa [← (h.only w hw).1]
    case isFalse => exact List.mem_append_right _ List.mem_cons_self

theorem mem_created_turn {s : JoinState} {w : JoinView} (h : w ∈ s.created) (table table2 : Table) :
    w ∈ (endState (joinTurn raises table table2 s)).created := by
  obtain hturn | hturn := joinTurn_cases raises table table2 s
  · rw [hturn]
    exact h
  · rw [hturn]
    exact JoinState.mem_create_of_mem (s := s.ask _) h

/-- Over pairs that all ask for `v`, a loop that does not raise creates it. -/
theorem OnlyView.mem_of_loop {s s' : JoinState} (h : OnlyView existing final1 final2 v s)
    (hfresh : v.name ∉ existing) {ps : List (Table × Table)} (hne : ps ≠ [])
    (hps : ∀ p ∈ ps, ownView final1 final2 p = v)
    (hloop : ps.foldlM (fun s p => joinTurn raises p.1 p.2 s) s = .ok s') : v ∈ s'.created := by
  obtain ⟨p,ps,rfl⟩ := List.exists_cons_of_ne_nil hne
  rw [List.foldlM_cons] at hloop
  cases hturn : joinTurn raises p.1 p.2 s with
  | error s₁ =>
    rw [hturn] at hloop
    cases hloop
  | ok s₁ =>
    have hmem := h.mem_of_turn hfresh (hps p List.mem_cons_self) hturn
    rw [hturn] at hloop
    have hend : v ∈ (endState (ps.foldlM (fun s p => joinTurn raises p.1 p.2 s) s₁)).created :=
      endState_foldlM (P := fun s : JoinState => v ∈ s.created)
        (fun s p _ h => mem_created_turn h p.1 p.2) hmem
    change ps.foldlM (fun s p => joinTurn raises p.1 p.2 s) s₁ = .ok s' at hloop
    rw [hloop] at hend
    exact hend

end OneView

/-- A step that no query disturbs drops a single view, the one of every pair. -/
theorem same_of_joined {tables : List Table} {final1 final2 : Option Bool} {existing : List Text}
    (hjoined : Joined tables final1 final2
      (createNormalViewWithJoin (fun _ _ => false) tables final1 final2 existing)) :
    (∀ p ∈ joinPairs tables, ∀ q ∈ joinPairs tables, ownView final1 final2 p = ownView final1 final2 q) ∧
      ∀ p ∈ joinPairs tables, joinViewName p.1 ∉ existing := by
  have hkept : Kept existing (endState (joinLoop (fun _ _ => false) tables
      ⟨none,final1,final2,[],existing,[],[]⟩)) := kept_joinLoop tables final1 final2
  obtain ⟨s,hs⟩ : ∃ s, joinLoop (fun _ _ => false) tables ⟨none,final1,final2,[],existing,[],[]⟩ =
      .ok s := by
    rw [joinLoop_eq]
    exact foldlM_ok (fun s p _ => ⟨_,rfl⟩) _
  rw [hs] at hkept
  have hstate := createNormalViewWithJoin_state (fun _ _ => false) tables final1 final2 existing
  rw [hs] at hstate
  have hnoerror : (createNormalViewWithJoin (fun _ _ => false) tables final1 final2 existing).1 ≠
      .queryError := by
    unfold createNormalViewWithJoin
    rw [hs]
    dsimp only
    split <;> simp
  have hmem : ∀ p ∈ joinPairs tables, ownView final1 final2 p ∈ s.created ∧
      (ownView final1 final2 p).name ∈ s.viewName.toList := by
    intro p hp
    have hcreated := hjoined.all hnoerror p hp
    have hdropped := hjoined.gone _ hcreated
    rw [hstate] at hcreated hdropped
    rw [joinFinally_created] at hcreated
    rw [joinFinally_dropped hkept.undropped] at hdropped
    exact ⟨hcreated,hdropped⟩
  refine ⟨fun p hp q hq => ?_,fun p hp => hkept.fresh _ (hmem p hp).1⟩
  -- both names are the one that was dropped, and created views differ in their names
  have hsame : (ownView final1 final2 p).name = (ownView final1 final2 q).name := by
    have hp' := (hmem p hp).2
    have hq' := (hmem q hq).2
    rw [Option.mem_toList] at hp' hq'
    exact Option.mem_unique hp' hq'
  exact List.inj_on_of_nodup_map hkept.nodup (hmem p hp).1 (hmem q hq).1 hsame

section
variable (raises : List Query → Query → Bool) {tables : List Table} (final1 final2 : Option Bool)
  (existing : List Text)

theorem joined_of_no_pairs (hpairs : joinPairs tables = []) :
    Joined tables final1 final2 (createNormalViewWithJoin raises tables final1 final2 existing) := by
  have hend : endState (joinLoop raises tables ⟨none,final1,final2,[],existing,[],[]⟩) =
      ⟨none,final1,final2,[],existing,[],[]⟩ := by
    rw [joinLoop_eq,hpairs]
    rfl
  have hnone : (createNormalViewWithJoin raises tables final1 final2 existing).2.created = [] := by
    rw [createNormalViewWithJoin_state,joinFinally_created,hend]
  exact ⟨by simp [hnone],by simp [hpairs],by simp [hnone]⟩

theorem joined_of_same {p : Table × Table} (hp : p ∈ joinPairs tables)
    (hall : ∀ q ∈ joinPairs tables, ownView final1 final2 q = ownView final1 final2 p)
    (hfresh : joinViewName p.1 ∉ existing) :
    Joined tables final1 final2 (createNormalViewWithJoin raises tables final1 final2 existing) := by
  have hstate := createNormalViewWithJoin_state raises tables final1 final2 existing
  have hstart : OnlyView existing final1 final2 (ownView final1 final2 p)
      ⟨none,final1,final2,[],existing,[],[]⟩ :=
    ⟨⟨(List.append_nil _).symm,by simp,List.nodup_nil,rfl⟩,.inl rfl,.inl rfl,by simp⟩
  have honly : OnlyView existing final1 final2 (ownView final1 final2 p)
      (endState (joinLoop raises tables ⟨none,final1,final2,[],existing,[],[]⟩)) := by
    rw [joinLoop_eq]
    exact endState_foldlM (fun s q hq h => h.turn (hall q hq)) hstart
  refine ⟨?_,?_,?_⟩
  · intro v hv
    rw [hstate,joinFinally_created] at hv
    exact ⟨p,hp,(honly.only v hv).1⟩
  · intro hnoerror q hq
    rw [hstate,joinFinally_created,hall q hq]
    cases hloop : joinLoop raises tables ⟨none,final1,final2,[],existing,[],[]⟩ with
    | error s =>
      unfold createNormalViewWithJoin at hnoerror
      rw [hloop] at hnoerror
      exact absurd rfl hnoerror
    | ok s =>
      rw [joinLoop_eq] at hloop
      exact hstart.mem_of_loop hfresh (List.ne_nil_of_mem hp) hall hloop
  · intro v hv
    rw [hstate,joinFinally_created] at hv
    rw [hstate,joinFinally_dropped honly.kept.undropped,Option.mem_toList,(honly.only v hv).2,
      (honly.only v hv).1]

end

/-- The step creates the views of all pairs and drops them, whichever query raises, exactly if all
matching pairs ask for one and the same view and no table or view has its name. -/
theorem createNormalViewWithJoin_iff (tables : List Table) (final1 final2 : Option Bool)
    (existing : List Text) :
    (∀ raises, Joined tables final1 final2 (createNormalViewWithJoin raises tables final1 final2 existing)) ↔
      (∀ p ∈ joinPairs tables, ∀ q ∈ joinPairs tables,
        ownView final1 final2 p = ownView final1 final2 q) ∧
      ∀ p ∈ joinPairs tables, joinViewName p.1 ∉ existing := by
  constructor
  · intro h
    exact same_of_joined (h fun _ _ => false)
  · rintro ⟨hsame,hfresh⟩ raises
    cases hpairs : joinPairs tables with
    | nil => exact joined_of_no_pairs raises final1 final2 existing hpairs
    | cons p ps =>
      have hp : p ∈ joinPairs tables := by simp [hpairs]
      exact joined_of_same raises final1 final2 existing hp (fun q hq => hsame q hq p hp) (hfresh p hp)

/-- Two core tables, of which only the first has `FINAL`, each with a duplicate. -/
def twoPairs : List Table :=
  [⟨"ReplacingMergeTree_core".toList,"ReplacingMergeTree".toList,true,none⟩,
    ⟨"ReplacingMergeTree_core_duplicate".toList,"ReplacingMergeTree".toList,true,none⟩,
    ⟨"Log_core".toList,"Log".toList,false,none⟩,⟨"Log_core_duplicate".toList,"Log".toList,false,none⟩]

/-- The second view gets the flags of the first pair, and only the second view is dropped. -/
theorem createNormalViewWithJoin_twoPairs :
    (createNormalViewWithJoin (fun _ _ => false) twoPairs none none []).2.created =
        [⟨"ReplacingMergeTree_core_nview_join_final".toList,"ReplacingMergeTree_core".toList,true,
            "ReplacingMergeTree_core_duplicate".toList,true⟩,
          ⟨"Log_core_nview_join".toList,"Log_core".toList,true,"Log_core_duplicate".toList,true⟩] ∧
      (createNormalViewWithJoin (fun _ _ => false) twoPairs none none []).2.dropped =
        ["Log_core_nview_join".toList] ∧
      ¬ Joined twoPairs none none (createNormalViewWithJoin (fun _ _ => false) twoPairs none none []) := by
  have hcreated : (createNormalViewWithJoin (fun _ _ => false) twoPairs none none []).2.created =
      [⟨"ReplacingMergeTree_core_nview_join_final".toList,"ReplacingMergeTree_core".toList,true,
          "ReplacingMergeTree_core_duplicate".toList,true⟩,
        ⟨"Log_core_nview_join".toList,"Log_core".toList,true,"Log_core_duplicate".toList,true⟩] := by
    rfl
  have hdropped : (createNormalViewWithJoin (fun _ _ => false) twoPairs none none []).2.dropped =
      ["Log_core_nview_join".toList] := by
    rfl
  refine ⟨hcreated,hdropped,fun h => ?_⟩
  have hgone := h.gone _ (hcreated ▸ List.mem_cons_self)
  rw [hdropped] at hgone
  revert hgone
  decide +kernel

end ClickHouseRegression.Selects
