import ClickHouseRegression.Interactive.Alone
import ClickHouseRegression.Rbac.GrantedPrivileges

/-! Creating a view with `SELECT` granted on some of its tables. The tests try all but the full set of tables,
which has to be denied, and then the full set. Which tables the server asks for is its own matter: a test tells
servers apart by it. -/
namespace ClickHouseRegression.Rbac
open Interactive

/-- `permutations`. -/
def permutations (tableCount : ℕ) : List ℕ := List.range ((1 <<< tableCount)-1)

namespace SelectOnTables

inductive Command
  | grantSelect (table target : Text)
  | revokeSelect (table target : Text)
  | dropView
  | createView

inductive Reply
  | ok
  | notEnoughPrivileges
  | alreadyExists
  deriving DecidableEq

inductive Failure
  | keyError
  | valueError
  | assertion

/-- The tables that each user or role may select from, the roles of the user, and whether there is the view. -/
structure State where
  selects : Text → Finset Text
  roles : Finset Text
  view : Bool

def State.effective (s : State) (user : Text) : Finset Text := s.selects user ∪ s.roles.biUnion s.selects

def State.setSelects (s : State) (target : Text) (tables : Finset Text) : State :=
  { s with selects := Function.update s.selects target tables }

/-- A server that asks for `SELECT` on the required tables when the user creates the view. -/
def exec (user : Text) (required : Finset Text) : Command → State → Reply × State
  | .grantSelect table target,s => (.ok,s.setSelects target (insert table (s.selects target)))
  | .revokeSelect table target,s => (.ok,s.setSelects target ((s.selects target).erase table))
  | .dropView,s => (.ok,{ s with view := false })
  | .createView,s =>
    if ¬ required ⊆ s.effective user then (.notEnoughPrivileges,s)
    else if s.view = true then (.alreadyExists,s)
    else (.ok,{ s with view := true })

abbrev Action (α : Type) := Program Command Reply Failure α

def query (command : Command) (expected : Reply) : Action Unit := .ask command fun reply =>
  Program.onlyIf (reply ≠ expected) (.fail .assertion)

/-- The `GRANT`s for the tables from the i-th on; `tables` has the bits of eight tables. -/
def grantLoop (grants : ℕ) (target : Text) : ℕ → List Text → Action (List Text)
  | _,[] => return []
  | i,table :: rest =>
    if 8 ≤ i then .fail .keyError
    else if hasBit grants i = true then do
      query (.grantSelect table target) .ok
      let granted ← grantLoop grants target (i+1) rest
      return table :: granted
    else grantLoop grants target (i+1) rest

def revokeLoop (target : Text) : List Text → Action Unit
  | [] => return ()
  | table :: rest => do
    query (.revokeSelect table target) .ok
    revokeLoop target rest

def grantSelectOnTable (grants : ℕ) (target : Text) (tableNames : List Text) (body : Action Unit) : Action Unit :=
  ((grantLoop grants target 0 tableNames).bind fun _ => body).ensure (revokeLoop target tableNames)

/-- `max(permutations(table_count)) + 1`. -/
def allGranted (tableCount : ℕ) : Action ℕ :=
  match (permutations tableCount).max? with
  | some m => return m+1
  | none => .fail .valueError

def attempt (expected : Reply) : Action Unit := do
  query .dropView .ok
  query .createView expected

/-- The attempts of the scenarios on views: `denied` are the tables that are granted in part, `granted` those
granted at last. -/
def attempts (tableCount : ℕ) (target : Text) (denied granted : List Text) : Action Unit := do
  query .createView .notEnoughPrivileges
  Program.forEach (fun permutation => grantSelectOnTable permutation target denied (attempt .notEnoughPrivileges))
    (permutations tableCount)
  let grants ← allGranted tableCount
  grantSelectOnTable grants target granted (attempt .ok)

def createView (tableCount : ℕ) (target : Text) (denied granted : List Text) : Action Unit :=
  (attempts tableCount target denied granted).ensure (query .dropView .ok)

/-! The scenarios on a server. -/

def chosenTables (grants : ℕ) : ℕ → List Text → List Text
  | _,[] => []
  | i,table :: rest =>
    if hasBit grants i = true then table :: chosenTables grants (i+1) rest else chosenTables grants (i+1) rest

section
variable {user target : Text} {required : Finset Text} {s : State}

@[simp] theorem setSelects_selects (tables : Finset Text) : (s.setSelects target tables).selects target = tables :=
  Function.update_self _ _ _

@[simp] theorem setSelects_setSelects (tables tables' : Finset Text) :
    (s.setSelects target tables).setSelects target tables' = s.setSelects target tables' := by
  simp only [State.setSelects,Function.update_idem]

theorem setSelects_self : s.setSelects target (s.selects target) = s := by
  rw [State.setSelects,Function.update_eq_self]

/-- The target of the grants is the user or a role of the user. -/
def Reaches (s : State) (user target : Text) : Prop := target = user ∨ target ∈ s.roles

theorem selects_subset_effective (ht : Reaches s user target) : s.selects target ⊆ s.effective user := by
  cases ht with
  | inl h => exact h ▸ Finset.subset_union_left
  | inr h => exact (Finset.subset_biUnion_of_mem s.selects h).trans Finset.subset_union_right

theorem selects_eq_empty (hs : s.effective user = ∅) (ht : Reaches s user target) : s.selects target = ∅ :=
  Finset.subset_empty.1 (hs ▸ selects_subset_effective ht)

theorem effective_setSelects (hs : s.effective user = ∅) (ht : Reaches s user target) (tables : Finset Text) :
    (s.setSelects target tables).effective user = tables := by
  have huser : s.selects user = ∅ := selects_eq_empty hs (.inl rfl)
  have hroles : ∀ role ∈ s.roles, s.selects role = ∅ := fun role hrole => selects_eq_empty hs (.inr hrole)
  ext table
  simp only [State.effective,State.setSelects,Finset.mem_union,Finset.mem_biUnion,Function.update_apply]
  constructor
  · intro h
    cases h with
    | inl h =>
      split at h
      · exact h
      · rw [huser] at h
        exact absurd h (Finset.notMem_empty _)
    | inr h =>
      obtain ⟨role,hrole,h⟩ := h
      split at h
      · exact h
      · rw [hroles role hrole] at h
        exact absurd h (Finset.notMem_empty _)
  · intro h
    cases ht with
    | inl heq => exact Or.inl (by rwa [if_pos heq.symm])
    | inr hrole => exact Or.inr ⟨target,hrole,by rwa [if_pos rfl]⟩

theorem eval_query (command : Command) (expected : Reply) :
    (query command expected).eval (exec user required) s =
      (if (exec user required command s).1 = expected then .ok () else .error .assertion,
        (exec user required command s).2) := by
  rw [query,Program.eval,Program.onlyIf]
  by_cases h : (exec user required command s).1 ≠ expected
  · rw [if_pos h,if_neg h]
    rfl
  · rw [if_neg h,if_pos (not_not.1 h)]
    rfl

theorem eval_grantLoop (grants i : ℕ) {names : List Text} (hlen : i+names.length ≤ 8) :
    (grantLoop grants target i names).eval (exec user required) s =
      (.ok (chosenTables grants i names),
        s.setSelects target (s.selects target ∪ (chosenTables grants i names).toFinset)) := by
  induction names generalizing i s with
  | nil =>
    rw [chosenTables,List.toFinset_nil,Finset.union_empty,setSelects_self]
    rfl
  | cons table rest ih =>
    rw [List.length_cons] at hlen
    rw [grantLoop,if_neg (by omega),chosenTables]
    split
    · have hgrant : (query (.grantSelect table target) .ok).eval (exec user required) s =
          (.ok (),s.setSelects target (insert table (s.selects target))) := by
        rw [eval_query]
        rfl
      have hrest := ih (i+1) (s := s.setSelects target (insert table (s.selects target))) (by omega)
      refine (Program.eval_bind_ok hgrant).trans ((Program.eval_bind_ok hrest).trans ?_)
      rw [setSelects_selects,setSelects_setSelects,List.toFinset_cons,Finset.insert_union,Finset.union_insert]
      rfl
    · exact ih (i+1) (by omega)

theorem eval_revokeLoop (names : List Text) :
    (revokeLoop target names).eval (exec user required) s =
      (.ok (),s.setSelects target (s.selects target \ names.toFinset)) := by
  induction names generalizing s with
  | nil =>
    rw [List.toFinset_nil,Finset.sdiff_empty,setSelects_self]
    rfl
  | cons table rest ih =>
    have hrevoke : (query (.revokeSelect table target) .ok).eval (exec user required) s =
        (.ok (),s.setSelects target ((s.selects target).erase table)) := by
      rw [eval_query]
      rfl
    refine (Program.eval_bind_ok hrevoke).trans (ih.trans ?_)
    rw [setSelects_selects,setSelects_setSelects,List.toFinset_cons,Finset.sdiff_insert,Finset.erase_sdiff_comm]

/-- The reply to the user who may select from the given tables. -/
def replyOf (required tables : Finset Text) : Reply := if required ⊆ tables then .ok else .notEnoughPrivileges

def verdict (reply expected : Reply) : Except Failure Unit := if reply = expected then .ok () else .error .assertion

theorem eval_attempt (expected : Reply) :
    (attempt expected).eval (exec user required) s =
      (verdict (replyOf required (s.effective user)) expected,
        { s with view := decide (required ⊆ s.effective user) }) := by
  have hdrop : (query .dropView .ok).eval (exec user required) s = (.ok (),{ s with view := false }) := by
    rw [eval_query]
    rfl
  have heffective : ({ s with view := false } : State).effective user = s.effective user := rfl
  have hcreate : exec user required .createView { s with view := false } =
      (replyOf required (s.effective user),{ s with view := decide (required ⊆ s.effective user) }) := by
    rw [exec,heffective,replyOf]
    by_cases h : required ⊆ s.effective user
    · rw [if_neg (not_not_intro h),if_pos h,decide_eq_true h]
      rfl
    · rw [if_pos h,if_neg h,decide_eq_false h]
  refine (Program.eval_bind_ok hdrop).trans ?_
  rw [eval_query,hcreate]
  rfl

theorem chosenTables_sublist (grants i : ℕ) (names : List Text) : (chosenTables grants i names).Sublist names := by
  induction names generalizing i with
  | nil => exact List.Sublist.refl _
  | cons table rest ih =>
    rw [chosenTables]
    split
    · exact (ih (i+1)).cons_cons table
    · exact (ih (i+1)).cons table

/-- The attempt with some of the tables granted; the grants do not stay. -/
theorem eval_grantSelectOnTable (required : Finset Text) (hs : s.effective user = ∅) (ht : Reaches s user target) {names : List Text}
    (hlen : names.length ≤ 8) (grants : ℕ) (expected : Reply) :
    (grantSelectOnTable grants target names (attempt expected)).eval (exec user required) s =
      (verdict (replyOf required (chosenTables grants 0 names).toFinset) expected,
        { s with view := decide (required ⊆ (chosenTables grants 0 names).toFinset) }) := by
  have hempty := selects_eq_empty hs ht
  have hgrant : (grantLoop grants target 0 names).eval (exec user required) s =
      (.ok (chosenTables grants 0 names),
        s.setSelects target (s.selects target ∪ (chosenTables grants 0 names).toFinset)) :=
    eval_grantLoop grants 0 (by omega)
  rw [hempty,Finset.empty_union] at hgrant
  have hbody := Program.eval_bind_ok hgrant (f := fun _ => attempt expected)
  rw [eval_attempt,effective_setSelects hs ht] at hbody
  rw [grantSelectOnTable,Program.eval_ensure hbody (eval_revokeLoop names)]
  congr 1
  have hsub : (chosenTables grants 0 names).toFinset \ names.toFinset = ∅ := by
    rw [Finset.sdiff_eq_empty_iff_subset]
    intro table htable
    exact List.mem_toFinset.2 ((chosenTables_sublist grants 0 names).subset (List.mem_toFinset.1 htable))
  have hselects : Function.update s.selects target ∅ = s.selects := by
    rw [← hempty,Function.update_eq_self]
  simp only [State.setSelects,Function.update_self,Function.update_idem,hsub,hselects]

theorem chosenTables_all {n : ℕ} (i : ℕ) {names : List Text} (h : i+names.length ≤ n) :
    chosenTables (2^n-1) i names = names := by
  induction names generalizing i with
  | nil => rfl
  | cons table rest ih =>
    rw [List.length_cons] at h
    have hbit : hasBit (2^n-1) i = true := by
      rw [hasBit_eq_testBit,Nat.testBit_two_pow_sub_one]
      exact decide_eq_true (by omega)
    rw [chosenTables,if_pos hbit,ih (i+1) (by omega)]

theorem eval_allGranted {tableCount : ℕ} (h : 0 < tableCount) :
    (allGranted tableCount).eval (exec user required) s = (.ok (2^tableCount-1),s) := by
  obtain ⟨k,hk⟩ : ∃ k, 2^tableCount-1 = k+1 := by
    have htwo : 2^1 ≤ 2^tableCount := Nat.pow_le_pow_right (by decide) h
    exact ⟨2^tableCount-2,by omega⟩
  have hmax : (permutations tableCount).max? = some k := by
    rw [permutations,Nat.one_shiftLeft,hk,List.max?_eq_some_iff]
    exact ⟨List.mem_range.2 (Nat.lt_succ_self k),fun b hb => Nat.le_of_lt_succ (List.mem_range.1 hb)⟩
  rw [allGranted,hmax,hk]
  rfl

theorem eval_dropView : (query .dropView .ok).eval (exec user required) s = (.ok (),{ s with view := false }) := by
  rw [eval_query]
  rfl

section
variable (hs : s.effective user = ∅) (ht : Reaches s user target) (hview : s.view = false)
include hs hview

theorem eval_createView_first (required : Finset Text) :
    (query .createView .notEnoughPrivileges).eval (exec user required) s =
      (verdict (replyOf required ∅) .notEnoughPrivileges,if required ⊆ ∅ then { s with view := true } else s) := by
  rw [eval_query,exec,hs,replyOf,hview]
  by_cases h : required ⊆ ∅
  · rw [if_neg (not_not_intro h),if_pos h,if_pos h,if_neg Bool.false_ne_true]
    rfl
  · rw [if_pos h,if_neg h,if_neg h]
    rfl

include ht

/-- One turn of the loop passes without a trace, or fails. -/
theorem eval_turn (required : Finset Text) {denied : List Text} (hdenied : denied.length ≤ 8) (g : ℕ) :
    (¬ required ⊆ (chosenTables g 0 denied).toFinset ∧
      (grantSelectOnTable g target denied (attempt .notEnoughPrivileges)).eval (exec user required) s = (.ok (),s)) ∨
    required ⊆ (chosenTables g 0 denied).toFinset ∧ ∃ e s',
      (grantSelectOnTable g target denied (attempt .notEnoughPrivileges)).eval (exec user required) s =
        (.error e,s') := by
  have heval := eval_grantSelectOnTable required hs ht hdenied g .notEnoughPrivileges
  by_cases h : required ⊆ (chosenTables g 0 denied).toFinset
  · rw [replyOf,if_pos h] at heval
    exact Or.inr ⟨h,_,_,heval⟩
  · rw [replyOf,if_neg h,decide_eq_false h,← hview] at heval
    exact Or.inl ⟨h,heval⟩

theorem eval_attempts_ok_iff {tableCount : ℕ} {denied granted : List Text} (hcount : 0 < tableCount)
    (hdenied : denied.length ≤ 8) (hgranted : granted.length ≤ 8) (hall : granted.length ≤ tableCount) :
    ((attempts tableCount target denied granted).eval (exec user required) s).1 = .ok () ↔
      (∀ g ∈ permutations tableCount, ¬ required ⊆ (chosenTables g 0 denied).toFinset) ∧
        required ⊆ granted.toFinset := by
  have hfirst := eval_createView_first hs hview required
  by_cases hnone : required ⊆ ∅
  · -- already the first attempt is not denied
    have hzero : 0 ∈ permutations tableCount := by
      have htwo : 2^1 ≤ 2^tableCount := Nat.pow_le_pow_right (by decide) hcount
      rw [permutations,Nat.one_shiftLeft]
      exact List.mem_range.2 (by omega)
    rw [replyOf,if_pos hnone] at hfirst
    have heval : (attempts tableCount target denied granted).eval (exec user required) s =
        (.error .assertion,_) := Program.eval_bind_error hfirst
    rw [heval]
    exact ⟨fun h => (nomatch h),fun h => absurd (hnone.trans (Finset.empty_subset _)) (h.1 0 hzero)⟩
  · rw [replyOf,if_neg hnone,if_neg hnone] at hfirst
    have hturn := eval_turn hs ht hview required hdenied
    have hturns : ∀ g ∈ permutations tableCount, _ := fun g _ => (hturn g).imp And.right And.right
    have hloop := Program.eval_forEach hturns
    cases hloop with
    | inl hloop =>
      have hdeny : ∀ g ∈ permutations tableCount, ¬ required ⊆ (chosenTables g 0 denied).toFinset := by
        intro g hg h
        cases hturn g with
        | inl hturn => exact hturn.1 h
        | inr hturn =>
          obtain ⟨_,e,s',he⟩ := hturn
          exact nomatch (hloop.2 g hg).symm.trans he
      have hlast := eval_grantSelectOnTable required hs ht hgranted (2^tableCount-1) .ok
      rw [chosenTables_all 0 (by omega)] at hlast
      have heval : (attempts tableCount target denied granted).eval (exec user required) s =
          (verdict (replyOf required granted.toFinset) .ok,_) :=
        (Program.eval_bind_ok hfirst).trans ((Program.eval_bind_ok hloop.1).trans
          ((Program.eval_bind_ok (eval_allGranted hcount)).trans hlast))
      rw [heval,replyOf]
      by_cases hsub : required ⊆ granted.toFinset
      · rw [if_pos hsub]
        exact ⟨fun _ => ⟨hdeny,hsub⟩,fun _ => rfl⟩
      · rw [if_neg hsub]
        exact ⟨fun h => (nomatch h),fun h => absurd h.2 hsub⟩
    | inr hloop =>
      obtain ⟨⟨e,s',he⟩,g,hg,_,_,hturned⟩ := hloop
      have heval : (attempts tableCount target denied granted).eval (exec user required) s = (.error e,s') :=
        (Program.eval_bind_ok hfirst).trans (Program.eval_bind_error he)
      rw [heval]
      refine ⟨fun h => (nomatch h),fun h => ?_⟩
      cases hturn g with
      | inl hturn => exact nomatch hturn.2.symm.trans hturned
      | inr hturn => exact absurd hturn.1 (h.1 g hg)

/-- A scenario passes exactly on the servers that ask for more than any of the sets that it tries first, and
for no more than the last one. -/
theorem eval_createView_ok_iff {tableCount : ℕ} {denied granted : List Text} (hcount : 0 < tableCount)
    (hdenied : denied.length ≤ 8) (hgranted : granted.length ≤ 8) (hall : granted.length ≤ tableCount) :
    ((createView tableCount target denied granted).eval (exec user required) s).1 = .ok () ↔
      (∀ g ∈ permutations tableCount, ¬ required ⊆ (chosenTables g 0 denied).toFinset) ∧
        required ⊆ granted.toFinset := by
  rw [← eval_attempts_ok_iff hs ht hview hcount hdenied hgranted hall,createView,
    Program.eval_ensure (Prod.mk.eta.symm) eval_dropView]

end

end

theorem chosenTables_filter (q : Text → Bool) {grants : ℕ} (i : ℕ) {names : List Text}
    (h : ∀ j, ∀ hj : j < names.length, hasBit grants (i+j) = q names[j]) :
    chosenTables grants i names = names.filter q := by
  induction names generalizing i with
  | nil => rfl
  | cons table rest ih =>
    have hfirst : hasBit grants i = q table := h 0 (Nat.zero_lt_succ _)
    have hrest : chosenTables grants (i+1) rest = rest.filter q := by
      apply ih
      intro j hj
      have hnext := h (j+1) (Nat.succ_lt_succ hj)
      rwa [Nat.add_left_comm,Nat.add_comm] at hnext
    rw [chosenTables,hfirst,hrest]
    cases hq : q table with
    | true => rw [if_pos rfl,List.filter_cons_of_pos hq]
    | false => rw [if_neg Bool.false_ne_true,List.filter_cons_of_neg (by simp [hq])]

/-- Any of the tables can be left out alone. -/
theorem exists_chosenTables {names : List Text} {table : Text} (ht : table ∈ names) :
    ∃ g ∈ permutations names.length, chosenTables g 0 names = names.filter (· ≠ table) := by
  have hbits : ∀ j, ∀ hj : j < names.length,
      hasBit (Nat.ofBits fun i : Fin names.length => decide (names[i] ≠ table)) (0+j) =
        decide (names[j] ≠ table) := by
    intro j hj
    rw [Nat.zero_add,hasBit_eq_testBit,Nat.testBit_ofBits_lt _ _ hj]
    rfl
  refine ⟨Nat.ofBits fun i : Fin names.length => decide (names[i] ≠ table),?_,chosenTables_filter _ 0 hbits⟩
  have hlt := Nat.ofBits_lt_two_pow fun i : Fin names.length => decide (names[i] ≠ table)
  have hne : Nat.ofBits (fun i : Fin names.length => decide (names[i] ≠ table)) ≠ 2^names.length-1 := by
    intro heq
    obtain ⟨j,hj,hget⟩ := List.getElem_of_mem ht
    have hbit := hbits j hj
    rw [heq,Nat.zero_add,hasBit_eq_testBit,Nat.testBit_two_pow_sub_one,decide_eq_true hj,hget] at hbit
    exact absurd hbit.symm (by simp)
  rw [permutations,Nat.one_shiftLeft]
  exact List.mem_range.2 (by omega)

/-- If all tables are chosen then all bits are set. -/
theorem hasBit_of_chosenTables {grants : ℕ} (i : ℕ) {names : List Text} (h : chosenTables grants i names = names) :
    ∀ j < names.length, hasBit grants (i+j) = true := by
  induction names generalizing i with
  | nil => exact fun j hj => absurd hj (Nat.not_lt_zero j)
  | cons table rest ih =>
    rw [chosenTables] at h
    split at h
    · next hbit =>
      intro j hj
      cases j with
      | zero => exact hbit
      | succ j =>
        have hnext := ih (i+1) (List.cons.inj h).2 j (Nat.lt_of_succ_lt_succ hj)
        rwa [Nat.add_right_comm,Nat.add_assoc] at hnext
    · exact absurd (congrArg List.length h) (by
        have hle := (chosenTables_sublist grants (i+1) rest).length_le
        rw [List.length_cons]
        omega)

/-- Each permutation leaves a table out. -/
theorem not_subset_chosenTables {names : List Text} (hnodup : names.Nodup) {g : ℕ}
    (hg : g ∈ permutations names.length) : ¬ names.toFinset ⊆ (chosenTables g 0 names).toFinset := by
  intro hsub
  have hsublist := chosenTables_sublist g 0 names
  have hlen : names.length ≤ (chosenTables g 0 names).length := by
    rw [← List.toFinset_card_of_nodup hnodup]
    exact (Finset.card_le_card hsub).trans (List.toFinset_card_le _)
  have hbits := hasBit_of_chosenTables 0 (hsublist.eq_of_length_le hlen)
  have hall : g = 2^names.length-1 := by
    rw [permutations,Nat.one_shiftLeft] at hg
    have hlt := List.mem_range.1 hg
    apply Nat.eq_of_testBit_eq
    intro i
    rw [Nat.testBit_two_pow_sub_one]
    by_cases hi : i < names.length
    · rw [decide_eq_true hi,← hasBit_eq_testBit,← Nat.zero_add i]
      exact hbits i hi
    · rw [decide_eq_false hi]
      apply Nat.testBit_lt_two_pow
      have hpow : 2^names.length ≤ 2^i := Nat.pow_le_pow_right (by decide) (not_lt.1 hi)
      omega
  rw [permutations,Nat.one_shiftLeft,List.mem_range,hall] at hg
  exact absurd hg (Nat.lt_irrefl _)

section
variable {user target : Text} {required : Finset Text} {s : State}

/-- The scenarios that try all sets of the tables of the query tell the right server from all others. -/
theorem createView_exact (hs : s.effective user = ∅) (ht : Reaches s user target) (hview : s.view = false)
    {names : List Text} (hne : names ≠ []) (hnodup : names.Nodup) (hlen : names.length ≤ 8) :
    ((createView names.length target names names).eval (exec user required) s).1 = .ok () ↔
      required = names.toFinset := by
  rw [eval_createView_ok_iff hs ht hview (List.length_pos_of_ne_nil hne) hlen hlen le_rfl]
  constructor
  · intro h
    apply Finset.Subset.antisymm h.2
    intro table htable
    by_contra hnot
    obtain ⟨g,hg,hchosen⟩ := exists_chosenTables (List.mem_toFinset.1 htable)
    apply h.1 g hg
    intro t hrequired
    rw [hchosen,List.mem_toFinset,List.mem_filter]
    refine ⟨List.mem_toFinset.1 (h.2 hrequired),decide_eq_true ?_⟩
    exact fun heq => hnot (heq ▸ hrequired)
  · intro h
    rw [h]
    exact ⟨fun g hg => not_subset_chosenTables hnodup hg,Finset.Subset.refl _⟩

theorem createView_exact_join :
    ((createView 2 "role".toList ["table0".toList,"table1".toList] ["table0".toList,"table1".toList]).eval
        (exec "user".toList {"table0".toList,"table1".toList}) ⟨fun _ => ∅,{"role".toList},false⟩).1 = .ok () ↔
      ({"table0".toList,"table1".toList} : Finset Text) = ["table0".toList,"table1".toList].toFinset :=
  createView_exact (by decide) (.inr (Finset.mem_singleton_self _)) rfl (List.cons_ne_nil _ _) (by decide) (by decide)

end

end SelectOnTables

end ClickHouseRegression.Rbac
