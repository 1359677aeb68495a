import Mathlib

/-! Threads that have a store remove rows. A request names the rows by a condition, and waits for the answer. The
store removes the rows of the requests under way in its own time, one by one or many at a time, those of several
requests in any order; all that is known of an answer is that no row of its request is there any more. -/
namespace ClickHouseRegression.Concurrent.Removal

variable {σ ρ κ ι : Type}

/-- The rows that are seen in a state, what the store can do while requests are under way, and when a request can
be answered. -/
structure Store (σ ρ κ : Type) where
  rows : σ → Multiset ρ
  works : (κ → Prop) → σ → σ → Prop
  answers : κ → σ → Prop

/-- Only rows of the requests under way disappear, no row appears, and an answer means that those of its request
are gone. -/
structure Store.Removes (S : Store σ ρ κ) (hits : κ → ρ → Bool) : Prop where
  works : ∀ underWay s s', S.works underWay s s' →
    ∃ removed, S.rows s = S.rows s' + removed ∧ ∀ row ∈ removed, ∃ c, underWay c ∧ hits c row = true
  answers : ∀ c s, S.answers c s → ∀ row ∈ S.rows s, hits c row = false

/-- What a thread does: it has rows removed, or goes on only when none of these rows is there. -/
inductive Action (κ : Type)
  | remove (c : κ)
  | expectNone (c : κ)

structure State (σ κ ι : Type) where
  store : σ
  left : ι → List (Action κ)
  waiting : ι → Option κ

def start (s : σ) (threads : ι → List (Action κ)) : State σ κ ι := ⟨s,threads,fun _ => none⟩

def State.Ended (x : State σ κ ι) : Prop := ∀ i, x.left i = [] ∧ x.waiting i = none

def removals (actions : List (Action κ)) : List κ :=
  actions.filterMap fun
    | .remove c => some c
    | .expectNone _ => none

section
variable [DecidableEq ι] (S : Store σ ρ κ) (hits : κ → ρ → Bool)

inductive Step : State σ κ ι → State σ κ ι → Prop
  | request {x : State σ κ ι} {i : ι} {c : κ} {rest : List (Action κ)} (hnext : x.left i = .remove c :: rest)
      (hidle : x.waiting i = none) :
    Step x { x with left := Function.update x.left i rest, waiting := Function.update x.waiting i (some c) }
  | work {x : State σ κ ι} {s' : σ} (h : S.works (fun c => ∃ i, x.waiting i = some c) x.store s') :
    Step x { x with store := s' }
  | answer {x : State σ κ ι} {i : ι} {c : κ} (hwaiting : x.waiting i = some c) (h : S.answers c x.store) :
    Step x { x with waiting := Function.update x.waiting i none }
  | goOn {x : State σ κ ι} {i : ι} {c : κ} {rest : List (Action κ)} (hnext : x.left i = .expectNone c :: rest)
      (hidle : x.waiting i = none) (h : ∀ row ∈ S.rows x.store, hits c row = false) :
    Step x { x with left := Function.update x.left i rest }

def Run : State σ κ ι → State σ κ ι → Prop := Relation.ReflTransGen (Step S hits)

end

/-- What is expected to be gone was requested before. -/
def Ordered (hits : κ → ρ → Bool) : List κ → List (Action κ) → Prop
  | _,[] => True
  | requested,.remove c :: rest => Ordered hits (c :: requested) rest
  | requested,.expectNone c :: rest =>
    (∃ c' ∈ requested, hits c' = hits c) ∧ Ordered hits requested rest

theorem removals_remove (c : κ) (rest : List (Action κ)) : removals (.remove c :: rest) = c :: removals rest := rfl

theorem removals_flatMap {α : Type} (f : α → List (Action κ)) (as : List α) :
    removals (as.flatMap f) = as.flatMap fun a => removals (f a) := by
  rw [removals,List.filterMap_flatMap]
  rfl

section
variable {hits : κ → ρ → Bool} {requested requested' : List κ} {first second : List (Action κ)}

theorem Ordered.mono (h : Ordered hits requested first) (hsub : requested ⊆ requested') :
    Ordered hits requested' first := by
  induction first generalizing requested requested' with
  | nil => trivial
  | cons a rest ih =>
    cases a with
    | remove c =>
      have hrest : Ordered hits (c :: requested) rest := h
      exact ih hrest (List.cons_subset_cons _ hsub)
    | expectNone c =>
      obtain ⟨⟨c',hc',heq⟩,hrest⟩ := h
      exact ⟨⟨c',hsub hc',heq⟩,ih hrest hsub⟩

theorem Ordered.append (hfirst : Ordered hits requested first) (hsecond : Ordered hits requested second) :
    Ordered hits requested (first ++ second) := by
  induction first generalizing requested with
  | nil => exact hsecond
  | cons a rest ih =>
    cases a with
    | remove c =>
      have hrest : Ordered hits (c :: requested) rest := hfirst
      exact ih hrest (hsecond.mono (List.subset_cons_self _ _))
    | expectNone c => exact ⟨hfirst.1,ih hfirst.2 hsecond⟩

theorem ordered_flatMap {α : Type} {f : α → List (Action κ)} (hf : ∀ a, Ordered hits [] (f a)) (as : List α) :
    Ordered hits [] (as.flatMap f) := by
  induction as with
  | nil => trivial
  | cons a as ih => exact (hf a).append ih

end

section
variable [DecidableEq ι] {S : Store σ ρ κ} {hits : κ → ρ → Bool} {s₀ : σ} {threads : ι → List (Action κ)}
  {x x' : State σ κ ι}

/-- The requests that a thread has made: the rows of all but the one it waits for are gone. -/
structure ThreadInvariant (S : Store σ ρ κ) (hits : κ → ρ → Bool) (x : State σ κ ι) (i : ι)
    (actions : List (Action κ)) (requested : List κ) : Prop where
  split : ∀ c, c ∈ removals actions ↔ c ∈ requested ∨ c ∈ removals (x.left i)
  ordered : Ordered hits requested (x.left i)
  waits : ∀ c, x.waiting i = some c → c ∈ requested
  gone : ∀ c ∈ requested, x.waiting i = some c ∨ ∀ row ∈ S.rows x.store, hits c row = false

/-- What is gone was in the requests of the threads. -/
structure Invariant (S : Store σ ρ κ) (hits : κ → ρ → Bool) (s₀ : σ) (threads : ι → List (Action κ))
    (x : State σ κ ι) : Prop where
  removed : ∃ removed, S.rows s₀ = S.rows x.store + removed ∧
    ∀ row ∈ removed, ∃ i, ∃ c ∈ removals (threads i), hits c row = true
  threads : ∀ i, ∃ requested, ThreadInvariant S hits x i (threads i) requested

omit [DecidableEq ι] in
theorem invariant_start (hordered : ∀ i, Ordered hits [] (threads i)) :
    Invariant S hits s₀ threads (start s₀ threads) where
  removed := ⟨0,(add_zero _).symm,fun row hrow => absurd hrow (Multiset.notMem_zero row)⟩
  threads i := by
    refine ⟨[],?_,hordered i,?_,?_⟩
    · exact fun c => ⟨Or.inr,fun h => h.resolve_left List.not_mem_nil⟩
    · exact fun c hc => nomatch hc
    · exact fun c hc => nomatch hc

omit [DecidableEq ι] in
/-- A thread to which nothing happens, while rows disappear. -/
theorem ThreadInvariant.frame {i : ι} {actions : List (Action κ)} {requested : List κ}
    (h : ThreadInvariant S hits x i actions requested) (hleft : x'.left i = x.left i)
    (hwaiting : x'.waiting i = x.waiting i) (hrows : S.rows x'.store ≤ S.rows x.store) :
    ThreadInvariant S hits x' i actions requested where
  split := by
    rw [hleft]
    exact h.split
  ordered := by
    rw [hleft]
    exact h.ordered
  waits := by
    rw [hwaiting]
    exact h.waits
  gone c hc := by
    rw [hwaiting]
    exact (h.gone c hc).imp_right fun hgone row hrow => hgone row (Multiset.mem_of_le hrows hrow)

theorem ThreadInvariant.frame_of_ne {i j : ι} {actions : List (Action κ)} {requested : List κ} {s : σ}
    (h : ThreadInvariant S hits x j actions requested) (hj : j ≠ i) (rest : List (Action κ)) (c : Option κ)
    (hs : S.rows s ≤ S.rows x.store) :
    ThreadInvariant S hits ⟨s,Function.update x.left i rest,Function.update x.waiting i c⟩ j actions requested :=
  h.frame (Function.update_of_ne hj _ _) (Function.update_of_ne hj _ _) hs

/-- One step, of any thread or of the store. -/
theorem Invariant.step (hS : S.Removes hits) (h : Invariant S hits s₀ threads x) (hstep : Step S hits x x') :
    Invariant S hits s₀ threads x' := by
  cases hstep with
  | @request i c rest hnext hidle =>
    refine ⟨h.removed,fun j => ?_⟩
    obtain ⟨requested,hj⟩ := h.threads j
    by_cases hji : j = i
    · subst hji
      have hsplit := hj.split
      have hordered := hj.ordered
      rw [hnext] at hsplit hordered
      refine ⟨c :: requested,?_,?_,?_,?_⟩
      · intro c'
        simp only [Function.update_self,hsplit c',removals_remove,List.mem_cons]
        tauto
      · simp only [Function.update_self]
        exact hordered
      · intro c' hc'
        simp only [Function.update_self] at hc'
        exact Option.some.inj hc' ▸ List.mem_cons_self
      · intro c' hc'
        simp only [Function.update_self]
        cases List.mem_cons.1 hc' with
        | inl heq => exact Or.inl (congrArg some heq.symm)
        | inr hold =>
          right
          exact (hj.gone c' hold).resolve_left (by rw [hidle]; exact fun h => nomatch h)
    · exact ⟨requested,hj.frame_of_ne hji rest (some c) le_rfl⟩
  | @work s' hworks =>
    obtain ⟨removed,hrows,hremoved⟩ := hS.works _ _ _ hworks
    obtain ⟨before,hbefore,hbeforeRows⟩ := h.removed
    constructor
    · refine ⟨removed+before,?_,?_⟩
      · rw [hbefore,hrows,add_assoc]
      · intro row hrow
        cases Multiset.mem_add.1 hrow with
        | inl hnow =>
          obtain ⟨c,⟨i,hi⟩,hhit⟩ := hremoved row hnow
          obtain ⟨requested,hthread⟩ := h.threads i
          exact ⟨i,c,(hthread.split c).2 (Or.inl (hthread.waits c hi)),hhit⟩
        | inr hold => exact hbeforeRows row hold
    · intro j
      obtain ⟨requested,hj⟩ := h.threads j
      exact ⟨requested,hj.frame rfl rfl (hrows ▸ Multiset.le_add_right _ _)⟩
  | @answer i c hwaiting hanswer =>
    refine ⟨h.removed,fun j => ?_⟩
    obtain ⟨requested,hj⟩ := h.threads j
    by_cases hji : j = i
    · subst hji
      refine ⟨requested,hj.split,hj.ordered,?_,?_⟩
      · intro c' hc'
        simp only [Function.update_self] at hc'
        cases hc'
      · intro c' hc'
        right
        cases hj.gone c' hc' with
        | inl hwaits =>
          have heq : c = c' := Option.some.inj (hwaiting.symm.trans hwaits)
          exact heq ▸ hS.answers c _ hanswer
        | inr hgone => exact hgone
    · exact ⟨requested,hj.frame rfl (Function.update_of_ne hji _ _) le_rfl⟩
  | @goOn i c rest hnext hidle hnone =>
    refine ⟨h.removed,fun j => ?_⟩
    obtain ⟨requested,hj⟩ := h.threads j
    by_cases hji : j = i
    · subst hji
      have hsplit := hj.split
      have hordered := hj.ordered
      rw [hnext] at hsplit hordered
      refine ⟨requested,?_,?_,hj.waits,hj.gone⟩
      · simp only [Function.update_self]
        exact hsplit
      · simp only [Function.update_self]
        exact hordered.2
    · exact ⟨requested,hj.frame (Function.update_of_ne hji _ _) rfl le_rfl⟩

theorem Run.invariant (hS : S.Removes hits) (hordered : ∀ i, Ordered hits [] (threads i))
    (hrun : Run S hits (start s₀ threads) x) : Invariant S hits s₀ threads x := by
  induction hrun with
  | refl => exact invariant_start hordered
  | tail _ hstep ih => exact ih.step hS hstep

/-- What a thread expects to be gone is gone: it never waits for it. -/
theorem Run.expectNone (hS : S.Removes hits) (hordered : ∀ i, Ordered hits [] (threads i))
    (hrun : Run S hits (start s₀ threads) x) {i : ι} {c : κ} {rest : List (Action κ)}
    (hnext : x.left i = .expectNone c :: rest) (hidle : x.waiting i = none) :
    ∀ row ∈ S.rows x.store, hits c row = false := by
  obtain ⟨requested,hi⟩ := (hrun.invariant hS hordered).threads i
  have hnow := hi.ordered
  rw [hnext] at hnow
  obtain ⟨⟨c',hc',heq⟩,_⟩ := hnow
  have hgone := (hi.gone c' hc').resolve_left (by rw [hidle]; exact fun h => nomatch h)
  exact heq ▸ hgone

/-- In the end the rows are left that no request of any thread names. -/
theorem Run.rows_of_ended (hS : S.Removes hits) (hordered : ∀ i, Ordered hits [] (threads i))
    (hrun : Run S hits (start s₀ threads) x) (hend : x.Ended) {kept : ρ → Bool}
    (hkept : ∀ row ∈ S.rows s₀, kept row = true ↔ ∀ i, ∀ c ∈ removals (threads i), hits c row = false) :
    S.rows x.store = (S.rows s₀).filter fun row => kept row = true := by
  have hinvariant := hrun.invariant hS hordered
  obtain ⟨removed,hrows,hremoved⟩ := hinvariant.removed
  have hleft : ∀ row ∈ S.rows x.store, kept row = true := by
    intro row hrow
    rw [hkept row (hrows ▸ Multiset.mem_add.2 (Or.inl hrow))]
    intro i c hc
    obtain ⟨requested,hi⟩ := hinvariant.threads i
    have hin : c ∈ requested := by
      refine ((hi.split c).1 hc).resolve_right ?_
      rw [(hend i).1]
      exact List.not_mem_nil
    exact (hi.gone c hin).resolve_left (by rw [(hend i).2]; exact fun h => nomatch h) row hrow
  have hgone : ∀ row ∈ removed, ¬ kept row = true := by
    intro row hrow hk
    obtain ⟨i,c,hc,hhit⟩ := hremoved row hrow
    rw [(hkept row (hrows ▸ Multiset.mem_add.2 (Or.inr hrow))).1 hk i c hc] at hhit
    cases hhit
  rw [hrows,Multiset.filter_add,Multiset.filter_eq_self.2 hleft,Multiset.filter_eq_nil.2 hgone,add_zero]

end

/-! A store that removes rows whenever it likes, and its runs. -/

/-- The rows are the state. -/
def anyTime (hits : κ → ρ → Bool) : Store (Multiset ρ) ρ κ where
  rows := id
  works underWay s s' := ∃ removed, s = s' + removed ∧ ∀ row ∈ removed, ∃ c, underWay c ∧ hits c row = true
  answers c s := ∀ row ∈ s, hits c row = false

theorem anyTime_removes (hits : κ → ρ → Bool) : (anyTime hits).Removes hits :=
  ⟨fun _ _ _ h => h,fun _ _ h => h⟩

section
variable [DecidableEq ι] {hits : κ → ρ → Bool}

/-- A thread can be run to its end while the others wait for nothing. -/
theorem anyTime_run_thread (i : ι) {requested : List κ} {actions : List (Action κ)}
    (hordered : Ordered hits requested actions) (s : Multiset ρ)
    (hgone : ∀ c ∈ requested, ∀ row ∈ s, hits c row = false) (left : ι → List (Action κ)) (hleft : left i = actions) :
    ∃ s' ≤ s, Run (anyTime hits) hits ⟨s,left,fun _ => none⟩ ⟨s',Function.update left i [],fun _ => none⟩ := by
  induction actions generalizing requested s left with
  | nil =>
    refine ⟨s,le_rfl,?_⟩
    rw [← hleft,Function.update_eq_self]
    exact .refl
  | cons a rest ih =>
    cases a with
    | remove c =>
      have hkeep : ∀ row ∈ s.filter fun row => hits c row = false, hits c row = false :=
        fun row hrow => (Multiset.mem_filter.1 hrow).2
      have hle : (s.filter fun row => hits c row = false) ≤ s := Multiset.filter_le _ _
      have hnone : ∀ c' ∈ c :: requested, ∀ row ∈ s.filter fun row => hits c row = false, hits c' row = false := by
        intro c' hc' row hrow
        cases List.mem_cons.1 hc' with
        | inl heq => exact heq ▸ hkeep row hrow
        | inr hold => exact hgone c' hold row (Multiset.mem_of_le hle hrow)
      obtain ⟨s',hs',hrun⟩ := ih hordered _ hnone (Function.update left i rest) (Function.update_self _ _ _)
      rw [Function.update_idem] at hrun
      refine ⟨s',hs'.trans hle,?_⟩
      have hwaiting : Function.update (fun _ : ι => (none : Option κ)) i (some c) i = some c := Function.update_self _ _ _
      have hrequest : Step (anyTime hits) hits ⟨s,left,fun _ => none⟩
          ⟨s,Function.update left i rest,Function.update (fun _ => none) i (some c)⟩ := .request hleft rfl
      have hwork : Step (anyTime hits) hits
          ⟨s,Function.update left i rest,Function.update (fun _ => none) i (some c)⟩
          ⟨s.filter fun row => hits c row = false,Function.update left i rest,
            Function.update (fun _ => none) i (some c)⟩ := by
        refine .work ⟨s.filter fun row => ¬ hits c row = false,(Multiset.filter_add_not _ s).symm,?_⟩
        intro row hrow
        exact ⟨c,⟨i,hwaiting⟩,Bool.not_eq_false _ ▸ (Multiset.mem_filter.1 hrow).2⟩
      have hanswer : Step (anyTime hits) hits
          ⟨s.filter fun row => hits c row = false,Function.update left i rest,
            Function.update (fun _ => none) i (some c)⟩
          ⟨s.filter fun row => hits c row = false,Function.update left i rest,fun _ => none⟩ := by
        have h : Step (anyTime hits) hits
            ⟨s.filter fun row => hits c row = false,Function.update left i rest,
              Function.update (fun _ => none) i (some c)⟩
            ⟨s.filter fun row => hits c row = false,Function.update left i rest,
              Function.update (Function.update (fun _ => none) i (some c)) i none⟩ := .answer hwaiting hkeep
        rwa [Function.update_idem,Function.update_eq_self] at h
      exact ((hrun.head hanswer).head hwork).head hrequest
    | expectNone c =>
      obtain ⟨⟨c',hc',heq⟩,hrest⟩ := hordered
      obtain ⟨s',hs',hrun⟩ := ih hrest s hgone (Function.update left i rest) (Function.update_self _ _ _)
      rw [Function.update_idem] at hrun
      refine ⟨s',hs',hrun.head ?_⟩
      exact .goOn hleft rfl (heq ▸ hgone c' hc')

end

/-- Two threads. -/
def pair (first second : List (Action κ)) : Bool → List (Action κ)
  | false => first
  | true => second

@[simp] theorem pair_false (first second : List (Action κ)) : pair first second false = first := rfl
@[simp] theorem pair_true (first second : List (Action κ)) : pair first second true = second := rfl

/-- Two threads on it can be run to the end. -/
theorem anyTime_exists_ended {hits : κ → ρ → Bool} (s : Multiset ρ) {first second : List (Action κ)}
    (hfirst : Ordered hits [] first) (hsecond : Ordered hits [] second) :
    ∃ x, Run (anyTime hits) hits (start s (pair first second)) x ∧ x.Ended := by
  obtain ⟨s',_,hrun⟩ := anyTime_run_thread false hfirst s (fun c hc => nomatch hc) (pair first second) rfl
  obtain ⟨s'',_,hrun'⟩ := anyTime_run_thread true hsecond s' (fun c hc => nomatch hc)
    (Function.update (pair first second) false []) rfl
  refine ⟨_,hrun.trans hrun',?_⟩
  intro i
  cases i with
  | false => exact ⟨rfl,rfl⟩
  | true => exact ⟨rfl,rfl⟩

end ClickHouseRegression.Concurrent.Removal
