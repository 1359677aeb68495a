import Mathlib

/-! Workers that take items from one list until it is empty. A worker tests the list, takes a lock, pops
the last item, gives the lock back and works on the item. The test is made without the lock, so the list
can be empty when the item is popped: this worker fails. -/
namespace ClickHouseRegression.Concurrent.WorkQueue

variable {ι β : Type}

/-- Where a worker is. With `leaving` it still has the lock, and an item unless there was none. -/
inductive Phase (β : Type)
  | testing
  | entering
  | holding
  | leaving (item : Option β)
  | working (item : β)
  | finished
  | failed

namespace Phase

def Locked : Phase β → Prop
  | holding => True
  | leaving _ => True
  | _ => False

/-- The items that a worker has taken and not yet worked on. -/
def items : Phase β → Multiset β
  | leaving (some item) => {item}
  | working item => {item}
  | _ => 0

/-- The worker has seen that the list is empty. -/
def SawEmpty : Phase β → Prop
  | leaving none => True
  | finished => True
  | failed => True
  | _ => False

/-- The worker cannot fail any more once the list is empty. -/
def Safe : Phase β → Prop
  | testing => True
  | leaving (some _) => True
  | working _ => True
  | finished => True
  | _ => False

def Stopped : Phase β → Prop
  | finished => True
  | failed => True
  | _ => False

/-- The number of steps that a worker can make without popping. -/
def weight : Phase β → ℕ
  | testing => 5
  | entering => 4
  | holding => 3
  | leaving none => 1
  | leaving (some _) => 7
  | working _ => 6
  | finished => 0
  | failed => 0

end Phase

structure State (ι β : Type) where
  queue : List β
  lock : Option ι
  workers : ι → Phase β
  /-- The items that were worked on, in this order. -/
  done : List β

def start (queue : List β) : State ι β := ⟨queue,none,fun _ => .testing,[]⟩

section
variable [DecidableEq ι]

/-- One step of a worker. -/
inductive Step (i : ι) : State ι β → State ι β → Prop
  | more {s : State ι β} (hphase : s.workers i = .testing) (hqueue : s.queue ≠ []) :
    Step i s { s with workers := Function.update s.workers i .entering }
  | stop {s : State ι β} (hphase : s.workers i = .testing) (hqueue : s.queue = []) :
    Step i s { s with workers := Function.update s.workers i .finished }
  | acquire {s : State ι β} (hphase : s.workers i = .entering) (hlock : s.lock = none) :
    Step i s { s with lock := some i, workers := Function.update s.workers i .holding }
  | pop {s : State ι β} {rest : List β} {item : β} (hphase : s.workers i = .holding)
      (hqueue : s.queue = rest ++ [item]) :
    Step i s { s with queue := rest, workers := Function.update s.workers i (.leaving (some item)) }
  | popEmpty {s : State ι β} (hphase : s.workers i = .holding) (hqueue : s.queue = []) :
    Step i s { s with workers := Function.update s.workers i (.leaving none) }
  | release {s : State ι β} {item : β} (hphase : s.workers i = .leaving (some item)) :
    Step i s { s with lock := none, workers := Function.update s.workers i (.working item) }
  | raise {s : State ι β} (hphase : s.workers i = .leaving none) :
    Step i s { s with lock := none, workers := Function.update s.workers i .failed }
  | work {s : State ι β} {item : β} (hphase : s.workers i = .working item) :
    Step i s { s with done := s.done ++ [item], workers := Function.update s.workers i .testing }

/-- The number of steps is counted. -/
inductive Run : ℕ → State ι β → State ι β → Prop
  | refl (s : State ι β) : Run 0 s s
  | step {n : ℕ} {s s' s'' : State ι β} (i : ι) (h : Run n s s') (hstep : Step i s' s'') : Run (n+1) s s''

/-- A worker can make a step unless it has stopped or waits for the lock. -/
theorem exists_step (s : State ι β) (i : ι) :
    (∃ s', Step i s s') ∨ (s.workers i).Stopped ∨ s.workers i = .entering ∧ s.lock ≠ none := by
  cases hphase : s.workers i with
  | testing =>
    by_cases hqueue : s.queue = []
    · exact Or.inl ⟨_,.stop hphase hqueue⟩
    · exact Or.inl ⟨_,.more hphase hqueue⟩
  | entering =>
    by_cases hlock : s.lock = none
    · exact Or.inl ⟨_,.acquire hphase hlock⟩
    · exact Or.inr (Or.inr ⟨rfl,hlock⟩)
  | holding =>
    cases s.queue.eq_nil_or_concat' with
    | inl hqueue => exact Or.inl ⟨_,.popEmpty hphase hqueue⟩
    | inr hqueue =>
      obtain ⟨rest,item,hqueue⟩ := hqueue
      exact Or.inl ⟨_,.pop hphase hqueue⟩
  | leaving item =>
    cases item with
    | none => exact Or.inl ⟨_,.raise hphase⟩
    | some item => exact Or.inl ⟨_,.release hphase⟩
  | working item => exact Or.inl ⟨_,.work hphase⟩
  | finished => exact Or.inr (Or.inl trivial)
  | failed => exact Or.inr (Or.inl trivial)

section
variable {s : State ι β} {i : ι} {phase : Phase β} {queue : List β}

/-- A step that neither takes the lock nor gives it back. -/
theorem locked_update (hs : ∀ j, (s.workers j).Locked ↔ s.lock = some j)
    (h : phase.Locked ↔ (s.workers i).Locked) (j : ι) :
    (Function.update s.workers i phase j).Locked ↔ s.lock = some j := by
  by_cases hj : j = i
  · subst hj
    rw [Function.update_self,h]
    exact hs j
  · rw [Function.update_of_ne hj]
    exact hs j

theorem locked_acquire (hs : ∀ j, (s.workers j).Locked ↔ s.lock = some j) (hlock : s.lock = none) (j : ι) :
    (Function.update s.workers i .holding j).Locked ↔ some i = some j := by
  by_cases hj : j = i
  · subst hj
    rw [Function.update_self]
    exact ⟨fun _ => rfl,fun _ => trivial⟩
  · rw [Function.update_of_ne hj,hs j,hlock]
    constructor
    · intro h
      cases h
    · intro h
      exact absurd (Option.some.inj h).symm hj

theorem locked_release (hs : ∀ j, (s.workers j).Locked ↔ s.lock = some j) (hi : (s.workers i).Locked)
    (hphase : ¬ phase.Locked) (j : ι) : (Function.update s.workers i phase j).Locked ↔ none = some j := by
  by_cases hj : j = i
  · subst hj
    rw [Function.update_self]
    exact ⟨fun h => absurd h hphase,fun h => nomatch h⟩
  · rw [Function.update_of_ne hj,hs j,(hs i).1 hi]
    constructor
    · intro h
      exact absurd (Option.some.inj h).symm hj
    · intro h
      cases h

theorem sawEmpty_update (hs : ∀ j, (s.workers j).SawEmpty → s.queue = []) (hsub : s.queue = [] → queue = [])
    (h : phase.SawEmpty → queue = []) (j : ι) :
    (Function.update s.workers i phase j).SawEmpty → queue = [] := by
  by_cases hj : j = i
  · subst hj
    rw [Function.update_self]
    exact h
  · rw [Function.update_of_ne hj]
    exact fun hsaw => hsub (hs j hsaw)

theorem safe_update (hs : ∃ j, (s.workers j).Safe) (h : (s.workers i).Safe → phase.Safe) :
    ∃ j, (Function.update s.workers i phase j).Safe := by
  obtain ⟨j,hj⟩ := hs
  by_cases hji : j = i
  · subst hji
    exact ⟨j,by rw [Function.update_self]; exact h hj⟩
  · exact ⟨j,by rwa [Function.update_of_ne hji]⟩

theorem safe_self (h : phase.Safe) : ∃ j, (Function.update s.workers i phase j).Safe :=
  ⟨i,by rwa [Function.update_self]⟩

end

theorem Run.trans {m n : ℕ} {s s' s'' : State ι β} (h : Run m s s') (h' : Run n s' s'') : Run (m+n) s s'' := by
  induction h' with
  | refl => exact h
  | step i _ hstep ih => exact Run.step i (ih h) hstep

/-- One worker takes an item and works on it while the others wait. -/
theorem run_round (i : ι) (rest done : List β) (item : β) :
    Run 5 (⟨rest ++ [item],none,fun _ => .testing,done⟩ : State ι β)
      ⟨rest,none,fun _ => .testing,done ++ [item]⟩ := by
  have hmore := Run.step i (Run.refl (⟨rest ++ [item],none,fun _ => .testing,done⟩ : State ι β))
    (.more rfl (by simp))
  have hacquire := hmore.step i (.acquire (Function.update_self _ _ _) rfl)
  have hpop := hacquire.step i (.pop (Function.update_self _ _ _) rfl)
  have hrelease := hpop.step i (.release (Function.update_self _ _ _))
  have hwork := hrelease.step i (.work (Function.update_self _ _ _))
  simp only [Function.update_idem,Function.update_eq_self] at hwork
  exact hwork

/-- One worker works on all items but the first one. -/
theorem run_drain (i : ι) (item : β) (rest done : List β) :
    ∃ n done', Run n (⟨item :: rest,none,fun _ => .testing,done⟩ : State ι β)
      ⟨[item],none,fun _ => .testing,done'⟩ := by
  induction rest using List.reverseRecOn generalizing done with
  | nil => exact ⟨0,done,Run.refl _⟩
  | append_singleton rest last ih =>
    obtain ⟨n,done',hrun⟩ := ih (done ++ [last])
    exact ⟨5+n,done',(run_round i (item :: rest) done last).trans hrun⟩

/-- Two workers see the last item, and one of them finds the list empty. -/
theorem run_race {i j : ι} (hij : i ≠ j) (item : β) (done : List β) :
    ∃ s, Run 8 (⟨[item],none,fun _ => .testing,done⟩ : State ι β) s ∧ s.workers j = .failed := by
  have hfirst := Run.step i (Run.refl (⟨[item],none,fun _ => .testing,done⟩ : State ι β))
    (.more rfl (by simp))
  have hsecond := hfirst.step j (.more (Function.update_of_ne hij.symm _ _) (by simp))
  have hacquire := hsecond.step i (.acquire (by simp [hij]) rfl)
  have hpop := hacquire.step i (.pop (Function.update_self _ _ _) (List.nil_append [item]).symm)
  have hrelease := hpop.step i (.release (Function.update_self _ _ _))
  have hacquire' := hrelease.step j (.acquire (by simp [hij.symm]) rfl)
  have hpopEmpty := hacquire'.step j (.popEmpty (Function.update_self _ _ _) rfl)
  have hraise := hpopEmpty.step j (.raise (Function.update_self _ _ _))
  exact ⟨_,hraise,Function.update_self _ _ _⟩

/-- With nothing to do, the workers stop after their first test. -/
theorem Run.of_nil {n : ℕ} {s : State ι β} (h : Run n (start []) s) :
    s.queue = [] ∧ ∀ i, s.workers i = .testing ∨ s.workers i = .finished := by
  generalize hstart : (start [] : State ι β) = s₀ at h
  induction h with
  | refl =>
    subst hstart
    exact ⟨rfl,fun _ => Or.inl rfl⟩
  | step i _ hstep ih =>
    obtain ⟨hqueue,hphases⟩ := ih hstart
    have hi := hphases i
    cases hstep with
    | more _ hne => exact absurd hqueue hne
    | stop _ _ =>
      refine ⟨hqueue,?_⟩
      intro j
      by_cases hj : j = i
      · subst hj
        exact Or.inr (Function.update_self _ _ _)
      · change Function.update _ i _ j = _ ∨ Function.update _ i _ j = _
        rw [Function.update_of_ne hj]
        exact hphases j
    | acquire hphase _ => simp [hphase] at hi
    | pop hphase _ => simp [hphase] at hi
    | popEmpty hphase _ => simp [hphase] at hi
    | release hphase => simp [hphase] at hi
    | raise hphase => simp [hphase] at hi
    | work hphase => simp [hphase] at hi

section
variable [Fintype ι]

/-- What holds in every state of a run over the items `all`. -/
structure Invariant (all : List β) (s : State ι β) : Prop where
  locked : ∀ i, (s.workers i).Locked ↔ s.lock = some i
  conserved : (s.queue : Multiset β) + (∑ i, (s.workers i).items) + (s.done : Multiset β) = all
  sawEmpty : ∀ i, (s.workers i).SawEmpty → s.queue = []
  safe : s.queue = [] → ∃ i, (s.workers i).Safe

def measure (s : State ι β) : ℕ := 5*s.queue.length + ∑ i, (s.workers i).weight

/-- A sum over the workers before and after one of them changes. -/
theorem sum_update {M : Type} [AddCommMonoid M] (f : Phase β → M) (workers : ι → Phase β) (i : ι)
    (phase : Phase β) :
    ∃ others, ∑ j, f (workers j) = f (workers i) + others ∧
      ∑ j, f (Function.update workers i phase j) = f phase + others := by
  refine ⟨∑ j ∈ Finset.univ.erase i, f (workers j),?_,?_⟩
  · exact (Finset.add_sum_erase Finset.univ (fun j => f (workers j)) (Finset.mem_univ i)).symm
  · have hupdate : (fun j => f (Function.update workers i phase j)) =
        Function.update (fun j => f (workers j)) i (f phase) := by
      funext j
      exact Function.apply_update (fun _ => f) workers i phase j
    rw [hupdate,Finset.sum_update_of_mem (Finset.mem_univ i),Finset.sdiff_singleton_eq_erase]

section
variable {s : State ι β} {i : ι} {phase : Phase β} {all queue done : List β} {lock : Option ι}

theorem measure_update (h : 5*queue.length + phase.weight < 5*s.queue.length + (s.workers i).weight) :
    measure ⟨queue,lock,Function.update s.workers i phase,done⟩ < measure s := by
  obtain ⟨others,hold,hnew⟩ := sum_update Phase.weight s.workers i phase
  rw [measure,measure,hold]
  change 5*queue.length + ∑ j, (Function.update s.workers i phase j).weight < _
  rw [hnew]
  omega

theorem conserved_update (hs : (s.queue : Multiset β) + (∑ i, (s.workers i).items) + (s.done : Multiset β) = all)
    (h : (queue : Multiset β) + phase.items + (done : Multiset β) =
      (s.queue : Multiset β) + (s.workers i).items + (s.done : Multiset β)) :
    (queue : Multiset β) + (∑ j, (Function.update s.workers i phase j).items) + (done : Multiset β) = all := by
  obtain ⟨others,hold,hnew⟩ := sum_update Phase.items s.workers i phase
  rw [hold] at hs
  calc
    (queue : Multiset β) + (∑ j, (Function.update s.workers i phase j).items) + (done : Multiset β)
        = (queue : Multiset β) + phase.items + (done : Multiset β) + others := by
      rw [hnew]
      abel
    _ = (s.queue : Multiset β) + (s.workers i).items + (s.done : Multiset β) + others := by rw [h]
    _ = all := by
      rw [← hs]
      abel

end

/-- Every step uses up some of the measure. -/
theorem Step.measure_lt {i : ι} {s s' : State ι β} (h : Step i s s') : measure s' < measure s := by
  cases h with
  | more hphase _ => exact measure_update (by simp [hphase,Phase.weight])
  | stop hphase _ => exact measure_update (by simp [hphase,Phase.weight])
  | acquire hphase _ => exact measure_update (by simp [hphase,Phase.weight])
  | pop hphase hqueue =>
    apply measure_update
    simp only [hphase,hqueue,Phase.weight,List.length_append,List.length_singleton]
    omega
  | popEmpty hphase _ => exact measure_update (by simp [hphase,Phase.weight])
  | release hphase => exact measure_update (by simp [hphase,Phase.weight])
  | raise hphase => exact measure_update (by simp [hphase,Phase.weight])
  | work hphase => exact measure_update (by simp [hphase,Phase.weight])

theorem Step.invariant {all : List β} {i : ι} {s s' : State ι β} (h : Step i s s') (hs : Invariant all s) :
    Invariant all s' := by
  obtain ⟨hlocked,hconserved,hsaw,hsafe⟩ := hs
  cases h with
  | more hphase hqueue =>
    refine ⟨locked_update hlocked (by simp [hphase,Phase.Locked]),conserved_update hconserved ?_,
      sawEmpty_update hsaw id (fun h => h.elim),fun hempty => absurd hempty hqueue⟩
    simp [hphase,Phase.items]
  | stop hphase hqueue =>
    refine ⟨locked_update hlocked (by simp [hphase,Phase.Locked]),conserved_update hconserved ?_,
      sawEmpty_update hsaw id (fun _ => hqueue),fun _ => safe_self trivial⟩
    simp [hphase,Phase.items]
  | acquire hphase hlock =>
    refine ⟨locked_acquire hlocked hlock,conserved_update hconserved ?_,
      sawEmpty_update hsaw id (fun h => h.elim),fun hempty => safe_update (hsafe hempty) ?_⟩
    · simp [hphase,Phase.items]
    · simp [hphase,Phase.Safe]
  | pop hphase hqueue =>
    refine ⟨locked_update hlocked (by simp [hphase,Phase.Locked]),conserved_update hconserved ?_,
      sawEmpty_update hsaw (fun hempty => ?_) (fun h => h.elim),fun _ => safe_self trivial⟩
    · rw [hphase,hqueue,← Multiset.coe_add]
      simp only [Phase.items,Multiset.coe_singleton,add_zero]
    · rw [hqueue] at hempty
      exact absurd hempty (by simp)
  | popEmpty hphase hqueue =>
    refine ⟨locked_update hlocked (by simp [hphase,Phase.Locked]),conserved_update hconserved ?_,
      sawEmpty_update hsaw id (fun _ => hqueue),fun hempty => safe_update (hsafe hempty) ?_⟩
    · simp [hphase,Phase.items]
    · simp [hphase,Phase.Safe]
  | release hphase =>
    refine ⟨locked_release hlocked (by rw [hphase]; trivial) (fun h => h),conserved_update hconserved ?_,
      sawEmpty_update hsaw id (fun h => h.elim),fun _ => safe_self trivial⟩
    simp [hphase,Phase.items]
  | raise hphase =>
    have hqueue := hsaw i (by rw [hphase]; trivial)
    refine ⟨locked_release hlocked (by rw [hphase]; trivial) (fun h => h),conserved_update hconserved ?_,
      sawEmpty_update hsaw id (fun _ => hqueue),fun hempty => safe_update (hsafe hempty) ?_⟩
    · simp [hphase,Phase.items]
    · simp [hphase,Phase.Safe]
  | work hphase =>
    refine ⟨locked_update hlocked (by simp [hphase,Phase.Locked]),conserved_update hconserved ?_,
      sawEmpty_update hsaw id (fun h => h.elim),fun _ => safe_self trivial⟩
    rw [hphase,← Multiset.coe_add]
    simp only [Phase.items,Multiset.coe_singleton,add_zero]
    abel

omit [DecidableEq ι] in
theorem invariant_start [Nonempty ι] (all : List β) : Invariant all (start all : State ι β) := by
  refine ⟨fun i => ?_,?_,fun i h => h.elim,fun _ => ⟨Classical.arbitrary ι,trivial⟩⟩
  · exact ⟨fun h => h.elim,fun h => nomatch h⟩
  · simp [start,Phase.items]

theorem Run.invariant {all : List β} {n : ℕ} {s s' : State ι β} (h : Run n s s') (hs : Invariant all s) :
    Invariant all s' := by
  induction h with
  | refl => exact hs
  | step i _ hstep ih => exact hstep.invariant (ih hs)

/-- A run cannot go on for ever. -/
theorem Run.length_add_measure_le {n : ℕ} {s s' : State ι β} (h : Run n s s') :
    n + measure s' ≤ measure s := by
  induction h with
  | refl => exact Nat.le_of_eq (Nat.zero_add _)
  | step i _ hstep ih =>
    have hlt := hstep.measure_lt
    omega

omit [DecidableEq ι] in
theorem measure_start (all : List β) : measure (start all : State ι β) = 5*all.length + 5*Fintype.card ι := by
  simp [measure,start,Phase.weight,Nat.mul_comm]

/-- Every state can be run to an end. -/
theorem exists_end (s : State ι β) : ∃ n s', Run n s s' ∧ ∀ i s'', ¬ Step i s' s'' := by
  induction hmeasure : measure s using Nat.strongRecOn generalizing s with
  | ind m ih =>
    by_cases hstep : ∃ i s', Step i s s'
    · obtain ⟨i,s',hstep⟩ := hstep
      obtain ⟨n,s'',hrun,hend⟩ := ih (measure s') (hmeasure ▸ hstep.measure_lt) s' rfl
      exact ⟨0+1+n,s'',((Run.refl s).step i hstep).trans hrun,hend⟩
    · exact ⟨0,s,Run.refl s,fun i s'' h => hstep ⟨i,s'',h⟩⟩

/-- When no worker can make a step, all have stopped. -/
theorem Invariant.stopped {all : List β} {s : State ι β} (hs : Invariant all s) (h : ∀ i s', ¬ Step i s s')
    (i : ι) : (s.workers i).Stopped := by
  cases exists_step s i with
  | inl hstep =>
    obtain ⟨s',hstep⟩ := hstep
    exact absurd hstep (h i s')
  | inr hi =>
    cases hi with
    | inl hstopped => exact hstopped
    | inr hwaiting =>
      -- the worker that has the lock can make a step
      obtain ⟨j,hj⟩ := Option.ne_none_iff_exists'.1 hwaiting.2
      have hlocked := (hs.locked j).2 hj
      cases exists_step s j with
      | inl hstep =>
        obtain ⟨s',hstep⟩ := hstep
        exact absurd hstep (h j s')
      | inr hcase =>
        cases hphase : s.workers j <;> simp [hphase,Phase.Locked,Phase.Stopped] at hlocked hcase

theorem items_of_stopped {phase : Phase β} (h : phase.Stopped) : phase.items = 0 := by
  cases phase with
  | finished => rfl
  | failed => rfl
  | _ => exact h.elim

theorem sawEmpty_of_stopped {phase : Phase β} (h : phase.Stopped) : phase.SawEmpty := by
  cases phase with
  | finished => trivial
  | failed => trivial
  | _ => exact h.elim

omit [DecidableEq ι] in
/-- When all workers have stopped, every item was worked on once, and some worker has not failed. -/
theorem Invariant.done_perm [Nonempty ι] {all : List β} {s : State ι β} (hs : Invariant all s)
    (h : ∀ i, (s.workers i).Stopped) : s.done.Perm all ∧ ∃ i, s.workers i = .finished := by
  have hqueue : s.queue = [] := hs.sawEmpty (Classical.arbitrary ι) (sawEmpty_of_stopped (h _))
  constructor
  · apply Multiset.coe_eq_coe.1
    rw [← hs.conserved,hqueue,Finset.sum_eq_zero fun i _ => items_of_stopped (h i)]
    simp
  · obtain ⟨i,hi⟩ := hs.safe hqueue
    refine ⟨i,?_⟩
    have hstopped := h i
    cases hphase : s.workers i <;> simp [hphase,Phase.Safe,Phase.Stopped] at hi hstopped ⊢

/-- A worker can fail exactly if there is something to do and another worker. -/
theorem exists_failed_iff (all : List β) :
    (∃ n s, Run n (start all : State ι β) s ∧ ∃ i, s.workers i = .failed) ↔
      all ≠ [] ∧ 1 < Fintype.card ι := by
  constructor
  · intro h
    obtain ⟨n,s,hrun,i,hfailed⟩ := h
    constructor
    · intro hall
      subst hall
      cases hrun.of_nil.2 i with
      | inl h => rw [h] at hfailed; cases hfailed
      | inr h => rw [h] at hfailed; cases hfailed
    · have : Nonempty ι := ⟨i⟩
      have hs := hrun.invariant (invariant_start all)
      obtain ⟨j,hj⟩ := hs.safe (hs.sawEmpty i (by rw [hfailed]; trivial))
      apply Fintype.one_lt_card_iff.2
      refine ⟨i,j,?_⟩
      intro hij
      rw [← hij,hfailed] at hj
      exact hj
  · intro h
    obtain ⟨hall,hcard⟩ := h
    obtain ⟨i,j,hij⟩ := Fintype.one_lt_card_iff.1 hcard
    cases all with
    | nil => exact absurd rfl hall
    | cons item rest =>
      obtain ⟨n,done,hdrain⟩ := run_drain i item rest ([] : List β)
      obtain ⟨s,hrace,hfailed⟩ := run_race hij item done
      exact ⟨n+8,s,hdrain.trans hrace,j,hfailed⟩

end
end

end ClickHouseRegression.Concurrent.WorkQueue
