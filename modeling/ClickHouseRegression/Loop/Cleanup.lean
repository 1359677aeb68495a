import Mathlib

/-! Code that acquires resources in a loop and releases them in a `finally` block. An action may
raise before or after it takes effect, and a loop stops at the first iteration that raises. -/
namespace ClickHouseRegression.Cleanup

variable {ν ε : Type*}

/-- What a piece of code did, and whether it ended by raising. -/
structure Outcome (ε : Type*) where
  events : List ε
  raised : Bool

namespace Outcome

def done : Outcome ε := ⟨[],false⟩

def andThen (first next : Outcome ε) : Outcome ε :=
  if first.raised then first else ⟨first.events ++ next.events,next.raised⟩

/-- The `finally` block runs in any case. -/
def tryFinally (body final : Outcome ε) : Outcome ε :=
  ⟨body.events ++ final.events,body.raised || final.raised⟩

theorem mem_andThen (first next : Outcome ε) (e : ε) :
    e ∈ (first.andThen next).events ↔
      e ∈ first.events ∨ (first.raised = false ∧ e ∈ next.events) := by
  rw [andThen]
  cases h : first.raised with
  | false => simp
  | true => simp

theorem andThen_raised (first next : Outcome ε) :
    (first.andThen next).raised = false ↔ first.raised = false ∧ next.raised = false := by
  rw [andThen]
  cases h : first.raised with
  | false => simp
  | true => simp [h]

end Outcome

/-- `for x in xs`, with the number of the iteration. -/
def forEach : (ℕ → ν → Outcome ε) → List ν → Outcome ε
  | _,[] => .done
  | step,x :: xs => (step 0 x).andThen (forEach (fun i => step (i+1)) xs)

theorem forEach_raised (step : ℕ → ν → Outcome ε) (xs : List ν) :
    (forEach step xs).raised = false ↔
      ∀ i x, xs[i]? = some x → (step i x).raised = false := by
  induction xs generalizing step with
  | nil => simp [forEach,Outcome.done]
  | cons y xs ih =>
    rw [forEach,Outcome.andThen_raised,ih]
    constructor
    · rintro ⟨hy,hxs⟩ i x hx
      cases i with
      | zero => exact Option.some.inj hx ▸ hy
      | succ i => exact hxs i x hx
    · intro h
      exact ⟨h 0 y rfl,fun i x hx => h (i+1) x hx⟩

/-- An event of the loop is one of an iteration that is reached. -/
theorem mem_forEach (step : ℕ → ν → Outcome ε) (xs : List ν) (e : ε) :
    e ∈ (forEach step xs).events ↔ ∃ i x, xs[i]? = some x ∧ e ∈ (step i x).events ∧
      ∀ k < i, ∀ y, xs[k]? = some y → (step k y).raised = false := by
  induction xs generalizing step with
  | nil => simp [forEach,Outcome.done]
  | cons z xs ih =>
    rw [forEach,Outcome.mem_andThen,ih]
    constructor
    · rintro (h | ⟨hz,i,x,hx,he,hbefore⟩)
      · exact ⟨0,z,rfl,h,fun k hk => absurd hk (Nat.not_lt_zero k)⟩
      · refine ⟨i+1,x,hx,he,?_⟩
        intro k hk y hy
        cases k with
        | zero => exact Option.some.inj hy ▸ hz
        | succ k => exact hbefore k (by omega) y hy
    · rintro ⟨i,x,hx,he,hbefore⟩
      cases i with
      | zero => exact .inl (Option.some.inj hx ▸ he)
      | succ i =>
        refine .inr ⟨hbefore 0 (by omega) z rfl,i,x,hx,he,?_⟩
        intro k hk y hy
        exact hbefore (k+1) (by omega) y hy

/-- Keeping only some of the events of a loop. -/
theorem forEach_filterMap {δ : Type*} (step : ℕ → ν → Outcome ε) (xs : List ν) (f : ε → Option δ) :
    (forEach step xs).events.filterMap f =
      (forEach (fun i x => ⟨(step i x).events.filterMap f,(step i x).raised⟩) xs).events := by
  induction xs generalizing step with
  | nil => rfl
  | cons x xs ih =>
    simp only [forEach,Outcome.andThen]
    cases h : (step 0 x).raised with
    | false => simp [ih]
    | true => simp

/-- A loop whose iterations each give one event gives them all unless an iteration before the last
raises. -/
theorem forEach_single_iff (raises : ℕ → Bool) (xs : List ν) :
    (forEach (fun i x => ⟨[x],raises i⟩) xs).events = xs ↔
      ∀ i, i+1 < xs.length → raises i = false := by
  induction xs generalizing raises with
  | nil => simp [forEach,Outcome.done]
  | cons x xs ih =>
    have hshift : (∀ i, i+1 < (x :: xs).length → raises i = false) ↔
        (xs ≠ [] → raises 0 = false) ∧ ∀ i, i+1 < xs.length → raises (i+1) = false := by
      constructor
      · intro h
        refine ⟨fun hne => h 0 ?_,fun i hi => h (i+1) (by simpa using hi)⟩
        simpa using List.length_pos_of_ne_nil hne
      · rintro ⟨h0,hs⟩ i hi
        cases i with
        | zero =>
          apply h0
          rintro rfl
          simp at hi
        | succ i => exact hs i (by simpa using hi)
    rw [hshift,← ih,forEach,Outcome.andThen]
    cases h : raises 0 with
    | false => simp
    | true =>
      cases xs with
      | nil => simp [forEach,Outcome.done]
      | cons y xs => simp

/-- The events of such a loop are the first ones in any case. -/
theorem forEach_single_isPrefix (raises : ℕ → Bool) (xs : List ν) :
    (forEach (fun i x => ⟨[x],raises i⟩) xs).events <+: xs := by
  induction xs generalizing raises with
  | nil => exact List.prefix_rfl
  | cons x xs ih =>
    rw [forEach,Outcome.andThen]
    cases h : raises 0 with
    | false => exact List.cons_prefix_cons.2 ⟨rfl,ih _⟩
    | true => exact List.cons_prefix_cons.2 ⟨rfl,List.nil_prefix⟩

/-- The number of elements a loop passes before the first that raises. -/
theorem forEach_passed_length (raises : ℕ → Bool) (f : ν → ε) (xs : List ν) (i : ℕ) :
    i < (forEach (fun i x => ⟨if raises i then [] else [f x],raises i⟩) xs).events.length ↔
      i < xs.length ∧ ∀ j ≤ i, raises j = false := by
  induction xs generalizing raises i with
  | nil => simp [forEach,Outcome.done]
  | cons x xs ih =>
    rw [forEach,Outcome.andThen]
    cases h : raises 0 with
    | true =>
      constructor
      · intro hi
        simp at hi
      · rintro ⟨-,hall⟩
        rw [hall 0 (Nat.zero_le i)] at h
        exact Bool.noConfusion h
    | false =>
      cases i with
      | zero => simp [h]
      | succ i =>
        simp only [Bool.false_eq_true,if_false,List.cons_append,List.nil_append,List.length_cons,
          Nat.add_lt_add_iff_right,ih]
        apply and_congr_right
        intro _
        constructor
        · intro hall j hj
          cases j with
          | zero => exact h
          | succ j => exact hall j (by omega)
        · intro hall j hj
          exact hall (j+1) (by omega)

/-- Whether an action raises, and whether it takes effect before it does. -/
inductive Fault
  | none
  | before
  | after
  deriving DecidableEq

/-- An action under a fault. -/
def attempt (fault : Fault) (a : ε) : Outcome ε :=
  match fault with
  | .none => ⟨[a],false⟩
  | .before => ⟨[],true⟩
  | .after => ⟨[a],true⟩

theorem attempt_raised (fault : Fault) (a : ε) : (attempt fault a).raised = false ↔ fault = .none := by
  cases fault <;> simp [attempt]

theorem mem_attempt (fault : Fault) (a e : ε) :
    e ∈ (attempt fault a).events ↔ e = a ∧ fault ≠ .before := by
  cases fault <;> simp [attempt]

/-- The actions one after the other, under a schedule of faults. -/
def perform (fault : ℕ → Fault) (actions : List ε) : Outcome ε :=
  forEach (fun i => attempt (fault i)) actions

theorem perform_raised (fault : ℕ → Fault) (actions : List ε) :
    (perform fault actions).raised = false ↔ ∀ i < actions.length, fault i = .none := by
  rw [perform,forEach_raised]
  constructor
  · intro h i hi
    exact (attempt_raised _ _).1 (h i actions[i] (List.getElem?_eq_getElem hi))
  · intro h i a ha
    exact (attempt_raised _ _).2 (h i (List.getElem?_eq_some_iff.1 ha).1)

/-- An action that stands in one place takes effect if no action before it raises and it does not
raise before its effect. -/
theorem mem_perform {fault : ℕ → Fault} {actions : List ε} {a : ε} {target : ℕ}
    (h : ∀ i, actions[i]? = some a ↔ i = target) :
    a ∈ (perform fault actions).events ↔
      (∀ i < target, fault i = .none) ∧ fault target ≠ .before := by
  have htarget := (h target).2 rfl
  obtain ⟨hlt,-⟩ := List.getElem?_eq_some_iff.1 htarget
  rw [perform,mem_forEach]
  constructor
  · rintro ⟨i,b,hb,hmem,hbefore⟩
    obtain ⟨rfl,hfault⟩ := (mem_attempt _ _ _).1 hmem
    obtain rfl := (h i).1 hb
    refine ⟨?_,hfault⟩
    intro k hk
    have hk' : k < actions.length := by omega
    exact (attempt_raised _ _).1 (hbefore k hk actions[k] (List.getElem?_eq_getElem hk'))
  · rintro ⟨hquiet,hfault⟩
    refine ⟨target,a,htarget,(mem_attempt _ _ _).2 ⟨rfl,hfault⟩,?_⟩
    intro k hk b _
    exact (attempt_raised _ _).2 (hquiet k hk)

theorem mem_of_mem_perform {fault : ℕ → Fault} {actions : List ε} {a : ε}
    (h : a ∈ (perform fault actions).events) : a ∈ actions := by
  obtain ⟨i,b,hb,hmem,-⟩ := (mem_forEach _ _ _).1 h
  obtain ⟨rfl,-⟩ := (mem_attempt _ _ _).1 hmem
  exact List.mem_of_getElem? hb

/-- An action that stands between two lists without it stands in one place. -/
theorem getElem?_between {before after : List ε} {a : ε} (hb : a ∉ before) (ha : a ∉ after)
    (j : ℕ) : (before ++ a :: after)[j]? = some a ↔ j = before.length := by
  constructor
  · intro h
    rcases Nat.lt_trichotomy j before.length with hj | hj | hj
    · rw [List.getElem?_append_left hj] at h
      exact absurd (List.mem_of_getElem? h) hb
    · exact hj
    · obtain ⟨k,rfl⟩ := Nat.exists_eq_add_of_lt hj
      rw [List.getElem?_append_right (by omega),
        (by omega : before.length+k+1-before.length = k+1),List.getElem?_cons_succ] at h
      exact absurd (List.mem_of_getElem? h) ha
  · rintro rfl
    simp

/-- The loop gets as far as the effect of the action `target` in iteration `i`: no iteration
before raises, nor an action before it in this one. -/
def Arrives (length : ℕ → ℕ) (fault : ℕ → ℕ → Fault) (target i : ℕ) : Prop :=
  (∀ k < i, ∀ j < length k, fault k j = .none) ∧ (∀ j < target, fault i j = .none) ∧
    fault i target ≠ .before

theorem Arrives.earlier {length : ℕ → ℕ} {fault : ℕ → ℕ → Fault} {target i k : ℕ}
    (h : Arrives length fault target i) (ht : ∀ k, target < length k) (hk : k ≤ i) :
    Arrives length fault target k := by
  obtain ⟨hbefore,hquiet,hfault⟩ := h
  rcases hk.lt_or_eq with hk | rfl
  · refine ⟨fun l hl => hbefore l (by omega),?_,?_⟩
    · intro j hj
      exact hbefore k hk j (hj.trans (ht k))
    · rw [hbefore k hk target (ht k)]
      exact Fault.noConfusion
  · exact ⟨hbefore,hquiet,hfault⟩

/-- A loop over resources takes an action for one of them if and only if it arrives at the action
in the first iteration for it. -/
theorem mem_loop_iff [DecidableEq ν] {actions : ℕ → ν → List ε} {fault : ℕ → ℕ → Fault}
    {length : ℕ → ℕ} {target : ℕ} {xs : List ν} {x : ν} {a : ε}
    (hlength : ∀ i y, (actions i y).length = length i)
    (ha : ∀ i j, (actions i x)[j]? = some a ↔ j = target)
    (hother : ∀ i y, y ≠ x → a ∉ actions i y) :
    a ∈ (forEach (fun i y => perform (fault i) (actions i y)) xs).events ↔
      x ∈ xs ∧ Arrives length fault target (xs.idxOf x) := by
  have ht : ∀ k, target < length k := by
    intro k
    rw [← hlength k x]
    exact (List.getElem?_eq_some_iff.1 ((ha k target).2 rfl)).1
  rw [mem_forEach]
  constructor
  · rintro ⟨i,y,hy,hmem,hbefore⟩
    obtain rfl : y = x := by
      by_contra hne
      exact hother i y hne (mem_of_mem_perform hmem)
    obtain ⟨hquiet,hfault⟩ := (mem_perform (ha i)).1 hmem
    have hi : Arrives length fault target i := by
      refine ⟨?_,hquiet,hfault⟩
      intro k hk j hj
      have hk' : k < xs.length := hk.trans (List.getElem?_eq_some_iff.1 hy).1
      have hraised := hbefore k hk xs[k] (List.getElem?_eq_getElem hk')
      exact (perform_raised _ _).1 hraised j (by rw [hlength]; exact hj)
    obtain ⟨hlt,hget⟩ := List.getElem?_eq_some_iff.1 hy
    have hfirst : xs.idxOf y ≤ i := by
      by_contra hi
      have hne : (xs[i] == y) = false := List.not_of_lt_findIdx (Nat.lt_of_not_le hi)
      exact beq_eq_false_iff_ne.1 hne hget
    exact ⟨List.mem_of_getElem? hy,hi.earlier ht hfirst⟩
  · rintro ⟨hx,hbefore,hquiet,hfault⟩
    have hlt := List.idxOf_lt_length_iff.2 hx
    refine ⟨xs.idxOf x,x,?_,(mem_perform (ha _)).2 ⟨hquiet,hfault⟩,?_⟩
    · rw [List.getElem?_eq_getElem hlt,List.getElem_idxOf hlt]
    · intro k hk y _
      rw [perform_raised,hlength]
      exact hbefore k hk

end ClickHouseRegression.Cleanup
