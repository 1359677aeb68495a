import Mathlib

/-! Rules for stateful computations that may raise. -/
namespace ClickHouseRegression.Fallible

variable {σ α β : Type}

/-- Every result satisfies `P`; under `ok` there is a result. -/
structure Yields (ok : Prop) (P : α → Prop) (m : StateT σ Option α) : Prop where
  holds : ∀ s a s', m s = some (a,s') → P a
  returns : ok → ∀ s, ∃ a s', m s = some (a,s')

theorem Yields.pure {ok : Prop} {P : α → Prop} {a : α} (h : P a) :
    Yields ok P (Pure.pure a : StateT σ Option α) := by
  refine ⟨?_,?_⟩
  · intro s a' s' hs
    cases Option.some.inj hs
    exact h
  · intro _ s
    exact ⟨a,s,rfl⟩

theorem Yields.bind {ok : Prop} {P : α → Prop} {Q : β → Prop} {m : StateT σ Option α}
    {f : α → StateT σ Option β} (hm : Yields ok P m) (hf : ∀ a, P a → Yields ok Q (f a)) :
    Yields ok Q (m >>= f) := by
  have hbind : ∀ s, (m >>= f) s = (m s).bind fun p => f p.1 p.2 := fun _ => rfl
  refine ⟨?_,?_⟩
  · intro s b s' hs
    rw [hbind] at hs
    obtain ⟨⟨a,t⟩,ha,hb⟩ := Option.bind_eq_some_iff.1 hs
    exact (hf a (hm.holds s a t ha)).holds t b s' hb
  · intro hok s
    obtain ⟨a,t,ha⟩ := hm.returns hok s
    obtain ⟨b,s',hb⟩ := (hf a (hm.holds s a t ha)).returns hok t
    refine ⟨b,s',?_⟩
    rw [hbind,ha]
    exact hb

theorem Yields.mono {ok ok' : Prop} {P Q : α → Prop} {m : StateT σ Option α}
    (h : Yields ok P m) (hok : ok' → ok) (hP : ∀ a, P a → Q a) : Yields ok' Q m :=
  ⟨fun s a s' hs => hP a (h.holds s a s' hs),fun hk => h.returns (hok hk)⟩

/-- `l[i]`, which raises outside the list. -/
def item (l : List α) (i : ℕ) : StateT σ Option α := fun s => (l[i]?).map (·,s)

theorem Yields.item {ok : Prop} {P : α → Prop} {l : List α} {i : ℕ}
    (h : ∀ a, l[i]? = some a → P a) (hi : ok → i < l.length) :
    Yields ok P (item l i : StateT σ Option α) := by
  refine ⟨?_,?_⟩
  · intro s a s' hs
    obtain ⟨b,hb,hab⟩ := Option.map_eq_some_iff.1 hs
    cases hab
    exact h a hb
  · intro hok s
    have hlt := hi hok
    refine ⟨l[i],s,?_⟩
    rw [Fallible.item,List.getElem?_eq_getElem hlt]
    rfl

/-- Mapping over a list yields a list of the same length. -/
theorem Yields.mapM {γ : Type} {ok : Prop} {P : α → Prop} {f : γ → StateT σ Option α} {l : List γ}
    (h : ∀ x ∈ l, Yields ok P (f x)) :
    Yields ok (fun r => r.length = l.length ∧ ∀ a ∈ r, P a) (l.mapM f) := by
  induction l with
  | nil =>
    rw [List.mapM_nil]
    exact .pure ⟨rfl,by simp⟩
  | cons x l ih =>
    rw [List.mapM_cons]
    refine (h x List.mem_cons_self).bind fun a ha => ?_
    refine (ih fun y hy => h y (List.mem_cons_of_mem x hy)).bind fun r hr => .pure ⟨?_,?_⟩
    · rw [List.length_cons,List.length_cons,hr.1]
    · intro b hb
      rcases List.mem_cons.1 hb with rfl | hb
      · exact ha
      · exact hr.2 b hb

/-- The state in which a block ends, normally or by an exception. -/
def endState : Except σ σ → σ
  | .ok s => s
  | .error s => s

/-- What every turn of a loop keeps holds where the loop ends. -/
theorem endState_foldlM {P : σ → Prop} {turn : σ → α → Except σ σ} {l : List α}
    (hturn : ∀ s, ∀ x ∈ l, P s → P (endState (turn s x))) {s : σ} (h : P s) :
    P (endState (l.foldlM turn s)) := by
  induction l generalizing s with
  | nil => exact h
  | cons x l ih =>
    have hfirst := hturn s x List.mem_cons_self h
    rw [List.foldlM_cons]
    cases hx : turn s x with
    | error s' =>
      rw [hx] at hfirst
      exact hfirst
    | ok s' =>
      rw [hx] at hfirst
      exact ih (fun t y hy => hturn t y (List.mem_cons_of_mem x hy)) hfirst

/-- A loop of which no turn raises. -/
theorem foldlM_ok {turn : σ → α → Except σ σ} {l : List α}
    (hturn : ∀ s, ∀ x ∈ l, ∃ s', turn s x = .ok s') (s : σ) : ∃ s', l.foldlM turn s = .ok s' := by
  induction l generalizing s with
  | nil => exact ⟨s,rfl⟩
  | cons x l ih =>
    obtain ⟨s',hs'⟩ := hturn s x List.mem_cons_self
    rw [List.foldlM_cons,hs']
    exact ih (fun t y hy => hturn t y (List.mem_cons_of_mem x hy)) s'

/-- Mapping a function that never raises on the list. -/
theorem mapM_eq_map {f : α → Option β} {g : α → β} {l : List α} (h : ∀ x ∈ l, f x = some (g x)) :
    l.mapM f = some (l.map g) := by
  induction l with
  | nil => rfl
  | cons x l ih =>
    rw [List.mapM_cons,h x List.mem_cons_self,ih fun y hy => h y (List.mem_cons_of_mem x hy)]
    rfl

end ClickHouseRegression.Fallible
