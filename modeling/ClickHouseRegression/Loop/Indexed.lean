import Mathlib

/-! Iteration by position over a list that the body of the loop changes. The loop reads the list
anew at every turn and stops at the first position past its end. -/
namespace ClickHouseRegression.Loop

variable {σ α ε : Type*}

section
variable (items : σ → List α) (body : ℕ → α → σ → Except ε σ)

/-- The loop from position `i` on, at most `fuel` turns; `none` if these were too few. -/
def indexed : ℕ → ℕ → σ → Option (Except ε σ)
  | 0,_,_ => none
  | fuel+1,i,s =>
    match (items s)[i]? with
    | none => some (.ok s)
    | some x =>
      match body i x s with
      | .error e => some (.error e)
      | .ok s' => indexed fuel (i+1) s'

/-- The loop ends with `r`. -/
def Ends (i : ℕ) (s : σ) (r : Except ε σ) : Prop := ∃ fuel, indexed items body fuel i s = some r

end

variable {items : σ → List α} {body : ℕ → α → σ → Except ε σ}

theorem indexed_add {fuel i : ℕ} {s : σ} {r : Except ε σ} (h : indexed items body fuel i s = some r)
    (more : ℕ) : indexed items body (fuel+more) i s = some r := by
  induction fuel generalizing i s with
  | zero => cases h
  | succ fuel ih =>
    rw [Nat.succ_add]
    unfold indexed at h ⊢
    cases hx : (items s)[i]? with
    | none => rwa [hx] at h
    | some x =>
      rw [hx] at h
      cases hbody : body i x s with
      | error e =>
        simp only [hbody] at h ⊢
        exact h
      | ok s' =>
        simp only [hbody] at h ⊢
        exact ih h

/-- A body that never lengthens the list needs no more turns than there are items left, and one to
see the end. -/
theorem indexed_isSome
    (hbody : ∀ i x s s', body i x s = .ok s' → (items s').length ≤ (items s).length) (left : ℕ)
    {i : ℕ} {s : σ} (h : (items s).length ≤ i+left) : (indexed items body (left+1) i s).isSome = true := by
  induction left generalizing i s with
  | zero =>
    unfold indexed
    rw [List.getElem?_eq_none (by omega)]
    rfl
  | succ left ih =>
    unfold indexed
    cases (items s)[i]? with
    | none => rfl
    | some x =>
      cases hx : body i x s with
      | error e => simp only [hx,Option.isSome_some]
      | ok s' =>
        have hshort := hbody i x s s' hx
        simp only [hx]
        exact ih (by omega)

namespace Ends

theorem unique {i : ℕ} {s : σ} {r r' : Except ε σ} (h : Ends items body i s r)
    (h' : Ends items body i s r') : r = r' := by
  obtain ⟨fuel,hfuel⟩ := h
  obtain ⟨fuel',hfuel'⟩ := h'
  have hboth := indexed_add hfuel fuel'
  rw [Nat.add_comm,indexed_add hfuel' fuel] at hboth
  exact (Option.some.inj hboth).symm

theorem done {i : ℕ} {s : σ} (h : (items s).length ≤ i) : Ends items body i s (.ok s) := by
  refine ⟨1,?_⟩
  unfold indexed
  rw [List.getElem?_eq_none h]

theorem step {i : ℕ} {s s' : σ} {x : α} {r : Except ε σ} (hx : (items s)[i]? = some x)
    (hbody : body i x s = .ok s') (h : Ends items body (i+1) s' r) : Ends items body i s r := by
  obtain ⟨fuel,hfuel⟩ := h
  refine ⟨fuel+1,?_⟩
  unfold indexed
  simp only [hx,hbody]
  exact hfuel

theorem raise {i : ℕ} {s : σ} {x : α} {e : ε} (hx : (items s)[i]? = some x)
    (hbody : body i x s = .error e) : Ends items body i s (.error e) := by
  refine ⟨1,?_⟩
  unfold indexed
  simp only [hx,hbody]

/-- Items on which the body does nothing are passed over. -/
theorem inert {i : ℕ} {s : σ} (h : ∀ y ∈ (items s).drop i, ∀ j, body j y s = .ok s) :
    Ends items body i s (.ok s) := by
  obtain ⟨n,hn⟩ : ∃ n, (items s).length-i = n := ⟨_,rfl⟩
  induction n generalizing i with
  | zero => exact done (by omega)
  | succ n ih =>
    have hi : i < (items s).length := by omega
    rw [List.drop_eq_getElem_cons hi] at h
    refine step (List.getElem?_eq_getElem hi) (h _ List.mem_cons_self i) (ih ?_ (by omega))
    exact fun y hy => h y (List.mem_cons_of_mem _ hy)

end Ends

section Growing

variable {turn : α → σ → Except ε σ}

/-- A loop over a list that its body extends, but only by items that it then passes over, does what
a loop over the items of the start does. -/
theorem Ends.growing (idle : α → Prop) (hidle : ∀ y, idle y → ∀ s, turn y s = .ok s)
    (hgrow : ∀ x s s', turn x s = .ok s' → ∃ new, items s' = items s ++ new ∧ ∀ y ∈ new, idle y)
    (todo seen added : List α) {s : σ} (hitems : items s = seen ++ todo ++ added)
    (hadded : ∀ y ∈ added, idle y) :
    Ends items (fun _ => turn) seen.length s (todo.foldlM (fun s x => turn x s) s) := by
  induction todo generalizing seen added s with
  | nil =>
    refine .inert fun y hy _ => hidle y (hadded y ?_) s
    rwa [hitems,List.append_nil,List.drop_left] at hy
  | cons x todo ih =>
    have hx : (items s)[seen.length]? = some x := by
      rw [hitems,List.append_assoc,List.getElem?_append_right le_rfl]
      simp
    rw [List.foldlM_cons]
    cases hturn : turn x s with
    | error e => exact .raise hx hturn
    | ok s' =>
      obtain ⟨new,hnew,hidles⟩ := hgrow x s s' hturn
      refine .step hx hturn ?_
      have hlen : seen.length+1 = (seen ++ [x]).length := by simp
      rw [hlen]
      refine ih (seen ++ [x]) (added ++ new) (by rw [hnew,hitems]; simp) fun y hy => ?_
      exact (List.mem_append.1 hy).elim (hadded y) (hidles y)

end Growing

section Removing

variable (p : α → Bool)

/-- What is left when the element at the current position is removed and the position moves on all
the same: the element after a removed one is not looked at. -/
def skipping : List α → List α
  | [] => []
  | [x] => if p x then [] else [x]
  | x :: y :: rest => if p x then y :: skipping rest else x :: skipping (y :: rest)

variable {p}

/-- Removing elements from the list that is being iterated over. -/
theorem Ends.removing {body : ℕ → α → List α → Except ε (List α)}
    (hbody : ∀ i x xs, body i x xs = .ok (if p x then xs.eraseIdx i else xs)) (seen todo : List α) :
    Ends id body seen.length (seen ++ todo) (.ok (seen ++ skipping p todo)) := by
  have hat : ∀ (seen : List α) x rest, (id (seen ++ x :: rest))[seen.length]? = some x := by
    intro seen x rest
    simp
  have herase : ∀ (seen : List α) x rest, (seen ++ x :: rest).eraseIdx seen.length = seen ++ rest := by
    intro seen x rest
    rw [List.eraseIdx_append_of_length_le le_rfl]
    simp
  have hnext : ∀ (seen : List α) y, seen.length+1 = (seen ++ [y]).length := by simp
  induction todo using skipping.induct (p := p) generalizing seen with
  | case1 => exact .done (by simp)
  | case2 x hx =>
    refine .step (hat seen x []) (hbody _ _ _) ?_
    rw [if_pos hx,herase,skipping,if_pos hx]
    exact .done (by simp)
  | case3 x hx =>
    refine .step (hat seen x []) (hbody _ _ _) ?_
    rw [if_neg hx,skipping,if_neg hx]
    exact .done (by simp)
  | case4 x y rest hx ih =>
    refine .step (hat seen x (y :: rest)) (hbody _ _ _) ?_
    rw [if_pos hx,herase,skipping,if_pos hx,hnext seen y]
    have hrest := ih (seen ++ [y])
    rwa [List.append_assoc,List.append_assoc] at hrest
  | case5 x y rest hx ih =>
    refine .step (hat seen x (y :: rest)) (hbody _ _ _) ?_
    rw [if_neg hx,skipping,if_neg hx,hnext seen x]
    have hrest := ih (seen ++ [x])
    rwa [List.append_assoc,List.append_assoc] at hrest

theorem indexed_removing {body : ℕ → α → List α → Except ε (List α)}
    (hbody : ∀ i x xs, body i x xs = .ok (if p x then xs.eraseIdx i else xs)) (xs : List α) :
    indexed id body (xs.length+1) 0 xs = some (.ok (skipping p xs)) := by
  have hshort : ∀ i x (xs xs' : List α), body i x xs = .ok xs' → xs'.length ≤ xs.length := by
    intro i x xs xs' h
    rw [hbody] at h
    cases h
    split
    · exact List.length_eraseIdx_le xs i
    · exact le_rfl
  have hsome : (indexed id body (xs.length+1) 0 xs).isSome = true :=
    indexed_isSome hshort xs.length (by simp)
  obtain ⟨r,hr⟩ := Option.isSome_iff_exists.1 hsome
  rw [hr,Ends.unique ⟨_,hr⟩ (Ends.removing hbody [] xs)]
  rfl

/-- What is not to be removed stays, in its order. -/
theorem filter_skipping (xs : List α) :
    (skipping p xs).filter (fun x => !p x) = xs.filter fun x => !p x := by
  induction xs using skipping.induct (p := p) with
  | case1 => rfl
  | case2 x hx => simp [skipping,hx]
  | case3 x hx => simp [skipping,hx]
  | case4 x y rest hx ih => simp [skipping,hx,List.filter_cons,ih]
  | case5 x y rest hx ih =>
    rw [skipping,if_neg hx]
    simp only [List.filter_cons,ih]

/-- Everything to be removed goes exactly if no two such elements are next to each other. -/
theorem skipping_removes_iff (xs : List α) :
    (∀ x ∈ skipping p xs, p x = false) ↔ xs.IsChain fun a b => ¬ (p a = true ∧ p b = true) := by
  induction xs using skipping.induct (p := p) with
  | case1 => simp [skipping]
  | case2 x hx => simp [skipping,hx]
  | case3 x hx => simp [skipping,hx]
  | case4 x y rest hx ih =>
    rw [skipping,if_pos hx,List.forall_mem_cons,ih,List.isChain_cons_cons]
    cases hy : p y with
    | true => simp [hx]
    | false =>
      cases rest with
      | nil => simp
      | cons z rest => simp [hy]
  | case5 x y rest hx ih =>
    rw [skipping,if_neg hx,List.forall_mem_cons,ih,List.isChain_cons_cons]
    simp [hx]

end Removing

end ClickHouseRegression.Loop
