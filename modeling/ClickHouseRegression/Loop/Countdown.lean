import Mathlib

/-! A loop with a budget. Every turn either ends the loop with a result or is charged to the budget,
and the loop gives up when the budget is used up. Turns and costs are numbered from 0. -/
namespace ClickHouseRegression.Loop
open Finset

variable {ρ κ : Type*} [AddCommGroup κ]

/-- What the turns before `k` are charged. -/
def spent (cost : ℕ → κ) (k : ℕ) : κ := ∑ i ∈ range k, cost i

theorem spent_succ (cost : ℕ → κ) (k : ℕ) : spent cost (k+1) = spent cost k+cost k :=
  sum_range_succ cost k

variable [LinearOrder κ]

/-- The turns `i, i+1, ...`, at most `fuel` of them: the number of the last one and the result. -/
def countdown (turn : ℕ → Option ρ) (cost : ℕ → κ) (giveUp : ρ) : ℕ → ℕ → κ → Option (ℕ × ρ)
  | 0,_,_ => none
  | fuel+1,i,budget =>
    match turn i with
    | some r => some (i,r)
    | none =>
      if budget-cost i ≤ 0 then some (i,giveUp)
      else countdown turn cost giveUp fuel (i+1) (budget-cost i)

/-- The loop ends with turn `k`: the turns before it have no result and leave some budget. -/
structure EndsAt (turn : ℕ → Option ρ) (cost : ℕ → κ) (giveUp : ρ) (budget : κ) (k : ℕ) (r : ρ) :
    Prop where
  before : ∀ i < k, turn i = none ∧ spent cost (i+1) < budget
  last : turn k = some r ∨ turn k = none ∧ budget ≤ spent cost (k+1) ∧ r = giveUp

variable {turn : ℕ → Option ρ} {cost : ℕ → κ} {giveUp : ρ} {budget : κ} {fuel i k : ℕ} {r : ρ}

section
variable [IsOrderedAddMonoid κ]

theorem countdown_succ :
    countdown turn cost giveUp (fuel+1) i (budget-spent cost i) =
      match turn i with
      | some r => some (i,r)
      | none =>
        if budget ≤ spent cost (i+1) then some (i,giveUp)
        else countdown turn cost giveUp fuel (i+1) (budget-spent cost (i+1)) := by
  rw [countdown,sub_sub,← spent_succ]
  simp only [sub_nonpos]

/-- From turn `i` on, as long as the fuel lasts. -/
theorem countdown_eq_some_from
    (hi : ∀ j < i, turn j = none ∧ spent cost (j+1) < budget) :
    countdown turn cost giveUp fuel i (budget-spent cost i) = some (k,r) ↔
      i ≤ k ∧ k < i+fuel ∧ EndsAt turn cost giveUp budget k r := by
  induction fuel generalizing i with
  | zero =>
    constructor
    · intro h
      exact absurd h (by simp [countdown])
    · rintro ⟨hle,hlt,-⟩
      omega
  | succ fuel ih =>
    rw [countdown_succ]
    cases hturn : turn i with
    | some s =>
      constructor
      · intro h
        obtain ⟨rfl,rfl⟩ := Prod.mk.inj (Option.some.inj h)
        exact ⟨le_rfl,by omega,hi,.inl hturn⟩
      · rintro ⟨hle,-,hend⟩
        rcases hle.lt_or_eq with hlt | rfl
        · exact absurd (hend.before i hlt).1 (by simp [hturn])
        · rcases hend.last with h | ⟨h,-⟩
          · rw [hturn] at h
            rw [Option.some.inj h]
          · exact absurd h (by simp [hturn])
    | none =>
      simp only
      split_ifs with hbudget
      · constructor
        · intro h
          obtain ⟨rfl,rfl⟩ := Prod.mk.inj (Option.some.inj h)
          exact ⟨le_rfl,by omega,hi,.inr ⟨hturn,hbudget,rfl⟩⟩
        · rintro ⟨hle,-,hend⟩
          rcases hle.lt_or_eq with hlt | rfl
          · exact absurd hbudget (not_le.2 (hend.before i hlt).2)
          · rcases hend.last with h | ⟨-,-,rfl⟩
            · exact absurd h (by simp [hturn])
            · rfl
      · have hnext : ∀ j < i+1, turn j = none ∧ spent cost (j+1) < budget := by
          intro j hj
          rcases Nat.lt_succ_iff_lt_or_eq.1 hj with hlt | rfl
          · exact hi j hlt
          · exact ⟨hturn,not_le.1 hbudget⟩
        rw [ih hnext]
        constructor
        · rintro ⟨hle,hlt,hend⟩
          exact ⟨by omega,by omega,hend⟩
        · rintro ⟨hle,hlt,hend⟩
          rcases hle.lt_or_eq with h | rfl
          · exact ⟨h,by omega,hend⟩
          · -- turn `i` does not end the loop
            rcases hend.last with h | ⟨-,h,-⟩
            · exact absurd h (by simp [hturn])
            · exact absurd h hbudget

/-- The loop ends with the first turn that has a result or uses the budget up. -/
theorem countdown_eq_some :
    countdown turn cost giveUp fuel 0 budget = some (k,r) ↔
      k < fuel ∧ EndsAt turn cost giveUp budget k r := by
  have h : countdown turn cost giveUp fuel 0 (budget-spent cost 0) = some (k,r) ↔
      0 ≤ k ∧ k < 0+fuel ∧ EndsAt turn cost giveUp budget k r :=
    countdown_eq_some_from fun j hj => absurd hj (Nat.not_lt_zero j)
  simpa [spent] using h

/-- If some turn has a result or uses the budget up, then the loop ends. -/
theorem exists_countdown (h : ∃ k, turn k ≠ none ∨ budget ≤ spent cost (k+1)) :
    ∃ fuel e, countdown turn cost giveUp fuel 0 budget = some e := by
  classical
  have hfind := Nat.find_spec h
  have hbefore : ∀ i < Nat.find h, turn i = none ∧ spent cost (i+1) < budget := by
    intro i hi
    have hmin := Nat.find_min h hi
    rw [not_or,not_ne_iff,not_le] at hmin
    exact hmin
  refine ⟨Nat.find h+1,?_⟩
  cases hturn : turn (Nat.find h) with
  | some r =>
    exact ⟨(_,r),countdown_eq_some.2 ⟨Nat.lt_succ_self _,hbefore,.inl hturn⟩⟩
  | none =>
    rcases hfind with h' | h'
    · exact absurd hturn h'
    · exact ⟨(_,giveUp),countdown_eq_some.2 ⟨Nat.lt_succ_self _,hbefore,.inr ⟨hturn,h',rfl⟩⟩⟩

end

end ClickHouseRegression.Loop
