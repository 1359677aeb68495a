import Mathlib

/-! A bounded retry loop over an arbitrary action. Attempt `k` emits events and then either
fails or gives a result; the loop goes on while the result asks for another attempt and the
budget lasts. -/
namespace ClickHouseRegression.Loop

variable {ε ω ρ : Type*} (act : ℕ → List ε × Except ω ρ) (again : ρ → Bool) (finish : ρ → ω)

/-- Run attempts `k, k+1, ...`, at most `count+1` of them. -/
def retry : ℕ → ℕ → List ε × ω
  | 0,k =>
    match act k with
    | (events,.error e) => (events,e)
    | (events,.ok r) => (events,finish r)
  | count+1,k =>
    match act k with
    | (events,.error e) => (events,e)
    | (events,.ok r) =>
      if again r then
        let rest := retry count (k+1)
        (events ++ rest.1,rest.2)
      else (events,finish r)

theorem retry_error {count k : ℕ} {events : List ε} {e : ω} (h : act k = (events,.error e)) :
    retry act again finish count k = (events,e) := by
  cases count <;> simp [retry,h]

theorem retry_done {count k : ℕ} {events : List ε} {r : ρ} (h : act k = (events,.ok r))
    (hr : again r = false) : retry act again finish count k = (events,finish r) := by
  cases count <;> simp [retry,h,hr]

theorem retry_again {count k : ℕ} {events : List ε} {r : ρ} (h : act k = (events,.ok r))
    (hr : again r = true) :
    retry act again finish (count+1) k =
      (events ++ (retry act again finish count (k+1)).1,(retry act again finish count (k+1)).2) := by
  simp [retry,h,hr]

/-- The first attempt is always made: its events come first. -/
theorem retry_first_events (count k : ℕ) :
    (act k).1 <+: (retry act again finish count k).1 := by
  rcases h : act k with ⟨events,e | r⟩
  · rw [retry_error act again finish h]
  · cases hr : again r
    · rw [retry_done act again finish h hr]
    · cases count with
      | zero => simp [retry,h]
      | succ count =>
        rw [retry_again act again finish h hr]
        exact List.prefix_append _ _

/-- When the first `count` attempts ask for another one, the last attempt decides. -/
theorem retry_exhausted (last : ρ) (count k : ℕ)
    (hk : ∀ i < count, ∃ events r, act (k+i) = (events,.ok r) ∧ again r = true)
    (hlast : ∃ events, act (k+count) = (events,.ok last)) :
    (retry act again finish count k).2 = finish last := by
  induction count generalizing k with
  | zero =>
    obtain ⟨events,h⟩ := hlast
    simp only [Nat.add_zero] at h
    simp [retry,h]
  | succ count ih =>
    obtain ⟨events,r,h,hr⟩ := hk 0 (by omega)
    rw [Nat.add_zero] at h
    rw [retry_again act again finish h hr]
    apply ih
    · intro i hi
      simpa [Nat.add_assoc,Nat.add_comm 1 i] using hk (i+1) (by omega)
    · simpa [Nat.add_assoc,Nat.add_comm 1 count] using hlast

end ClickHouseRegression.Loop
