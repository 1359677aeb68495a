import Mathlib

/-! Stable sorting by a key, and when a list sorted by one key is also in order of another. -/
namespace ClickHouseRegression.SortBy

variable {α κ β : Type*} [LinearOrder κ] [LinearOrder β]

def sortBy (key : α → κ) (l : List α) : List α := l.insertionSort (fun a b => key a ≤ key b)

variable {key : α → κ} {value : α → β} {l : List α}

@[simp] theorem mem_sortBy {a : α} : a ∈ sortBy key l ↔ a ∈ l := List.mem_insertionSort _

theorem sortBy_ne_nil (h : l ≠ []) : sortBy key l ≠ [] := by
  intro hnil
  have hlength : (sortBy key l).length = l.length := List.length_insertionSort _ l
  rw [hnil] at hlength
  exact h (List.eq_nil_of_length_eq_zero hlength.symm)

theorem sortBy_pairwise : (sortBy key l).Pairwise (fun a b => key a ≤ key b) := by
  have : Std.Total (fun a b : α => key a ≤ key b) := ⟨fun a b => le_total _ _⟩
  have : IsTrans α (fun a b : α => key a ≤ key b) := ⟨fun _ _ _ => le_trans⟩
  exact List.pairwise_insertionSort _ l

/-- The order of the values agrees with that of the keys. -/
def Agrees (key : α → κ) (value : α → β) (l : List α) : Prop :=
  ∀ a ∈ l, ∀ b ∈ l, key a < key b → value a ≤ value b

/-- Values that depend on the key alone are sorted with it exactly when they agree with its order. -/
theorem sortBy_pairwise_iff (h : ∀ a b, key a = key b → value a = value b) :
    (sortBy key l).Pairwise (fun a b => value a ≤ value b) ↔ Agrees key value l := by
  constructor
  · intro hvalue a ha b hb hab
    have hboth : (sortBy key l).Pairwise fun a b =>
        (key a < key b → value a ≤ value b) ∧ (key b < key a → value b ≤ value a) := by
      apply (hvalue.and sortBy_pairwise).imp
      intro a b hle
      exact ⟨fun _ => hle.1,fun hlt => absurd hle.2 (not_le.2 hlt)⟩
    have : Std.Symm fun a b =>
        (key a < key b → value a ≤ value b) ∧ (key b < key a → value b ≤ value a) :=
      ⟨fun _ _ hr => ⟨hr.2,hr.1⟩⟩
    have hne : a ≠ b := fun he => absurd hab (by rw [he]; exact lt_irrefl _)
    exact (hboth.forall (mem_sortBy.2 ha) (mem_sortBy.2 hb) hne).1 hab
  · intro hagree
    apply sortBy_pairwise.imp_of_mem
    intro a b ha hb hle
    rcases hle.lt_or_eq with hlt | heq
    · exact hagree a (mem_sortBy.1 ha) b (mem_sortBy.1 hb) hlt
    · exact (h a b heq).le

/-- The first of a list in order has the least value. -/
theorem head_le (h : l ≠ []) (hl : l.Pairwise fun a b => value a ≤ value b) {a : α} (ha : a ∈ l) :
    value (l.head h) ≤ value a := by
  cases l with
  | nil => exact absurd rfl h
  | cons b l =>
    rcases List.mem_cons.1 ha with rfl | ha
    · exact le_rfl
    · exact (List.pairwise_cons.1 hl).1 a ha

theorem le_getLast (h : l ≠ []) (hl : l.Pairwise fun a b => value a ≤ value b) {a : α} (ha : a ∈ l) :
    value a ≤ value (l.getLast h) := by
  rw [← List.dropLast_append_getLast h] at ha hl
  rcases List.mem_append.1 ha with ha | ha
  · exact (List.pairwise_append.1 hl).2.2 a ha _ List.mem_cons_self
  · rw [List.mem_singleton.1 ha]

end ClickHouseRegression.SortBy
