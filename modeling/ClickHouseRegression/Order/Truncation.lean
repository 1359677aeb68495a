import Mathlib

/-! Lexicographic comparison at the precision of the left argument. Cutting the right list
to the length of the left one never changes whether it is smaller, but it makes a proper
prefix compare equal. -/
namespace ClickHouseRegression.Order

variable {α : Type*} [LinearOrder α]

theorem take_length_lt_iff (s v : List α) : v.take s.length < s ↔ v < s := by
  induction s generalizing v with
  | nil => simp
  | cons a s ih =>
    cases v with
    | nil => simp
    | cons b v => simp only [List.length_cons,List.take_succ_cons,List.cons_lt_cons_iff,ih]

theorem lt_take_length_iff (s v : List α) : s < v.take s.length ↔ s < v ∧ ¬ s <+: v := by
  induction s generalizing v with
  | nil => simp
  | cons a s ih =>
    cases v with
    | nil => simp
    | cons b v =>
      simp only [List.length_cons,List.take_succ_cons,List.cons_lt_cons_iff,ih,
        List.cons_prefix_cons]
      constructor
      · rintro (h | ⟨rfl,h,hp⟩)
        · exact ⟨Or.inl h,fun hp => h.ne hp.1⟩
        · exact ⟨Or.inr ⟨rfl,h⟩,fun hq => hp hq.2⟩
      · rintro ⟨h | ⟨rfl,h⟩,hp⟩
        · exact Or.inl h
        · exact Or.inr ⟨rfl,h,fun hq => hp ⟨rfl,hq⟩⟩

/-- Before the first place in which they differ the lists agree, and there the left one is
smaller. -/
def Below (s v : List α) : Prop := ∃ p a b s' v', s = p ++ a :: s' ∧ v = p ++ b :: v' ∧ a < b

theorem below_iff (s v : List α) : Below s v ↔ s < v ∧ ¬ s <+: v := by
  induction s generalizing v with
  | nil => simp [Below]
  | cons a s ih =>
    cases v with
    | nil => simp [Below]
    | cons b v =>
      rw [List.cons_lt_cons_iff,List.cons_prefix_cons]
      constructor
      · rintro ⟨p,x,y,s',v',hs,hv,hxy⟩
        cases p with
        | nil =>
          obtain ⟨rfl,-⟩ := List.cons.inj hs
          obtain ⟨rfl,-⟩ := List.cons.inj hv
          exact ⟨.inl hxy,fun h => hxy.ne h.1⟩
        | cons c p =>
          obtain ⟨rfl,hs'⟩ := List.cons.inj hs
          obtain ⟨rfl,hv'⟩ := List.cons.inj hv
          obtain ⟨hlt,hp⟩ := (ih v).1 ⟨p,x,y,s',v',hs',hv',hxy⟩
          exact ⟨.inr ⟨rfl,hlt⟩,fun h => hp h.2⟩
      · rintro ⟨hlt | ⟨rfl,hlt⟩,hp⟩
        · exact ⟨[],a,b,s,v,rfl,rfl,hlt⟩
        · obtain ⟨p,x,y,s',v',rfl,rfl,hxy⟩ := (ih v).2 ⟨hlt,fun h => hp ⟨rfl,h⟩⟩
          exact ⟨a :: p,x,y,s',v',rfl,rfl,hxy⟩

end ClickHouseRegression.Order
