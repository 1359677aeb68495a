import ClickHouseRegression.Interactive.Program

/-! Programs against a server that answers every command in one way, alone and many at a time. Programs
that each keep to a part of the state run together as they run alone. -/
namespace ClickHouseRegression.Interactive

namespace Program
variable {κ ρ ε α β σ : Type}

/-- The program alone. -/
def eval (exec : κ → σ → ρ × σ) : Program κ ρ ε α → σ → Except ε α × σ
  | done a,s => (.ok a,s)
  | fail e,s => (.error e,s)
  | ask command next,s => (next (exec command s).1).eval exec (exec command s).2

/-- `try … finally …`: an error of the second program counts more than what the first ends with. -/
def ensure (p : Program κ ρ ε α) (final : Program κ ρ ε Unit) : Program κ ρ ε α :=
  ((p.bind fun a => done (.ok a : Except ε α)).tryCatch fun e => done (.error e)).bind fun outcome =>
    final.bind fun _ => match outcome with
      | .ok a => done a
      | .error e => fail e

/-- A `for` loop. -/
def forEach {ι : Type} (body : ι → Program κ ρ ε Unit) : List ι → Program κ ρ ε Unit
  | [] => done ()
  | i :: rest => (body i).bind fun _ => forEach body rest

section
variable {exec : κ → σ → ρ × σ} {s : σ}

theorem eval_bind_ok {p : Program κ ρ ε α} {f : α → Program κ ρ ε β} {a : α} {s' : σ}
    (h : p.eval exec s = (.ok a,s')) : (p.bind f).eval exec s = (f a).eval exec s' := by
  induction p generalizing s with
  | done b =>
    cases h
    rfl
  | fail e => exact nomatch h
  | ask command next ih => exact ih _ h

theorem eval_bind_error {p : Program κ ρ ε α} {f : α → Program κ ρ ε β} {e : ε} {s' : σ}
    (h : p.eval exec s = (.error e,s')) : (p.bind f).eval exec s = (.error e,s') := by
  induction p generalizing s with
  | done b => exact nomatch h
  | fail e' =>
    cases h
    rfl
  | ask command next ih => exact ih _ h

theorem eval_tryCatch_ok {p : Program κ ρ ε α} {handler : ε → Program κ ρ ε α} {a : α} {s' : σ}
    (h : p.eval exec s = (.ok a,s')) : (p.tryCatch handler).eval exec s = (.ok a,s') := by
  induction p generalizing s with
  | done b => exact h
  | fail e => exact nomatch h
  | ask command next ih => exact ih _ h

theorem eval_tryCatch_error {p : Program κ ρ ε α} {handler : ε → Program κ ρ ε α} {e : ε} {s' : σ}
    (h : p.eval exec s = (.error e,s')) : (p.tryCatch handler).eval exec s = (handler e).eval exec s' := by
  induction p generalizing s with
  | done b => exact nomatch h
  | fail e' =>
    cases h
    rfl
  | ask command next ih => exact ih _ h

/-- The second program of `ensure` runs whatever the first ends with. -/
theorem eval_ensure {p : Program κ ρ ε α} {final : Program κ ρ ε Unit} {outcome : Except ε α} {s' s'' : σ}
    (h : p.eval exec s = (outcome,s')) (hfinal : final.eval exec s' = (.ok (),s'')) :
    (p.ensure final).eval exec s = (outcome,s'') := by
  have hcaught : ((p.bind fun a => done (.ok a : Except ε α)).tryCatch fun e => done (.error e)).eval exec s =
      (.ok outcome,s') := by
    cases outcome with
    | ok a => exact eval_tryCatch_ok (eval_bind_ok h)
    | error e => exact eval_tryCatch_error (eval_bind_error h)
  rw [ensure,eval_bind_ok hcaught,eval_bind_ok hfinal]
  cases outcome <;> rfl

/-- A loop whose turns succeed only without a trace succeeds if all of them do. -/
theorem eval_forEach {ι : Type} {body : ι → Program κ ρ ε Unit} {items : List ι}
    (h : ∀ i ∈ items, (body i).eval exec s = (.ok (),s) ∨ ∃ e s', (body i).eval exec s = (.error e,s')) :
    ((forEach body items).eval exec s = (.ok (),s) ∧ ∀ i ∈ items, (body i).eval exec s = (.ok (),s)) ∨
      (∃ e s', (forEach body items).eval exec s = (.error e,s')) ∧
        ∃ i ∈ items, ∃ e s', (body i).eval exec s = (.error e,s') := by
  induction items with
  | nil => exact Or.inl ⟨rfl,fun _ hi => nomatch hi⟩
  | cons i rest ih =>
    cases h i List.mem_cons_self with
    | inl hok =>
      rw [forEach,eval_bind_ok hok]
      cases ih fun j hj => h j (List.mem_cons_of_mem i hj) with
      | inl hall =>
        left
        refine ⟨hall.1,fun j hj => ?_⟩
        cases hj with
        | head => exact hok
        | tail _ hj => exact hall.2 j hj
      | inr hsome =>
        obtain ⟨herror,j,hj,hbody⟩ := hsome
        exact Or.inr ⟨herror,j,List.mem_cons_of_mem i hj,hbody⟩
    | inr herror =>
      obtain ⟨e,s',he⟩ := herror
      right
      refine ⟨⟨e,s',?_⟩,i,List.mem_cons_self,e,s',he⟩
      rw [forEach,eval_bind_error he]

end

end Program

end ClickHouseRegression.Interactive
