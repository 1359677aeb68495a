import Mathlib

/-! Scopes that change a shared state on entry and change it back on exit. A run is a sequence of
entries and exits, and an exit closes the innermost open scope. The exits of a run give back the
states at the matching entries exactly if they do so one scope at a time. -/
namespace ClickHouseRegression.Scope

variable {κ σ : Type*}

inductive Event (κ : Type*)
  | enter (scope : κ)
  | exit

/-- The state, and the open scopes with the states at their entries, innermost first. -/
structure Machine (κ σ : Type*) where
  state : σ
  opened : List (κ × σ)

/-- An exit with the state at the matching entry and the state after it. -/
structure Exit (κ σ : Type*) where
  scope : κ
  entry : σ
  after : σ

section
variable (enter exit : κ → σ → σ)

/-- An exit without an open scope changes nothing. -/
def step (m : Machine κ σ) : Event κ → Machine κ σ
  | .enter k => ⟨enter k m.state,(k,m.state) :: m.opened⟩
  | .exit => match m.opened with
    | [] => m
    | (k,_) :: rest => ⟨exit k m.state,rest⟩

def exitOf (m : Machine κ σ) : Event κ → Option (Exit κ σ)
  | .enter _ => none
  | .exit => m.opened.head?.map fun (k,entry) => ⟨k,entry,exit k m.state⟩

/-- The exits of a run, in order. -/
def exits : Machine κ σ → List (Event κ) → List (Exit κ σ)
  | _,[] => []
  | m,e :: es => (exitOf exit m e).toList ++ exits (step enter exit m e) es

/-- The state inside the given scopes, innermost first. -/
def nested (s : σ) (ks : List κ) : σ := ks.foldr enter s

/-- The open scopes of a run whose exits have all given back the state at their entry. -/
def entries (s : σ) : List κ → List (κ × σ)
  | [] => []
  | k :: ks => (k,nested enter s ks) :: entries s ks

def machineAt (s : σ) (ks : List κ) : Machine κ σ := ⟨nested enter s ks,entries enter s ks⟩

end

/-- The scopes that a sequence of events closes, each with the scopes open around it; the
sequence starts inside the given ones. -/
def closes : List κ → List (Event κ) → List (κ × List κ)
  | _,[] => []
  | ks,.enter k :: es => closes (k :: ks) es
  | [],.exit :: es => closes [] es
  | k :: outer,.exit :: es => (k,outer) :: closes outer es

variable {enter exit : κ → σ → σ}

/-- A neutral exit leaves the machine as if its scope had not been entered. -/
theorem step_exit_cons {s : σ} {k : κ} {ks : List κ}
    (h : exit k (enter k (nested enter s ks)) = nested enter s ks) :
    step enter exit (machineAt enter s (k :: ks)) .exit = machineAt enter s ks := by
  change (⟨exit k (enter k (nested enter s ks)),entries enter s ks⟩ : Machine κ σ) = _
  rw [h]
  rfl

/-- All exits of a run are neutral if and only if each closed scope is neutral on the state that
the scopes around it make of the first one. -/
theorem exits_neutral_iff (s : σ) (ks : List κ) (es : List (Event κ)) :
    (∀ x ∈ exits enter exit (machineAt enter s ks) es, x.after = x.entry) ↔
      ∀ c ∈ closes ks es, exit c.1 (enter c.1 (nested enter s c.2)) = nested enter s c.2 := by
  induction es generalizing ks with
  | nil => simp [exits,closes]
  | cons e es ih =>
    cases e with
    | enter k => exact ih (k :: ks)
    | exit =>
      cases ks with
      | nil => exact ih []
      | cons k ks =>
        rw [exits,closes,List.forall_mem_append,List.forall_mem_cons]
        have hhead : (∀ x ∈ (exitOf exit (machineAt enter s (k :: ks)) .exit).toList,
            x.after = x.entry) ↔ exit k (enter k (nested enter s ks)) = nested enter s ks := by
          change (∀ x ∈ [(⟨k,nested enter s ks,exit k (enter k (nested enter s ks))⟩ : Exit κ σ)],
            x.after = x.entry) ↔ _
          exact List.forall_mem_singleton
        rw [hhead]
        apply and_congr_right
        intro hneutral
        rw [step_exit_cons hneutral]
        exact ih ks

end ClickHouseRegression.Scope
