import Mathlib

/-! Programs that issue commands and go on with the replies, in an environment that can change the state
between any two commands. What holds of all runs of a program is shown by rules over its parts: an
assertion between two commands has to be stable under the environment. -/
namespace ClickHouseRegression.Interactive

/-- A program ends with a value or an error. -/
inductive Program (κ ρ ε α : Type) : Type
  | done (a : α)
  | fail (e : ε)
  | ask (command : κ) (next : ρ → Program κ ρ ε α)

namespace Program
variable {κ ρ ε α β : Type}

def bind : Program κ ρ ε α → (α → Program κ ρ ε β) → Program κ ρ ε β
  | done a,f => f a
  | fail e,_ => fail e
  | ask command next,f => ask command fun reply => (next reply).bind f

def tryCatch : Program κ ρ ε α → (ε → Program κ ρ ε α) → Program κ ρ ε α
  | done a,_ => done a
  | fail e,handler => handler e
  | ask command next,handler => ask command fun reply => (next reply).tryCatch handler

instance : Monad (Program κ ρ ε) where
  pure := done
  bind := bind

def onlyIf (c : Prop) [Decidable c] (p : Program κ ρ ε Unit) : Program κ ρ ε Unit := if c then p else done ()

/-- Turns, numbered from `i` on, until one succeeds; after so many of them the error is raised. -/
def repeatUntil (error : ε) (body : ℕ → Program κ ρ ε Bool) : ℕ → ℕ → Program κ ρ ε Unit
  | 0,_ => fail error
  | turns+1,i => (body i).bind fun success => if success then done () else repeatUntil error body turns (i+1)

/-- Every error that the program raises, whatever the replies are, is of a kind. -/
def Raises (kind : ε → Prop) : Program κ ρ ε α → Prop
  | done _ => True
  | fail e => kind e
  | ask _ next => ∀ reply, (next reply).Raises kind

theorem Raises.bind {kind : ε → Prop} {p : Program κ ρ ε α} {f : α → Program κ ρ ε β} (hp : p.Raises kind)
    (hf : ∀ a, (f a).Raises kind) : (p.bind f).Raises kind := by
  induction p with
  | done a => exact hf a
  | fail e => exact hp
  | ask command next ih => exact fun reply => ih reply (hp reply)

theorem raises_onlyIf {kind : ε → Prop} {c : Prop} [Decidable c] {p : Program κ ρ ε Unit} (hp : p.Raises kind) :
    (onlyIf c p).Raises kind := by
  rw [onlyIf]
  split
  · exact hp
  · exact trivial

theorem Raises.tryCatch {kind : ε → Prop} {p : Program κ ρ ε α} {handler : ε → Program κ ρ ε α}
    (hhandler : ∀ e, (handler e).Raises kind) : (p.tryCatch handler).Raises kind := by
  induction p with
  | done a => exact trivial
  | fail e => exact hhandler e
  | ask command next ih => exact fun reply => ih reply

theorem raises_repeatUntil {kind : ε → Prop} {error : ε} {body : ℕ → Program κ ρ ε Bool} (herror : kind error)
    (hbody : ∀ i, (body i).Raises kind) (turns i : ℕ) : (repeatUntil error body turns i).Raises kind := by
  induction turns generalizing i with
  | zero => exact herror
  | succ turns ih =>
    apply (hbody i).bind
    intro success
    cases success with
    | true => exact trivial
    | false => exact ih (i+1)

end Program

/-- What a command replies and how it changes the state, and what the environment does on its own. -/
structure System (κ ρ σ : Type) where
  exec : κ → σ → ρ → σ → Prop
  env : σ → σ → Prop

section
variable {κ ρ σ ε α β : Type} (S : System κ ρ σ)

inductive Step : Program κ ρ ε α × σ → Program κ ρ ε α × σ → Prop
  | env {p : Program κ ρ ε α} {s s' : σ} (h : S.env s s') : Step (p,s) (p,s')
  | ask {command : κ} {next : ρ → Program κ ρ ε α} {s s' : σ} {reply : ρ} (h : S.exec command s reply s') :
    Step (.ask command next,s) (next reply,s')

/-- What a run can reach. -/
def Reaches (p : Program κ ρ ε α) (s : σ) (p' : Program κ ρ ε α) (s' : σ) : Prop :=
  Relation.ReflTransGen (Step S) (p,s) (p',s')

def Stable (P : σ → Prop) : Prop := ∀ s s', P s → S.env s s' → P s'

/-- In every run the invariant holds at any time, and the postcondition from the end on. -/
def Holds (inv : σ → Prop) (post : Except ε α → σ → Prop) : Program κ ρ ε α → σ → Prop
  | .done a,s => ∀ s', Relation.ReflTransGen S.env s s' → inv s' ∧ post (.ok a) s'
  | .fail e,s => ∀ s', Relation.ReflTransGen S.env s s' → inv s' ∧ post (.error e) s'
  | .ask command next,s => ∀ s', Relation.ReflTransGen S.env s s' →
    inv s' ∧ ∀ reply s'', S.exec command s' reply s'' → Holds inv post (next reply) s''

variable {S} {inv : σ → Prop} {post : Except ε α → σ → Prop} {p : Program κ ρ ε α} {s s' : σ}

theorem Holds.env (h : Holds S inv post p s) (henv : S.env s s') : Holds S inv post p s' := by
  cases p with
  | done a => exact fun t ht => h t (ht.head henv)
  | fail e => exact fun t ht => h t (ht.head henv)
  | ask command next => exact fun t ht => h t (ht.head henv)

theorem Holds.now (h : Holds S inv post p s) : inv s := by
  cases p with
  | done a => exact (h s .refl).1
  | fail e => exact (h s .refl).1
  | ask command next => exact (h s .refl).1

theorem Holds.step {p' : Program κ ρ ε α} (h : Holds S inv post p s) (hstep : Step S (p,s) (p',s')) :
    Holds S inv post p' s' := by
  cases hstep with
  | env henv => exact h.env henv
  | ask hexec => exact (h s .refl).2 _ s' hexec

/-- The rules are sound: what holds of a program holds in all its runs. -/
theorem Holds.reaches {p' : Program κ ρ ε α} (h : Holds S inv post p s) (hrun : Reaches S p s p' s') :
    Holds S inv post p' s' := by
  suffices hall : ∀ c : Program κ ρ ε α × σ, Relation.ReflTransGen (Step S) (p,s) c → Holds S inv post c.1 c.2 by
    exact hall _ hrun
  intro c hc
  induction hc with
  | refl => exact h
  | tail _ hstep ih => exact ih.step hstep

theorem Stable.star {P : σ → Prop} (hP : Stable S P) (hs : P s) (henv : Relation.ReflTransGen S.env s s') :
    P s' := by
  induction henv with
  | refl => exact hs
  | tail _ hstep ih => exact hP _ _ ih hstep

theorem holds_done {P : σ → Prop} {a : α} (hP : Stable S P) (hinv : ∀ s, P s → inv s)
    (hpost : ∀ s, P s → post (.ok a) s) (hs : P s) : Holds S inv post (.done a) s := by
  intro s' henv
  have hs' := hP.star hs henv
  exact ⟨hinv s' hs',hpost s' hs'⟩

theorem holds_fail {P : σ → Prop} {e : ε} (hP : Stable S P) (hinv : ∀ s, P s → inv s)
    (hpost : ∀ s, P s → post (.error e) s) (hs : P s) : Holds S inv post (.fail e) s := by
  intro s' henv
  have hs' := hP.star hs henv
  exact ⟨hinv s' hs',hpost s' hs'⟩

theorem holds_ask {P : σ → Prop} {command : κ} {next : ρ → Program κ ρ ε α} (hP : Stable S P)
    (hinv : ∀ s, P s → inv s)
    (hnext : ∀ s reply s', P s → S.exec command s reply s' → Holds S inv post (next reply) s') (hs : P s) :
    Holds S inv post (.ask command next) s := by
  intro s' henv
  have hs' := hP.star hs henv
  exact ⟨hinv s' hs',fun reply s'' hexec => hnext s' reply s'' hs' hexec⟩

theorem Holds.mono {post' : Except ε α → σ → Prop} (h : Holds S inv post p s)
    (hpost : ∀ r s, post r s → post' r s) : Holds S inv post' p s := by
  induction p generalizing s with
  | done a => exact fun s' henv => ⟨(h s' henv).1,hpost _ _ (h s' henv).2⟩
  | fail e => exact fun s' henv => ⟨(h s' henv).1,hpost _ _ (h s' henv).2⟩
  | ask command next ih =>
    exact fun s' henv => ⟨(h s' henv).1,fun reply s'' hexec => ih reply ((h s' henv).2 reply s'' hexec)⟩

/-- One program after the other. -/
theorem Holds.bind {post' : Except ε β → σ → Prop} {f : α → Program κ ρ ε β} (h : Holds S inv post p s)
    (hok : ∀ a s, post (.ok a) s → Holds S inv post' (f a) s)
    (herror : ∀ e s, post (.error e) s → post' (.error e) s) : Holds S inv post' (p.bind f) s := by
  induction p generalizing s with
  | done a => exact hok a s (h s .refl).2
  | fail e => exact fun s' henv => ⟨(h s' henv).1,herror e s' (h s' henv).2⟩
  | ask command next ih =>
    exact fun s' henv => ⟨(h s' henv).1,fun reply s'' hexec => ih reply ((h s' henv).2 reply s'' hexec)⟩

theorem Holds.tryCatch {post' : Except ε α → σ → Prop} {handler : ε → Program κ ρ ε α}
    (h : Holds S inv post p s) (hok : ∀ a s, post (.ok a) s → post' (.ok a) s)
    (herror : ∀ e s, post (.error e) s → Holds S inv post' (handler e) s) :
    Holds S inv post' (p.tryCatch handler) s := by
  induction p generalizing s with
  | done a => exact fun s' henv => ⟨(h s' henv).1,hok a s' (h s' henv).2⟩
  | fail e => exact herror e s (h s .refl).2
  | ask command next ih =>
    exact fun s' henv => ⟨(h s' henv).1,fun reply s'' hexec => ih reply ((h s' henv).2 reply s'' hexec)⟩

theorem holds_true (p : Program κ ρ ε α) (s : σ) : Holds S (fun _ => True) (fun _ _ => True) p s := by
  induction p generalizing s with
  | done a => exact fun _ _ => ⟨trivial,trivial⟩
  | fail e => exact fun _ _ => ⟨trivial,trivial⟩
  | ask command next ih => exact fun _ _ => ⟨trivial,fun reply s'' _ => ih reply s''⟩

theorem Holds.mono_inv {inv' : σ → Prop} (h : Holds S inv post p s) (hinv : ∀ s, inv s → inv' s) :
    Holds S inv' post p s := by
  induction p generalizing s with
  | done a => exact fun s' henv => ⟨hinv s' (h s' henv).1,(h s' henv).2⟩
  | fail e => exact fun s' henv => ⟨hinv s' (h s' henv).1,(h s' henv).2⟩
  | ask command next ih =>
    exact fun s' henv => ⟨hinv s' (h s' henv).1,fun reply s'' hexec => ih reply ((h s' henv).2 reply s'' hexec)⟩

/-- What is raised whatever the replies are need not be looked for in the runs. -/
theorem Holds.raises {kind : ε → Prop} (h : Holds S inv post p s) (hp : p.Raises kind) :
    Holds S inv (fun r s => post r s ∧ ∀ e, r = .error e → kind e) p s := by
  induction p generalizing s with
  | done a => exact fun s' henv => ⟨(h s' henv).1,(h s' henv).2,fun _ he => nomatch he⟩
  | fail e => exact fun s' henv => ⟨(h s' henv).1,(h s' henv).2,fun _ he => Except.error.inj he ▸ hp⟩
  | ask command next ih =>
    exact fun s' henv => ⟨(h s' henv).1,fun reply s'' hexec => ih reply ((h s' henv).2 reply s'' hexec) (hp reply)⟩

theorem holds_onlyIf {c : Prop} [Decidable c] {post : Except ε Unit → σ → Prop} {p : Program κ ρ ε Unit}
    (h : c → Holds S inv post p s) (hnot : ¬ c → Holds S inv post (.done ()) s) :
    Holds S inv post (Program.onlyIf c p) s := by
  rw [Program.onlyIf]
  split
  · next hc => exact h hc
  · next hc => exact hnot hc

/-- A loop keeps an assertion until a turn succeeds. -/
theorem holds_repeatUntil {P : σ → Prop} {post : Except ε Unit → σ → Prop} {error : ε}
    {body : ℕ → Program κ ρ ε Bool} {bodyPost : Except ε Bool → σ → Prop} (hP : Stable S P)
    (hinv : ∀ s, P s → inv s) (hbody : ∀ i s, P s → Holds S inv bodyPost (body i) s)
    (hsuccess : ∀ s, bodyPost (.ok true) s → Holds S inv post (.done ()) s)
    (hagain : ∀ s, bodyPost (.ok false) s → P s) (hraise : ∀ e s, bodyPost (.error e) s → post (.error e) s)
    (hgiveUp : ∀ s, P s → post (.error error) s) (turns i : ℕ) (hs : P s) :
    Holds S inv post (Program.repeatUntil error body turns i) s := by
  induction turns generalizing i s with
  | zero => exact holds_fail hP hinv hgiveUp hs
  | succ turns ih =>
    apply (hbody i s hs).bind
    · intro success s' hs'
      cases success with
      | true => exact hsuccess s' hs'
      | false => exact ih (i+1) (hagain s' hs')
    · exact hraise

end

end ClickHouseRegression.Interactive
