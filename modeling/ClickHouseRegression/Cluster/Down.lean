import ClickHouseRegression.Cluster.Calls

/-! `Cluster.down` outside debug mode: a `try` statement that gets a shell and closes the others, and
a `finally` clause that issues `docker-compose down` in this shell, closes the control shell and
returns. Every shell may raise when it is exited. -/
namespace ClickHouseRegression.Cluster

/-- How a block of statements ends. -/
inductive Completion (ρ ε : Type)
  | falls
  | returns (value : ρ)
  | raises (e : ε)
  deriving DecidableEq

/-- `try: body` with `finally: clause`: what the body does is lost unless the clause falls through. -/
def Completion.tryFinally {ρ ε : Type} (body clause : Completion ρ ε) : Completion ρ ε :=
  match clause with
  | .falls => body
  | .returns value => .returns value
  | .raises e => .raises e

/-- What issuing the command can raise; `sessionExit` comes from `close_bash` after a timeout. -/
inductive DownCommandError
  | expectTimeout
  | shellError (exception : Text)
  | sessionExit (shell : ℕ)
  deriving DecidableEq

inductive DownError
  | openError (e : BashError)
  | sessionExit (shell : ℕ)
  | unboundLocalError
  | command (e : DownCommandError)
  | controlExit
  deriving DecidableEq

/-- What `down` meets: opening a shell to no node, which shells raise when they are exited, whether
the control shell does, and the reply to the command. -/
structure DownInput where
  opening : BashInput
  exitRaises : ℕ → Bool
  controlRaises : Bool
  reply : Reply

/-- After `down`: the sessions, whether a control shell is stored, and the commands issued. -/
structure DownEnd where
  sessions : Sessions
  control : Bool
  issued : List Text
  completion : Completion (Text × Int) DownError

/-- The shell of the key is exited and raises. -/
def exitRaisesAt (exitRaises : ℕ → Bool) (bash : ℕ) (s : Sessions) (key : SessionKey) : Option ℕ :=
  (s.table.get key).filter fun shell => shell ≠ bash && exitRaises shell

/-- The loop of the `try` statement over a copy of the keys. -/
def downLoop (exitRaises : ℕ → Bool) (bash : ℕ) :
    List SessionKey → Sessions → Sessions × Completion (Text × Int) DownError
  | [],s => (s,.falls)
  | key :: keys,s =>
    match exitRaisesAt exitRaises bash s key with
    | some shell => (s.downTurn bash key,.raises (.sessionExit shell))
    | none => downLoop exitRaises bash keys (s.downTurn bash key)

/-- The `try` statement: the sessions, the variable `bash`, and how it ends. -/
def downTry (thread : Text) (input : DownInput) (s : Sessions) :
    Option (Sessions × Option ℕ × Completion (Text × Int) DownError) :=
  match s.bash thread none input.opening with
  | some (s',.returned bash) =>
    let swept := downLoop input.exitRaises bash s'.table.keys s'
    some (swept.1,some bash,swept.2)
  | some (s',.raised e) => some (s',none,.raises (.openError e))
  | _ => none

/-- `f"{self.docker_compose} down -v --remove-orphans --timeout 60"`. -/
def downCommand (dockerCompose : Text) : Text :=
  dockerCompose ++ " down -v --remove-orphans --timeout 60".toList

/-- `self.command(None, ..., bash=bash)`. -/
def issueDown (thread : Text) (input : DownInput) (bash : ℕ) (s : Sessions) :
    Sessions × Except DownCommandError (Text × Int) :=
  let s := s.runs (some bash)
  match input.reply with
  | .result output exitcode => (s,.ok (output,exitcode))
  | .error exception => (s,.error (.shellError exception))
  | .expectTimeout =>
    match s.table.get (thread,nodeText none) with
    | none => (s,.error .expectTimeout)
    | some shell =>
      if input.exitRaises shell then (s.exit shell,.error (.sessionExit shell))
      else (s.close (thread,nodeText none),.error .expectTimeout)

/-- The `finally` clause. -/
def downFinally (dockerCompose thread : Text) (input : DownInput) (bash : Option ℕ) (s : Sessions)
    (control : Bool) : DownEnd :=
  match bash with
  | none => ⟨s,control,[],.raises .unboundLocalError⟩
  | some bash =>
    match issueDown thread input bash s with
    | (s',.error e) => ⟨s',control,[downCommand dockerCompose],.raises (.command e)⟩
    | (s',.ok cmd) =>
      if control then
        if input.controlRaises then
          ⟨s',true,[downCommand dockerCompose],.raises .controlExit⟩
        else ⟨s',false,[downCommand dockerCompose],.returns cmd⟩
      else ⟨s',false,[downCommand dockerCompose],.returns cmd⟩

/-- There is no result while the shell is being opened. -/
def down (dockerCompose thread : Text) (input : DownInput) (s : Sessions) (control : Bool) :
    Option DownEnd := do
  let (s',bash,body) ← downTry thread input s
  let clause := downFinally dockerCompose thread input bash s' control
  return { clause with completion := body.tryFinally clause.completion }

/-- The command is issued once, no variable is read without a value, only the command and the control
shell raise, and a control shell is left only if the command raised. -/
structure DownEnd.Orderly (dockerCompose : Text) (e : DownEnd) : Prop where
  once : e.issued = [downCommand dockerCompose]
  assigned : e.completion ≠ .raises .unboundLocalError
  raises_only : ∀ error, e.completion = .raises error →
    (∃ c, error = .command c) ∨ error = .controlExit
  control_closed : e.control = true → ∃ c, e.completion = .raises (.command c)

/-- When no shell raises, the loop is the sweep of the session table. -/
theorem downLoop_eq_foldl {exitRaises : ℕ → Bool} (hquiet : ∀ shell, exitRaises shell = false)
    (bash : ℕ) (keys : List SessionKey) (s : Sessions) :
    downLoop exitRaises bash keys s = (keys.foldl (Sessions.downTurn bash) s,.falls) := by
  induction keys generalizing s with
  | nil => rfl
  | cons key keys ih =>
    have hnone : exitRaisesAt exitRaises bash s key = none := by
      simp [exitRaisesAt,hquiet]
    rw [downLoop,hnone]
    exact ih _

/-- The command raises exactly if the shell gives no result. -/
theorem issueDown_cases (thread : Text) (input : DownInput) (bash : ℕ) (s : Sessions) :
    (∃ output exitcode, input.reply = .result output exitcode ∧
      issueDown thread input bash s = (s.runs (some bash),.ok (output,exitcode))) ∨
    ((∀ output exitcode, input.reply ≠ .result output exitcode) ∧
      ∃ s' e, issueDown thread input bash s = (s',.error e)) := by
  unfold issueDown
  cases input.reply with
  | result output exitcode => exact .inl ⟨output,exitcode,rfl,rfl⟩
  | error exception => exact .inr ⟨by simp,_,_,rfl⟩
  | expectTimeout =>
    refine .inr ⟨by simp,?_⟩
    simp only
    split
    · exact ⟨_,_,rfl⟩
    · split_ifs
      · exact ⟨_,_,rfl⟩
      · exact ⟨_,_,rfl⟩

/-- The `finally` clause returns or raises, so it has the last word. -/
theorem downFinally_completion (dockerCompose thread : Text) (input : DownInput) (bash : Option ℕ)
    (s : Sessions) (control : Bool) (body : Completion (Text × Int) DownError) :
    body.tryFinally (downFinally dockerCompose thread input bash s control).completion =
      (downFinally dockerCompose thread input bash s control).completion := by
  unfold downFinally
  cases bash with
  | none => rfl
  | some bash =>
    rcases issueDown_cases thread input bash s with ⟨output,exitcode,-,hissue⟩ | ⟨-,s',e,hissue⟩
    · simp only [hissue]
      split_ifs <;> rfl
    · simp only [hissue]
      rfl

/-- With a shell the clause is orderly, except when the command returns and the control shell
raises. -/
theorem downFinally_orderly_iff (dockerCompose thread : Text) (input : DownInput) (bash : Option ℕ)
    (s : Sessions) (control : Bool) :
    (downFinally dockerCompose thread input bash s control).Orderly dockerCompose ↔
      bash.isSome = true ∧ ¬ (control = true ∧ input.controlRaises = true ∧
        ∃ output exitcode, input.reply = .result output exitcode) := by
  unfold downFinally
  cases bash with
  | none =>
    constructor
    · intro h
      exact absurd h.once (by simp)
    · rintro ⟨h,-⟩
      cases h
  | some bash =>
    simp only [Option.isSome_some,true_and]
    rcases issueDown_cases thread input bash s with ⟨output,exitcode,hreply,hissue⟩ |
      ⟨hreply,s',e,hissue⟩
    · simp only [hissue,hreply]
      cases control with
      | false =>
        simp only [Bool.false_eq_true,if_false,false_and,not_false_eq_true,iff_true]
        exact ⟨rfl,by simp,by simp,by simp⟩
      | true =>
        cases hcontrol : input.controlRaises with
        | false =>
          simp only [Bool.false_eq_true,if_true,if_false,false_and,and_false,not_false_eq_true,iff_true]
          exact ⟨rfl,by simp,by simp,by simp⟩
        | true =>
          constructor
          · intro h
            obtain ⟨c,hc⟩ := h.control_closed rfl
            cases hc
          · intro h
            exact absurd ⟨rfl,rfl,output,exitcode,rfl⟩ h
    · simp only [hissue]
      constructor
      · rintro - ⟨-,-,output,exitcode,h⟩
        exact hreply output exitcode h
      · intro _
        exact ⟨rfl,by simp,by simp,fun _ => ⟨e,rfl⟩⟩

/-- For every session table and every outcome of opening and exiting shells: `down` is orderly
exactly if it gets a shell, and the control shell does not raise after a command that returned. -/
theorem down_orderly_iff (dockerCompose thread : Text) (input : DownInput) (s : Sessions)
    (control : Bool) {e : DownEnd} (h : down dockerCompose thread input s control = some e) :
    e.Orderly dockerCompose ↔
      (∃ s' shell, s.bash thread none input.opening = some (s',.returned shell)) ∧
        ¬ (control = true ∧ input.controlRaises = true ∧
          ∃ output exitcode, input.reply = .result output exitcode) := by
  obtain ⟨⟨s',bash,body⟩,htry,hend⟩ := Option.bind_eq_some_iff.1 h
  simp only [downFinally_completion] at hend
  obtain rfl := Option.some.inj hend
  rw [downFinally_orderly_iff]
  apply and_congr_left
  intro _
  unfold downTry at htry
  split at htry
  · next s₁ shell hopen =>
    cases htry
    simp [hopen]
  · next s₁ err hopen =>
    cases htry
    simp [hopen]
  · cases htry

/-- The session opens at once, and the command succeeds. -/
def downSucceeds : DownInput :=
  ⟨⟨none,[⟨.succeeds,false⟩],none,[]⟩,fun _ => true,false,.result [] 0⟩

theorem down_orderly_control :
    ∃ e, down "docker-compose".toList "MainThread".toList downSucceeds .empty true = some e ∧
      e.control = false ∧ e.Orderly "docker-compose".toList := by
  refine ⟨_,rfl,rfl,?_⟩
  refine (down_orderly_iff "docker-compose".toList "MainThread".toList downSucceeds .empty true rfl).2
    ⟨⟨_,_,rfl⟩,?_⟩
  rintro ⟨-,hraises,-⟩
  cases hraises

/-- Opening a shell raises an `IOError`. -/
def openingFails : DownInput :=
  ⟨⟨none,[⟨.enterFails true,false⟩],none,[]⟩,fun _ => false,false,.result [] 0⟩

/-- Without a shell the clause reads a variable without a value and issues nothing. -/
theorem down_without_shell :
    ∃ e, down "docker-compose".toList "MainThread".toList openingFails .empty false = some e ∧
      e.issued = [] ∧ e.completion = .raises .unboundLocalError ∧
      ¬ e.Orderly "docker-compose".toList := by
  refine ⟨_,rfl,rfl,rfl,?_⟩
  intro horderly
  exact horderly.assigned rfl

end ClickHouseRegression.Cluster
