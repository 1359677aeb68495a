import ClickHouseRegression.Text

/-! `Cluster.up` up to the point where it waits for healthy nodes: five attempts to pull, take down,
bring up and look at the containers. The variables `cmd` and `ps_cmd` outlive an attempt; reading one
that was never assigned is an `UnboundLocalError`. -/
namespace ClickHouseRegression.Cluster

structure CommandResult where
  output : Text
  exitcode : ℤ
  deriving DecidableEq

/-- The results of the commands of one attempt that are looked at. -/
structure UpReplies where
  pull : CommandResult
  down : CommandResult
  up : ℕ → CommandResult
  ps : CommandResult

/-- The local variables, with the commands issued and the attempts made so far. -/
structure UpVars where
  cmd : Option CommandResult
  psCmd : Option CommandResult
  issued : List Text
  attempts : ℕ

inductive UpOutcome
  | waitsHealthy
  | fail (message : Text)
  | unboundLocalError
  deriving DecidableEq

def maxAttempts : ℕ := 5
def maxUpAttempts : ℕ := 1

/-- `"is unhealthy" in cmd.output`. -/
def CommandResult.unhealthy (r : CommandResult) : Bool := r.output.contains "is unhealthy".toList

/-- `"Exit" in ps_cmd.output`. -/
def CommandResult.hasExit (r : CommandResult) : Bool := r.output.contains "Exit".toList

namespace UpVars

/-- A command whose result is not kept. -/
def issue (v : UpVars) (text : Text) : UpVars := { v with issued := v.issued ++ [text] }

def setCmd (v : UpVars) (text : Text) (r : CommandResult) : UpVars :=
  { v.issue text with cmd := some r }

def setPsCmd (v : UpVars) (text : Text) (r : CommandResult) : UpVars :=
  { v.issue text with psCmd := some r }

end UpVars

/-- Reading a local variable. -/
def readVar (x : Option CommandResult) : Except UpOutcome CommandResult :=
  match x with
  | none => .error .unboundLocalError
  | some r => .ok r

section
variable (dockerCompose : Text)

/-- The loop over the attempts to bring the services up. -/
def upLoop (up : ℕ → CommandResult) : List ℕ → UpVars → Except UpOutcome UpVars
  | [],v => .ok v
  | upAttempt :: rest,v => do
    let v := v.setCmd (dockerCompose ++
      " up --renew-anon-volumes --force-recreate --timeout 600 -d 2>&1 | tee".toList) (up upAttempt)
    if !(← readVar v.cmd).unhealthy then return v
    upLoop up rest v

/-- One attempt; the flag tells a `break` from a `continue`. -/
def upAttempt (a : UpReplies) (v : UpVars) : Except UpOutcome (UpVars × Bool) := do
  let v := { v with attempts := v.attempts+1 }
  let v := v.setCmd (dockerCompose ++ " pull 2>&1 | tee".toList) a.pull
  if (← readVar v.cmd).exitcode ≠ 0 then return (v,false)
  let v := v.issue (dockerCompose ++ " ps | tee".toList)
  let v := v.setCmd (dockerCompose ++ " down 2>&1 | tee".toList) a.down
  if (← readVar v.cmd).exitcode ≠ 0 then return (v,false)
  let v := v.issue (dockerCompose ++ " ps | tee".toList)
  let v ← upLoop dockerCompose a.up (List.range maxUpAttempts) v
  let v := v.setPsCmd (dockerCompose ++ " ps | tee | grep -v \"Exit 0\"".toList) a.ps
  if (← readVar v.cmd).unhealthy then return (v.issue (dockerCompose ++ " logs | tee".toList),false)
  if (← readVar v.psCmd).hasExit then return (v.issue (dockerCompose ++ " logs | tee".toList),false)
  if (← readVar v.cmd).exitcode = 0 then
    if !(← readVar v.cmd).unhealthy then
      if !(← readVar v.psCmd).hasExit then return (v,true)
  return (v,false)

/-- The loop over the attempts. -/
def upAttempts (replies : ℕ → UpReplies) : List ℕ → UpVars → Except UpOutcome UpVars
  | [],v => .ok v
  | attempt :: rest,v => do
    let (v,done) ← upAttempt dockerCompose (replies attempt) v
    if done then return v
    upAttempts replies rest v

/-- The check after the loop. -/
def upCheck (v : UpVars) : Except UpOutcome UpOutcome := do
  let failed := .fail "could not bring up docker-compose cluster".toList
  if (← readVar v.cmd).exitcode ≠ 0 then return failed
  if (← readVar v.cmd).unhealthy then return failed
  if (← readVar v.psCmd).hasExit then return failed
  return .waitsHealthy

/-- What `up` does before it waits for the nodes: the variables after the loop and the outcome. -/
def up (replies : ℕ → UpReplies) : Except UpOutcome (UpVars × UpOutcome) := do
  let v ← upAttempts dockerCompose replies (List.range maxAttempts) ⟨none,none,[],0⟩
  let outcome ← upCheck v
  return (v,outcome)

end

/-- A good attempt. -/
structure UpReplies.Good (a : UpReplies) : Prop where
  pull : a.pull.exitcode = 0
  down : a.down.exitcode = 0
  up : (a.up 0).exitcode = 0
  healthy : (a.up 0).unhealthy = false
  running : a.ps.hasExit = false

namespace UpVars
variable (v : UpVars) (text : Text) (r : CommandResult)

@[simp] theorem issue_cmd : (v.issue text).cmd = v.cmd := rfl
@[simp] theorem issue_psCmd : (v.issue text).psCmd = v.psCmd := rfl
@[simp] theorem issue_attempts : (v.issue text).attempts = v.attempts := rfl
@[simp] theorem setCmd_cmd : (v.setCmd text r).cmd = some r := rfl
@[simp] theorem setCmd_attempts : (v.setCmd text r).attempts = v.attempts := rfl
@[simp] theorem setPsCmd_cmd : (v.setPsCmd text r).cmd = v.cmd := rfl
@[simp] theorem setPsCmd_psCmd : (v.setPsCmd text r).psCmd = some r := rfl
@[simp] theorem setPsCmd_attempts : (v.setPsCmd text r).attempts = v.attempts := rfl

end UpVars

@[simp] theorem readVar_some (r : CommandResult) : readVar (some r) = .ok r := rfl

/-- With one attempt to bring the services up, its result is the one that is kept. -/
theorem upLoop_eq (dockerCompose : Text) (up : ℕ → CommandResult) (v : UpVars) :
    upLoop dockerCompose up (List.range maxUpAttempts) v =
      .ok (v.setCmd (dockerCompose ++
        " up --renew-anon-volumes --force-recreate --timeout 600 -d 2>&1 | tee".toList) (up 0)) := by
  change upLoop dockerCompose up [0] v = _
  simp only [upLoop,UpVars.setCmd_cmd,readVar_some,bind,Except.bind]
  split_ifs <;> rfl

/-- The outcome of the check after the loop, when `cmd` and `ps_cmd` were assigned. -/
theorem upCheck_eq {v : UpVars} {cmd : CommandResult} (hcmd : v.cmd = some cmd)
    (hps : cmd.exitcode = 0 → cmd.unhealthy = false → ∃ ps, v.psCmd = some ps) :
    ∃ outcome, upCheck v = .ok outcome ∧
      (outcome = .waitsHealthy ∨
        outcome = .fail "could not bring up docker-compose cluster".toList) ∧
      (outcome = .waitsHealthy ↔ cmd.exitcode = 0 ∧ cmd.unhealthy = false ∧
        ∀ ps, v.psCmd = some ps → ps.hasExit = false) := by
  unfold upCheck
  simp only [hcmd,readVar_some,bind,Except.bind,pure,Except.pure]
  by_cases hexit : cmd.exitcode = 0
  · cases hhealthy : cmd.unhealthy with
    | true => simp [hexit]
    | false =>
      obtain ⟨ps,hps⟩ := hps hexit hhealthy
      cases hrunning : ps.hasExit with
      | true => simp [hexit,hps,hrunning]
      | false => simp [hexit,hps,hrunning]
  · simp [hexit]

/-- What an attempt can do: stop after the pull, stop after the down, or come to the containers. -/
theorem upAttempt_cases (dockerCompose : Text) (a : UpReplies) (v : UpVars) :
    ∃ v' done, upAttempt dockerCompose a v = .ok (v',done) ∧ v'.attempts = v.attempts+1 ∧
      ((a.pull.exitcode ≠ 0 ∧ v'.cmd = some a.pull ∧ done = false) ∨
        (a.pull.exitcode = 0 ∧ a.down.exitcode ≠ 0 ∧ v'.cmd = some a.down ∧ done = false) ∨
        (a.pull.exitcode = 0 ∧ a.down.exitcode = 0 ∧ v'.cmd = some (a.up 0) ∧
          v'.psCmd = some a.ps ∧ (done = true ↔ (a.up 0).exitcode = 0 ∧
            (a.up 0).unhealthy = false ∧ a.ps.hasExit = false))) := by
  unfold upAttempt
  simp only [UpVars.setCmd_cmd,UpVars.setPsCmd_cmd,UpVars.setPsCmd_psCmd,readVar_some,upLoop_eq,bind,
    Except.bind,pure,Except.pure]
  by_cases hpull : a.pull.exitcode = 0
  · by_cases hdown : a.down.exitcode = 0
    · rw [if_neg (not_not_intro hpull),if_neg (not_not_intro hdown)]
      cases hhealthy : (a.up 0).unhealthy with
      | true => exact ⟨_,_,rfl,rfl,.inr (.inr ⟨hpull,hdown,rfl,rfl,by simp⟩)⟩
      | false =>
        cases hrunning : a.ps.hasExit with
        | true => exact ⟨_,_,rfl,rfl,.inr (.inr ⟨hpull,hdown,rfl,rfl,by simp⟩)⟩
        | false =>
          by_cases hup : (a.up 0).exitcode = 0
          · rw [if_pos hup]
            exact ⟨_,_,rfl,rfl,.inr (.inr ⟨hpull,hdown,rfl,rfl,by simp [hup]⟩)⟩
          · rw [if_neg hup]
            exact ⟨_,_,rfl,rfl,.inr (.inr ⟨hpull,hdown,rfl,rfl,by simp [hup]⟩)⟩
    · rw [if_neg (not_not_intro hpull),if_pos hdown]
      exact ⟨_,_,rfl,rfl,.inr (.inl ⟨hpull,hdown,rfl,rfl⟩)⟩
  · rw [if_pos hpull]
    exact ⟨_,_,rfl,rfl,.inl ⟨hpull,rfl,rfl⟩⟩

/-- After an attempt the check of the variables tells whether this attempt was good, whatever an
earlier one has left in them. -/
theorem upAttempt_spec (dockerCompose : Text) (a : UpReplies) (v : UpVars) :
    ∃ v' done outcome, upAttempt dockerCompose a v = .ok (v',done) ∧
      v'.attempts = v.attempts+1 ∧ (done = true ↔ a.Good) ∧ upCheck v' = .ok outcome ∧
      (outcome = .waitsHealthy ↔ a.Good) ∧ (¬ a.Good →
        outcome = .fail "could not bring up docker-compose cluster".toList) := by
  obtain ⟨v',done,hrun,hattempts,hcases⟩ := upAttempt_cases dockerCompose a v
  have hgood : (done = true ↔ a.Good) ∧ ∃ cmd, v'.cmd = some cmd ∧
      (cmd.exitcode = 0 → cmd.unhealthy = false → ∃ ps, v'.psCmd = some ps) ∧
      (cmd.exitcode = 0 ∧ cmd.unhealthy = false ∧
        (∀ ps, v'.psCmd = some ps → ps.hasExit = false) ↔ a.Good) := by
    rcases hcases with ⟨hpull,hcmd,rfl⟩ | ⟨hpull,hdown,hcmd,rfl⟩ | ⟨hpull,hdown,hcmd,hps,hdone⟩
    · have hbad : ¬ a.Good := fun h => hpull h.pull
      exact ⟨by simp [hbad],_,hcmd,fun h => absurd h hpull,by simp [hbad,hpull]⟩
    · have hbad : ¬ a.Good := fun h => hdown h.down
      exact ⟨by simp [hbad],_,hcmd,fun h => absurd h hdown,by simp [hbad,hdown]⟩
    · have hiff : ((a.up 0).exitcode = 0 ∧ (a.up 0).unhealthy = false ∧ a.ps.hasExit = false) ↔
          a.Good := by
        constructor
        · rintro ⟨hup,hhealthy,hrunning⟩
          exact ⟨hpull,hdown,hup,hhealthy,hrunning⟩
        · intro h
          exact ⟨h.up,h.healthy,h.running⟩
      refine ⟨hdone.trans hiff,_,hcmd,fun _ _ => ⟨_,hps⟩,?_⟩
      rw [← hiff,hps]
      simp
  obtain ⟨hdone,cmd,hcmd,hassigned,hiff⟩ := hgood
  obtain ⟨outcome,hcheck,hcases,hwaits⟩ := upCheck_eq hcmd hassigned
  refine ⟨v',done,outcome,hrun,hattempts,hdone,hcheck,hwaits.trans hiff,?_⟩
  intro hbad
  rcases hcases with h | h
  · exact absurd ((hwaits.trans hiff).1 h) hbad
  · exact h

/-- The loop over the attempts stops with the first good one or with the last one, and the check
that follows it is about this attempt. -/
theorem upAttempts_spec (dockerCompose : Text) (replies : ℕ → UpReplies) (k n : ℕ) (v : UpVars) :
    ∃ m ≤ n, ∃ v' outcome,
      upAttempts dockerCompose replies ((List.range (n+1)).map (k+·)) v = .ok v' ∧
      v'.attempts = v.attempts+(m+1) ∧ (∀ i < m, ¬ (replies (k+i)).Good) ∧
      (m < n → (replies (k+m)).Good) ∧ upCheck v' = .ok outcome ∧
      (outcome = .waitsHealthy ↔ (replies (k+m)).Good) ∧ (¬ (replies (k+m)).Good →
        outcome = .fail "could not bring up docker-compose cluster".toList) := by
  induction n generalizing k v with
  | zero =>
    obtain ⟨v',done,outcome,hrun,hattempts,-,hcheck,hwaits,hfail⟩ :=
      upAttempt_spec dockerCompose (replies k) v
    refine ⟨0,le_rfl,v',outcome,?_,hattempts,by simp,by simp,hcheck,hwaits,hfail⟩
    change upAttempts dockerCompose replies [k] v = _
    simp only [upAttempts,hrun,bind,Except.bind]
    cases done <;> rfl
  | succ n ih =>
    obtain ⟨v₁,done,outcome,hrun,hattempts,hdone,hcheck,hwaits,hfail⟩ :=
      upAttempt_spec dockerCompose (replies k) v
    have hlist : (List.range (n+1+1)).map (k+·) =
        k :: (List.range (n+1)).map (k+1+·) := by
      rw [List.range_succ_eq_map,List.map_cons,List.map_map]
      congr 1
      apply List.map_congr_left
      intro i _
      simp only [Function.comp_apply]
      omega
    rw [hlist]
    simp only [upAttempts,hrun,bind,Except.bind]
    cases done with
    | true =>
      have hgood := hdone.1 rfl
      exact ⟨0,by omega,v₁,outcome,rfl,hattempts,by simp,fun _ => hgood,hcheck,hwaits,hfail⟩
    | false =>
      have hbad : ¬ (replies k).Good := fun h => Bool.noConfusion (hdone.2 h)
      obtain ⟨m,hm,v',outcome',hrest,hattempts',hbefore,hlast,hcheck',hwaits',hfail'⟩ := ih (k+1) v₁
      have hshift : k+1+m = k+(m+1) := by omega
      rw [hshift] at hlast hwaits' hfail'
      refine ⟨m+1,by omega,v',outcome',hrest,by omega,?_,fun h => hlast (by omega),hcheck',hwaits',
        hfail'⟩
      intro i hi
      cases i with
      | zero => exact hbad
      | succ i =>
        have hearlier := hbefore i (by omega)
        rwa [show k+1+i = k+(i+1) by omega] at hearlier

/-- For every sequence of results, `up` ends after the first good attempt or after the last one; it
goes on exactly if the last attempt made was good and fails otherwise, and no variable is read before
it is assigned. -/
theorem up_goes_on_iff (dockerCompose : Text) (replies : ℕ → UpReplies) :
    ∃ last < maxAttempts, ∃ v outcome, up dockerCompose replies = .ok (v,outcome) ∧
      v.attempts = last+1 ∧ (∀ i < last, ¬ (replies i).Good) ∧
      (last+1 < maxAttempts → (replies last).Good) ∧
      (outcome = .waitsHealthy ↔ (replies last).Good) ∧ (¬ (replies last).Good →
        outcome = .fail "could not bring up docker-compose cluster".toList) := by
  obtain ⟨m,hm,v,outcome,hrun,hattempts,hbefore,hlast,hcheck,hwaits,hfail⟩ :=
    upAttempts_spec dockerCompose replies 0 4 ⟨none,none,[],0⟩
  simp only [Nat.zero_add] at hbefore hlast hwaits hfail hattempts
  refine ⟨m,?_,v,outcome,?_,hattempts,hbefore,?_,hwaits,hfail⟩
  · unfold maxAttempts
    omega
  · have hrange : List.range maxAttempts = (List.range (4+1)).map (0+·) := by decide
    rw [up,hrange]
    simp only [hrun,hcheck,bind,Except.bind]
    rfl
  · intro h
    unfold maxAttempts at h
    exact hlast (by omega)

end ClickHouseRegression.Cluster
