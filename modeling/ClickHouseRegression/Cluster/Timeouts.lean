import ClickHouseRegression.Cluster.CallRuns

/-! What a timeout leaves behind. A call is handled when the session that hung is gone and the timeout
is raised, and when otherwise the result of its own command is judged. -/
namespace ClickHouseRegression.Cluster

/-- A value made from this result, or a failed check on it. -/
def CallOutcome.OnResult (output : Text) (exitcode : Int) : CallOutcome → Prop
  | ended (.returned o e) => o = output ∧ e = exitcode
  | ended (.exitcodeMismatch o) => o = output
  | ended (.messageMissing o) => o = output
  | ended (.exceptionInOutput o) => o = output
  | ended (.queryRuntimeException o) => o = output
  | .output o => o = output
  | nothing => True
  | _ => False

/-- The shell was exited and is not in the table. -/
def Sessions.Gone (s : Sessions) (shell : Option ℕ) : Prop :=
  ∃ i, shell = some i ∧ s.status i = .exited ∧ ∀ key, (key,i) ∉ s.table.entries

/-- A timeout closes the session and is raised, every other exception is raised, a result is judged,
and no variable without a value is read. -/
structure CallEnd.Handled (e : CallEnd) : Prop where
  timeout : ∀ run, e.run = some run → run.reply = .expectTimeout →
    e.sessions.Gone run.shell ∧ e.outcome = .ended .expectTimeoutError
  error : ∀ run exception, e.run = some run → run.reply = .error exception →
    e.outcome = .ended (.shellError exception)
  result : ∀ run output exitcode, e.run = some run → run.reply = .result output exitcode →
    e.outcome.OnResult output exitcode
  assigned : e.outcome ≠ .unboundLocalError

namespace Sessions
variable {s : Sessions}

/-- Closing a key leaves nothing of its shell. -/
theorem Linked.gone_close (hl : s.Linked) {key : SessionKey} {i : ℕ}
    (hk : (key,i) ∈ s.table.entries) : (s.close key).Gone (some i) := by
  have hclose := close_closesExactly s key
  refine ⟨i,rfl,hclose.exited key i hk rfl,?_⟩
  intro key' hk'
  obtain ⟨hstored,hne⟩ := (hclose.removed key' i).1 hk'
  exact hne (hl.unique key' key i hstored hk)

/-- After a run in a shell, closing a key only gets rid of the shell if the key is its own. -/
theorem Linked.gone_runs_close (hl : s.Linked) {key : SessionKey} {shell : Option ℕ} :
    ((s.runs shell).close key).Gone shell ↔ ∃ i, shell = some i ∧ (key,i) ∈ s.table.entries := by
  constructor
  · rintro ⟨i,rfl,hexited,-⟩
    refine ⟨i,rfl,?_⟩
    by_contra hk
    have hkept := (close_closesExactly (s.runs (some i)) key).kept i fun k hstored hkey => by
      rw [hkey] at hstored
      exact hk hstored
    have hopen : (s.runs (some i)).status i = .opened := Function.update_self ..
    rw [hkept,hopen] at hexited
    cases hexited
  · rintro ⟨i,rfl,hk⟩
    have hruns : (s.runs (some i)).Linked := hl.runs fun j hj => by
      cases hj
      exact hl.stored key i hk
    exact hruns.gone_close hk

end Sessions

section
variable {call : ShellCall} {thread : Text} {reply : Reply} {shell : Option ℕ} {s : Sessions}
  {missing : CallOutcome} {judge : Text → Int → CallOutcome}

/-- A call that ran a command has to answer its reply. -/
theorem handled_of_run {e : CallEnd} {run : ShellRun} (hrun : e.run = some run) :
    e.Handled ↔ (run.reply = .expectTimeout →
        e.sessions.Gone run.shell ∧ e.outcome = .ended .expectTimeoutError) ∧
      (∀ exception, run.reply = .error exception →
        e.outcome = .ended (.shellError exception)) ∧
      (∀ output exitcode, run.reply = .result output exitcode →
        e.outcome.OnResult output exitcode) ∧
      e.outcome ≠ .unboundLocalError := by
  constructor
  · intro h
    exact ⟨h.timeout run hrun,fun exception => h.error run exception hrun,
      fun output exitcode => h.result run output exitcode hrun,h.assigned⟩
  · rintro ⟨htimeout,herror,hresult,hassigned⟩
    refine ⟨?_,?_,?_,hassigned⟩
    · intro run' hrun'
      obtain rfl := Option.some.inj (hrun.symm.trans hrun')
      exact htimeout
    · intro run' exception hrun'
      obtain rfl := Option.some.inj (hrun.symm.trans hrun')
      exact herror exception
    · intro run' output exitcode hrun'
      obtain rfl := Option.some.inj (hrun.symm.trans hrun')
      exact hresult output exitcode

/-- Without a timeout the run is handled by every call that judges its result. -/
theorem runIn_handled (hjudge : ∀ output exitcode, (judge output exitcode).OnResult output exitcode)
    (hreply : reply ≠ .expectTimeout) :
    ((call.runIn thread reply shell s).finish missing judge).Handled := by
  cases reply with
  | expectTimeout => exact absurd rfl hreply
  | result output exitcode =>
    have hresult := hjudge output exitcode
    have hassigned : judge output exitcode ≠ .unboundLocalError := by
      intro hunbound
      rw [hunbound] at hresult
      exact hresult
    rw [handled_of_run rfl]
    refine ⟨by simp,by simp,?_,hassigned⟩
    rintro o c ⟨rfl,rfl⟩
    exact hresult
  | error exception =>
    rw [handled_of_run rfl]
    refine ⟨by simp,?_,by simp,CallOutcome.noConfusion⟩
    rintro o ⟨rfl⟩
    rfl

/-- A timeout is handled exactly if it is raised again and the shell is the one of the key. -/
theorem runIn_timeout_handled_iff (hl : s.Linked) (hmissing : missing ≠ .ended .expectTimeoutError) :
    ((call.runIn thread .expectTimeout shell s).finish missing judge).Handled ↔
      call.reraises = true ∧
        ∃ i, shell = some i ∧ ((thread,nodeText call.session),i) ∈ s.table.entries := by
  have houtcome : ((call.runIn thread .expectTimeout shell s).finish missing judge).outcome =
      if call.reraises then .ended .expectTimeoutError else missing := by
    cases hreraises : call.reraises with
    | false => simp [ShellCall.runIn,ShellCall.timedOut,Execution.finish,hreraises]
    | true => simp [ShellCall.runIn,ShellCall.timedOut,Execution.finish,hreraises]
  rw [handled_of_run rfl,houtcome,← hl.gone_runs_close]
  constructor
  · rintro ⟨htimeout,-⟩
    obtain ⟨hgone,hraised⟩ := htimeout rfl
    refine ⟨?_,hgone⟩
    by_contra hquiet
    rw [if_neg hquiet] at hraised
    exact hmissing hraised
  · rintro ⟨hreraises,hgone⟩
    rw [if_pos hreraises]
    exact ⟨fun _ => ⟨hgone,rfl⟩,by simp,by simp,CallOutcome.noConfusion⟩

/-- A call that ran no command only has to read no variable without a value. -/
theorem handled_of_no_run {e : CallEnd} (hrun : e.run = none) :
    e.Handled ↔ e.outcome ≠ .unboundLocalError := by
  constructor
  · intro h
    exact h.assigned
  · intro h
    refine ⟨?_,?_,?_,h⟩
    · rintro run hsome
      rw [hrun] at hsome
      cases hsome
    · rintro run _ hsome
      rw [hrun] at hsome
      cases hsome
    · rintro run _ _ hsome
      rw [hrun] at hsome
      cases hsome

end

/-- Neither opening the session nor the command in it times out. -/
def Turn.NoTimeout (turn : Turn) (s : Sessions) (thread : Text) (session : Option Text) : Prop :=
  (∀ s' shell, s.bash thread session turn.opening = some (s',.returned shell) →
    turn.reply ≠ .expectTimeout) ∧
  ∀ s', s.bash thread session turn.opening = some (s',.raised .other) →
    turn.openingTimesOut = false

/-- A timeout hits the session under the key only, and it is raised again if there is one. -/
def ShellCall.ClosesOwn (call : ShellCall) (thread : Text) (turn : Turn) (s : Sessions) : Prop :=
  (∀ shell, call.bash = some shell → turn.reply = .expectTimeout →
    call.reraises = true ∧ s.table.get (thread,nodeText call.session) = some shell) ∧
  (call.bash = none → call.reraises = false → turn.NoTimeout s thread call.session)

/-- Exactly when the `with` statement and the checks after it handle everything. A call that keeps
silent about a timeout has its session opened inside the `try` and no value for `r`. -/
theorem execute_handled_iff {call : ShellCall} {steps : Bool} {thread : Text} {turn : Turn}
    {s : Sessions} {e : Execution} {missing : CallOutcome} {judge : Text → Int → CallOutcome}
    (hl : s.Linked) (hjudge : ∀ output exitcode, (judge output exitcode).OnResult output exitcode)
    (hmissing : missing ≠ .ended .expectTimeoutError)
    (hquiet : call.reraises = false → call.opensInside = true ∧ missing = .unboundLocalError)
    (h : call.execute steps thread turn s = some e) :
    (e.finish missing judge).Handled ↔
      (steps = true ∧ turn.skipped = true → missing ≠ .unboundLocalError) ∧
        (¬ (steps = true ∧ turn.skipped = true) → call.ClosesOwn thread turn s) := by
  rcases execute_cases h with ⟨hsteps,hskipped,rfl⟩ |
    ⟨hskip,⟨shell,hbash,rfl⟩ | ⟨hbash,s',shell,hopen,rfl⟩ | ⟨hbash,s',err,hopen,-,hrun,hr⟩⟩
  · rw [handled_of_no_run rfl]
    simp [hsteps,hskipped,Execution.finish]
  · simp only [hskip,false_implies,true_and,not_false_eq_true,forall_const,ShellCall.ClosesOwn,hbash]
    by_cases htimeout : turn.reply = .expectTimeout
    · rw [htimeout,runIn_timeout_handled_iff hl hmissing]
      have hkey : (∃ i, (if shell < s.count then some shell else none) = some i ∧
          ((thread,nodeText call.session),i) ∈ s.table.entries) ↔
            s.table.get (thread,nodeText call.session) = some shell := by
        rw [OrderedMap.get_eq_some_iff]
        constructor
        · rintro ⟨i,hi,hk⟩
          split_ifs at hi
          rw [Option.some.inj hi]
          exact hk
        · intro hk
          exact ⟨shell,if_pos (hl.stored _ _ hk),hk⟩
      rw [hkey]
      simp
    · simp [runIn_handled hjudge htimeout,htimeout]
  · simp only [hskip,false_implies,true_and,not_false_eq_true,forall_const,ShellCall.ClosesOwn,hbash,
      Turn.NoTimeout,hopen]
    obtain ⟨hl',hstored⟩ := hl.bash hopen
    by_cases htimeout : turn.reply = .expectTimeout
    · rw [htimeout,runIn_timeout_handled_iff hl' hmissing]
      have hkey : ((thread,nodeText call.session),shell) ∈ s'.table.entries := hstored shell rfl
      simp [hkey]
    · simp [runIn_handled hjudge htimeout,htimeout]
  · have hrun' : (e.finish missing judge).run = none := hrun
    rw [handled_of_no_run hrun']
    simp only [hskip,false_implies,true_and,not_false_eq_true,forall_const,ShellCall.ClosesOwn,hbash,
      Turn.NoTimeout,hopen,Execution.finish,hr]
    cases hreraises : call.reraises with
    | true =>
      by_cases htimeout : err = .other ∧ turn.openingTimesOut = true
      · simp [htimeout]
      · simp [htimeout]
    | false =>
      obtain ⟨hinside,rfl⟩ := hquiet hreraises
      by_cases htimeout : err = .other ∧ turn.openingTimesOut = true
      · simp [htimeout,hinside]
      · rw [if_neg htimeout]
        rw [not_and] at htimeout
        simpa using htimeout

/-- The calls in which `r` has no value before the `with` statement. -/
theorem unbound_handled_iff {call : ShellCall} {steps : Bool} {thread : Text} {turn : Turn}
    {s : Sessions} {e : Execution} {judge : Text → Int → CallOutcome} (hl : s.Linked)
    (hjudge : ∀ output exitcode, (judge output exitcode).OnResult output exitcode)
    (hquiet : call.reraises = false → call.opensInside = true)
    (h : call.execute steps thread turn s = some e) :
    (e.finish .unboundLocalError judge).Handled ↔
      ¬ (steps = true ∧ turn.skipped = true) ∧ call.ClosesOwn thread turn s := by
  rw [execute_handled_iff hl hjudge CallOutcome.noConfusion (fun hre => ⟨hquiet hre,rfl⟩) h]
  simp only [ne_eq,not_true_eq_false,imp_false]
  exact and_congr_right fun hskip => forall_prop_of_true hskip

theorem CmdOptions.judge_onResult (o : CmdOptions) (output : Text) (exitcode : Int) :
    (o.judge output exitcode).OnResult output exitcode := by
  unfold CmdOptions.judge
  split_ifs <;> simp [CallOutcome.OnResult]

theorem ClusterCommandOptions.judge_onResult (o : ClusterCommandOptions) (output : Text)
    (exitcode : Int) : (o.judge output exitcode).OnResult output exitcode := by
  unfold ClusterCommandOptions.judge
  split_ifs <;> simp [CallOutcome.OnResult]

theorem judgeZero_onResult {value : CallOutcome} {output : Text} {exitcode : Int}
    (h : value.OnResult output exitcode) : (judgeZero value output exitcode).OnResult output exitcode := by
  unfold judgeZero
  split_ifs
  · exact h
  · rfl

theorem checkResult_onResult (o : QueryOptions) (output : Text) (exitcode : Int) :
    (CallOutcome.ended (checkResult o output exitcode)).OnResult output exitcode := by
  unfold checkResult
  split_ifs <;> simp [CallOutcome.OnResult]

/-- The last attempt of `query` is always handled. -/
theorem queryFinish_handled {n : Node} {sql : Text} {o : QueryOptions} {thread : Text} {turn : Turn}
    {s : Sessions} {e : Execution} (hl : s.Linked)
    (h : queryExecute n sql o thread turn s = some e) : (o.finish e).Handled := by
  unfold queryExecute at h
  refine (execute_handled_iff hl (checkResult_onResult o) (by simp) (by simp) h).2 ⟨by simp,?_⟩
  intro _
  exact ⟨by simp,by simp⟩

/-- The result of the first attempt of `query` asks for another one. -/
def AsksAgain (n : Node) (sql : Text) (o : QueryOptions) (thread : Text) (turn : Turn)
    (s : Sessions) : Prop :=
  ¬ (o.effectiveSteps = true ∧ turn.skipped = true) ∧
    ∃ s' shell output exitcode,
      s.bash thread (queryCommand n sql o.toCommandOptions turn.tempName).session turn.opening =
        some (s',.returned shell) ∧
      turn.reply = .result output exitcode ∧ shouldRetry o output = true

theorem asksAgain_iff {n : Node} {sql : Text} {o : QueryOptions} {thread : Text} {turn : Turn}
    {s : Sessions} {e : Execution} (h : queryExecute n sql o thread turn s = some e) :
    AsksAgain n sql o thread turn s ↔
      ∃ output exitcode, e.r = .ok (some (output,exitcode)) ∧ shouldRetry o output = true := by
  unfold queryExecute at h
  unfold AsksAgain
  rcases execute_cases h with ⟨hsteps,hskipped,rfl⟩ |
    ⟨hskip,⟨shell,hbash,-⟩ | ⟨-,s',shell,hopen,rfl⟩ | ⟨-,s',err,hopen,-,-,hr⟩⟩
  · simp [hsteps,hskipped]
  · cases hbash
  · rw [hopen]
    cases hreply : turn.reply with
    | result output exitcode =>
      simp [hskip,ShellCall.runIn,and_assoc]
    | expectTimeout => simp [ShellCall.runIn,ShellCall.timedOut]
    | error exception => simp [ShellCall.runIn]
  · rw [hopen,hr]
    by_cases htimeout : err = .other ∧ turn.openingTimesOut = true
    · simp [htimeout]
    · simp [htimeout]

/-- Without positional arguments every run of `query` is handled. -/
theorem queryCall_handled {n : Node} {sql thread : Text} {turns : ℕ → Turn} {count : ℕ}
    {o : QueryOptions} {k : ℕ} {s : Sessions} {e : CallEnd} (hl : s.Linked) (hargs : o.args = [])
    (h : queryCallFrom n sql thread turns count o k s = some e) : e.Handled := by
  induction count generalizing o k s with
  | zero =>
    obtain ⟨x,hx,rfl⟩ := Option.map_eq_some_iff.1 h
    exact queryFinish_handled hl hx
  | succ count ih =>
    obtain ⟨x,hx,hend⟩ := Option.bind_eq_some_iff.1 h
    split at hend
    · split_ifs at hend
      · exact ih (hl.queryExecute hx) (o.passedOn_args.trans hargs) hend
      · cases hend
        exact queryFinish_handled hl hx
    · cases hend
      exact queryFinish_handled hl hx

/-- With positional arguments `query` is handled as long as it makes no second attempt. -/
theorem queryCall_args_handled_iff {n : Node} {sql thread : Text} {turns : ℕ → Turn} {count : ℕ}
    {o : QueryOptions} {k : ℕ} {s : Sessions} {e : CallEnd} (hl : s.Linked) (hargs : o.args ≠ [])
    (h : queryCallFrom n sql thread turns count o k s = some e) :
    e.Handled ↔ (count = 0 ∨ ¬ AsksAgain n sql o thread (turns k) s) := by
  cases count with
  | zero =>
    obtain ⟨x,hx,rfl⟩ := Option.map_eq_some_iff.1 h
    simp [queryFinish_handled hl hx]
  | succ count =>
    obtain ⟨x,hx,hend⟩ := Option.bind_eq_some_iff.1 h
    have hfinish := queryFinish_handled hl hx
    rw [asksAgain_iff hx]
    cases hr : x.r with
    | error outcome =>
      simp only [hr] at hend
      cases hend
      simp [hfinish]
    | ok value =>
      cases value with
      | none =>
        simp only [hr] at hend
        cases hend
        simp [hfinish]
      | some result =>
        obtain ⟨output,exitcode⟩ := result
        simp only [hr,if_neg hargs] at hend
        cases hretry : shouldRetry o output with
        | false =>
          rw [hretry] at hend
          cases hend
          simp [hfinish,hretry]
        | true =>
          rw [hretry] at hend
          cases hend
          unfold queryExecute at hx
          obtain ⟨run,hrun,hreply⟩ := execute_result hx hr
          have hbad : ¬ CallEnd.Handled ⟨x.sessions,x.run,.ended .typeError⟩ := fun hhandled =>
            hhandled.result run output exitcode hrun hreply
          simp [hbad,hretry]

/-- The condition on a call: the step around it is not skipped where `r` has no value before it, a
shell that is passed and times out is the one of the thread and the node, a timeout is raised again,
and a second attempt of `query` repeats no positional arguments. -/
def Call.Meets (thread : Text) (turns : ℕ → Turn) (s : Sessions) : Call → Prop
  | cmd _ _ o => ¬ (o.steps = true ∧ (turns 0).skipped = true)
  | command node _ o => ¬ (o.steps = true ∧ (turns 0).skipped = true) ∧
      ∀ shell, o.bash = some shell → (turns 0).reply = .expectTimeout →
        s.table.get (thread,nodeText node) = some shell
  | query n sql o retryCount =>
      o.args = [] ∨ retryCount ≤ 0 ∨ ¬ AsksAgain n sql o thread (turns 0) s
  | hashQuery n sql hashUtility steps o => ¬ (steps = true ∧ (turns 0).skipped = true) ∧
      (turns 0).NoTimeout s thread (hashQueryCommand n sql hashUtility o (turns 0).tempName).session
  | diffQuery n sql expectedOutput steps o => ¬ (steps = true ∧ (turns 0).skipped = true) ∧
      (turns 0).NoTimeout s thread (diffQueryCommand n sql expectedOutput o (turns 0).tempName).session

/-- In every state that calls lead to, a call that ends is handled exactly if it meets its
condition. -/
theorem call_handled_iff {s : Sessions} (hs : Relation.ReflTransGen Sessions.CallStep .empty s)
    (thread : Text) (turns : ℕ → Turn) (call : Call) {e : CallEnd}
    (h : call.call thread turns s = some e) : e.Handled ↔ call.Meets thread turns s := by
  have hl := Sessions.linked_of_reachable hs
  cases call with
  | cmd name text o =>
    obtain ⟨x,hx,hend⟩ := Option.bind_eq_some_iff.1 h
    cases hend
    rw [unbound_handled_iff hl o.judge_onResult (by simp) hx]
    simp [ShellCall.ClosesOwn,Call.Meets]
  | command node text o =>
    obtain ⟨x,hx,hend⟩ := Option.bind_eq_some_iff.1 h
    cases hend
    rw [unbound_handled_iff hl o.judge_onResult (by simp) hx]
    simp [ShellCall.ClosesOwn,Call.Meets]
  | query n sql o retryCount =>
    by_cases hargs : o.args = []
    · simp [Call.Meets,hargs,queryCall_handled hl hargs h]
    · rw [queryCall_args_handled_iff hl hargs h]
      have hcount : (max 0 retryCount).toNat = 0 ↔ retryCount ≤ 0 := by omega
      simp [Call.Meets,hargs,hcount]
  | hashQuery n sql hashUtility steps o =>
    obtain ⟨x,hx,hend⟩ := Option.bind_eq_some_iff.1 h
    cases hend
    have hjudge : ∀ output exitcode,
        (judgeZero (.output output) output exitcode).OnResult output exitcode := fun _ _ =>
      judgeZero_onResult rfl
    rw [unbound_handled_iff hl hjudge (by simp) hx]
    simp [ShellCall.ClosesOwn,Call.Meets]
  | diffQuery n sql expectedOutput steps o =>
    obtain ⟨x,hx,hend⟩ := Option.bind_eq_some_iff.1 h
    cases hend
    have hjudge : ∀ output exitcode,
        (judgeZero .nothing output exitcode).OnResult output exitcode := fun _ _ =>
      judgeZero_onResult trivial
    rw [unbound_handled_iff hl hjudge (by simp) hx]
    simp [ShellCall.ClosesOwn,Call.Meets]

/-- The session opens at once, and the command in it times out. -/
def commandTimesOut : Turn :=
  ⟨false,"/tmp/query".toList,⟨none,[⟨.succeeds,false⟩],none,[]⟩,false,.expectTimeout⟩

def hangingNode : Node := ⟨"docker-compose".toList,"clickhouse1".toList,[]⟩

theorem cmd_timeout_handled :
    ∃ e, (Call.cmd "clickhouse1".toList "ls".toList {}).call "MainThread".toList
        (fun _ => commandTimesOut) .empty = some e ∧
      e.outcome = .ended .expectTimeoutError ∧ e.Handled := by
  refine ⟨_,rfl,rfl,?_⟩
  refine (call_handled_iff .refl "MainThread".toList (fun _ => commandTimesOut)
    (Call.cmd "clickhouse1".toList "ls".toList {}) rfl).2 ?_
  rintro ⟨-,hskipped⟩
  cases hskipped

/-- After a timeout `hash_query` and `diff_query` read the result that they do not have; and a command
that times out in a shell from elsewhere closes another session, or none. -/
theorem timeout_not_handled :
    (∃ e, (Call.hashQuery hangingNode "SELECT 1".toList "sha1sum".toList true {}).call
        "MainThread".toList (fun _ => commandTimesOut) .empty = some e ∧
      e.outcome = .unboundLocalError ∧ ¬ e.Handled) ∧
    (∃ e, (Call.diffQuery hangingNode "SELECT 1".toList "select.out".toList true {}).call
        "MainThread".toList (fun _ => commandTimesOut) .empty = some e ∧
      e.outcome = .unboundLocalError ∧ ¬ e.Handled) ∧
    ∃ e, (Call.command none "ls".toList {bash := some 0}).call
        "MainThread".toList (fun _ => commandTimesOut) .empty = some e ∧
      e.outcome = .ended .expectTimeoutError ∧ ¬ e.Handled := by
  refine ⟨⟨_,rfl,rfl,?_⟩,⟨_,rfl,rfl,?_⟩,⟨_,rfl,rfl,?_⟩⟩
  · intro hhandled
    exact hhandled.assigned rfl
  · intro hhandled
    exact hhandled.assigned rfl
  · intro hhandled
    obtain ⟨⟨i,hi,-⟩,-⟩ := hhandled.timeout _ rfl rfl
    cases hi

end ClickHouseRegression.Cluster
