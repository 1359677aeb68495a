import ClickHouseRegression.Cluster.Query
import ClickHouseRegression.Loop.Retry

/-! The retry of `query` against the loop it stands for: run one and the same command until
its output has no message to retry on or the budget is spent, then check that output. -/
namespace ClickHouseRegression.Cluster

/-- Everything an observer of the shells sees; the pauses between attempts are left out. -/
def visible (events : List Event) : List Event :=
  events.filter fun
    | .sleep _ => false
    | _ => true

/-- The attempts `k, k+1, ...` of a loop that never changes its options. -/
def attempts (n : Node) (sql : Text) (env : ℕ → Attempt) (o : QueryOptions) :
    ℕ → ℕ → List Event × Outcome :=
  Loop.retry (fun k => runAttempt n sql o (env k)) (fun r => shouldRetry o r.1)
    (fun r => checkResult o r.1 r.2)

/-- The loop `query` is meant to be. Each attempt has a temporary file of its own. -/
def retryLoop (n : Node) (sql : Text) (o : QueryOptions) (retryCount : Int)
    (env : ℕ → Attempt) : List Event × Outcome :=
  attempts n sql env o (max 0 retryCount).toNat 0

/-- Whatever the shells reply, `query` makes the calls of the loop and ends as it does. -/
def BehavesAsLoop (n : Node) (sql : Text) (o : QueryOptions) (retryCount : Int) : Prop :=
  ∀ env, (visible (query n sql o retryCount env).1,(query n sql o retryCount env).2) =
    retryLoop n sql o retryCount env

/-- The options that the recursive call leaves out have no effect on this query. -/
structure RetryKeeps (sql : Text) (o : QueryOptions) : Prop where
  args : o.args = []
  secure : o.secure = false
  queryId : o.queryId = none
  maxOutput : o.maxQueryOutputInBytes = "-0".toList
  hashOutput : o.hashOutput = false
  branch : o.useFile = true → 1024 < sql.length
  fileOutput : 1024 < sql.length → Text.truthy o.fileOutput = false
  pipeCmd : sql.length ≤ 1024 → o.pipeCmd = "echo -e".toList
  checks : o.ignoreException = true → o.noChecks = true ∨
    o.message.any (·.contains exceptionMark) = true

@[simp] theorem visible_append (a b : List Event) : visible (a ++ b) = visible a ++ visible b := by
  simp [visible]

@[simp] theorem visible_sleep (s : ℚ) (es : List Event) :
    visible (.sleep s :: es) = visible es := rfl

theorem runAttempt_visible (n : Node) (sql : Text) (o : QueryOptions) (a : Attempt) :
    visible (runAttempt n sql o a).1 = (runAttempt n sql o a).1 := by
  unfold runAttempt
  split
  · rfl
  · cases a.reply <;> rfl

section
variable {n : Node} {sql : Text} {env : ℕ → Attempt} {o : QueryOptions} {count k : ℕ}
  {events : List Event} {r : Text × Int}

theorem attempts_error {e : Outcome} (h : runAttempt n sql o (env k) = (events,.error e)) :
    attempts n sql env o count k = (events,e) :=
  Loop.retry_error _ _ _ h

theorem attempts_done (h : runAttempt n sql o (env k) = (events,.ok r))
    (hr : shouldRetry o r.1 = false) :
    attempts n sql env o count k = (events,checkResult o r.1 r.2) :=
  Loop.retry_done (fun k => runAttempt n sql o (env k)) (fun r => shouldRetry o r.1) _ h hr

theorem attempts_again (h : runAttempt n sql o (env k) = (events,.ok r))
    (hr : shouldRetry o r.1 = true) :
    attempts n sql env o (count+1) k =
      (events ++ (attempts n sql env o count (k+1)).1,(attempts n sql env o count (k+1)).2) :=
  Loop.retry_again (fun k => runAttempt n sql o (env k)) (fun r => shouldRetry o r.1) _ h hr

end

/-- Options that the recursive call reproduces make `query` the loop itself. -/
theorem queryFrom_fixed (n : Node) (sql : Text) (env : ℕ → Attempt) {o : QueryOptions}
    (hargs : o.args = []) (hfix : o.passedOn = o) (count k : ℕ) :
    (visible (queryFrom n sql env count o k).1,(queryFrom n sql env count o k).2) =
      attempts n sql env o count k := by
  have hv := runAttempt_visible n sql o
  induction count generalizing k with
  | zero =>
    specialize hv (env k)
    rcases h : runAttempt n sql o (env k) with ⟨events,e | r⟩ <;>
      simp only [h] at hv <;> simp [queryFrom,attempts,Loop.retry,h,hv]
  | succ count ih =>
    specialize hv (env k)
    rcases h : runAttempt n sql o (env k) with ⟨events,e | r⟩
    · simp only [h] at hv
      simp [queryFrom,attempts,Loop.retry,h,hv]
    · simp only [h] at hv
      cases hr : shouldRetry o r.1
      · simp [queryFrom,attempts,Loop.retry,h,hv,hr]
      · rw [attempts_again h hr,← ih (k+1)]
        simp [queryFrom,h,hv,hr,hargs,hfix]

/-- After one retry every option is what the recursive call passes on; from then on the
calls are those of a loop. -/
theorem queryFrom_succ_retry {n : Node} {sql : Text} {env : ℕ → Attempt} {o : QueryOptions}
    (hargs : o.args = []) {count k : ℕ} {events : List Event} {r : Text × Int}
    (h : runAttempt n sql o (env k) = (events,.ok r)) (hr : shouldRetry o r.1 = true) :
    (visible (queryFrom n sql env (count+1) o k).1,(queryFrom n sql env (count+1) o k).2) =
      (events ++ (attempts n sql env o.passedOn count (k+1)).1,
        (attempts n sql env o.passedOn count (k+1)).2) := by
  have hv := runAttempt_visible n sql o (env k)
  rw [h] at hv
  rw [← queryFrom_fixed n sql env (o := o.passedOn) hargs o.passedOn_passedOn count (k+1)]
  simp only [queryFrom,h,hr,hargs,hv,if_true,visible_append,visible_sleep]

theorem queryFrom_succ_stop {n : Node} {sql : Text} {env : ℕ → Attempt} {o : QueryOptions}
    {count k : ℕ} {events : List Event} {r : Text × Int}
    (h : runAttempt n sql o (env k) = (events,.ok r)) (hr : shouldRetry o r.1 = false) :
    queryFrom n sql env (count+1) o k = (events,checkResult o r.1 r.2) := by
  simp [queryFrom,h,hr]

theorem queryFrom_error {n : Node} {sql : Text} {env : ℕ → Attempt} {o : QueryOptions}
    {count k : ℕ} {events : List Event} {e : Outcome}
    (h : runAttempt n sql o (env k) = (events,.error e)) :
    queryFrom n sql env count o k = (events,e) := by
  cases count <;> simp [queryFrom,h]

/-- The command a retry issues depends on the settings alone. -/
def CommandOptions.settingsOnly (o : CommandOptions) : CommandOptions := { settings := o.settings }

@[simp] theorem passedOn_toCommandOptions (o : QueryOptions) :
    o.passedOn.toCommandOptions = o.toCommandOptions.settingsOnly := rfl

theorem clientCall_split (n : Node) (o : CommandOptions) :
    clientCall n o = client o.secure ++ (clientOptions (o.settings ++ n.defaultQuerySettings) ++
      clientOptions (queryIdSetting o.queryId)) := by
  rw [clientCall,querySettings,clientOptions_append]

theorem clientOptions_length_pos {settings : List Setting} (h : settings ≠ []) :
    0 < (clientOptions settings).length := by
  cases settings with
  | nil => exact absurd rfl h
  | cons s settings => simp [clientOptions_eq_flatten,settingArg_eq]

/-- Secure mode and a query id lengthen the client call. -/
theorem clientCall_length (n : Node) (o : CommandOptions) :
    (clientCall n o).length = (clientCall n o.settingsOnly).length +
      ((if o.secure then 3 else 0) + (clientOptions (queryIdSetting o.queryId)).length) := by
  rw [clientCall_split,clientCall_split]
  simp only [List.length_append,client_length o.secure,CommandOptions.settingsOnly,queryIdSetting,
    clientOptions_nil,List.length_nil]
  omega

theorem clientCall_settingsOnly_iff (n : Node) (o : CommandOptions) :
    (clientCall n o).length = (clientCall n o.settingsOnly).length ↔
      o.secure = false ∧ o.queryId = none := by
  rw [clientCall_length]
  cases hq : o.queryId with
  | none => cases hs : o.secure <;> simp [queryIdSetting]
  | some id =>
    have hp : 0 < (clientOptions (queryIdSetting (some id))).length :=
      clientOptions_length_pos (by simp [queryIdSetting])
    simp only [reduceCtorEq,and_false,iff_false]
    omega

theorem clientCall_settingsOnly (n : Node) (o : CommandOptions) (hs : o.secure = false)
    (hq : o.queryId = none) : clientCall n o.settingsOnly = clientCall n o := by
  rw [clientCall_split,clientCall_split,hs,hq]
  rfl

theorem truncates_eq_false_iff (o : CommandOptions) :
    truncates o = false ↔ o.maxQueryOutputInBytes = "-0".toList := by
  rw [truncates,decide_eq_false_iff_not,not_not]

@[simp] theorem truncates_settingsOnly (o : CommandOptions) : truncates o.settingsOnly = false :=
  (truncates_eq_false_iff _).mpr rfl

theorem fileScript_settingsOnly (n : Node) (o : CommandOptions) :
    fileScript n o.settingsOnly = clientCall n o.settingsOnly ++ " 2>&1".toList := by
  rw [fileScript,truncates_settingsOnly]
  rfl

/-- The script in the container survives a retry exactly when nothing was asked of it
beyond the settings. -/
theorem fileScript_kept_iff (n : Node) (o : CommandOptions) :
    fileScript n o.settingsOnly = fileScript n o ↔
      o.secure = false ∧ o.queryId = none ∧ o.maxQueryOutputInBytes = "-0".toList ∧
        o.hashOutput = false ∧ Text.truthy o.fileOutput = false := by
  rw [fileScript_settingsOnly]
  have hhead : ∃ t, clientCall n o.settingsOnly = 'c' :: t := by
    rw [clientCall_split]
    exact ⟨_,rfl⟩
  obtain ⟨t,ht⟩ := hhead
  rw [← truncates_eq_false_iff]
  unfold fileScript
  cases hm : truncates o
  · cases hh : o.hashOutput
    · cases hf : Text.truthy o.fileOutput
      · have hl := clientCall_settingsOnly_iff n o
        simp only [if_false,Bool.false_eq_true,List.append_left_inj,and_true]
        constructor
        · intro h
          exact hl.mp (congrArg List.length h).symm
        · intro h
          exact clientCall_settingsOnly n o h.1 h.2
      · simp [ht]
    · simp [ht]
  · simp [ht]

/-- A program name in front of a quoted statement is recovered from the text when the other
side is `echo -e`: no shorter word is followed by a blank and a quote there. -/
theorem pipeCmd_unique {pipeCmd a b : Text} (hl : b.length ≤ a.length)
    (h : pipeCmd ++ " \"".toList ++ a = "echo -e".toList ++ " \"".toList ++ b) :
    pipeCmd = "echo -e".toList := by
  have hlen := congrArg List.length h
  simp only [List.length_append] at hlen
  have hle : pipeCmd.length ≤ 7 := by
    have h7 : ("echo -e".toList : Text).length = 7 := rfl
    omega
  have htake := congrArg (List.take 9) h
  match pipeCmd with
  | [] => simp at htake
  | [_] => simp at htake
  | [_,_] => simp at htake
  | [_,_,_] => simp at htake
  | [_,_,_,_] => simp at htake
  | [_,_,_,_,_] => simp at htake
  | [_,_,_,_,_,_] => simp at htake
  | [_,_,_,_,_,_,_] => simpa using htake
  | _ :: _ :: _ :: _ :: _ :: _ :: _ :: _ :: _ => simp only [List.length_cons] at hle; omega

theorem shortCommand_settingsOnly (n : Node) (sql : Text) (o : CommandOptions) :
    shortCommand n sql o.settingsOnly = "echo -e".toList ++ " \"".toList ++
      (sql ++ "\" | ".toList ++ clientCall n o.settingsOnly ++ " 2>&1".toList) := by
  rw [shortCommand,truncates_settingsOnly]
  simp only [CommandOptions.settingsOnly,if_false,Bool.false_eq_true,List.append_assoc]

theorem shortCommand_kept_iff (n : Node) (sql : Text) (o : CommandOptions) :
    shortCommand n sql o.settingsOnly = shortCommand n sql o ↔
      o.secure = false ∧ o.queryId = none ∧ o.maxQueryOutputInBytes = "-0".toList ∧
        o.hashOutput = false ∧ o.pipeCmd = "echo -e".toList := by
  rw [shortCommand_settingsOnly]
  rw [← truncates_eq_false_iff]
  cases hm : truncates o
  · cases hh : o.hashOutput
    · have hs : shortCommand n sql o = o.pipeCmd ++ " \"".toList ++
          (sql ++ "\" | ".toList ++ clientCall n o ++ " 2>&1".toList) := by
        simp only [shortCommand,hm,hh,if_false,Bool.false_eq_true,List.append_assoc]
      rw [hs]
      constructor
      · intro h
        have hp : o.pipeCmd = "echo -e".toList := by
          apply pipeCmd_unique _ h.symm
          simp only [List.length_append,clientCall_length n o]
          omega
        have hl := congrArg List.length h
        simp only [hp,List.length_append] at hl
        obtain ⟨h1,h2⟩ := (clientCall_settingsOnly_iff n o).mp (by omega)
        exact ⟨h1,h2,rfl,rfl,hp⟩
      · rintro ⟨h1,h2,-,-,hp⟩
        rw [clientCall_settingsOnly n o h1 h2,hp]
    · simp [shortCommand,hm,hh]
  · simp [shortCommand,hm]

/-- Part of `RetryKeeps` that concerns the command. -/
theorem queryCommand_kept_iff (n : Node) (sql : Text) (o : CommandOptions) (name : Text) :
    queryCommand n sql o.settingsOnly name = queryCommand n sql o name ↔
      o.secure = false ∧ o.queryId = none ∧ o.maxQueryOutputInBytes = "-0".toList ∧
        o.hashOutput = false ∧ (o.useFile = true → 1024 < sql.length) ∧
        (1024 < sql.length → Text.truthy o.fileOutput = false) ∧
        (sql.length ≤ 1024 → o.pipeCmd = "echo -e".toList) := by
  by_cases hsql : 1024 < sql.length
  · have hu : ∀ p : CommandOptions, usesFile sql p = true := fun p => by simp [usesFile,hsql]
    have hn : ¬ sql.length ≤ 1024 := by omega
    have ht : fileCommand n o.settingsOnly name = fileCommand n o name ↔
        fileScript n o.settingsOnly = fileScript n o := by
      rw [fileCommand,fileCommand,List.append_left_inj,List.append_right_inj]
    simp only [queryCommand,hu,if_true,Command.mk.injEq,true_and,ht,fileScript_kept_iff,hsql,hn,
      forall_const,implies_true,false_implies,and_true]
  · have hle : sql.length ≤ 1024 := by omega
    have hu : usesFile sql o.settingsOnly = false := by
      simp [usesFile,hsql,CommandOptions.settingsOnly]
    cases hf : o.useFile
    · have hu' : usesFile sql o = false := by simp [usesFile,hsql,hf]
      simp only [queryCommand,hu,hu',Bool.false_eq_true,if_false,Command.mk.injEq,true_and,
        shortCommand_kept_iff,hsql,hle,forall_const,false_implies]
    · have hu' : usesFile sql o = true := by simp [usesFile,hf]
      simp [queryCommand,hu,hu',hsql]

/-- The checks survive a retry exactly when `ignore_exception` changes nothing. -/
theorem checkResult_kept_iff (o : QueryOptions) :
    (∀ output exitcode, checkResult o.passedOn output exitcode = checkResult o output exitcode) ↔
      (o.ignoreException = true → o.noChecks = true ∨
        o.message.any (·.contains exceptionMark) = true) := by
  constructor
  · intro h hi
    by_contra hc
    simp only [not_or,Bool.not_eq_true] at hc
    obtain ⟨hn,hm⟩ := hc
    -- an output that passes the other checks and shows an exception
    have hx := h (o.message.getD [] ++ exceptionMark) (o.exitcode.getD 0)
    have hc : Text.contains (o.message.getD [] ++ exceptionMark) exceptionMark = true :=
      Text.contains_append_right _ _
    have he : o.exitcode.any (fun e => decide (o.exitcode.getD 0 ≠ e)) = false := by
      cases o.exitcode <;> simp
    have hm' : o.message.any
        (fun m => !Text.contains (o.message.getD [] ++ exceptionMark) m) = false := by
      cases o.message with
      | none => rfl
      | some m => simpa using Text.contains_append_left m exceptionMark
    simp only [checkResult,QueryOptions.passedOn_noChecks,QueryOptions.passedOn_exitcode,
      QueryOptions.passedOn_message,QueryOptions.passedOn_ignoreException,
      QueryOptions.passedOn_raiseOnException,hn,he,hm',hm,hi,hc,Bool.false_eq_true,if_false,
      Bool.not_false,Bool.not_true,Bool.true_and,Bool.false_and,if_true] at hx
    cases hr : o.raiseOnException <;> simp [hr] at hx
  · intro h output exitcode
    cases hi : o.ignoreException
    · unfold checkResult
      rw [hi]
      rfl
    · rcases h hi with hn | hm
      · simp only [checkResult,QueryOptions.passedOn_noChecks,hn,if_true]
      · unfold checkResult
        rw [QueryOptions.passedOn_message,hm]
        simp only [Bool.not_true,Bool.and_false,Bool.false_and]
        rfl

/-- Surroundings in which every attempt up to number `c` answers with the message `m` and
every later one with `output` and `exitcode`. -/
def answering (m : Text) (c : ℕ) (output : Text) (exitcode : Int) (k : ℕ) : Attempt where
  tempName := []
  skipped := false
  reply := if k ≤ c then .result m 0 else .result output exitcode

theorem runAttempt_answering (n : Node) (sql : Text) (o : QueryOptions) (m : Text) (c : ℕ)
    (output : Text) (exitcode : Int) (k : ℕ) :
    runAttempt n sql o (answering m c output exitcode k) =
      ([.call (queryCommand n sql o.toCommandOptions []) o.args o.kwargs],
        .ok (if k ≤ c then (m,0) else (output,exitcode))) := by
  by_cases hk : k ≤ c <;> simp [runAttempt,answering,hk]

theorem shouldRetry_of_mem {o : QueryOptions} {m : Text} (hm : m ∈ o.messages) :
    shouldRetry o m = true := by
  simp only [shouldRetry,List.any_eq_true]
  exact ⟨m,hm,Text.contains_self m⟩

/-- The second attempt of a loop issues the command of its options. -/
theorem attempts_answering_head (n : Node) (sql : Text) (o : QueryOptions) (m : Text) (c : ℕ)
    (output : Text) (exitcode : Int) (count k : ℕ) :
    (attempts n sql (answering m c output exitcode) o count k).1.head? =
      some (.call (queryCommand n sql o.toCommandOptions []) o.args o.kwargs) := by
  have hp := Loop.retry_first_events
    (fun k => runAttempt n sql o (answering m c output exitcode k))
    (fun r => shouldRetry o r.1) (fun r => checkResult o r.1 r.2) count k
  obtain ⟨t,ht⟩ := hp
  rw [runAttempt_answering] at ht
  rw [attempts,← ht]
  rfl

/-- When all budgeted attempts answer with a message to retry on, the last output is checked. -/
theorem attempts_answering_outcome (n : Node) (sql : Text) (o : QueryOptions) {m : Text} {c : ℕ}
    (hm : m ∈ o.messages) (output : Text) (exitcode : Int) :
    (attempts n sql (answering m c output exitcode) o c 1).2 = checkResult o output exitcode := by
  apply Loop.retry_exhausted _ _ _ (output,exitcode)
  · intro i hi
    have h := runAttempt_answering n sql o m c output exitcode (1+i)
    rw [if_pos (by omega)] at h
    exact ⟨_,(m,0),h,shouldRetry_of_mem hm⟩
  · have h := runAttempt_answering n sql o m c output exitcode (1+c)
    rw [if_neg (by omega)] at h
    exact ⟨_,h⟩

/-- `query` follows the loop as soon as, after a first output that asks for a retry, the
options passed on lead through the same attempts. -/
theorem queryFrom_eq_attempts {n : Node} {sql : Text} {env : ℕ → Attempt} {o : QueryOptions}
    {count k : ℕ} (h : ∀ c, count = c+1 → o.messages ≠ [] → o.args = [] ∧
      attempts n sql env o.passedOn c (k+1) = attempts n sql env o c (k+1)) :
    (visible (queryFrom n sql env count o k).1,(queryFrom n sql env count o k).2) =
      attempts n sql env o count k := by
  have hv := runAttempt_visible n sql o (env k)
  rcases hr : runAttempt n sql o (env k) with ⟨events,e | r⟩
  · rw [hr] at hv
    rw [queryFrom_error hr,attempts_error hr]
    exact congrArg (·,e) hv
  · rw [hr] at hv
    cases count with
    | zero => simp [queryFrom,attempts,Loop.retry,hr,hv]
    | succ c =>
      cases hs : shouldRetry o r.1
      · rw [queryFrom_succ_stop hr hs,attempts_done hr hs]
        exact congrArg (·,checkResult o r.1 r.2) hv
      · have hm : o.messages ≠ [] := by
          intro he
          simp [shouldRetry,he] at hs
        obtain ⟨hargs,heq⟩ := h c rfl hm
        rw [queryFrom_succ_retry hargs hr hs,attempts_again hr hs,heq]

/-- Conversely, following the loop forces the options passed on to lead through the same attempts. -/
theorem attempts_eq_of_behavesAsLoop {n : Node} {sql : Text} {o : QueryOptions} {retryCount : Int}
    {c : ℕ} (h : BehavesAsLoop n sql o retryCount) (hc : (max 0 retryCount).toNat = c+1)
    {m : Text} (hm : m ∈ o.messages) (output : Text) (exitcode : Int) :
    o.args = [] ∧ attempts n sql (answering m c output exitcode) o.passedOn c 1 =
      attempts n sql (answering m c output exitcode) o c 1 := by
  have h0 := runAttempt_answering n sql o m c output exitcode 0
  rw [if_pos (Nat.zero_le c)] at h0
  have hs := shouldRetry_of_mem hm
  have he := h (answering m c output exitcode)
  rw [query,retryLoop,hc,attempts_again h0 hs] at he
  by_cases hargs : o.args = []
  · rw [queryFrom_succ_retry hargs h0 hs] at he
    refine ⟨hargs,?_⟩
    simpa only [Prod.ext_iff,List.append_cancel_left_eq] using he
  · exfalso
    have hh := attempts_answering_head n sql o m c output exitcode c 1
    have hl := congrArg (fun p => p.1.length) he
    simp only [queryFrom,h0,hs,hargs,if_true,if_false] at hl
    rcases ht : (attempts n sql (answering m c output exitcode) o c (0+1)).1 with _ | ⟨e,es⟩
    · rw [ht] at hh
      simp at hh
    · rw [ht] at hl
      simp [visible] at hl

theorem attempts_passedOn (n : Node) (sql : Text) (env : ℕ → Attempt) {o : QueryOptions}
    (hk : RetryKeeps sql o) : attempts n sql env o.passedOn = attempts n sql env o := by
  have hcmd : ∀ name, queryCommand n sql o.passedOn.toCommandOptions name =
      queryCommand n sql o.toCommandOptions name := fun name =>
    (queryCommand_kept_iff n sql o.toCommandOptions name).mpr ⟨hk.secure,hk.queryId,hk.maxOutput,
      hk.hashOutput,hk.branch,hk.fileOutput,hk.pipeCmd⟩
  have hact : ∀ a, runAttempt n sql o.passedOn a = runAttempt n sql o a := by
    intro a
    simp only [runAttempt,hcmd,QueryOptions.passedOn_effectiveSteps,QueryOptions.passedOn_args,
      QueryOptions.passedOn_kwargs]
  have hchk := (checkResult_kept_iff o).mpr hk.checks
  have hmsg : ∀ t, shouldRetry o.passedOn t = shouldRetry o t := fun t => rfl
  simp only [attempts,hact,hchk,hmsg]

/-- `query` is its retry loop exactly when no retry can happen or the options the recursive
call leaves out make no difference. -/
theorem query_behavesAsLoop_iff (n : Node) (sql : Text) (o : QueryOptions) (retryCount : Int) :
    BehavesAsLoop n sql o retryCount ↔
      retryCount ≤ 0 ∨ o.messages = [] ∨ RetryKeeps sql o := by
  constructor
  · intro h
    by_contra hn
    simp only [not_or] at hn
    obtain ⟨hpos,hmsg,hkeep⟩ := hn
    obtain ⟨c,hc⟩ : ∃ c, (max 0 retryCount).toNat = c+1 := ⟨(max 0 retryCount).toNat-1,by omega⟩
    obtain ⟨m,ms,hms⟩ := List.exists_cons_of_ne_nil hmsg
    have hm : m ∈ o.messages := by rw [hms]; exact List.mem_cons_self
    obtain ⟨hargs,heq⟩ := attempts_eq_of_behavesAsLoop h hc hm [] 0
    have hhead := attempts_answering_head n sql o.passedOn m c [] 0 c 1
    rw [heq,attempts_answering_head] at hhead
    have hcmd : queryCommand n sql o.toCommandOptions.settingsOnly [] =
        queryCommand n sql o.toCommandOptions [] := by
      injection (Option.some.inj hhead) with h1
      exact h1.symm
    have hchk : ∀ output exitcode,
        checkResult o.passedOn output exitcode = checkResult o output exitcode := by
      intro output exitcode
      have he := (attempts_eq_of_behavesAsLoop h hc hm output exitcode).2
      rw [← attempts_answering_outcome n sql o hm,← he]
      exact (attempts_answering_outcome n sql o.passedOn hm output exitcode).symm
    obtain ⟨h1,h2,h3,h4,h5,h6,h7⟩ := (queryCommand_kept_iff n sql o.toCommandOptions []).mp hcmd
    exact hkeep ⟨hargs,h1,h2,h3,h4,h5,h6,h7,(checkResult_kept_iff o).mp hchk⟩
  · rintro (hle | hmsg | hkeep) env
    · apply queryFrom_eq_attempts
      intro c hc
      omega
    · apply queryFrom_eq_attempts
      intro c _ hne
      exact absurd hmsg hne
    · apply queryFrom_eq_attempts
      intro c _ _
      exact ⟨hkeep.args,by rw [attempts_passedOn n sql env hkeep]⟩

/-- A secure query is retried over the plain port. -/
theorem query_retry_drops_secure :
    ¬ BehavesAsLoop ⟨"docker-compose".toList,"clickhouse1".toList,[]⟩ "SELECT 1".toList
      { secure := true } 5 := by
  intro h
  have hh := h (answering "DB::Exception: Connection loss".toList 0 "1".toList 0)
  revert hh
  decide +kernel

end ClickHouseRegression.Cluster
