import ClickHouseRegression.Cluster.Closing
import ClickHouseRegression.Cluster.Query

/-! The calls that run a command in a session: `Node.cmd`, `Cluster.command` and
`ClickHouseNode.query`, `hash_query` and `diff_query`. Each of them has its own `try` statement for
`ExpectTimeoutError`. What the surroundings decide is the input of a turn. -/
namespace ClickHouseRegression.Cluster

/-- How a call ends. The outcomes of `query` are those of all calls; `hash_query` returns the output
and `diff_query` nothing. -/
inductive CallOutcome
  | ended (o : Outcome)
  | output (text : Text)
  | nothing
  | openError (e : BashError)
  | unboundLocalError
  deriving DecidableEq

/-- One execution of the wrapped shell call: whether the step around it is skipped by the test
runner, the name of the temporary file, what opening a session meets, whether an exception of another
kind there is an `ExpectTimeoutError`, and the reply of the shell. -/
structure Turn where
  skipped : Bool
  tempName : Text
  opening : BashInput
  openingTimesOut : Bool
  reply : Reply

/-- How a call uses its session: the node and the command, the argument `bash`, whether the handler
of `ExpectTimeoutError` raises it again, and whether the session is opened inside the `try`. -/
structure ShellCall where
  session : Option Text
  text : Text
  bash : Option ℕ
  reraises : Bool
  opensInside : Bool

/-- The command that was run, the shell that ran it (`none` if it was not opened by
`Cluster.bash`) and the reply. -/
structure ShellRun where
  shell : Option ℕ
  text : Text
  reply : Reply

/-- After the `try` statement: the sessions, the run if there was one, and the variable `r`, which
may be without a value, or the exception. -/
structure Execution where
  sessions : Sessions
  run : Option ShellRun
  r : Except CallOutcome (Option (Text × Int))

/-- After the call. -/
structure CallEnd where
  sessions : Sessions
  run : Option ShellRun
  outcome : CallOutcome

/-- A shell that runs a command is open. -/
def Sessions.runs (s : Sessions) : Option ℕ → Sessions
  | none => s
  | some shell => { s with status := Function.update s.status shell .opened }

namespace ShellCall

/-- The handler of `ExpectTimeoutError`. -/
def timedOut (call : ShellCall) (thread : Text) (s : Sessions) (run : Option ShellRun) : Execution :=
  ⟨s.close (thread,nodeText call.session),run,
    if call.reraises then .error (.ended .expectTimeoutError) else .ok none⟩

/-- The command in the shell. -/
def runIn (call : ShellCall) (thread : Text) (reply : Reply) (shell : Option ℕ) (s : Sessions) :
    Execution :=
  match reply with
  | .result output exitcode =>
    ⟨s.runs shell,some ⟨shell,call.text,reply⟩,.ok (some (output,exitcode))⟩
  | .expectTimeout => call.timedOut thread (s.runs shell) (some ⟨shell,call.text,reply⟩)
  | .error exception =>
    ⟨s.runs shell,some ⟨shell,call.text,reply⟩,.error (.ended (.shellError exception))⟩

/-- The `with` statement around the `try`. Numbers that were not given out yet stand for shells from
elsewhere. There is no result while the session is being opened. -/
def execute (call : ShellCall) (steps : Bool) (thread : Text) (turn : Turn) (s : Sessions) :
    Option Execution :=
  if steps && turn.skipped then some ⟨s,none,.ok none⟩
  else
    match call.bash with
    | some shell => some (call.runIn thread turn.reply (if shell < s.count then some shell else none) s)
    | none =>
      match s.bash thread call.session turn.opening with
      | some (s',.returned shell) => some (call.runIn thread turn.reply (some shell) s')
      | some (s',.raised e) =>
        if e = .other ∧ turn.openingTimesOut then
          if call.opensInside then some (call.timedOut thread s' none)
          else some ⟨s',none,.error (.ended .expectTimeoutError)⟩
        else some ⟨s',none,.error (.openError e)⟩
      | _ => none

end ShellCall

/-- What follows the `with` statement, given what is made of a missing value and of a result. -/
def Execution.finish (e : Execution) (missing : CallOutcome) (judge : Text → Int → CallOutcome) :
    CallEnd :=
  ⟨e.sessions,e.run,
    match e.r with
    | .error outcome => outcome
    | .ok none => missing
    | .ok (some (output,exitcode)) => judge output exitcode⟩

structure CmdOptions where
  message : Option Text := none
  exitcode : Option Int := none
  steps : Bool := true
  noChecks : Bool := false

/-- The checks of `Node.cmd`. -/
def CmdOptions.judge (o : CmdOptions) (output : Text) (exitcode : Int) : CallOutcome :=
  if o.noChecks then .ended (.returned output exitcode)
  else if o.exitcode.any (fun e => decide (exitcode ≠ e)) then .ended (.exitcodeMismatch output)
  else if o.message.any (fun m => !output.contains m) then .ended (.messageMissing output)
  else .ended (.returned output exitcode)

def nodeCmd (name cmd : Text) (o : CmdOptions) (thread : Text) (turn : Turn) (s : Sessions) :
    Option CallEnd := do
  let e ← (ShellCall.mk (some name) cmd none true true).execute o.steps thread turn s
  return e.finish .unboundLocalError o.judge

/-- The argument `exitcode` of `Cluster.command`: a number, or a number after `!=`. -/
inductive ExitcodeCheck
  | equals (n : Int)
  | differs (n : Int)

def ExitcodeCheck.passes (exitcode : Int) : ExitcodeCheck → Bool
  | equals n => exitcode = n
  | differs n => exitcode ≠ n

structure ClusterCommandOptions where
  message : Option Text := none
  messages : Option (List Text) := none
  exitcode : Option ExitcodeCheck := none
  steps : Bool := true
  bash : Option ℕ := none
  noChecks : Bool := false

/-- `if messages is None: messages = []` and `if message: messages = [message] + messages`. -/
def ClusterCommandOptions.allMessages (o : ClusterCommandOptions) : List Text :=
  (if Text.truthy o.message then o.message.toList else []) ++ o.messages.getD []

/-- The checks of `Cluster.command`. -/
def ClusterCommandOptions.judge (o : ClusterCommandOptions) (output : Text) (exitcode : Int) :
    CallOutcome :=
  if o.noChecks then .ended (.returned output exitcode)
  else if o.exitcode.any (fun e => !e.passes exitcode) then .ended (.exitcodeMismatch output)
  else if o.allMessages.any (fun m => !output.contains m) then .ended (.messageMissing output)
  else .ended (.returned output exitcode)

def clusterCommand (node : Option Text) (command : Text) (o : ClusterCommandOptions) (thread : Text)
    (turn : Turn) (s : Sessions) : Option CallEnd := do
  let e ← (ShellCall.mk node command o.bash true false).execute o.steps thread turn s
  return e.finish .unboundLocalError o.judge

/-- `exitcode should be 0`, the only check of `hash_query` and `diff_query`. -/
def judgeZero (value : CallOutcome) (output : Text) (exitcode : Int) : CallOutcome :=
  if exitcode = 0 then value else .ended (.exitcodeMismatch output)

def hashQuery (n : Node) (sql hashUtility : Text) (steps : Bool) (o : CheckOptions) (thread : Text)
    (turn : Turn) (s : Sessions) : Option CallEnd := do
  let command := hashQueryCommand n sql hashUtility o turn.tempName
  let e ← (ShellCall.mk command.session command.text none false true).execute steps thread turn s
  return e.finish .unboundLocalError fun output => judgeZero (.output output) output

def diffQuery (n : Node) (sql expectedOutput : Text) (steps : Bool) (o : CheckOptions) (thread : Text)
    (turn : Turn) (s : Sessions) : Option CallEnd := do
  let command := diffQueryCommand n sql expectedOutput o turn.tempName
  let e ← (ShellCall.mk command.session command.text none false true).execute steps thread turn s
  return e.finish .unboundLocalError (judgeZero .nothing)

/-- The `with` statement of `query`. -/
def queryExecute (n : Node) (sql : Text) (o : QueryOptions) (thread : Text) (turn : Turn)
    (s : Sessions) : Option Execution :=
  let command := queryCommand n sql o.toCommandOptions turn.tempName
  (ShellCall.mk command.session command.text none true true).execute o.effectiveSteps thread turn s

/-- What `query` does without another attempt; `r` is `None` before the `with` statement. -/
def QueryOptions.finish (o : QueryOptions) (e : Execution) : CallEnd :=
  e.finish (.ended .notExecuted) fun output exitcode => .ended (checkResult o output exitcode)

/-- `query` from turn `k` on, with so many retries left. -/
def queryCallFrom (n : Node) (sql thread : Text) (turns : ℕ → Turn) :
    ℕ → QueryOptions → ℕ → Sessions → Option CallEnd
  | 0,o,k,s => (queryExecute n sql o thread (turns k) s).map o.finish
  | count+1,o,k,s => do
    let e ← queryExecute n sql o thread (turns k) s
    match e.r with
    | .ok (some (output,_)) =>
      if shouldRetry o output then
        if o.args = [] then queryCallFrom n sql thread turns count o.passedOn (k+1) e.sessions
        else some ⟨e.sessions,e.run,.ended .typeError⟩
      else some (o.finish e)
    | _ => some (o.finish e)

inductive Call
  | cmd (name cmd : Text) (o : CmdOptions)
  | command (node : Option Text) (command : Text) (o : ClusterCommandOptions)
  | query (n : Node) (sql : Text) (o : QueryOptions) (retryCount : Int)
  | hashQuery (n : Node) (sql hashUtility : Text) (steps : Bool) (o : CheckOptions)
  | diffQuery (n : Node) (sql expectedOutput : Text) (steps : Bool) (o : CheckOptions)

/-- A call in a thread. Only `query` has more than one turn. -/
def Call.call (thread : Text) (turns : ℕ → Turn) (s : Sessions) : Call → Option CallEnd
  | cmd name text o => nodeCmd name text o thread (turns 0) s
  | command node text o => clusterCommand node text o thread (turns 0) s
  | query n sql o retryCount => queryCallFrom n sql thread turns (max 0 retryCount).toNat o 0 s
  | hashQuery n sql hashUtility steps o =>
    Cluster.hashQuery n sql hashUtility steps o thread (turns 0) s
  | diffQuery n sql expectedOutput steps o =>
    Cluster.diffQuery n sql expectedOutput steps o thread (turns 0) s

end ClickHouseRegression.Cluster
