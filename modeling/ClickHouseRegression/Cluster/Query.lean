import ClickHouseRegression.Cluster.Commands
import Mathlib

/-! `ClickHouseNode.query` as a program over a stream of shell replies. The retry is the
recursive call of the source: it passes some of the options on and lets the others fall
back to their defaults. -/
namespace ClickHouseRegression.Cluster

def messagesToRetryDefault : List Text :=
  ["DB::Exception: ZooKeeper session has been expired".toList,
    "DB::Exception: Connection loss".toList,
    "Coordination::Exception: Session expired".toList,
    "Coordination::Exception: Connection loss".toList,
    "Coordination::Exception: Operation timeout".toList,
    "DB::Exception: Operation timeout".toList,
    "Operation timed out".toList,
    "ConnectionPoolWithFailover: Connection failed at try".toList,
    "DB::Exception: New table appeared in database being dropped or detached. Try again".toList,
    "is already started to be removing by another replica right now".toList,
    "Shutdown is called for table".toList,
    "is executing longer than distributed_ddl_task_timeout".toList]

/-- The keyword parameters of `query` apart from `retry_count`, with their defaults. `args`
and `kwargs` are handed on to the shell. -/
structure QueryOptions extends CommandOptions where
  message : Option Text := none
  exitcode : Option Int := none
  steps : Bool := true
  noChecks : Bool := false
  raiseOnException : Bool := false
  ignoreException : Bool := false
  messagesToRetry : Option (List Text) := none
  retryDelay : ℚ := 5
  args : List Text := []
  kwargs : List (Text × Text) := []
  deriving DecidableEq

namespace QueryOptions

/-- `if raise_on_exception: steps = False`. -/
def effectiveSteps (o : QueryOptions) : Bool := if o.raiseOnException then false else o.steps

/-- `if messages_to_retry is None: messages_to_retry = MESSAGES_TO_RETRY`. -/
def messages (o : QueryOptions) : List Text := o.messagesToRetry.getD messagesToRetryDefault

/-- The options of the recursive call: exactly the keywords written there. -/
def passedOn (o : QueryOptions) : QueryOptions where
  settings := o.settings
  message := o.message
  exitcode := o.exitcode
  steps := o.effectiveSteps
  noChecks := o.noChecks
  raiseOnException := o.raiseOnException
  messagesToRetry := some o.messages
  args := o.args
  kwargs := o.kwargs

@[simp] theorem passedOn_message (o : QueryOptions) : o.passedOn.message = o.message := rfl
@[simp] theorem passedOn_exitcode (o : QueryOptions) : o.passedOn.exitcode = o.exitcode := rfl
@[simp] theorem passedOn_noChecks (o : QueryOptions) : o.passedOn.noChecks = o.noChecks := rfl
@[simp] theorem passedOn_raiseOnException (o : QueryOptions) :
    o.passedOn.raiseOnException = o.raiseOnException := rfl
@[simp] theorem passedOn_ignoreException (o : QueryOptions) :
    o.passedOn.ignoreException = false := rfl
@[simp] theorem passedOn_messages (o : QueryOptions) : o.passedOn.messages = o.messages := rfl
@[simp] theorem passedOn_args (o : QueryOptions) : o.passedOn.args = o.args := rfl
@[simp] theorem passedOn_kwargs (o : QueryOptions) : o.passedOn.kwargs = o.kwargs := rfl

@[simp] theorem passedOn_effectiveSteps (o : QueryOptions) :
    o.passedOn.effectiveSteps = o.effectiveSteps := by
  cases h : o.raiseOnException <;> simp [effectiveSteps,passedOn,h]

@[simp] theorem passedOn_passedOn (o : QueryOptions) : o.passedOn.passedOn = o.passedOn := by
  have hs := o.passedOn_effectiveSteps
  unfold passedOn at hs ⊢
  simp only [QueryOptions.mk.injEq,true_and,and_true]
  exact ⟨hs,rfl⟩

end QueryOptions

/-- How one call of the shell ends. -/
inductive Reply
  | result (output : Text) (exitcode : Int)
  | expectTimeout
  | error (exception : Text)
  deriving DecidableEq

/-- What the surroundings decide during one attempt: the name of the temporary file, whether
the wrapping step is skipped by the test runner, and the reply of the shell. -/
structure Attempt where
  tempName : Text
  skipped : Bool
  reply : Reply
  deriving DecidableEq

inductive Event
  | call (command : Command) (args : List Text) (kwargs : List (Text × Text))
  | closeBash (session : Option Text)
  | sleep (seconds : ℚ)
  deriving DecidableEq

/-- How a call of `query` ends: a value, a failed check, or an exception. -/
inductive Outcome
  | returned (output : Text) (exitcode : Int)
  | exitcodeMismatch (output : Text)
  | messageMissing (output : Text)
  | exceptionInOutput (output : Text)
  | queryRuntimeException (output : Text)
  | notExecuted
  | expectTimeoutError
  | shellError (exception : Text)
  | typeError
  deriving DecidableEq

def exceptionMark : Text := "Exception:".toList

/-- The checks after the last attempt, in the order of the source. -/
def checkResult (o : QueryOptions) (output : Text) (exitcode : Int) : Outcome :=
  if o.noChecks then .returned output exitcode
  else if o.exitcode.any (fun e => decide (exitcode ≠ e)) then .exitcodeMismatch output
  else if o.message.any (fun m => !output.contains m) then .messageMissing output
  else if !o.ignoreException && !o.message.any (·.contains exceptionMark) &&
      output.contains exceptionMark then
    if o.raiseOnException then .queryRuntimeException output else .exceptionInOutput output
  else .returned output exitcode

/-- One execution of the wrapped shell call: the events it causes and either the result `r`
or the exception that leaves `query`. -/
def runAttempt (n : Node) (sql : Text) (o : QueryOptions) (a : Attempt) :
    List Event × Except Outcome (Text × Int) :=
  if o.effectiveSteps && a.skipped then ([],.error .notExecuted)
  else
    let command := queryCommand n sql o.toCommandOptions a.tempName
    let call := Event.call command o.args o.kwargs
    match a.reply with
    | .result output exitcode => ([call],.ok (output,exitcode))
    | .expectTimeout => ([call,.closeBash command.session],.error .expectTimeoutError)
    | .error exception => ([call],.error (.shellError exception))

/-- The test `any(msg in r.output for msg in messages_to_retry)`. -/
def shouldRetry (o : QueryOptions) (output : Text) : Bool := o.messages.any (output.contains ·)

/-- The body of `query` from attempt `k` on, with `count` retries left. The recursive call
names `sql` and repeats the positional `args` after it, so it is a type error when there are any. -/
def queryFrom (n : Node) (sql : Text) (env : ℕ → Attempt) :
    ℕ → QueryOptions → ℕ → List Event × Outcome
  | 0,o,k =>
    match runAttempt n sql o (env k) with
    | (events,.error e) => (events,e)
    | (events,.ok r) => (events,checkResult o r.1 r.2)
  | count+1,o,k =>
    match runAttempt n sql o (env k) with
    | (events,.error e) => (events,e)
    | (events,.ok r) =>
      if shouldRetry o r.1 then
        if o.args = [] then
          let rest := queryFrom n sql env count o.passedOn (k+1)
          (events ++ .sleep (max 0 o.retryDelay) :: rest.1,rest.2)
        else (events ++ [.sleep (max 0 o.retryDelay)],.typeError)
      else (events,checkResult o r.1 r.2)

def query (n : Node) (sql : Text) (o : QueryOptions) (retryCount : Int) (env : ℕ → Attempt) :
    List Event × Outcome :=
  queryFrom n sql env (max 0 retryCount).toNat o 0

end ClickHouseRegression.Cluster
