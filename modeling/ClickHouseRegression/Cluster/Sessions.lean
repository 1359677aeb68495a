import ClickHouseRegression.Text
import ClickHouseRegression.Map.Ordered

/-! The table `Cluster._bash` of open shells. Shells are numbered in the order in which they are
stored; the outcomes of creating, entering and using a shell, the clock and the live threads
are inputs of each call. Every critical section under `Cluster.lock` is one call. -/
namespace ClickHouseRegression.Cluster

inductive ShellStatus
  | created
  | opened
  | exited
  deriving DecidableEq

/-- Thread name and node text. -/
abbrev SessionKey := Text × Text

structure Sessions where
  table : OrderedMap SessionKey ℕ
  status : ℕ → ShellStatus
  count : ℕ

inductive BashError
  | ioError
  | runtimeError
  | keyError
  | other
  deriving DecidableEq

/-- What an attempt to open a shell meets: creating or entering it raises, the command `echo 1`
raises, or both succeed. A shell without a node is opened by its first command, which may fail
before that. -/
inductive OpenOutcome
  | enterFails (ioError : Bool)
  | echoFails (ioError opened : Bool)
  | succeeds
  deriving DecidableEq

/-- An attempt, and whether the timeout is exceeded when its exception is handled. -/
structure OpenAttempt where
  outcome : OpenOutcome
  late : Bool
  deriving DecidableEq

/-- What `Cluster.bash` meets when it has to open a shell: the error of `node_container_id`,
the attempts, the error of the `export` commands and the threads alive besides the caller. -/
structure BashInput where
  containerError : Option BashError
  attempts : List OpenAttempt
  exportError : Option BashError
  otherThreads : List Text

/-- The text of the node in a key. -/
def nodeText : Option Text → Text
  | none => "None".toList
  | some name => name

namespace Sessions

def empty : Sessions := ⟨.empty,fun _ => .created,0⟩

/-- `self._bash[id] = shell` for a new shell. -/
def store (s : Sessions) (key : SessionKey) (st : ShellStatus) : Sessions :=
  ⟨s.table.put key s.count,Function.update s.status s.count st,s.count+1⟩

/-- `shell.__exit__(None, None, None)`. -/
def exit (s : Sessions) (shell : ℕ) : Sessions :=
  { s with status := Function.update s.status shell .exited }

def remove (s : Sessions) (key : SessionKey) : Sessions := { s with table := s.table.remove key }

/-- Exit the shell under a key and delete the key, or nothing if it is absent. -/
def close (s : Sessions) (key : SessionKey) : Sessions :=
  match s.table.get key with
  | none => s
  | some shell => (s.exit shell).remove key

/-- The loop over a copy of the keys that closes those that satisfy the test. -/
def closeAll (s : Sessions) (test : SessionKey → Bool) : Sessions :=
  (s.table.keys.filter test).foldl close s

/-- The `while True` loop of `Cluster.bash`. There is no result while the attempts go on. -/
def openShell (key : SessionKey) (node : Option Text) :
    List OpenAttempt → Sessions → Option (Sessions × Except BashError Unit)
  | [],_ => none
  | a :: rest,s =>
    match a.outcome with
    | .succeeds => some (s.store key .opened,.ok ())
    | .enterFails true => some (s,.error .ioError)
    | .enterFails false =>
      match s.table.get key with
      | none => some (s,.error .keyError)
      | some shell =>
        if a.late then some (s.exit shell,.error .runtimeError)
        else openShell key node rest (s.exit shell)
    | .echoFails ioError opened =>
      if ioError then
        some (s.store key (if opened || node.isSome then .opened else .created),.error .ioError)
      else if a.late then
        some ((s.store key (if opened || node.isSome then .opened else .created)).exit s.count,
          .error .runtimeError)
      else
        openShell key node rest
          ((s.store key (if opened || node.isSome then .opened else .created)).exit s.count)

end Sessions

inductive SessionCall
  | bash (thread : Text) (node : Option Text) (input : BashInput)
  | closeBash (thread : Text) (node : Option Text)
  | closeBashes (name : Text)
  | downSweep (bash : ℕ)

inductive SessionResult
  | returned (shell : ℕ)
  | raised (e : BashError)
  | done

namespace Sessions

/-- `Cluster.bash`. -/
def bash (s : Sessions) (thread : Text) (node : Option Text) (input : BashInput) :
    Option (Sessions × SessionResult) :=
  match s.table.get (thread,nodeText node) with
  | some shell => some (s,.returned shell)
  | none =>
    match (if node.isSome then input.containerError else none) with
    | some e => some (s,.raised e)
    | none =>
      match openShell (thread,nodeText node) node input.attempts s with
      | none => none
      | some (s',.error e) => some (s',.raised e)
      | some (s',.ok ()) =>
        match (if node.isNone then input.exportError else none) with
        | some e => some (s',.raised e)
        | none =>
          let swept := s'.closeAll fun key => !(thread :: input.otherThreads).contains key.1
          match swept.table.get (thread,nodeText node) with
          | none => some (swept,.raised .keyError)
          | some shell => some (swept,.returned shell)

/-- One turn of the loop of `Cluster.down`: every shell but the given one is exited, and that
one is stored again. -/
def downTurn (bash : ℕ) (s : Sessions) (key : SessionKey) : Sessions :=
  match s.table.get key with
  | none => s
  | some shell =>
    if shell = bash then { s with table := (s.table.remove key).put key shell }
    else (s.remove key).exit shell

/-- The critical sections. `down` calls `bash(None)` and then sweeps with the shell it got. -/
def step (s : Sessions) : SessionCall → Option (Sessions × SessionResult)
  | .bash thread node input => s.bash thread node input
  | .closeBash thread node => some (s.close (thread,nodeText node),.done)
  | .closeBashes name => some (s.closeAll fun key => name.isSuffixOf key.2,.done)
  | .downSweep bash => some (s.table.keys.foldl (downTurn bash) s,.done)

end Sessions

end ClickHouseRegression.Cluster
