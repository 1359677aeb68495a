import ClickHouseRegression.Interactive.Program

/-! Stopping, starting and restarting a ClickHouse server and its node. The server is not under control:
it writes its pid file and exits when it wants to, and when it crashes its pid file stays. A command can fail, its
shell can be missing, and its reply can come too late, when it has had its effect. -/
namespace ClickHouseRegression.Cluster.Lifecycle
open Interactive

/-- What `clickhouse_pid` returns: nothing, the pid in the file, or what `cat` prints without the file. -/
inductive Pid
  | none
  | number (p : ℕ)
  | message
  deriving DecidableEq

inductive Signal
  | term
  | kill
  deriving DecidableEq

/-- `docker-compose stop`, `start` and `restart` of the node. -/
inductive ComposeAction
  | stop
  | start
  | restart
  deriving DecidableEq

inductive Command
  | lsPidFile
  | catPidFile
  | kill (signal : Signal) (pid : Pid)
  | ps (pid : Pid)
  | rmPidFile
  | launch
  | query (sql : String)
  | sync
  | compose (action : ComposeAction)
  deriving DecidableEq

structure Reply where
  exitcode : ℕ
  output : Pid

/-- Without a reply there is no shell, or the command has timed out. -/
inductive LifecycleError
  | noReply (c : Command)
  | exitcode
  | alreadyRunning
  | pidAlive
  | noPidFile
  | unhealthy
  | version
  | compose
  deriving DecidableEq

/-- The servers that have not written their pid file yet, and those that have. -/
structure Host where
  up : Bool
  starting : Finset ℕ
  running : Finset ℕ
  pidFile : Option ℕ

namespace Host

def live (h : Host) : Finset ℕ := h.starting ∪ h.running

def isAlive (h : Host) : Pid → Bool
  | .number p => decide (p ∈ h.live)
  | _ => false

def removed (h : Host) (p : ℕ) : Host := { h with starting := h.starting.erase p, running := h.running.erase p }

def killed (h : Host) : Pid → Host
  | .number p => h.removed p
  | _ => h

def withoutServers (h : Host) (up : Bool) : Host := { h with up := up, starting := ∅, running := ∅ }

/-- Stopping a container ends what runs in it; its files stay. -/
def composed (h : Host) : ComposeAction → Host
  | .stop => h.withoutServers false
  | .start => { h with up := true }
  | .restart => h.withoutServers true

end Host

/-- What the entrypoint of the container brings up; in some environments this is a server without a pid file. -/
structure Entrypoint where
  brings : ComposeAction → Host → Host → Prop

/-- The entrypoint has nothing to do with servers: it waits. -/
def Entrypoint.Idle (e : Entrypoint) : Prop := ∀ action h h', e.brings action h h' → h' = h

/-- A server writes its pid file, exits and removes its file, or crashes. -/
inductive Env : Host → Host → Prop
  | create {h : Host} {p : ℕ} (hp : p ∈ h.starting) :
    Env h { h with starting := h.starting.erase p, running := insert p h.running, pidFile := some p }
  | exit {h : Host} {p : ℕ} (hp : p ∈ h.live) :
    Env h { h.removed p with pidFile := if h.pidFile = some p then none else h.pidFile }
  | crash {h : Host} {p : ℕ} (hp : p ∈ h.live) : Env h (h.removed p)

/-- The replies of the commands and their effects. -/
inductive Answers (entrypoint : Entrypoint) : Command → Host → Reply → Host → Prop
  | lsPidFile {h : Host} (hup : h.up = true) :
    Answers entrypoint .lsPidFile h ⟨if h.pidFile.isSome then 0 else 2,.message⟩ h
  | catPidFile {h : Host} {p : ℕ} (hup : h.up = true) (hfile : h.pidFile = some p) :
    Answers entrypoint .catPidFile h ⟨0,.number p⟩ h
  | catNothing {h : Host} (hup : h.up = true) (hfile : h.pidFile = none) :
    Answers entrypoint .catPidFile h ⟨1,.message⟩ h
  | term {h : Host} {pid : Pid} (hup : h.up = true) :
    Answers entrypoint (.kill .term pid) h ⟨if h.isAlive pid then 0 else 1,.message⟩ h
  | kill {h : Host} {pid : Pid} (hup : h.up = true) :
    Answers entrypoint (.kill .kill pid) h ⟨if h.isAlive pid then 0 else 1,.message⟩ (h.killed pid)
  | ps {h : Host} {pid : Pid} (hup : h.up = true) :
    Answers entrypoint (.ps pid) h ⟨if h.isAlive pid then 0 else 1,.message⟩ h
  | rmPidFile {h : Host} (hup : h.up = true) :
    Answers entrypoint .rmPidFile h ⟨0,.message⟩ { h with pidFile := none }
  | launch {h : Host} {p : ℕ} (hup : h.up = true) (hnew : p ∉ h.live) :
    Answers entrypoint .launch h ⟨0,.message⟩ { h with starting := insert p h.starting }
  | launchFails {h : Host} {code : ℕ} (hup : h.up = true) (hcode : code ≠ 0) :
    Answers entrypoint .launch h ⟨code,.message⟩ h
  | query {h : Host} {sql : String} (hup : h.up = true) (hrunning : h.running.Nonempty) :
    Answers entrypoint (.query sql) h ⟨0,.message⟩ h
  | queryFails {h : Host} {sql : String} {code : ℕ} (hup : h.up = true) (hcode : code ≠ 0) :
    Answers entrypoint (.query sql) h ⟨code,.message⟩ h
  | sync {h : Host} {code : ℕ} (hup : h.up = true) : Answers entrypoint .sync h ⟨code,.message⟩ h
  | compose {h h' : Host} {action : ComposeAction} (hbrings : entrypoint.brings action (h.composed action) h') :
    Answers entrypoint (.compose action) h ⟨0,.message⟩ h'
  | composeFails {h : Host} {action : ComposeAction} {code : ℕ} (hcode : code ≠ 0) :
    Answers entrypoint (.compose action) h ⟨code,.message⟩ h

/-- A command without a reply has had its effect or never has it: its shell is closed. -/
inductive Exec (entrypoint : Entrypoint) : Command → Host → Option Reply → Host → Prop
  | lost {c : Command} {h : Host} : Exec entrypoint c h none h
  | answered {c : Command} {h h' : Host} {r : Reply} (hreply : Answers entrypoint c h r h') :
    Exec entrypoint c h (some r) h'
  | timedOut {c : Command} {h h' : Host} {r : Reply} (hlate : Answers entrypoint c h r h') : Exec entrypoint c h none h'

def system (entrypoint : Entrypoint) : System Command (Option Reply) Host := ⟨Exec entrypoint,Env⟩

abbrev Action (α : Type) := Program Command (Option Reply) LifecycleError α

def command (c : Command) : Action Reply := .ask c fun
  | none => .fail (.noReply c)
  | some r => .done r

/-- `exitcode=0`. -/
def checked (c : Command) : Action Unit := do
  let r ← command c
  Program.onlyIf (r.exitcode ≠ 0) (.fail .exitcode)

/-- `with attempt`: an exception makes the attempt fail. -/
def attempt (body : Action Bool) : Action Bool := body.tryCatch fun _ => .done false

def clickhousePid : Action Pid := do
  let r ← command .lsPidFile
  if r.exitcode = 0 then
    let r ← command .catPidFile
    return r.output
  else return .none

/-- One attempt to see that the pid does not exist; every 20th one kills it before. -/
def pidGone (pid : Pid) (i : ℕ) : Action Bool := attempt (do
  Program.onlyIf (0 < i ∧ i % 20 = 0) (do let _ ← command (.kill .kill pid))
  let r ← command (.ps pid)
  return decide (r.exitcode = 1))

def quiesce : Action Unit := do
  checked (.query "SYSTEM STOP MOVES")
  checked (.query "SYSTEM STOP MERGES")
  checked (.query "SYSTEM FLUSH LOGS")
  checked .sync

/-- The loops give up after as many turns as their timeouts allow. -/
def stopClickhouse (turns : ℕ) (safe : Bool) : Action Unit := do
  Program.onlyIf (safe = true) quiesce
  let pid ← clickhousePid
  checked (.kill .term pid)
  Program.repeatUntil .pidAlive (pidGone pid) turns 0
  checked .rmPidFile

/-- `sameVersion`: the version of the server is the one in the context. -/
def waitClickhouseHealthy (turns : ℕ) (sameVersion : Bool) : Action Unit := do
  Program.repeatUntil .unhealthy (fun _ => attempt (do
    let r ← command (.query "SELECT version()")
    return decide (r.exitcode = 0))) turns 0
  let _ ← command (.query "SELECT version()")
  Program.onlyIf (sameVersion = false) (.fail .version)

structure StartOptions where
  pidFileTurns : ℕ
  healthyTurns : ℕ
  waitHealthy : Bool
  sameVersion : Bool

def startClickhouse (o : StartOptions) : Action Unit := do
  let pid ← clickhousePid
  Program.onlyIf (pid ≠ .none) (.fail .alreadyRunning)
  checked .launch
  Program.repeatUntil .noPidFile (fun _ => attempt (do
    let r ← command .lsPidFile
    return decide (r.exitcode = 0))) o.pidFileTurns 0
  Program.onlyIf (o.waitHealthy = true) (waitClickhouseHealthy o.healthyTurns o.sameVersion)

def stopIfPid (turns : ℕ) (safe : Bool) : Action Unit := do
  let pid ← clickhousePid
  Program.onlyIf (pid ≠ .none) (stopClickhouse turns safe)

def restartClickhouse (turns : ℕ) (safe : Bool) (o : StartOptions) : Action Unit := do
  stopIfPid turns safe
  startClickhouse o

/-- `retry(self.cluster.command, retry_count)`. -/
def compose (action : ComposeAction) (retryCount : ℕ) : Action Unit :=
  Program.repeatUntil .compose (fun _ => attempt (do
    let r ← command (.compose action)
    return decide (r.exitcode = 0))) retryCount 0

def stop (turns : ℕ) (safe : Bool) (retryCount : ℕ) : Action Unit := do
  stopIfPid turns safe
  compose .stop retryCount

/-- `if start_clickhouse`, which is not set without options. -/
def startIf : Option StartOptions → Action Unit
  | none => return ()
  | some o => startClickhouse o

def start (retryCount : ℕ) (startOptions : Option StartOptions) : Action Unit := do
  compose .start retryCount
  startIf startOptions

def restart (turns : ℕ) (safe : Bool) (retryCount : ℕ) (startOptions : Option StartOptions) : Action Unit := do
  stopIfPid turns safe
  compose .restart retryCount
  startIf startOptions

inductive Operation
  | stopClickhouse (turns : ℕ) (safe : Bool)
  | startClickhouse (o : StartOptions)
  | restartClickhouse (turns : ℕ) (safe : Bool) (o : StartOptions)
  | stop (turns : ℕ) (safe : Bool) (retryCount : ℕ)
  | start (retryCount : ℕ) (startOptions : Option StartOptions)
  | restart (turns : ℕ) (safe : Bool) (retryCount : ℕ) (startOptions : Option StartOptions)

def Operation.action : Operation → Action Unit
  | stopClickhouse turns safe => Lifecycle.stopClickhouse turns safe
  | startClickhouse o => Lifecycle.startClickhouse o
  | restartClickhouse turns safe o => Lifecycle.restartClickhouse turns safe o
  | stop turns safe retryCount => Lifecycle.stop turns safe retryCount
  | start retryCount o => Lifecycle.start retryCount o
  | restart turns safe retryCount o => Lifecycle.restart turns safe retryCount o

/-- Operations in a row, each after the outcome of the last one; an error of one kind ends the session. -/
def session (ends : LifecycleError → Bool) : List Operation → Action (List (Except LifecycleError Unit))
  | [] => return []
  | op :: rest => do
    let outcome ← (do
      op.action
      return (.ok () : Except LifecycleError Unit)).tryCatch fun e =>
        if ends e then .fail e else .done (.error e)
    let outcomes ← session ends rest
    return outcome :: outcomes

end ClickHouseRegression.Cluster.Lifecycle
