import ClickHouseRegression.Cluster.Lifecycle

/-! At most one server lives on a node, whose container starts none itself, as long as no start gives up waiting
for the pid file or for the reply to its launch. -/
namespace ClickHouseRegression.Cluster.Lifecycle
open Interactive

namespace Host

/-- No server is starting, and a running one is the one that the pid file names. -/
def Quiet (h : Host) : Prop := h.starting = ∅ ∧ ∀ q ∈ h.running, h.pidFile = some q

/-- One server has been launched and has not written its pid file yet. -/
def Waiting (h : Host) : Prop := (∃ p, h.starting = {p}) ∧ h.running = ∅ ∧ h.pidFile = none

def OneServer (h : Host) : Prop := h.Quiet ∨ h.Waiting

/-- The pid is that of the running server, if there is one. -/
def Known (pid : Pid) (h : Host) : Prop :=
  h.starting = ∅ ∧ ∀ q ∈ h.running, pid = .number q ∧ h.pidFile = some q

def Down (h : Host) : Prop := h.starting = ∅ ∧ h.running = ∅

def Stopped (h : Host) : Prop := h.Down ∧ h.pidFile = none

theorem Known.quiet {pid : Pid} {h : Host} (hk : h.Known pid) : h.Quiet := ⟨hk.1,fun q hq => (hk.2 q hq).2⟩

theorem Down.known {h : Host} (hd : h.Down) (pid : Pid) : h.Known pid := by
  refine ⟨hd.1,?_⟩
  intro q hq
  rw [hd.2] at hq
  exact absurd hq (Finset.notMem_empty q)

theorem Stopped.quiet {h : Host} (hs : h.Stopped) : h.Quiet := (hs.1.known .none).quiet

theorem Quiet.stopped {h : Host} (hq : h.Quiet) (hfile : h.pidFile = none) : h.Stopped := by
  refine ⟨⟨hq.1,?_⟩,hfile⟩
  apply Finset.eq_empty_of_forall_notMem
  intro q hmem
  have hsome := hq.2 q hmem
  rw [hfile] at hsome
  cases hsome

theorem live_of_down {h : Host} (hd : h.Down) : h.live = ∅ := by
  rw [live,hd.1,hd.2,Finset.union_empty]

theorem OneServer.card_live_le {h : Host} (ho : h.OneServer) : h.live.card ≤ 1 := by
  cases ho with
  | inl hq =>
    rw [live,hq.1,Finset.empty_union,Finset.card_le_one]
    intro p hp q hmem
    exact Option.some.inj ((hq.2 p hp).symm.trans (hq.2 q hmem))
  | inr hw =>
    obtain ⟨⟨p,hp⟩,hr,_⟩ := hw
    rw [live,hp,hr,Finset.union_empty,Finset.card_singleton]

end Host
open Host

/-- An assertion that the servers cannot break and that allows one server at most. -/
structure Assertion where
  holds : Host → Prop
  stable : ∀ h h', holds h → Env h h' → holds h'
  oneServer : ∀ h, holds h → OneServer h

theorem quiet_stable : ∀ h h', Quiet h → Env h h' → Quiet h' := by
  intro h h' hq henv
  obtain ⟨hs,hr⟩ := hq
  cases henv with
  | create hp =>
    rw [hs] at hp
    exact absurd hp (Finset.notMem_empty _)
  | @exit p hp =>
    rw [live,hs,Finset.empty_union] at hp
    refine ⟨by simp [removed,hs],?_⟩
    intro q hmem
    obtain ⟨hne,hq⟩ := Finset.mem_erase.1 hmem
    exact absurd (Option.some.inj ((hr q hq).symm.trans (hr p hp))) hne
  | crash _ =>
    refine ⟨by simp [removed,hs],?_⟩
    intro q hmem
    exact hr q (Finset.mem_of_mem_erase hmem)

theorem known_stable (pid : Pid) : ∀ h h', Known pid h → Env h h' → Known pid h' := by
  intro h h' hk henv
  have hq' := quiet_stable h h' hk.quiet henv
  refine ⟨hq'.1,fun q hmem => ⟨?_,hq'.2 q hmem⟩⟩
  cases henv with
  | create hp =>
    rw [hk.1] at hp
    exact absurd hp (Finset.notMem_empty _)
  | exit _ => exact (hk.2 q (Finset.mem_of_mem_erase hmem)).1
  | crash _ => exact (hk.2 q (Finset.mem_of_mem_erase hmem)).1

/-- Without a server nothing happens. -/
theorem env_of_down {h h' : Host} (hd : h.Down) (henv : Env h h') : False := by
  have hlive := live_of_down hd
  cases henv with
  | create hp =>
    rw [hd.1] at hp
    exact Finset.notMem_empty _ hp
  | exit hp =>
    rw [hlive] at hp
    exact Finset.notMem_empty _ hp
  | crash hp =>
    rw [hlive] at hp
    exact Finset.notMem_empty _ hp

theorem oneServer_stable : ∀ h h', OneServer h → Env h h' → OneServer h' := by
  intro h h' ho henv
  cases ho with
  | inl hq => exact Or.inl (quiet_stable h h' hq henv)
  | inr hw =>
    obtain ⟨⟨p,hp⟩,hr,hfile⟩ := hw
    left
    cases henv with
    | create hmem =>
      rw [hp,Finset.mem_singleton] at hmem
      subst hmem
      refine ⟨by simp [hp],?_⟩
      intro q hq
      rw [hr,insert_empty_eq,Finset.mem_singleton] at hq
      rw [hq]
    | exit hmem =>
      rw [live,hp,hr,Finset.union_empty,Finset.mem_singleton] at hmem
      subst hmem
      exact ⟨by simp [removed,hp],by simp [removed,hr]⟩
    | crash hmem =>
      rw [live,hp,hr,Finset.union_empty,Finset.mem_singleton] at hmem
      subst hmem
      exact ⟨by simp [removed,hp],by simp [removed,hr]⟩

def quiet : Assertion := ⟨Quiet,quiet_stable,fun _ => Or.inl⟩
def known (pid : Pid) : Assertion := ⟨Known pid,known_stable pid,fun _ hk => Or.inl hk.quiet⟩
def oneServer : Assertion := ⟨OneServer,oneServer_stable,fun _ ho => ho⟩
def down : Assertion := ⟨Down,fun _ _ hd henv => (env_of_down hd henv).elim,fun _ hd => Or.inl (hd.known .none).quiet⟩
def stopped : Assertion :=
  ⟨Stopped,fun _ _ hs henv => (env_of_down hs.1 henv).elim,fun _ hs => Or.inl (hs.1.known .none).quiet⟩

/-- An assertion next to a fact that is not about the state. -/
def Assertion.withFact (P : Assertion) (fact : Prop) : Assertion where
  holds h := P.holds h ∧ fact
  stable h h' hP henv := ⟨P.stable h h' hP.1 henv,hP.2⟩
  oneServer h hP := P.oneServer h hP.1

/-- A start gives up waiting, for the pid file or for a reply: its server may still be starting. -/
def GivesUp (e : LifecycleError) : Prop := e = .noPidFile ∨ e = .noReply .launch

instance (e : LifecycleError) : Decidable (GivesUp e) := inferInstanceAs (Decidable (_ ∨ _))

/-- An error other than that of a start that gives up leaves no server starting. -/
def after {α : Type} (Q : α → Host → Prop) : Except LifecycleError α → Host → Prop
  | .ok a,h => Q a h
  | .error e,h => (¬ GivesUp e → Quiet h) ∧ OneServer h

theorem after_error_of_quiet {α : Type} {Q : α → Host → Prop} (e : LifecycleError) {h : Host} (hq : h.Quiet) :
    after Q (.error e) h := ⟨fun _ => hq,Or.inl hq⟩

theorem after_error_of_givesUp {α : Type} {Q : α → Host → Prop} {e : LifecycleError} (he : GivesUp e) {h : Host}
    (ho : h.OneServer) : after Q (.error e) h := ⟨fun hnot => absurd he hnot,ho⟩

/-- What a command establishes, and what holds when it has no reply. -/
def replied {α : Type} (Q : α → Host → Prop) (c : Command) (R : Assertion) : Except LifecycleError α → Host → Prop
  | .ok a,h => Q a h
  | .error e,h => e = .noReply c ∧ R.holds h

/-- A part of an attempt, all errors of which leave things as they were. -/
def tried {α : Type} (Q : α → Host → Prop) (P : Assertion) : Except LifecycleError α → Host → Prop
  | .ok a,h => Q a h
  | .error _,h => P.holds h

/-- An attempt has succeeded or leaves things as they were. -/
def attempted (success again : Assertion) : Except LifecycleError Bool → Host → Prop
  | .ok true,h => success.holds h
  | .ok false,h => again.holds h
  | .error _,_ => False

section
variable {entrypoint : Entrypoint} {α : Type} {post : Except LifecycleError α → Host → Prop} {h : Host}

theorem Assertion.stable_system (P : Assertion) : Stable (system entrypoint) P.holds := P.stable

theorem holds_return (P : Assertion) {a : α} (hpost : ∀ h, P.holds h → post (.ok a) h) (hP : P.holds h) :
    Holds (system entrypoint) OneServer post (.done a) h :=
  holds_done P.stable_system P.oneServer hpost hP

theorem holds_raise (P : Assertion) {e : LifecycleError} (hpost : ∀ h, P.holds h → post (.error e) h)
    (hP : P.holds h) : Holds (system entrypoint) OneServer post (.fail e) h :=
  holds_fail P.stable_system P.oneServer hpost hP

/-- A command that is issued under `P` and makes `Q` hold, which depends on its reply; `R` is what is known of both
when no reply comes. -/
theorem holds_command (P : Assertion) (Q : Reply → Assertion) (R : Assertion) {c : Command}
    (hanswers : ∀ h r h', P.holds h → Answers entrypoint c h r h' → (Q r).holds h')
    (hPR : ∀ h, P.holds h → R.holds h) (hQR : ∀ r h, (Q r).holds h → R.holds h) (hP : P.holds h) :
    Holds (system entrypoint) OneServer (replied (fun r => (Q r).holds) c R) (command c) h := by
  apply holds_ask P.stable_system P.oneServer _ hP
  intro h reply h' hP hexec
  cases hexec with
  | lost => exact holds_raise R (fun _ hR => ⟨rfl,hR⟩) (hPR h hP)
  | @answered _ r hreply => exact holds_return (Q r) (fun _ hQ => hQ) (hanswers h r h' hP hreply)
  | @timedOut _ r hlate => exact holds_raise R (fun _ hR => ⟨rfl,hR⟩) (hQR r h' (hanswers h r h' hP hlate))

/-- One action after the other; an error of the first is one of both. -/
theorem holds_then {β : Type} {Q : α → Host → Prop} {Q' : β → Host → Prop} {p : Action α} {f : α → Action β}
    (hp : Holds (system entrypoint) OneServer (after Q) p h)
    (hf : ∀ a h, Q a h → Holds (system entrypoint) OneServer (after Q') (f a) h) :
    Holds (system entrypoint) OneServer (after Q') (p.bind f) h :=
  hp.bind hf (fun _ _ he => he)

/-- A command that is judged by its exitcode. -/
theorem holds_command_code (P Q R L : Assertion) {c : Command} {code : ℕ}
    (hanswers : ∀ h r h', P.holds h → Answers entrypoint c h r h' →
      if r.exitcode = code then Q.holds h' else R.holds h')
    (hPL : ∀ h, P.holds h → L.holds h) (hQL : ∀ h, Q.holds h → L.holds h) (hRL : ∀ h, R.holds h → L.holds h)
    (hP : P.holds h) :
    Holds (system entrypoint) OneServer
      (replied (fun r h => if r.exitcode = code then Q.holds h else R.holds h) c L) (command c) h := by
  have hholds : ∀ (r : Reply) h, (if r.exitcode = code then Q else R).holds h ↔
      if r.exitcode = code then Q.holds h else R.holds h := by
    intro r h
    split
    · exact Iff.rfl
    · exact Iff.rfl
  have hlost : ∀ (r : Reply) h, (if r.exitcode = code then Q else R).holds h → L.holds h := by
    intro r h hr
    split at hr
    · exact hQL h hr
    · exact hRL h hr
  apply (holds_command P (fun r => if r.exitcode = code then Q else R) L
    (fun h r h' hP hc => (hholds r h').2 (hanswers h r h' hP hc)) hPL hlost hP).mono
  intro r h hr
  cases r with
  | ok r => exact (hholds r h).1 hr
  | error e => exact hr

/-- A command with `exitcode=0`. -/
theorem holds_checked (P Q : Assertion) {c : Command}
    (hanswers : ∀ h r h', P.holds h → Answers entrypoint c h r h' →
      if r.exitcode = 0 then Q.holds h' else Quiet h')
    (hPquiet : ∀ h, P.holds h → Quiet h) (hQquiet : ∀ h, Q.holds h → Quiet h) (hP : P.holds h) :
    Holds (system entrypoint) OneServer (after fun _ : Unit => Q.holds) (checked c) h := by
  apply (holds_command_code P Q quiet quiet hanswers hPquiet hQquiet (fun _ hq => hq) hP).bind
  · intro r h hr
    have hr' : if r.exitcode = 0 then Q.holds h else Quiet h := hr
    apply holds_onlyIf
    · intro hcode
      rw [if_neg hcode] at hr'
      exact holds_raise quiet (fun h hq => after_error_of_quiet _ hq) hr'
    · intro hcode
      rw [if_pos (not_not.1 hcode)] at hr'
      exact holds_return Q (fun _ hQ => hQ) hr'
  · exact fun _ h hq => after_error_of_quiet _ hq.2

/-- Attempts under one assertion until one establishes another. -/
theorem holds_attempts (P Q : Assertion) {error : LifecycleError} {body : ℕ → Action Bool} (turns i : ℕ)
    (hbody : ∀ i h, P.holds h → Holds (system entrypoint) OneServer (attempted Q P) (body i) h)
    (hgiveUp : ∀ h, P.holds h → after (fun _ : Unit => Q.holds) (.error error) h) (hP : P.holds h) :
    Holds (system entrypoint) OneServer (after fun _ : Unit => Q.holds)
      (Program.repeatUntil error body turns i) h := by
  apply holds_repeatUntil P.stable_system P.oneServer hbody _ _ _ hgiveUp turns i hP
  · exact fun h hsuccess => holds_return Q (fun _ hQ => hQ) hsuccess
  · exact fun h hagain => hagain
  · exact fun _ _ he => he.elim

/-- The verdict on a command at the end of an attempt. -/
theorem holds_verdict (P Q : Assertion) {c : Command} {code : ℕ}
    (hanswers : ∀ h r h', P.holds h → Answers entrypoint c h r h' →
      if r.exitcode = code then Q.holds h' else P.holds h')
    (hQP : ∀ h, Q.holds h → P.holds h) (hP : P.holds h) :
    Holds (system entrypoint) OneServer (tried (fun b => attempted Q P (.ok b)) P) (do
      let r ← command c
      return decide (r.exitcode = code)) h := by
  apply (holds_command_code P Q P P hanswers (fun _ hP => hP) hQP (fun _ hP => hP) hP).bind
  · intro r h hr
    have hr' : if r.exitcode = code then Q.holds h else P.holds h := hr
    by_cases hcode : r.exitcode = code
    · rw [if_pos hcode] at hr'
      rw [decide_eq_true hcode]
      exact holds_return Q (fun _ hQ => hQ) hr'
    · rw [if_neg hcode] at hr'
      rw [decide_eq_false hcode]
      exact holds_return P (fun _ hP => hP) hr'
  · exact fun _ _ he => he.2

/-- An attempt turns every error into a failure. -/
theorem holds_attempt (P Q : Assertion) {body : Action Bool}
    (hbody : Holds (system entrypoint) OneServer (tried (fun b => attempted Q P (.ok b)) P) body h) :
    Holds (system entrypoint) OneServer (attempted Q P) (attempt body) h := by
  apply hbody.tryCatch
  · exact fun _ _ hr => hr
  · exact fun _ _ he => holds_return P (fun _ hP => hP) he

end

section
variable {entrypoint : Entrypoint}

/-- `clickhouse_pid` returns the pid of the running server, and nothing only if there is no pid file. -/
theorem holds_clickhousePid {h : Host} (hq : h.Quiet) :
    Holds (system entrypoint) OneServer (after fun pid h => Known pid h ∧ (pid = .none → Stopped h)) clickhousePid h := by
  have hls : ∀ h r h', Quiet h → Answers entrypoint .lsPidFile h r h' → if r.exitcode = 0 then Quiet h' else Stopped h' := by
    intro h r h' hq hc
    cases hc with
    | lsPidFile hup =>
      cases hfile : h.pidFile with
      | none => exact hq.stopped hfile
      | some p => exact hq
  have hcat : ∀ h r h', Quiet h → Answers entrypoint .catPidFile h r h' → Known r.output h' ∧ r.output ≠ .none := by
    intro h r h' hq hc
    cases hc with
    | catPidFile hup hfile =>
      refine ⟨⟨hq.1,fun q hmem => ?_⟩,by simp⟩
      have hsome := hq.2 q hmem
      exact ⟨congrArg Pid.number (Option.some.inj (hfile.symm.trans hsome)),hsome⟩
    | catNothing hup hfile => exact ⟨(hq.stopped hfile).1.known _,by simp⟩
  apply (holds_command_code quiet quiet stopped quiet hls (fun _ hq => hq) (fun _ hq => hq)
    (fun _ hs => hs.quiet) hq).bind
  · intro r h hr
    have hr' : if r.exitcode = 0 then Quiet h else Stopped h := hr
    split
    · next hcode =>
      rw [if_pos hcode] at hr'
      apply (holds_command quiet (fun r => (known r.output).withFact (r.output ≠ .none)) quiet hcat (fun _ hq => hq)
        (fun _ _ hk => hk.1.quiet) hr').bind
      · intro r h hr
        exact holds_return (known r.output) (fun _ hk => ⟨hk,fun hnone => absurd hnone hr.2⟩) hr.1
      · exact fun _ _ hq => after_error_of_quiet _ hq.2
    · next hcode =>
      rw [if_neg hcode] at hr'
      exact holds_return stopped (fun _ hs => ⟨hs.1.known _,fun _ => hs⟩) hr'
  · exact fun _ _ hq => after_error_of_quiet _ hq.2

theorem not_alive_known {pid : Pid} {h : Host} (hk : h.Known pid) (hdead : h.isAlive pid = false) : h.Down := by
  refine ⟨hk.1,?_⟩
  apply Finset.eq_empty_of_forall_notMem
  intro q hq
  have hpid := (hk.2 q hq).1
  rw [hpid,isAlive,decide_eq_false_iff_not] at hdead
  exact hdead (Finset.mem_union_right _ hq)

theorem known_killed {pid : Pid} {h : Host} (hk : h.Known pid) (pid' : Pid) : (h.killed pid').Known pid := by
  cases pid' with
  | number p =>
    refine ⟨?_,fun q hq => hk.2 q (Finset.mem_of_mem_erase hq)⟩
    change h.starting.erase p = ∅
    rw [hk.1,Finset.erase_empty]
  | none => exact hk
  | message => exact hk

/-- One look at the pid, with a kill before or without. -/
theorem holds_pidGone (pid : Pid) (i : ℕ) {h : Host} (hk : h.Known pid) :
    Holds (system entrypoint) OneServer (attempted down (known pid)) (pidGone pid i) h := by
  have hkill : ∀ h r h', Known pid h → Answers entrypoint (.kill .kill pid) h r h' → Known pid h' := by
    intro h r h' hk hc
    cases hc with
    | kill hup => exact known_killed hk pid
  have hps : ∀ h r h', Known pid h → Answers entrypoint (.ps pid) h r h' →
      if r.exitcode = 1 then Down h' else Known pid h' := by
    intro h r h' hk hc
    cases hc with
    | ps hup =>
      by_cases halive : h.isAlive pid = true
      · simp only [halive,if_true]
        exact hk
      · rw [Bool.not_eq_true] at halive
        simp only [halive,Bool.false_eq_true,if_false,if_true]
        exact not_alive_known hk halive
  apply holds_attempt (known pid) down
  have hfirst : Holds (system entrypoint) OneServer (tried (fun _ => Known pid) (known pid))
      (Program.onlyIf (0 < i ∧ i % 20 = 0) (do let _ ← command (.kill .kill pid))) h := by
    apply holds_onlyIf
    · intro _
      apply (holds_command (known pid) (fun _ => known pid) (known pid) hkill (fun _ hk => hk) (fun _ _ hk => hk)
        hk).bind
      · exact fun _ h hk => holds_return (known pid) (fun _ hk => hk) hk
      · exact fun _ _ hk => hk.2
    · exact fun _ => holds_return (known pid) (fun _ hk => hk) hk
  apply hfirst.bind
  · exact fun _ h hk => holds_verdict (known pid) down hps (fun _ hd => hd.known pid) hk
  · exact fun _ _ hk => hk

variable {h : Host}

theorem answers_query {sql : String} {r : Reply} {h' : Host} (hq : h.Quiet) (hanswer : Answers entrypoint (.query sql) h r h') :
    Quiet h' := by
  cases hanswer with
  | query _ _ => exact hq
  | queryFails _ _ => exact hq

theorem holds_query (sql : String) (hq : h.Quiet) :
    Holds (system entrypoint) OneServer (after fun _ => Quiet) (checked (.query sql)) h := by
  apply holds_checked quiet quiet _ (fun _ hq => hq) (fun _ hq => hq) hq
  intro h r h' hq hc
  split
  · exact answers_query hq hc
  · exact answers_query hq hc

theorem holds_quiesce (hq : h.Quiet) : Holds (system entrypoint) OneServer (after fun _ => Quiet) quiesce h := by
  have hsync : ∀ h r h', Quiet h → Answers entrypoint .sync h r h' → if r.exitcode = 0 then Quiet h' else Quiet h' := by
    intro h r h' hq hc
    cases hc
    rwa [ite_self]
  apply holds_then (holds_query _ hq)
  intro _ h hq
  apply holds_then (holds_query _ hq)
  intro _ h hq
  apply holds_then (holds_query _ hq)
  intro _ h hq
  exact holds_checked quiet quiet hsync (fun _ hq => hq) (fun _ hq => hq) hq

/-- When `stop_clickhouse` returns there is no server and no pid file. -/
theorem holds_stopClickhouse (turns : ℕ) (safe : Bool) (hq : h.Quiet) :
    Holds (system entrypoint) OneServer (after fun _ => Stopped) (stopClickhouse turns safe) h := by
  have hterm : ∀ pid h r h', Known pid h → Answers entrypoint (.kill .term pid) h r h' →
      if r.exitcode = 0 then Known pid h' else Quiet h' := by
    intro pid h r h' hk hc
    cases hc
    split
    · exact hk
    · exact hk.quiet
  have hrm : ∀ h r h', Down h → Answers entrypoint .rmPidFile h r h' → if r.exitcode = 0 then Stopped h' else Quiet h' := by
    intro h r h' hd hc
    cases hc
    exact ⟨hd,rfl⟩
  have hsafe : Holds (system entrypoint) OneServer (after fun _ => Quiet) (Program.onlyIf (safe = true) quiesce) h :=
    holds_onlyIf (fun _ => holds_quiesce hq) (fun _ => holds_return quiet (fun _ hq => hq) hq)
  apply holds_then hsafe
  intro _ h hq
  apply holds_then (holds_clickhousePid hq)
  intro pid h hpid
  apply holds_then (holds_checked (known pid) (known pid) (hterm pid) (fun _ hk => hk.quiet)
    (fun _ hk => hk.quiet) hpid.1)
  intro _ h hk
  apply holds_then (holds_attempts (known pid) down turns 0 (fun i _ hk => holds_pidGone pid i hk)
    (fun _ hk => after_error_of_quiet _ hk.quiet) hk)
  intro _ h hd
  exact holds_checked down stopped hrm (fun _ hd => (hd.known .none).quiet) (fun _ hs => hs.quiet) hd

theorem holds_waitClickhouseHealthy (turns : ℕ) (sameVersion : Bool) (hq : h.Quiet) :
    Holds (system entrypoint) OneServer (after fun _ => Quiet) (waitClickhouseHealthy turns sameVersion) h := by
  have hattempt : ∀ (_ : ℕ) h, Quiet h → Holds (system entrypoint) OneServer (attempted quiet quiet) (attempt (do
      let r ← command (.query "SELECT version()")
      return decide (r.exitcode = 0))) h := by
    intro _ h hq
    apply holds_attempt quiet quiet
    apply holds_verdict quiet quiet _ (fun _ hq => hq) hq
    intro h r h' hq hc
    split
    · exact answers_query hq hc
    · exact answers_query hq hc
  apply holds_then (holds_attempts quiet quiet turns 0 hattempt (fun _ hq => after_error_of_quiet _ hq) hq)
  intro _ h hq
  apply (holds_command quiet (fun _ => quiet) quiet (fun h r h' hq hc => answers_query hq hc) (fun _ hq => hq)
    (fun _ _ hq => hq) hq).bind
  · intro _ h hq
    apply holds_onlyIf
    · exact fun _ => holds_raise quiet (fun _ hq => after_error_of_quiet _ hq) hq
    · exact fun _ => holds_return quiet (fun _ hq => hq) hq
  · exact fun _ _ hq => after_error_of_quiet _ hq.2

theorem answers_launch {r : Reply} {h' : Host} (hs : h.Stopped) (hanswer : Answers entrypoint .launch h r h') :
    OneServer h' ∧ (r.exitcode ≠ 0 → Quiet h') := by
  cases hanswer with
  | @launch _ p hup hnew =>
    refine ⟨Or.inr ⟨⟨p,?_⟩,hs.1.2,hs.2⟩,fun hcode => absurd rfl hcode⟩
    change insert p h.starting = {p}
    rw [hs.1.1,insert_empty_eq]
  | launchFails hup hcode => exact ⟨Or.inl hs.quiet,fun _ => hs.quiet⟩

/-- The launch leaves one server starting, or none, and may do so without a reply. -/
theorem holds_launch (hs : h.Stopped) :
    Holds (system entrypoint) OneServer (after fun _ : Unit => OneServer) (checked .launch) h := by
  have hanswers : ∀ h r h', Stopped h → Answers entrypoint .launch h r h' →
      if r.exitcode = 0 then OneServer h' else Quiet h' := by
    intro h r h' hs hc
    split
    · exact (answers_launch hs hc).1
    · next hcode => exact (answers_launch hs hc).2 hcode
  apply (holds_command_code stopped oneServer quiet oneServer hanswers (fun _ hs => Or.inl hs.quiet) (fun _ ho => ho)
    (fun _ hq => Or.inl hq) hs).bind
  · intro r h hr
    have hr' : if r.exitcode = 0 then OneServer h else Quiet h := hr
    apply holds_onlyIf
    · intro hcode
      rw [if_neg hcode] at hr'
      exact holds_raise quiet (fun h hq => after_error_of_quiet _ hq) hr'
    · intro hcode
      rw [if_pos (not_not.1 hcode)] at hr'
      exact holds_return oneServer (fun _ ho => ho) hr'
  · intro e h he
    exact after_error_of_givesUp (Or.inr he.1) he.2

/-- A start gives up with the server starting, or with none of it. -/
theorem holds_startClickhouse (o : StartOptions) (hq : h.Quiet) :
    Holds (system entrypoint) OneServer (after fun _ => Quiet) (startClickhouse o) h := by
  have hls : ∀ h r h', OneServer h → Answers entrypoint .lsPidFile h r h' → if r.exitcode = 0 then Quiet h' else OneServer h' := by
    intro h r h' ho hc
    cases hc with
    | lsPidFile hup =>
      cases ho with
      | inl hq =>
        split
        · exact hq
        · exact Or.inl hq
      | inr hw =>
        simp only [hw.2.2,Option.isSome_none,Bool.false_eq_true,if_false,OfNat.ofNat_ne_zero]
        exact Or.inr hw
  apply holds_then (holds_clickhousePid hq)
  intro pid h hpid
  have hfirst : Holds (system entrypoint) OneServer (after fun _ => Stopped)
      (Program.onlyIf (pid ≠ .none) (.fail .alreadyRunning)) h := by
    apply holds_onlyIf
    · exact fun _ => holds_raise (known pid) (fun _ hk => after_error_of_quiet _ hk.quiet) hpid.1
    · exact fun hnone => holds_return stopped (fun _ hs => hs) (hpid.2 (not_not.1 hnone))
  apply holds_then hfirst
  intro _ h hs
  apply holds_then (holds_launch hs)
  intro _ h ho
  apply holds_then (holds_attempts oneServer quiet o.pidFileTurns 0 (fun _ _ ho =>
    holds_attempt oneServer quiet (holds_verdict oneServer quiet hls (fun _ hq => Or.inl hq) ho))
    (fun _ ho => after_error_of_givesUp (Or.inl rfl) ho) ho)
  intro _ h hq
  apply holds_onlyIf
  · exact fun _ => holds_waitClickhouseHealthy _ _ hq
  · exact fun _ => holds_return quiet (fun _ hq => hq) hq

theorem holds_stopIfPid (turns : ℕ) (safe : Bool) (hq : h.Quiet) :
    Holds (system entrypoint) OneServer (after fun _ => Stopped) (stopIfPid turns safe) h := by
  apply holds_then (holds_clickhousePid hq)
  intro pid h hpid
  apply holds_onlyIf
  · exact fun _ => holds_stopClickhouse turns safe hpid.1.quiet
  · exact fun hnone => holds_return stopped (fun _ hs => hs) (hpid.2 (not_not.1 hnone))

theorem quiet_composed (hq : h.Quiet) (action : ComposeAction) : (h.composed action).Quiet := by
  cases action with
  | stop => exact ⟨rfl,fun q hmem => absurd hmem (Finset.notMem_empty q)⟩
  | start => exact hq
  | restart => exact ⟨rfl,fun q hmem => absurd hmem (Finset.notMem_empty q)⟩

theorem stopped_composed (hs : h.Stopped) (action : ComposeAction) : (h.composed action).Stopped := by
  cases action with
  | stop => exact ⟨⟨rfl,rfl⟩,hs.2⟩
  | start => exact hs
  | restart => exact ⟨⟨rfl,rfl⟩,hs.2⟩

section
variable (hentrypoint : entrypoint.Idle)
include hentrypoint

/-- With an idle entrypoint `docker-compose` starts no server. -/
theorem answers_compose {action : ComposeAction} {r : Reply} {h' : Host}
    (hanswer : Answers entrypoint (.compose action) h r h') : h' = h.composed action ∨ h' = h := by
  cases hanswer with
  | compose hbrings => exact Or.inl (hentrypoint _ _ _ hbrings)
  | composeFails _ => exact Or.inr rfl

/-- `docker-compose` keeps what it cannot break. -/
theorem holds_compose (P : Assertion) (action : ComposeAction) (retryCount : ℕ)
    (hcomposed : ∀ h, P.holds h → P.holds (h.composed action)) (hquiet : ∀ h, P.holds h → Quiet h) (hP : P.holds h) :
    Holds (system entrypoint) OneServer (after fun _ => P.holds) (compose action retryCount) h := by
  apply holds_attempts P P retryCount 0 _ (fun h hP => after_error_of_quiet _ (hquiet h hP)) hP
  intro _ h hP
  apply holds_attempt P P
  apply holds_verdict P P _ (fun _ hP => hP) hP
  intro h r h' hP hc
  rw [ite_self]
  cases answers_compose hentrypoint hc with
  | inl hcompose => exact hcompose ▸ hcomposed h hP
  | inr hsame => exact hsame ▸ hP

theorem holds_compose_quiet (action : ComposeAction) (retryCount : ℕ) (hq : h.Quiet) :
    Holds (system entrypoint) OneServer (after fun _ => Quiet) (compose action retryCount) h :=
  holds_compose hentrypoint quiet action retryCount (fun _ hq => quiet_composed hq action) (fun _ hq => hq) hq

end

theorem holds_startIf (o : Option StartOptions) (hq : h.Quiet) :
    Holds (system entrypoint) OneServer (after fun _ => Quiet) (startIf o) h := by
  cases o with
  | none => exact holds_return quiet (fun _ hq => hq) hq
  | some o => exact holds_startClickhouse o hq

theorem holds_operation (hentrypoint : entrypoint.Idle) (op : Operation) (hq : h.Quiet) :
    Holds (system entrypoint) OneServer (after fun _ => Quiet) op.action h := by
  cases op with
  | stopClickhouse turns safe =>
    apply (holds_stopClickhouse turns safe hq).mono
    intro r h hr
    cases r with
    | ok _ => exact Stopped.quiet hr
    | error _ => exact hr
  | startClickhouse o => exact holds_startClickhouse o hq
  | restartClickhouse turns safe o =>
    exact holds_then (holds_stopIfPid turns safe hq) fun _ _ hs => holds_startClickhouse o (Stopped.quiet hs)
  | stop turns safe retryCount =>
    exact holds_then (holds_stopIfPid turns safe hq) fun _ _ hs =>
      holds_compose_quiet hentrypoint .stop retryCount (Stopped.quiet hs)
  | start retryCount o =>
    exact holds_then (holds_compose_quiet hentrypoint .start retryCount hq) fun _ _ hq => holds_startIf o hq
  | restart turns safe retryCount o =>
    apply holds_then (holds_stopIfPid turns safe hq)
    intro _ h hs
    exact holds_then (holds_compose_quiet hentrypoint .restart retryCount (Stopped.quiet hs)) fun _ _ hq =>
      holds_startIf o hq

end

end ClickHouseRegression.Cluster.Lifecycle
