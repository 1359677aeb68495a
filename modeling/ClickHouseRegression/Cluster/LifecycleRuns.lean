import ClickHouseRegression.Cluster.LifecycleInvariant

/-! Whole runs of the operations of a node: how many servers live, what a stop leaves behind, and what a
pid file does that a crashed server has left behind. -/
namespace ClickHouseRegression.Cluster.Lifecycle
open Interactive Host

/-- The session that ends when a start has given up waiting. -/
def untilGivenUp (e : LifecycleError) : Bool := decide (GivesUp e)

/-- An entrypoint like `tail -f /dev/null`. -/
def idle : Entrypoint := ⟨fun _ h h' => h' = h⟩

theorem idle_idle : idle.Idle := fun _ _ _ h => h

section
variable {entrypoint : Entrypoint} (hentrypoint : entrypoint.Idle)
include hentrypoint

theorem holds_session {ops : List Operation} {h : Host} (hq : h.Quiet) :
    Holds (system entrypoint) OneServer (after fun _ => Quiet) (session untilGivenUp ops) h := by
  induction ops generalizing h with
  | nil => exact holds_return quiet (fun _ hq => hq) hq
  | cons op ops ih =>
    have hop : Holds (system entrypoint) OneServer (after fun _ => Quiet) (do
        op.action
        return (.ok () : Except LifecycleError Unit)) h :=
      holds_then (holds_operation hentrypoint op hq) fun _ _ hq => holds_return quiet (fun _ hq => hq) hq
    have hcaught : Holds (system entrypoint) OneServer (after fun _ => Quiet) ((do
        op.action
        return (.ok () : Except LifecycleError Unit)).tryCatch fun e =>
          if untilGivenUp e then .fail e else .done (.error e)) h := by
      apply hop.tryCatch
      · exact fun _ _ hq => hq
      · intro e h he
        have herror : (¬ GivesUp e → Quiet h) ∧ OneServer h := he
        by_cases hgiven : GivesUp e
        · rw [untilGivenUp,decide_eq_true hgiven]
          exact holds_raise oneServer (fun _ ho => after_error_of_givesUp hgiven ho) herror.2
        · rw [untilGivenUp,decide_eq_false hgiven]
          exact holds_return quiet (fun _ hq => hq) (herror.1 hgiven)
    apply holds_then hcaught
    intro outcome h hq
    apply holds_then (ih hq)
    intro outcomes h hq
    exact holds_return quiet (fun _ hq => hq) hq

end

section
variable {entrypoint : Entrypoint} (hentrypoint : entrypoint.Idle)
include hentrypoint

theorem holds_stop (turns : ℕ) (safe : Bool) (retryCount : ℕ) {h : Host} (hq : h.Quiet) :
    Holds (system entrypoint) OneServer (after fun _ => Stopped) (stop turns safe retryCount) h := by
  apply holds_then (holds_stopIfPid turns safe hq)
  intro _ h hs
  exact holds_compose hentrypoint stopped .stop retryCount (fun _ hs => stopped_composed hs .stop)
    (fun _ hs => Stopped.quiet hs) hs

end

section
variable {kind : LifecycleError → Prop}

theorem raises_command (c : Command) (hreply : kind (.noReply c)) : (command c).Raises kind := by
  intro reply
  cases reply with
  | none => exact hreply
  | some r => exact trivial

theorem raises_checked (c : Command) (hreply : kind (.noReply c)) (hcode : kind .exitcode) :
    (checked c).Raises kind :=
  (raises_command c hreply).bind fun _ => Program.raises_onlyIf hcode

theorem raises_attempt (body : Action Bool) : (attempt body).Raises kind :=
  Program.Raises.tryCatch fun _ => trivial

theorem raises_clickhousePid (hreply : ∀ c, kind (.noReply c)) : clickhousePid.Raises kind := by
  apply (raises_command .lsPidFile (hreply _)).bind
  intro r
  split
  · exact (raises_command .catPidFile (hreply _)).bind fun _ => trivial
  · exact trivial

theorem raises_quiesce (hkind : ∀ e, e ≠ .alreadyRunning → kind e) : quiesce.Raises kind := by
  have hquery : ∀ sql, (checked (.query sql)).Raises kind := fun sql =>
    raises_checked _ (hkind _ (by simp)) (hkind _ (by simp))
  apply (hquery _).bind
  intro _
  apply (hquery _).bind
  intro _
  apply (hquery _).bind
  intro _
  exact raises_checked _ (hkind _ (by simp)) (hkind _ (by simp))

theorem raises_stopClickhouse (turns : ℕ) (safe : Bool) (hkind : ∀ e, e ≠ .alreadyRunning → kind e) :
    (stopClickhouse turns safe).Raises kind := by
  have hchecked : ∀ c, (checked c).Raises kind := fun c =>
    raises_checked c (hkind _ (by simp)) (hkind _ (by simp))
  apply (Program.raises_onlyIf (raises_quiesce hkind)).bind
  intro _
  apply (raises_clickhousePid fun _ => hkind _ (by simp)).bind
  intro pid
  apply (hchecked _).bind
  intro _
  apply (Program.raises_repeatUntil (hkind _ (by decide)) (fun _ => raises_attempt _) turns 0).bind
  intro _
  exact hchecked _

theorem raises_stopIfPid (turns : ℕ) (safe : Bool) (hkind : ∀ e, e ≠ .alreadyRunning → kind e) :
    (stopIfPid turns safe).Raises kind :=
  (raises_clickhousePid fun _ => hkind _ (by simp)).bind fun _ =>
    Program.raises_onlyIf (raises_stopClickhouse turns safe hkind)

theorem raises_waitClickhouseHealthy (turns : ℕ) (sameVersion : Bool) (hkind : ∀ e, e ≠ .alreadyRunning → kind e) :
    (waitClickhouseHealthy turns sameVersion).Raises kind := by
  apply (Program.raises_repeatUntil (hkind _ (by decide)) (fun _ => raises_attempt _) turns 0).bind
  intro _
  apply (raises_command _ (hkind _ (by simp))).bind
  intro _
  exact Program.raises_onlyIf (hkind _ (by decide))

end

section
variable {entrypoint : Entrypoint}

def NotRunning {α : Type} (r : Except LifecycleError α) (_ : Host) : Prop := ∀ e, r = .error e → e ≠ .alreadyRunning

theorem holds_notRunning {α : Type} {p : Action α} (hp : p.Raises (· ≠ .alreadyRunning)) (h : Host) :
    Holds (system entrypoint) (fun _ => True) NotRunning p h :=
  ((holds_true p h).raises hp).mono fun _ _ hr => hr.2

/-- A start that follows a stop does not find the server already running. -/
theorem holds_startClickhouse_stopped (o : StartOptions) {h : Host} (hs : h.Stopped) :
    Holds (system entrypoint) (fun _ => True) NotRunning (startClickhouse o) h := by
  have hls : ∀ h r h', Stopped h → Answers entrypoint .lsPidFile h r h' → if r.exitcode = 0 then False else Stopped h' := by
    intro h r h' hs hc
    cases hc with
    | lsPidFile _ =>
      rw [hs.2]
      exact hs
  have hpid : Holds (system entrypoint) OneServer (tried (fun pid _ => pid = Pid.none) stopped) clickhousePid h := by
    have hnone : ∀ h r h', Stopped h → Answers entrypoint .lsPidFile h r h' → Stopped h' ∧ r.exitcode ≠ 0 := by
      intro h r h' hs hc
      have hresult := hls h r h' hs hc
      split at hresult
      · exact hresult.elim
      · next hcode => exact ⟨hresult,hcode⟩
    apply (holds_command stopped (fun r => stopped.withFact (r.exitcode ≠ 0)) stopped hnone (fun _ hs => hs)
      (fun _ _ hs => hs.1) hs).bind
    · intro r h hr
      rw [if_neg hr.2]
      exact holds_return stopped (fun _ _ => rfl) hr.1
    · exact fun _ _ he => he.2
  have hraises : clickhousePid.Raises (· ≠ .alreadyRunning) := raises_clickhousePid (by simp)
  apply ((hpid.raises hraises).mono_inv fun _ _ => trivial).bind
  · intro pid h hr
    have hnone : pid = Pid.none := hr.1
    subst hnone
    apply holds_notRunning
    apply (raises_checked .launch (by simp) (by simp)).bind
    intro _
    apply (Program.raises_repeatUntil (by simp) (fun _ => raises_attempt _) o.pidFileTurns 0).bind
    intro _
    exact Program.raises_onlyIf (raises_waitClickhouseHealthy _ _ fun _ he => he)
  · intro e h hr e' he
    cases he
    exact hr.2 e rfl

theorem holds_startIf_stopped (o : Option StartOptions) {h : Host} (hs : h.Stopped) :
    Holds (system entrypoint) (fun _ => True) NotRunning (startIf o) h := by
  cases o with
  | none =>
    have hdone : (startIf none).Raises (· ≠ .alreadyRunning) := trivial
    exact holds_notRunning hdone h
  | some o => exact holds_startClickhouse_stopped o hs

/-- After an action that leaves nothing behind and does not complain of a running server. -/
theorem holds_afterStop {p next : Action Unit} {h : Host}
    (hp : Holds (system entrypoint) OneServer (after fun _ => Stopped) p h) (hraises : p.Raises (· ≠ .alreadyRunning))
    (hnext : ∀ h, Stopped h → Holds (system entrypoint) (fun _ => True) NotRunning next h) :
    Holds (system entrypoint) (fun _ => True) NotRunning (p.bind fun _ => next) h := by
  apply ((hp.raises hraises).mono_inv fun _ _ => trivial).bind
  · exact fun _ h hr => hnext h hr.1
  · intro e h hr e' he
    cases he
    exact hr.2 e rfl

/-- A restart never finds the server already running. -/
theorem restart_notRunning (hentrypoint : entrypoint.Idle) (turns retryCount : ℕ) (safe : Bool) (o : StartOptions) (so : Option StartOptions)
    {h h' : Host} {e : LifecycleError} (hq : h.Quiet)
    (hrun : Reaches (system entrypoint) (restartClickhouse turns safe o) h (.fail e) h' ∨
      Reaches (system entrypoint) (restart turns safe retryCount so) h (.fail e) h') : e ≠ .alreadyRunning := by
  have hstop : Holds (system entrypoint) OneServer (after fun _ => Stopped) (stopIfPid turns safe) h :=
    holds_stopIfPid turns safe hq
  have hraises : (stopIfPid turns safe).Raises (· ≠ .alreadyRunning) := raises_stopIfPid turns safe fun _ he => he
  cases hrun with
  | inl hrun =>
    have hholds := (holds_afterStop hstop hraises fun _ hs => holds_startClickhouse_stopped o hs).reaches hrun
    exact (hholds h' .refl).2 e rfl
  | inr hrun =>
    have hcompose : (compose .restart retryCount).Raises (· ≠ .alreadyRunning) :=
      Program.raises_repeatUntil (by simp) (fun _ => raises_attempt _) retryCount 0
    have hnext : ∀ h, Stopped h → Holds (system entrypoint) (fun _ => True) NotRunning
        ((compose .restart retryCount).bind fun _ => startIf so) h := by
      intro h hs
      exact holds_afterStop (holds_compose hentrypoint stopped .restart retryCount
        (fun _ hs => stopped_composed hs .restart) (fun _ hs => Stopped.quiet hs) hs) hcompose
        fun _ hs => holds_startIf_stopped so hs
    have hholds := (holds_afterStop hstop hraises hnext).reaches hrun
    exact (hholds h' .refl).2 e rfl

end

/-- A restart that gives up waiting for the new pid file. -/
theorem restart_notRunning_givenUp :
    ∃ e h', Reaches (system idle) (restartClickhouse 1 false ⟨0,0,false,true⟩) ⟨true,∅,{7},some 7⟩ (.fail e) h' ∧
      e ≠ .alreadyRunning := by
  have hq : Quiet ⟨true,∅,{7},some 7⟩ := ⟨rfl,fun q hq => congrArg some (Finset.mem_singleton.1 hq).symm⟩
  have hrun : Reaches (system idle) (restartClickhouse 1 false ⟨0,0,false,true⟩) ⟨true,∅,{7},some 7⟩
      (.fail .noPidFile) ⟨true,insert 8 ∅,({7} : Finset ℕ).erase 7,none⟩ := by
    refine .head (.ask (.answered (.lsPidFile rfl))) ?_
    refine .head (.ask (.answered (.catPidFile rfl rfl))) ?_
    refine .head (.ask (.answered (.lsPidFile rfl))) ?_
    refine .head (.ask (.answered (.catPidFile rfl rfl))) ?_
    refine .head (.ask (.answered (.term rfl))) ?_
    refine .head (.env (.exit (p := 7) (by decide))) ?_
    refine .head (.ask (.answered (.ps rfl))) ?_
    refine .head (.ask (.answered (.rmPidFile rfl))) ?_
    refine .head (.ask (.answered (.lsPidFile rfl))) ?_
    refine .head (.ask (.answered (.launch (p := 8) rfl (by decide)))) ?_
    exact .refl
  exact ⟨_,_,hrun,restart_notRunning idle_idle 1 1 false ⟨0,0,false,true⟩ none hq (.inl hrun)⟩

/-- A server has crashed and its pid file is still there. -/
def Stale (p : ℕ) (h : Host) : Prop := h.Down ∧ h.pidFile = some p

/-- The stale pid file is still there, and a result is of a kind. -/
def Leaves {α : Type} (p : ℕ) (Q : α → Prop) (r : Except LifecycleError α) (h : Host) : Prop :=
  Stale p h ∧ ∀ a, r = .ok a → Q a

def Never {α : Type} (_ : α) : Prop := False

section
variable {entrypoint : Entrypoint} {α β : Type} {p : ℕ} {h : Host}

theorem stale_stable (p : ℕ) : Stable (system entrypoint) (Stale p) := fun _ _ hs henv => (env_of_down hs.1 henv).elim

theorem stale_done {Q : α → Prop} {a : α} (hs : Stale p h) (ha : Q a) :
    Holds (system entrypoint) (Stale p) (Leaves p Q) (.done a) h :=
  holds_done (stale_stable p) (fun _ hs => hs) (fun _ hs => ⟨hs,fun _ hr => Except.ok.inj hr ▸ ha⟩) hs

theorem stale_fail {Q : α → Prop} {e : LifecycleError} (hs : Stale p h) :
    Holds (system entrypoint) (Stale p) (Leaves p Q) (.fail e) h :=
  holds_fail (stale_stable p) (fun _ hs => hs) (fun _ hs => ⟨hs,fun _ hr => nomatch hr⟩) hs

theorem stale_bind {Q : α → Prop} {Q' : β → Prop} {a : Action α} {f : α → Action β}
    (ha : Holds (system entrypoint) (Stale p) (Leaves p Q) a h)
    (hf : ∀ x h, Q x → Stale p h → Holds (system entrypoint) (Stale p) (Leaves p Q') (f x) h) :
    Holds (system entrypoint) (Stale p) (Leaves p Q') (a.bind f) h :=
  ha.bind (fun x h hx => hf x h (hx.2 x rfl) hx.1) (fun _ _ he => ⟨he.1,fun _ hr => nomatch hr⟩)

/-- What has failed is not gone on with. -/
theorem stale_never {Q' : β → Prop} {a : Action α} {f : α → Action β}
    (ha : Holds (system entrypoint) (Stale p) (Leaves p Never) a h) : Holds (system entrypoint) (Stale p) (Leaves p Q') (a.bind f) h :=
  stale_bind ha fun _ _ hx _ => hx.elim

theorem stale_command {Q : Reply → Prop} {c : Command} (hs : Stale p h)
    (hanswers : ∀ h r h', Stale p h → Answers entrypoint c h r h' → Stale p h' ∧ Q r) :
    Holds (system entrypoint) (Stale p) (Leaves p Q) (command c) h := by
  apply holds_ask (stale_stable p) (fun _ hs => hs) _ hs
  intro h reply h' hs hexec
  cases hexec with
  | lost => exact stale_fail hs
  | @answered _ r hreply =>
    have hresult := hanswers h r h' hs hreply
    exact stale_done hresult.1 hresult.2
  | @timedOut _ r hlate => exact stale_fail (hanswers h r h' hs hlate).1

theorem stale_checked {c : Command} (hs : Stale p h)
    (hanswers : ∀ h r h', Stale p h → Answers entrypoint c h r h' → Stale p h' ∧ r.exitcode ≠ 0) :
    Holds (system entrypoint) (Stale p) (Leaves p Never) (checked c) h := by
  apply stale_bind (stale_command hs hanswers)
  intro r h hcode hs
  rw [Program.onlyIf,if_pos hcode]
  exact stale_fail hs

theorem answers_query_stale {sql : String} {r : Reply} {h' : Host} (hs : Stale p h)
    (hanswers : Answers entrypoint (.query sql) h r h') : Stale p h' ∧ r.exitcode ≠ 0 := by
  cases hanswers with
  | query _ hrunning =>
    rw [hs.1.2] at hrunning
    exact absurd hrunning Finset.not_nonempty_empty
  | queryFails _ hcode => exact ⟨hs,hcode⟩

theorem stale_quiesce (hs : Stale p h) : Holds (system entrypoint) (Stale p) (Leaves p Never) quiesce h :=
  stale_never (stale_checked hs fun _ _ _ hs hc => answers_query_stale hs hc)

theorem stale_clickhousePid (hs : Stale p h) :
    Holds (system entrypoint) (Stale p) (Leaves p (· = .number p)) clickhousePid h := by
  apply stale_bind (stale_command hs (Q := fun r => r.exitcode = 0) _)
  · intro r h hcode hs
    rw [if_pos hcode]
    apply stale_bind (stale_command hs (Q := fun r => r.output = .number p) _)
    · exact fun r h hr hs => stale_done hs hr
    · intro h r h' hs hc
      cases hc with
      | catPidFile _ hfile => exact ⟨hs,congrArg Pid.number (Option.some.inj (hfile.symm.trans hs.2))⟩
      | catNothing _ hfile => exact nomatch hfile.symm.trans hs.2
  · intro h r h' hs hc
    cases hc with
    | lsPidFile _ => exact ⟨hs,by rw [hs.2]; rfl⟩

/-- The signal does not reach the crashed server. -/
theorem stale_stopClickhouse (turns : ℕ) (safe : Bool) (hs : Stale p h) :
    Holds (system entrypoint) (Stale p) (Leaves p Never) (stopClickhouse turns safe) h := by
  have hsafe : Holds (system entrypoint) (Stale p) (Leaves p fun _ => True) (Program.onlyIf (safe = true) quiesce) h := by
    apply holds_onlyIf
    · exact fun _ => (stale_quiesce hs).mono fun _ _ hr => ⟨hr.1,fun _ _ => trivial⟩
    · exact fun _ => stale_done hs trivial
  apply stale_bind hsafe
  intro _ h _ hs
  apply stale_bind (stale_clickhousePid hs)
  intro pid h hpid hs
  subst hpid
  apply stale_never (stale_checked hs _)
  intro h r h' hs hc
  cases hc with
  | term _ =>
    refine ⟨hs,?_⟩
    have hdead : h.isAlive (.number p) = false := by
      rw [isAlive,live_of_down hs.1,decide_eq_false_iff_not]
      exact Finset.notMem_empty p
    simp only [hdead,Bool.false_eq_true,if_false]
    decide

theorem stale_startClickhouse (o : StartOptions) (hs : Stale p h) :
    Holds (system entrypoint) (Stale p) (Leaves p Never) (startClickhouse o) h := by
  apply stale_bind (stale_clickhousePid hs)
  intro pid h hpid hs
  subst hpid
  exact stale_never (stale_fail hs)

theorem stale_stopIfPid (turns : ℕ) (safe : Bool) (hs : Stale p h) :
    Holds (system entrypoint) (Stale p) (Leaves p Never) (stopIfPid turns safe) h := by
  apply stale_bind (stale_clickhousePid hs)
  intro pid h hpid hs
  subst hpid
  exact stale_stopClickhouse turns safe hs

theorem stale_attempt {body : Action Bool} (hbody : Holds (system entrypoint) (Stale p) (Leaves p fun _ => True) body h) :
    Holds (system entrypoint) (Stale p) (Leaves p fun _ => True) (attempt body) h :=
  hbody.tryCatch (fun _ _ hr => hr) (fun _ _ he => stale_done he.1 trivial)

theorem stale_composed (hs : Stale p h) (action : ComposeAction) : Stale p (h.composed action) := by
  cases action with
  | stop => exact ⟨⟨rfl,rfl⟩,hs.2⟩
  | start => exact hs
  | restart => exact ⟨⟨rfl,rfl⟩,hs.2⟩

/-- `start` with `start_clickhouse=False`. -/
def Operation.OnlyContainer : Operation → Prop
  | start _ none => True
  | _ => False

/-- Only the container alone can be started. -/
def Operation.Outcome (op : Operation) (outcome : Except LifecycleError Unit) : Prop :=
  outcome = .ok () → op.OnlyContainer

section
variable (hentrypoint : entrypoint.Idle)
include hentrypoint

theorem stale_compose (action : ComposeAction) (retryCount : ℕ) (hs : Stale p h) :
    Holds (system entrypoint) (Stale p) (Leaves p fun _ => True) (compose action retryCount) h := by
  have hanswers : ∀ h r h', Stale p h → Answers entrypoint (.compose action) h r h' → Stale p h' ∧ True := by
    intro h r h' hs hc
    cases answers_compose hentrypoint hc with
    | inl hcompose => exact ⟨hcompose ▸ stale_composed hs action,trivial⟩
    | inr hsame => exact ⟨hsame ▸ hs,trivial⟩
  have hbody : ∀ (_ : ℕ) h, Stale p h → Holds (system entrypoint) (Stale p) (Leaves p fun _ => True) (attempt (do
      let r ← command (.compose action)
      return decide (r.exitcode = 0))) h := fun _ _ hs =>
    stale_attempt (stale_bind (stale_command hs hanswers) fun _ _ _ hs => stale_done hs trivial)
  apply holds_repeatUntil (stale_stable p) (fun _ hs => hs) hbody
  · exact fun _ hs => stale_done hs.1 trivial
  · exact fun _ hs => hs.1
  · exact fun _ _ he => ⟨he.1,fun _ _ => trivial⟩
  · exact fun _ hs => ⟨hs,fun _ _ => trivial⟩
  · exact hs

theorem stale_operation (op : Operation) (hs : Stale p h) :
    Holds (system entrypoint) (Stale p) (Leaves p fun _ => op.OnlyContainer) op.action h := by
  cases op with
  | stopClickhouse turns safe => exact stale_stopClickhouse turns safe hs
  | startClickhouse o => exact stale_startClickhouse o hs
  | restartClickhouse turns safe o => exact stale_never (stale_stopIfPid turns safe hs)
  | stop turns safe retryCount => exact stale_never (stale_stopIfPid turns safe hs)
  | start retryCount o =>
    apply stale_bind (stale_compose hentrypoint .start retryCount hs)
    intro _ h _ hs
    cases o with
    | none => exact stale_done hs trivial
    | some o => exact stale_startClickhouse o hs
  | restart turns safe retryCount o => exact stale_never (stale_stopIfPid turns safe hs)

theorem stale_session (ends : LifecycleError → Bool) (ops : List Operation) (hs : Stale p h) :
    Holds (system entrypoint) (Stale p) (Leaves p (List.Forall₂ Operation.Outcome ops)) (session ends ops) h := by
  induction ops generalizing h with
  | nil => exact stale_done hs .nil
  | cons op ops ih =>
    have haction : Holds (system entrypoint) (Stale p) (Leaves p op.Outcome) (do
        op.action
        return (.ok () : Except LifecycleError Unit)) h :=
      stale_bind (stale_operation hentrypoint op hs) fun _ _ honly hs => stale_done hs fun _ => honly
    have hop : Holds (system entrypoint) (Stale p) (Leaves p op.Outcome) ((do
        op.action
        return (.ok () : Except LifecycleError Unit)).tryCatch fun e =>
          if ends e then .fail e else .done (.error e)) h := by
      apply haction.tryCatch
      · exact fun _ _ hr => hr
      · intro e h he
        split
        · exact stale_fail he.1
        · exact stale_done he.1 fun hok => nomatch hok
    apply stale_bind hop
    intro outcome h houtcome hs
    apply stale_bind (ih hs)
    intro outcomes h houtcomes hs
    exact stale_done hs (.cons houtcome houtcomes)

end

end

end ClickHouseRegression.Cluster.Lifecycle
