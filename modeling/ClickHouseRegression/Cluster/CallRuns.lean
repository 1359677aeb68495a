import ClickHouseRegression.Cluster.Calls

/-! What the calls do to the session table: the cases of their `with` statement, the bookkeeping that
every call keeps, and `query` with its sessions against `query` over a stream of replies. -/
namespace ClickHouseRegression.Cluster

/-- What the `with` statement can do: be skipped, run the command in the shell that was passed or in
the one that `bash` returned, or fail to get a session. -/
theorem execute_cases {call : ShellCall} {steps : Bool} {thread : Text} {turn : Turn} {s : Sessions}
    {e : Execution} (h : call.execute steps thread turn s = some e) :
    (steps = true ∧ turn.skipped = true ∧ e = ⟨s,none,.ok none⟩) ∨
    (¬ (steps = true ∧ turn.skipped = true) ∧
      ((∃ shell, call.bash = some shell ∧
          e = call.runIn thread turn.reply (if shell < s.count then some shell else none) s) ∨
        (call.bash = none ∧ ∃ s' shell,
          s.bash thread call.session turn.opening = some (s',.returned shell) ∧
          e = call.runIn thread turn.reply (some shell) s') ∨
        (call.bash = none ∧ ∃ s' err,
          s.bash thread call.session turn.opening = some (s',.raised err) ∧
          (e.sessions = s' ∨ e.sessions = s'.close (thread,nodeText call.session)) ∧
          e.run = none ∧ e.r = (if err = .other ∧ turn.openingTimesOut = true then
            (if call.opensInside && !call.reraises then .ok none
              else .error (.ended .expectTimeoutError)) else .error (.openError err))))) := by
  unfold ShellCall.execute at h
  by_cases hskip : steps = true ∧ turn.skipped = true
  · rw [if_pos (by simp [hskip])] at h
    cases h
    exact .inl ⟨hskip.1,hskip.2,rfl⟩
  · rw [if_neg (by simpa using hskip)] at h
    refine .inr ⟨hskip,?_⟩
    cases hbash : call.bash with
    | some shell =>
      simp only [hbash] at h
      cases h
      exact .inl ⟨shell,rfl,rfl⟩
    | none =>
      simp only [hbash] at h
      split at h
      · next s' shell hopen =>
        cases h
        exact .inr (.inl ⟨rfl,s',shell,hopen,rfl⟩)
      · next s' err hopen =>
        refine .inr (.inr ⟨rfl,s',err,hopen,?_⟩)
        split_ifs at h with htimeout hinside
        · cases h
          refine ⟨.inr rfl,rfl,?_⟩
          rw [if_pos htimeout]
          cases hreraises : call.reraises <;> simp [ShellCall.timedOut,hreraises,hinside]
        · cases h
          refine ⟨.inl rfl,rfl,?_⟩
          rw [if_pos htimeout,if_neg (by simp [hinside])]
        · cases h
          exact ⟨.inl rfl,rfl,(if_neg htimeout).symm⟩
      · cases h

/-- A value of `r` is the result of the command that was run. -/
theorem runIn_result {call : ShellCall} {thread : Text} {reply : Reply} {shell : Option ℕ}
    {s : Sessions} {output : Text} {exitcode : Int}
    (h : (call.runIn thread reply shell s).r = .ok (some (output,exitcode))) :
    reply = .result output exitcode ∧
      (call.runIn thread reply shell s).run = some ⟨shell,call.text,reply⟩ := by
  cases reply with
  | result o c =>
    cases h
    exact ⟨rfl,rfl⟩
  | expectTimeout =>
    simp only [ShellCall.runIn,ShellCall.timedOut] at h
    split_ifs at h
    cases h
  | error exception => cases h

theorem execute_result {call : ShellCall} {steps : Bool} {thread : Text} {turn : Turn} {s : Sessions}
    {e : Execution} {output : Text} {exitcode : Int}
    (h : call.execute steps thread turn s = some e) (hr : e.r = .ok (some (output,exitcode))) :
    ∃ run, e.run = some run ∧ run.reply = .result output exitcode := by
  rcases execute_cases h with ⟨-,-,rfl⟩ |
    ⟨-,⟨shell,-,rfl⟩ | ⟨-,s',shell,-,rfl⟩ | ⟨-,s',err,-,-,-,hr'⟩⟩
  · cases hr
  · obtain ⟨hreply,hrun⟩ := runIn_result hr
    exact ⟨_,hrun,hreply⟩
  · obtain ⟨hreply,hrun⟩ := runIn_result hr
    exact ⟨_,hrun,hreply⟩
  · rw [hr'] at hr
    split_ifs at hr
    cases hr

namespace Sessions
variable {s : Sessions}

theorem Linked.runs (hl : s.Linked) {shell : Option ℕ} (h : ∀ i, shell = some i → i < s.count) :
    (s.runs shell).Linked := by
  cases shell with
  | none => exact hl
  | some i =>
    refine ⟨hl.unique,hl.stored,?_⟩
    intro j hj
    have hi := h i rfl
    change s.count ≤ j at hj
    exact (Function.update_of_ne (by omega) _ _).trans (hl.fresh j hj)

theorem Linked.runIn (hl : s.Linked) {call : ShellCall} {thread : Text} {reply : Reply}
    {shell : Option ℕ} (hshell : ∀ i, shell = some i → i < s.count) :
    (call.runIn thread reply shell s).sessions.Linked := by
  have hruns := hl.runs hshell
  cases reply with
  | result output exitcode => exact hruns
  | expectTimeout => exact hruns.close _
  | error exception => exact hruns

/-- The `with` statement keeps the bookkeeping. -/
theorem Linked.execute (hl : s.Linked) {call : ShellCall} {steps : Bool} {thread : Text}
    {turn : Turn} {e : Execution} (h : call.execute steps thread turn s = some e) :
    e.sessions.Linked := by
  rcases execute_cases h with ⟨-,-,rfl⟩ |
    ⟨-,⟨shell,-,rfl⟩ | ⟨-,s',shell,hopen,rfl⟩ | ⟨-,s',err,hopen,hsessions,-⟩⟩
  · exact hl
  · apply hl.runIn
    intro i hi
    split_ifs at hi with hlt
    exact Option.some.inj hi ▸ hlt
  · obtain ⟨hl',hstored⟩ := hl.bash hopen
    apply hl'.runIn
    intro i hi
    cases hi
    exact hl'.stored _ _ (hstored shell rfl)
  · have hl' := (hl.bash hopen).1
    rcases hsessions with h' | h'
    · rw [h']
      exact hl'
    · rw [h']
      exact hl'.close _

theorem Linked.queryExecute (hl : s.Linked) {n : Node} {sql : Text} {o : QueryOptions} {thread : Text}
    {turn : Turn} {e : Execution} (h : queryExecute n sql o thread turn s = some e) :
    e.sessions.Linked := by
  unfold Cluster.queryExecute at h
  exact hl.execute h

theorem Linked.queryCall (hl : s.Linked) {n : Node} {sql thread : Text} {turns : ℕ → Turn}
    {count : ℕ} {o : QueryOptions} {k : ℕ} {e : CallEnd}
    (h : queryCallFrom n sql thread turns count o k s = some e) : e.sessions.Linked := by
  induction count generalizing o k s with
  | zero =>
    obtain ⟨x,hx,rfl⟩ := Option.map_eq_some_iff.1 h
    exact hl.queryExecute hx
  | succ count ih =>
    obtain ⟨x,hx,hend⟩ := Option.bind_eq_some_iff.1 h
    have hl' := hl.queryExecute hx
    split at hend
    · split_ifs at hend
      · exact ih hl' hend
      · cases hend
        exact hl'
      · cases hend
        exact hl'
    · cases hend
      exact hl'

/-- Every call keeps the bookkeeping. -/
theorem Linked.call (hl : s.Linked) {call : Call} {thread : Text} {turns : ℕ → Turn} {e : CallEnd}
    (h : call.call thread turns s = some e) : e.sessions.Linked := by
  cases call with
  | cmd name text o =>
    obtain ⟨x,hx,hend⟩ := Option.bind_eq_some_iff.1 h
    cases hend
    exact hl.execute hx
  | command node text o =>
    obtain ⟨x,hx,hend⟩ := Option.bind_eq_some_iff.1 h
    cases hend
    exact hl.execute hx
  | query n sql o retryCount => exact hl.queryCall h
  | hashQuery n sql hashUtility steps o =>
    obtain ⟨x,hx,hend⟩ := Option.bind_eq_some_iff.1 h
    cases hend
    exact hl.execute hx
  | diffQuery n sql expectedOutput steps o =>
    obtain ⟨x,hx,hend⟩ := Option.bind_eq_some_iff.1 h
    cases hend
    exact hl.execute hx

/-- One critical section or one whole call. -/
def CallStep (s s' : Sessions) : Prop :=
  (∃ c r, s.step c = some (s',r)) ∨
    ∃ (call : Call) (thread : Text) (turns : ℕ → Turn) (e : CallEnd),
      call.call thread turns s = some e ∧ e.sessions = s'

theorem linked_of_reachable (h : Relation.ReflTransGen CallStep empty s) : s.Linked := by
  induction h with
  | refl => exact empty_linked
  | tail _ hstep ih =>
    rcases hstep with ⟨c,r,hs⟩ | ⟨call,thread,turns,e,he,rfl⟩
    · exact ih.step hs
    · exact ih.call he

end Sessions

/-- What a turn is for `query` when its session is there. -/
def Turn.attempt (turn : Turn) : Attempt := ⟨turn.tempName,turn.skipped,turn.reply⟩

/-- The variable `r` after an attempt. -/
def valueOf : Except Outcome (Text × Int) → Except CallOutcome (Option (Text × Int))
  | .ok r => .ok (some r)
  | .error .notExecuted => .ok none
  | .error outcome => .error (.ended outcome)

/-- When its session is there, a turn of `query` is an attempt. -/
theorem queryExecute_attempt {n : Node} {sql : Text} {o : QueryOptions} {thread : Text} {turn : Turn}
    {s : Sessions} {e : Execution} (hopening : turn.openingTimesOut = false)
    (h : queryExecute n sql o thread turn s = some e) (hr : ∀ err, e.r ≠ .error (.openError err)) :
    e.r = valueOf (runAttempt n sql o turn.attempt).2 := by
  unfold queryExecute at h
  unfold runAttempt
  rcases execute_cases h with ⟨hsteps,hskipped,rfl⟩ |
    ⟨hskip,⟨shell,hbash,-⟩ | ⟨-,s',shell,-,rfl⟩ | ⟨-,s',err,-,-,-,hr'⟩⟩
  · simp [Turn.attempt,hsteps,hskipped,valueOf]
  · cases hbash
  · rw [if_neg (by simpa [Turn.attempt] using hskip)]
    cases hreply : turn.reply <;>
      simp [Turn.attempt,hreply,ShellCall.runIn,ShellCall.timedOut,valueOf]
  · rw [if_neg (by simp [hopening])] at hr'
    exact absurd hr' (hr err)

/-- How `query` ends with its last attempt. -/
def QueryOptions.lastOutcome (o : QueryOptions) : Except Outcome (Text × Int) → Outcome
  | .error outcome => outcome
  | .ok r => checkResult o r.1 r.2

theorem finish_outcome {o : QueryOptions} {e : Execution} {v : Except Outcome (Text × Int)}
    (h : e.r = valueOf v) : (o.finish e).outcome = .ended (o.lastOutcome v) := by
  unfold QueryOptions.finish Execution.finish
  rw [h]
  cases v with
  | ok r => rfl
  | error outcome => cases outcome <;> rfl

theorem queryCallFrom_outcome {n : Node} {sql thread : Text} {turns : ℕ → Turn} {count : ℕ}
    {o : QueryOptions} {k : ℕ} {s : Sessions} {e : CallEnd}
    (hopening : ∀ k, (turns k).openingTimesOut = false)
    (h : queryCallFrom n sql thread turns count o k s = some e)
    (he : ∀ err, e.outcome ≠ .openError err) :
    e.outcome = .ended (queryFrom n sql (fun k => (turns k).attempt) count o k).2 := by
  have hopen : ∀ {o : QueryOptions} {x : Execution}, (∀ err, (o.finish x).outcome ≠ .openError err) →
      ∀ err, x.r ≠ .error (.openError err) := by
    intro o x hfinish err hr
    exact hfinish err (by simp [QueryOptions.finish,Execution.finish,hr])
  induction count generalizing o k s with
  | zero =>
    obtain ⟨x,hx,rfl⟩ := Option.map_eq_some_iff.1 h
    rw [finish_outcome (queryExecute_attempt (hopening k) hx (hopen he)),queryFrom]
    rcases runAttempt n sql o (turns k).attempt with ⟨events,outcome | r⟩ <;> rfl
  | succ count ih =>
    obtain ⟨x,hx,hend⟩ := Option.bind_eq_some_iff.1 h
    by_cases hr : ∃ err, x.r = .error (.openError err)
    · obtain ⟨err,hr⟩ := hr
      simp only [hr] at hend
      cases hend
      exact absurd (by simp [QueryOptions.finish,Execution.finish,hr]) (he err)
    · have hv := queryExecute_attempt (hopening k) hx (not_exists.1 hr)
      rw [queryFrom]
      rcases hattempt : runAttempt n sql o (turns k).attempt with ⟨events,outcome | r⟩
      · rw [hattempt] at hv
        have hnone : ∀ output exitcode, x.r ≠ .ok (some (output,exitcode)) := by
          intro output exitcode hsome
          rw [hv] at hsome
          cases outcome <;> cases hsome
        split at hend
        · next output exitcode hsome => exact absurd hsome (hnone output exitcode)
        · cases hend
          exact finish_outcome hv
      · rw [hattempt] at hv
        have hsome : x.r = .ok (some (r.1,r.2)) := hv
        simp only [hsome] at hend
        simp only
        split_ifs at hend ⊢
        · exact ih hend
        · cases hend
          rfl
        · cases hend
          exact finish_outcome hv

/-- The first reply is transient; the sessions open at once. -/
def transientThenOne (k : ℕ) : Turn :=
  ⟨false,"/tmp/query".toList,⟨none,[⟨.succeeds,false⟩],none,[]⟩,false,
    .result (if k = 0 then "Operation timed out".toList else "1".toList) 0⟩

end ClickHouseRegression.Cluster
