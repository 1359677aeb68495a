import ClickHouseRegression.Cluster.Sessions

/-! When the session table holds open shells only. The invariant is broken exactly by an
opening that ends with a dead or never opened shell in the table. -/
namespace ClickHouseRegression.Cluster

namespace Sessions

/-- Bookkeeping that holds whatever the outcomes are. -/
structure Linked (s : Sessions) : Prop where
  unique : ∀ k k' i, (k,i) ∈ s.table.entries → (k',i) ∈ s.table.entries → k = k'
  stored : ∀ k i, (k,i) ∈ s.table.entries → i < s.count
  fresh : ∀ i, s.count ≤ i → s.status i = .created

/-- Every stored shell is open, and every open shell is stored. -/
structure Healthy (s : Sessions) : Prop where
  stored_open : ∀ k i, (k,i) ∈ s.table.entries → s.status i = .opened
  open_stored : ∀ i, s.status i = .opened → ∃ k, (k,i) ∈ s.table.entries

/-- The state between two attempts to open a shell under the key: what the key holds, if
anything, is an exited shell. -/
structure Opening (key : SessionKey) (s : Sessions) : Prop where
  others_open : ∀ k i, (k,i) ∈ s.table.entries → k ≠ key → s.status i = .opened
  own_exited : ∀ i, (key,i) ∈ s.table.entries → s.status i = .exited
  open_stored : ∀ i, s.status i = .opened → ∃ k, k ≠ key ∧ (k,i) ∈ s.table.entries

end Sessions

/-- The attempts leave no dead or unopened shell behind; `stored` tells whether an earlier
attempt of the same call has stored a shell. -/
def cleanOpening (node : Option Text) : Bool → List OpenAttempt → Bool
  | _,[] => true
  | stored,a :: rest =>
    match a.outcome with
    | .succeeds => true
    | .enterFails true => !stored
    | .enterFails false => !stored || (!a.late && cleanOpening node true rest)
    | .echoFails true opened => opened || node.isSome
    | .echoFails false _ => !a.late && cleanOpening node true rest

/-- The condition on a call: where it has to open a shell, the opening is clean. -/
def SessionCall.Clean (s : Sessions) : SessionCall → Prop
  | .bash thread node input =>
    s.table.get (thread,nodeText node) = none →
      (if node.isSome then input.containerError else none) = none →
        cleanOpening node false input.attempts = true
  | _ => True

namespace Sessions

variable {s : Sessions}

theorem empty_linked : empty.Linked := by
  refine ⟨?_,?_,fun _ _ => rfl⟩
  · intro k k' i h
    cases h
  · intro k i h
    cases h

theorem empty_healthy : empty.Healthy := by
  refine ⟨?_,?_⟩
  · intro k i h
    cases h
  · intro i h
    cases h

theorem Linked.exit (hl : s.Linked) {shell : ℕ} (hs : shell < s.count) : (s.exit shell).Linked := by
  refine ⟨hl.unique,hl.stored,fun i hi => ?_⟩
  change s.count ≤ i at hi
  change Function.update s.status shell .exited i = .created
  rw [Function.update_of_ne (by omega),hl.fresh i hi]

theorem Linked.remove (hl : s.Linked) (key : SessionKey) : (s.remove key).Linked := by
  refine ⟨fun k k' i h h' => ?_,fun k i h => ?_,hl.fresh⟩
  · exact hl.unique k k' i (OrderedMap.mem_remove.1 h).2 (OrderedMap.mem_remove.1 h').2
  · exact hl.stored k i (OrderedMap.mem_remove.1 h).2

theorem Linked.store (hl : s.Linked) (key : SessionKey) (st : ShellStatus) :
    (s.store key st).Linked := by
  refine ⟨fun k k' i h h' => ?_,fun k i h => ?_,fun i hi => ?_⟩
  · rcases OrderedMap.mem_put.1 h with ⟨rfl,rfl⟩ | ⟨_,hk⟩
    · rcases OrderedMap.mem_put.1 h' with ⟨rfl,_⟩ | ⟨_,hk'⟩
      · rfl
      · exact absurd (hl.stored k' s.count hk') (lt_irrefl _)
    · rcases OrderedMap.mem_put.1 h' with ⟨rfl,rfl⟩ | ⟨_,hk'⟩
      · exact absurd (hl.stored k s.count hk) (lt_irrefl _)
      · exact hl.unique k k' i hk hk'
  · change i < s.count+1
    rcases OrderedMap.mem_put.1 h with ⟨_,rfl⟩ | ⟨_,h⟩
    · omega
    · have hi := hl.stored k i h
      omega
  · change s.count+1 ≤ i at hi
    change Function.update s.status s.count st i = .created
    rw [Function.update_of_ne (by omega),hl.fresh i (by omega)]

theorem Linked.close (hl : s.Linked) (key : SessionKey) : (s.close key).Linked := by
  unfold Sessions.close
  cases hg : s.table.get key with
  | none => exact hl
  | some shell => exact (hl.exit (hl.stored key shell (OrderedMap.get_eq_some_iff.1 hg))).remove key

/-- Exiting the shell of a key and deleting the key keeps the table healthy. -/
theorem Healthy.close (hh : s.Healthy) (hl : s.Linked) (key : SessionKey) :
    (s.close key).Healthy := by
  unfold Sessions.close
  cases hg : s.table.get key with
  | none => exact hh
  | some shell =>
    have hkey := OrderedMap.get_eq_some_iff.1 hg
    refine ⟨fun k i h => ?_,fun i hi => ?_⟩
    · obtain ⟨hne,hk⟩ := OrderedMap.mem_remove.1 h
      have hi : i ≠ shell := by
        rintro rfl
        exact hne (hl.unique k key i hk hkey)
      change Function.update s.status shell .exited i = .opened
      rw [Function.update_of_ne hi,hh.stored_open k i hk]
    · change Function.update s.status shell .exited i = .opened at hi
      by_cases his : i = shell
      · rw [his,Function.update_self] at hi
        cases hi
      · rw [Function.update_of_ne his] at hi
        obtain ⟨k,hk⟩ := hh.open_stored i hi
        refine ⟨k,OrderedMap.mem_remove.2 ⟨?_,hk⟩⟩
        rintro rfl
        exact his (OrderedMap.value_unique hk hkey)

theorem Linked.closeAll (hl : s.Linked) (test : SessionKey → Bool) : (s.closeAll test).Linked := by
  unfold Sessions.closeAll
  generalize s.table.keys.filter test = keys
  induction keys generalizing s with
  | nil => exact hl
  | cons key keys ih => exact ih (hl.close key)

theorem Healthy.closeAll (hh : s.Healthy) (hl : s.Linked) (test : SessionKey → Bool) :
    (s.closeAll test).Healthy := by
  unfold Sessions.closeAll
  generalize s.table.keys.filter test = keys
  induction keys generalizing s with
  | nil => exact hh
  | cons key keys ih => exact ih (hh.close hl key) (hl.close key)

/-- A turn of the loop of `down` stores the shell again under its key, or closes the key. -/
theorem downTurn_cases (s : Sessions) (bash : ℕ) (key : SessionKey) :
    (∃ table : OrderedMap SessionKey ℕ, downTurn bash s key = { s with table := table } ∧
      ∀ k i, (k,i) ∈ table.entries ↔ (k,i) ∈ s.table.entries) ∨
    downTurn bash s key = s.close key := by
  unfold downTurn Sessions.close
  cases hg : s.table.get key with
  | none => exact .inr rfl
  | some shell =>
    have hkey := OrderedMap.get_eq_some_iff.1 hg
    by_cases hb : shell = bash
    · refine .inl ⟨_,if_pos hb,?_⟩
      intro k i
      rw [OrderedMap.mem_put,OrderedMap.mem_remove]
      constructor
      · rintro (⟨rfl,rfl⟩ | ⟨_,_,h⟩)
        · exact hkey
        · exact h
      · intro h
        by_cases hk : k = key
        · subst hk
          exact .inl ⟨rfl,OrderedMap.value_unique h hkey⟩
        · exact .inr ⟨hk,hk,h⟩
    · exact .inr (if_neg hb)

theorem Linked.downTurn (hl : s.Linked) (bash : ℕ) (key : SessionKey) :
    (downTurn bash s key).Linked := by
  rcases downTurn_cases s bash key with ⟨table,heq,hsame⟩ | heq
  · rw [heq]
    refine ⟨?_,?_,hl.fresh⟩
    · intro k k' i h h'
      exact hl.unique k k' i ((hsame k i).1 h) ((hsame k' i).1 h')
    · intro k i h
      exact hl.stored k i ((hsame k i).1 h)
  · rw [heq]
    exact hl.close key

theorem Healthy.downTurn (hh : s.Healthy) (hl : s.Linked) (bash : ℕ) (key : SessionKey) :
    (downTurn bash s key).Healthy := by
  rcases downTurn_cases s bash key with ⟨table,heq,hsame⟩ | heq
  · rw [heq]
    refine ⟨?_,?_⟩
    · intro k i h
      exact hh.stored_open k i ((hsame k i).1 h)
    · intro i hi
      obtain ⟨k,hk⟩ := hh.open_stored i hi
      exact ⟨k,(hsame k i).2 hk⟩
  · rw [heq]
    exact hh.close hl key

theorem Linked.downSweep (hl : s.Linked) (bash : ℕ) (keys : List SessionKey) :
    (keys.foldl (Sessions.downTurn bash) s).Linked := by
  induction keys generalizing s with
  | nil => exact hl
  | cons key keys ih => exact ih (hl.downTurn bash key)

theorem Healthy.downSweep (hh : s.Healthy) (hl : s.Linked) (bash : ℕ) (keys : List SessionKey) :
    (keys.foldl (Sessions.downTurn bash) s).Healthy := by
  induction keys generalizing s with
  | nil => exact hh
  | cons key keys ih => exact ih (hh.downTurn hl bash key) (hl.downTurn bash key)

theorem Healthy.opening (hh : s.Healthy) {key : SessionKey} (hg : s.table.get key = none) :
    s.Opening key := by
  have habsent := OrderedMap.get_eq_none_iff.1 hg
  refine ⟨fun k i h _ => hh.stored_open k i h,fun i h => absurd h (habsent i),fun i hi => ?_⟩
  obtain ⟨k,hk⟩ := hh.open_stored i hi
  refine ⟨k,?_,hk⟩
  rintro rfl
  exact habsent i hk

/-- Between two attempts the table is healthy exactly if the key holds nothing. -/
theorem Opening.healthy_iff {key : SessionKey} (ho : s.Opening key) :
    s.Healthy ↔ s.table.get key = none := by
  constructor
  · intro hh
    rw [OrderedMap.get_eq_none_iff]
    intro i hi
    have hopen := hh.stored_open key i hi
    rw [ho.own_exited i hi] at hopen
    cases hopen
  · intro hg
    have habsent := OrderedMap.get_eq_none_iff.1 hg
    refine ⟨fun k i h => ?_,fun i hi => ?_⟩
    · refine ho.others_open k i h ?_
      rintro rfl
      exact habsent i h
    · obtain ⟨k,_,hk⟩ := ho.open_stored i hi
      exact ⟨k,hk⟩

/-- Storing a new shell under the key gives a healthy table exactly if the shell is open. -/
theorem Opening.store_healthy_iff {key : SessionKey} (ho : s.Opening key) (hl : s.Linked)
    (st : ShellStatus) : (s.store key st).Healthy ↔ st = .opened := by
  have hown : (key,s.count) ∈ (s.store key st).table.entries := OrderedMap.mem_put.2 (.inl ⟨rfl,rfl⟩)
  have hself : (s.store key st).status s.count = st := Function.update_self ..
  have hother : ∀ i, i ≠ s.count → (s.store key st).status i = s.status i := fun i hi =>
    Function.update_of_ne hi ..
  constructor
  · intro hh
    rw [← hself]
    exact hh.stored_open key s.count hown
  · rintro rfl
    refine ⟨fun k i h => ?_,fun i hi => ?_⟩
    · rcases OrderedMap.mem_put.1 h with ⟨_,rfl⟩ | ⟨hk,h₀⟩
      · exact hself
      · have hlt := hl.stored k i h₀
        rw [hother i (by omega)]
        exact ho.others_open k i h₀ hk
    · by_cases hc : i = s.count
      · exact ⟨key,hc ▸ hown⟩
      · rw [hother i hc] at hi
        obtain ⟨k,hk,h⟩ := ho.open_stored i hi
        exact ⟨k,OrderedMap.mem_put.2 (.inr ⟨hk,h⟩)⟩

theorem Opening.store_exit {key : SessionKey} (ho : s.Opening key) (hl : s.Linked)
    (st : ShellStatus) : ((s.store key st).exit s.count).Opening key := by
  have hother : ∀ i, i ≠ s.count → ((s.store key st).exit s.count).status i = s.status i := by
    intro i hi
    change Function.update (Function.update s.status s.count st) s.count .exited i = s.status i
    rw [Function.update_of_ne hi,Function.update_of_ne hi]
  refine ⟨fun k i h hk => ?_,fun i h => ?_,fun i hi => ?_⟩
  · rcases OrderedMap.mem_put.1 h with ⟨hkey,_⟩ | ⟨_,h₀⟩
    · exact absurd hkey hk
    · have hlt := hl.stored k i h₀
      rw [hother i (by omega)]
      exact ho.others_open k i h₀ hk
  · rcases OrderedMap.mem_put.1 h with ⟨_,rfl⟩ | ⟨hk,_⟩
    · exact Function.update_self ..
    · exact absurd rfl hk
  · by_cases hc : i = s.count
    · rw [hc] at hi
      have hex : ((s.store key st).exit s.count).status s.count = .exited := Function.update_self ..
      rw [hex] at hi
      cases hi
    · rw [hother i hc] at hi
      obtain ⟨k,hk,h⟩ := ho.open_stored i hi
      exact ⟨k,hk,OrderedMap.mem_put.2 (.inr ⟨hk,h⟩)⟩

/-- Exiting the dead shell of the key once more changes nothing. -/
theorem Opening.exit_eq {key : SessionKey} (ho : s.Opening key) {shell : ℕ}
    (hg : s.table.get key = some shell) : s.exit shell = s := by
  have hst := ho.own_exited shell (OrderedMap.get_eq_some_iff.1 hg)
  unfold Sessions.exit
  rw [Function.update_eq_self_iff.2 hst.symm]

theorem store_exit_get (s : Sessions) (key : SessionKey) (st : ShellStatus) :
    ((s.store key st).exit s.count).table.get key = some s.count :=
  OrderedMap.get_eq_some_iff.2 (OrderedMap.mem_put.2 (.inl ⟨rfl,rfl⟩))

/-- The loop that opens a shell keeps the bookkeeping, and when it succeeds it has just stored an
open shell. -/
theorem Linked.openShell {key : SessionKey} {node : Option Text} {attempts : List OpenAttempt}
    {s' : Sessions} {r : Except BashError Unit} (hl : s.Linked)
    (h : openShell key node attempts s = some (s',r)) :
    s'.Linked ∧ (r = .ok () → ∃ s₀ : Sessions, s₀.Linked ∧ s' = s₀.store key .opened) := by
  induction attempts generalizing s with
  | nil => cases h
  | cons a rest ih =>
    obtain ⟨outcome,late⟩ := a
    cases outcome with
    | succeeds =>
      cases h
      exact ⟨hl.store key .opened,fun _ => ⟨s,hl,rfl⟩⟩
    | enterFails ioError =>
      rw [Sessions.openShell] at h
      cases ioError with
      | true =>
        cases h
        exact ⟨hl,fun hr => by cases hr⟩
      | false =>
        cases hg : s.table.get key with
        | none =>
          simp only [hg] at h
          cases h
          exact ⟨hl,fun hr => by cases hr⟩
        | some shell =>
          have hexit := hl.exit (hl.stored key shell (OrderedMap.get_eq_some_iff.1 hg))
          simp only [hg] at h
          cases late with
          | true =>
            cases h
            exact ⟨hexit,fun hr => by cases hr⟩
          | false => exact ih hexit h
    | echoFails ioError opened =>
      have hexit : ∀ st, ((s.store key st).exit s.count).Linked := fun st =>
        (hl.store key st).exit (Nat.lt_succ_self s.count)
      cases ioError with
      | true =>
        cases h
        exact ⟨hl.store key _,fun hr => by cases hr⟩
      | false =>
        cases late with
        | true =>
          cases h
          exact ⟨hexit _,fun hr => by cases hr⟩
        | false => exact ih (hexit _) h

/-- The loop that opens a shell ends with a healthy table exactly after clean attempts, and
always when it succeeds. -/
theorem openShell_spec {key : SessionKey} {node : Option Text} {attempts : List OpenAttempt}
    {s' : Sessions} {r : Except BashError Unit} (hl : s.Linked) (ho : s.Opening key)
    (h : openShell key node attempts s = some (s',r)) :
    (s'.Healthy ↔ cleanOpening node (s.table.get key).isSome attempts = true) ∧
      (r = .ok () → s'.Healthy) := by
  induction attempts generalizing s with
  | nil => cases h
  | cons a rest ih =>
    obtain ⟨outcome,late⟩ := a
    cases outcome with
    | succeeds =>
      cases h
      have hh := (ho.store_healthy_iff hl .opened).2 rfl
      exact ⟨by simp [hh,cleanOpening],fun _ => hh⟩
    | enterFails ioError =>
      cases ioError with
      | true =>
        cases h
        refine ⟨?_,fun hr => by cases hr⟩
        rw [ho.healthy_iff,cleanOpening]
        simp
      | false =>
        rw [openShell] at h
        cases hg : s.table.get key with
        | none =>
          simp only [hg] at h
          cases h
          exact ⟨by simp [ho.healthy_iff,hg,cleanOpening],fun hr => by cases hr⟩
        | some shell =>
          simp only [hg,ho.exit_eq hg] at h
          cases late with
          | true =>
            cases h
            exact ⟨by simp [ho.healthy_iff,hg,cleanOpening],fun hr => by cases hr⟩
          | false =>
            obtain ⟨hh',hok⟩ := ih hl ho h
            rw [hg] at hh'
            exact ⟨by simpa [cleanOpening] using hh',hok⟩
    | echoFails ioError opened =>
      cases ioError with
      | true =>
        cases h
        refine ⟨?_,fun hr => by cases hr⟩
        rw [ho.store_healthy_iff hl,cleanOpening]
        cases hopen : (opened || node.isSome) <;> simp [hopen]
      | false =>
        have hexit : ∀ st, ((s.store key st).exit s.count).Linked := fun st =>
          (hl.store key st).exit (Nat.lt_succ_self s.count)
        cases late with
        | true =>
          cases h
          refine ⟨?_,fun hr => by cases hr⟩
          rw [(ho.store_exit hl _).healthy_iff,store_exit_get]
          simp [cleanOpening]
        | false =>
          obtain ⟨hh',hok⟩ := ih (hexit _) (ho.store_exit hl _) h
          rw [store_exit_get] at hh'
          exact ⟨by simpa [cleanOpening] using hh',hok⟩

/-- What a call of `bash` can do: return the shell it finds, fail before it opens one, end as the
loop that opens one ended, or sweep the table after that loop. -/
theorem bash_cases {thread : Text} {node : Option Text} {input : BashInput} {s' : Sessions}
    {r : SessionResult} (h : s.bash thread node input = some (s',r)) :
    (∃ shell, s.table.get (thread,nodeText node) = some shell ∧ s' = s ∧ r = .returned shell) ∨
    (s.table.get (thread,nodeText node) = none ∧
      ∃ e, (if node.isSome then input.containerError else none) = some e ∧ s' = s ∧
        r = .raised e) ∨
    (s.table.get (thread,nodeText node) = none ∧
      (if node.isSome then input.containerError else none) = none ∧
      ∃ s₁ r₁, openShell (thread,nodeText node) node input.attempts s = some (s₁,r₁) ∧
        ((s' = s₁ ∧ ∃ e, r = .raised e) ∨
          (r₁ = .ok () ∧
            (s' = s₁.closeAll fun key => !(thread :: input.otherThreads).contains key.1) ∧
            ∀ shell, r = .returned shell →
              s'.table.get (thread,nodeText node) = some shell))) := by
  unfold bash at h
  cases hg : s.table.get (thread,nodeText node) with
  | some shell =>
    simp only [hg] at h
    cases h
    exact .inl ⟨shell,rfl,rfl,rfl⟩
  | none =>
    simp only [hg] at h
    cases hc : (if node.isSome then input.containerError else none) with
    | some e =>
      simp only [hc] at h
      cases h
      exact .inr (.inl ⟨rfl,e,rfl,rfl,rfl⟩)
    | none =>
      simp only [hc] at h
      refine .inr (.inr ⟨rfl,rfl,?_⟩)
      split at h
      · cases h
      · next s₁ e hop =>
        cases h
        exact ⟨_,_,hop,.inl ⟨rfl,e,rfl⟩⟩
      · next s₁ hop =>
        refine ⟨s₁,_,hop,?_⟩
        split at h
        · next e _ =>
          cases h
          exact .inl ⟨rfl,e,rfl⟩
        · split at h
          · cases h
            refine .inr ⟨rfl,rfl,?_⟩
            intro i hi
            cases hi
          · next shell hget =>
            cases h
            refine .inr ⟨rfl,rfl,?_⟩
            intro i hi
            cases hi
            exact hget

/-- `bash` keeps the bookkeeping and returns the shell that is stored. -/
theorem Linked.bash {s' : Sessions} {thread : Text} {node : Option Text} {input : BashInput} {r : SessionResult}
    (hl : s.Linked) (h : s.bash thread node input = some (s',r)) :
    s'.Linked ∧ ∀ shell, r = .returned shell →
      ((thread,nodeText node),shell) ∈ s'.table.entries := by
  rcases bash_cases h with ⟨shell,hg,rfl,rfl⟩ | ⟨-,e,-,rfl,rfl⟩ | ⟨-,-,s₁,r₁,hop,hend⟩
  · refine ⟨hl,?_⟩
    intro i hi
    cases hi
    exact OrderedMap.get_eq_some_iff.1 hg
  · refine ⟨hl,?_⟩
    intro i hi
    cases hi
  · have hl₁ := (hl.openShell hop).1
    rcases hend with ⟨rfl,e,rfl⟩ | ⟨-,rfl,hget⟩
    · refine ⟨hl₁,?_⟩
      intro i hi
      cases hi
    · refine ⟨hl₁.closeAll _,?_⟩
      intro i hi
      exact OrderedMap.get_eq_some_iff.1 (hget i hi)

/-- A call of `Cluster.bash` in a healthy state. -/
theorem bash_healthy_iff {thread : Text} {node : Option Text} {input : BashInput} {s' : Sessions}
    {r : SessionResult} (hl : s.Linked) (hh : s.Healthy)
    (h : s.bash thread node input = some (s',r)) :
    s'.Healthy ↔ (SessionCall.bash thread node input).Clean s := by
  rcases bash_cases h with ⟨shell,hg,rfl,rfl⟩ | ⟨hg,e,hc,rfl,rfl⟩ | ⟨hg,hc,s₁,r₁,hop,hend⟩
  · simp [SessionCall.Clean,hh,hg]
  · simp [SessionCall.Clean,hh,hc]
  · obtain ⟨hh₁,hok₁⟩ := openShell_spec hl (hh.opening hg) hop
    have hclean : (SessionCall.bash thread node input).Clean s ↔
        cleanOpening node false input.attempts = true := by
      simp [SessionCall.Clean,hg,hc]
    rw [hg] at hh₁
    rw [hclean]
    rcases hend with ⟨rfl,e,rfl⟩ | ⟨hr,rfl,-⟩
    · exact hh₁
    · have hok := hok₁ hr
      have hswept := hok.closeAll (hl.openShell hop).1
        fun key => !(thread :: input.otherThreads).contains key.1
      exact ⟨fun _ => hh₁.1 hok,fun _ => hswept⟩

theorem Linked.step (hl : s.Linked) {c : SessionCall} {s' : Sessions} {r : SessionResult}
    (h : s.step c = some (s',r)) : s'.Linked := by
  cases c with
  | bash thread node input => exact (hl.bash h).1
  | closeBash thread node =>
    cases h
    exact hl.close _
  | closeBashes name =>
    cases h
    exact hl.closeAll _
  | downSweep bash =>
    cases h
    exact hl.downSweep bash _

/-- What one call does to a healthy table. -/
theorem step_healthy_iff {c : SessionCall} {s' : Sessions} {r : SessionResult} (hl : s.Linked)
    (hh : s.Healthy) (h : s.step c = some (s',r)) : s'.Healthy ↔ c.Clean s := by
  cases c with
  | bash thread node input => exact bash_healthy_iff hl hh h
  | closeBash thread node =>
    cases h
    simp [SessionCall.Clean,hh.close hl]
  | closeBashes name =>
    cases h
    simp [SessionCall.Clean,hh.closeAll hl]
  | downSweep bash =>
    cases h
    simp [SessionCall.Clean,hh.downSweep hl]

theorem step_returned_open {c : SessionCall} {s' : Sessions} {shell : ℕ} (hl : s.Linked)
    (hh : s.Healthy) (hc : c.Clean s) (h : s.step c = some (s',.returned shell)) :
    s'.status shell = .opened := by
  have hh' := (step_healthy_iff hl hh h).2 hc
  cases c with
  | bash thread node input => exact hh'.stored_open _ shell ((hl.bash h).2 shell rfl)
  | closeBash thread node => cases h
  | closeBashes name => cases h
  | downSweep bash => cases h

/-- A call whose opening, if there is one, is clean. -/
def CleanStep (s s' : Sessions) : Prop := ∃ c r, c.Clean s ∧ s.step c = some (s',r)

theorem reachable_invariant (h : Relation.ReflTransGen CleanStep empty s) :
    s.Linked ∧ s.Healthy := by
  induction h with
  | refl => exact ⟨empty_linked,empty_healthy⟩
  | tail _ hstep ih =>
    obtain ⟨c,r,hc,hs⟩ := hstep
    exact ⟨ih.1.step hs,(step_healthy_iff ih.1 ih.2 hs).2 hc⟩

/-- In every run of clean calls every stored shell is open, every open shell is stored and
`bash` returns open shells only; a call that is not clean breaks this at once. -/
theorem sessions_healthy_of_clean (h : Relation.ReflTransGen CleanStep empty s) :
    s.Healthy ∧
    (∀ c s' shell, c.Clean s → s.step c = some (s',.returned shell) →
      s'.status shell = .opened) ∧
    (∀ c s' r, s.step c = some (s',r) → (s'.Healthy ↔ c.Clean s)) := by
  obtain ⟨hl,hh⟩ := reachable_invariant h
  refine ⟨hh,?_,?_⟩
  · intro c s' shell hc hs
    exact step_returned_open hl hh hc hs
  · intro c s' r hs
    exact step_healthy_iff hl hh hs

/-- One attempt fails, the next one succeeds. -/
def secondAttemptOpens : BashInput :=
  ⟨none,[⟨.echoFails false true,false⟩,⟨.succeeds,false⟩],none,[]⟩

theorem sessions_healthy_after_retry :
    ∃ s : Sessions, Relation.ReflTransGen CleanStep empty s ∧ s.table.keys.length = 1 ∧
      s.Healthy := by
  have hrun : ∃ s : Sessions, Relation.ReflTransGen CleanStep empty s ∧ s.table.keys.length = 1 := by
    refine ⟨_,.single ⟨.bash "MainThread".toList (some "clickhouse1".toList) secondAttemptOpens,_,
      fun _ _ => rfl,rfl⟩,?_⟩
    rfl
  obtain ⟨s,hs,hlen⟩ := hrun
  exact ⟨s,hs,hlen,(sessions_healthy_of_clean hs).1⟩

/-- The command `echo 1` fails and the timeout is exceeded. -/
def openingTimesOut : BashInput := ⟨none,[⟨.echoFails false true,true⟩],none,[]⟩

/-- After the timeout the exited shell stays in the table, and the next call returns it. -/
theorem bash_returns_exited_shell :
    ∃ s s' : Sessions,
      empty.step (.bash "MainThread".toList (some "clickhouse1".toList) openingTimesOut) =
        some (s,.raised .runtimeError) ∧ ¬ s.Healthy ∧
      s.step (.bash "MainThread".toList (some "clickhouse1".toList) secondAttemptOpens) =
        some (s',.returned 0) ∧ s'.status 0 = .exited := by
  refine ⟨_,_,rfl,?_,rfl,rfl⟩
  intro hh
  have hopen := hh.stored_open ("MainThread".toList,"clickhouse1".toList) 0 (by decide +kernel)
  exact absurd hopen (by decide +kernel)

end Sessions

end ClickHouseRegression.Cluster
