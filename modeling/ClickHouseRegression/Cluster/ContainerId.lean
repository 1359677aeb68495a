import ClickHouseRegression.Text
import ClickHouseRegression.Loop.Countdown

/-! `Cluster.node_container_id`: asking for the container of a node until the timeout. The outcomes
of the attempts and the readings of the clock are inputs. The time that has passed since the start is
taken off again at every attempt. -/
namespace ClickHouseRegression.Cluster
open Loop

/-- What an attempt meets: the reply to the command, or an exception. After an `ExpectTimeoutError`
the control shell is closed, which may raise too. -/
inductive ContainerOutcome
  | reply (exitcode : ℤ) (output : Text)
  | ioError
  | expectTimeout (closeRaises : Bool)
  | otherError
  deriving DecidableEq

inductive ContainerEvent
  | command (text : Text) (timeout : ℚ)
  | closeControlShell
  | sleep

inductive ContainerResult
  | containerId (id : Text)
  | runtimeError (message : Text)
  | ioError
  | closeError
  | otherError
  deriving DecidableEq

/-- The body of the `try` statement with its handlers; `none` goes on to the time. -/
def ContainerOutcome.attempt : ContainerOutcome → List ContainerEvent × Option ContainerResult
  | reply exitcode output =>
    let containerId := output.strip
    if exitcode = 0 ∧ 1 < containerId.length then ([],some (.containerId containerId)) else ([],none)
  | ioError => ([],some .ioError)
  | expectTimeout true => ([.closeControlShell],some .closeError)
  | expectTimeout false => ([.closeControlShell],none)
  | otherError => ([],some .otherError)

/-- `f"failed to get docker container id for the {node} service"`. -/
def containerIdMessage (node : Text) : Text :=
  "failed to get docker container id for the ".toList ++ node ++ " service".toList

section
variable (dockerCompose node : Text) (timeStart : ℚ) (outcome : ℕ → ContainerOutcome)
  (now : ℕ → ℚ)

/-- The loop from attempt `i` on: the events, the number of the last attempt and the result. There
is no result while the loop goes on. -/
def containerIdFrom : ℕ → ℕ → ℚ → List ContainerEvent × Option (ℕ × ContainerResult)
  | 0,_,_ => ([],none)
  | fuel+1,i,timeout =>
    let command := .command (dockerCompose ++ " ps -q ".toList ++ node) timeout
    match (outcome i).attempt with
    | (events,some r) => (command :: events,some (i,r))
    | (events,none) =>
      let remaining := timeout-(now i-timeStart)
      if remaining ≤ 0 then (command :: events,some (i,.runtimeError (containerIdMessage node)))
      else
        let rest := containerIdFrom fuel (i+1) remaining
        (command :: (events ++ .sleep :: rest.1),rest.2)

def nodeContainerId (timeout : ℚ) (fuel : ℕ) : List ContainerEvent × Option (ℕ × ContainerResult) :=
  containerIdFrom dockerCompose node timeStart outcome now fuel 0 timeout

/-- The loop gives up only after the timeout, and it ends if every attempt takes a second. -/
structure Patient (timeout : ℚ) : Prop where
  not_early : ∀ fuel k message,
    (nodeContainerId dockerCompose node timeStart outcome now timeout fuel).2 =
      some (k,.runtimeError message) → timeout ≤ now k-timeStart
  ends : timeStart+1 ≤ now 0 → (∀ k, now k+1 ≤ now (k+1)) →
    ∃ fuel result, (nodeContainerId dockerCompose node timeStart outcome now timeout fuel).2 =
      some result

/-- The loop is a countdown in which every attempt costs the whole time since the start. -/
theorem containerIdFrom_eq_countdown (fuel i : ℕ) (timeout : ℚ) :
    (containerIdFrom dockerCompose node timeStart outcome now fuel i timeout).2 =
      countdown (fun i => (outcome i).attempt.2) (fun i => now i-timeStart)
        (.runtimeError (containerIdMessage node)) fuel i timeout := by
  induction fuel generalizing i timeout with
  | zero => rfl
  | succ fuel ih =>
    rw [containerIdFrom,countdown]
    rcases (outcome i).attempt with ⟨events,_ | r⟩
    · simp only
      split_ifs with h
      · rfl
      · exact ih (i+1) _
    · rfl

end

theorem attempt_ne_runtimeError (outcome : ContainerOutcome) (message : Text) :
    outcome.attempt.2 ≠ some (.runtimeError message) := by
  cases outcome with
  | reply exitcode output =>
    unfold ContainerOutcome.attempt
    simp only
    split_ifs <;> simp
  | ioError => simp [ContainerOutcome.attempt]
  | expectTimeout closeRaises => cases closeRaises <;> simp [ContainerOutcome.attempt]
  | otherError => simp [ContainerOutcome.attempt]

section
variable {dockerCompose node : Text} {timeStart : ℚ} {outcome : ℕ → ContainerOutcome}
  {now : ℕ → ℚ} {timeout : ℚ}

/-- The loop gives up at the first attempt where the times add up to the timeout. -/
theorem nodeContainerId_runtimeError {fuel k : ℕ} {message : Text} :
    (nodeContainerId dockerCompose node timeStart outcome now timeout fuel).2 =
        some (k,.runtimeError message) ↔
      k < fuel ∧ (∀ i < k, (outcome i).attempt.2 = none ∧
        spent (fun i => now i-timeStart) (i+1) < timeout) ∧ (outcome k).attempt.2 = none ∧
        timeout ≤ spent (fun i => now i-timeStart) (k+1) ∧ message = containerIdMessage node := by
  rw [nodeContainerId,containerIdFrom_eq_countdown,countdown_eq_some]
  constructor
  · rintro ⟨hk,hend⟩
    refine ⟨hk,hend.before,?_⟩
    rcases hend.last with h | ⟨hnone,hspent,hmessage⟩
    · exact absurd h (attempt_ne_runtimeError _ _)
    · exact ⟨hnone,hspent,ContainerResult.runtimeError.inj hmessage⟩
  · rintro ⟨hk,hbefore,hnone,hspent,hmessage⟩
    exact ⟨hk,hbefore,.inr ⟨hnone,hspent,by rw [hmessage]⟩⟩

/-- When every attempt takes a second, the times since the start add up to any number. -/
theorem le_spent (hfirst : timeStart+1 ≤ now 0) (hnext : ∀ k, now k+1 ≤ now (k+1)) (k : ℕ) :
    (k : ℚ) ≤ spent (fun i => now i-timeStart) k := by
  have hone : ∀ k, timeStart+1 ≤ now k := by
    intro k
    induction k with
    | zero => exact hfirst
    | succ k ih => linarith [hnext k]
  induction k with
  | zero => simp [spent]
  | succ k ih =>
    rw [spent_succ]
    push_cast
    linarith [hone k]

theorem nodeContainerId_ends (hfirst : timeStart+1 ≤ now 0) (hnext : ∀ k, now k+1 ≤ now (k+1)) :
    ∃ fuel result, (nodeContainerId dockerCompose node timeStart outcome now timeout fuel).2 =
      some result := by
  simp only [nodeContainerId,containerIdFrom_eq_countdown]
  apply exists_countdown
  obtain ⟨k,hk⟩ := exists_nat_ge timeout
  refine ⟨k,.inr (hk.trans ?_)⟩
  have hspent := le_spent hfirst hnext (k+1)
  push_cast at hspent
  linarith

end

/-- For every outcomes of the attempts and every clock that does not go back: the loop is patient
exactly if the times since the start add up to less than the timeout as long as the last of them is
less. -/
theorem nodeContainerId_patient_iff (dockerCompose node : Text) (timeStart timeout : ℚ)
    (outcome : ℕ → ContainerOutcome) (now : ℕ → ℚ) (hclock : Monotone now) :
    Patient dockerCompose node timeStart outcome now timeout ↔
      ∀ k, (∀ i ≤ k, (outcome i).attempt.2 = none) → now k-timeStart < timeout →
        ∑ i ∈ Finset.range (k+1), (now i-timeStart) < timeout := by
  constructor
  · intro hpatient k hfail hlt
    by_contra hspent
    have hsome : ∃ j, j ≤ k ∧ timeout ≤ spent (fun i => now i-timeStart) (j+1) :=
      ⟨k,le_rfl,not_lt.1 hspent⟩
    classical
    -- the first attempt at which the loop gives up is not after attempt `k`
    obtain ⟨hle,hfirst⟩ := Nat.find_spec hsome
    have hbefore : ∀ i < Nat.find hsome, (outcome i).attempt.2 = none ∧
        spent (fun i => now i-timeStart) (i+1) < timeout := by
      intro i hi
      refine ⟨hfail i (by omega),not_le.1 ?_⟩
      intro h
      exact Nat.find_min hsome hi ⟨by omega,h⟩
    have hearly := hpatient.not_early _ _ _ (nodeContainerId_runtimeError.2
      ⟨Nat.lt_succ_self _,hbefore,hfail _ hle,hfirst,rfl⟩)
    have hmono := hclock hle
    linarith
  · intro hsum
    refine ⟨?_,nodeContainerId_ends⟩
    intro fuel k message h
    obtain ⟨-,hbefore,hnone,hspent,-⟩ := nodeContainerId_runtimeError.1 h
    by_contra hlt
    have hfail : ∀ i ≤ k, (outcome i).attempt.2 = none := by
      intro i hi
      rcases hi.lt_or_eq with hlt | rfl
      · exact (hbefore i hlt).1
      · exact hnone
    exact absurd (hsum k hfail (not_le.1 hlt)) (not_lt.2 hspent)

/-- The container is there at the second attempt. -/
def secondAttempt : ℕ → ContainerOutcome
  | 0 => .reply 1 []
  | _+1 => .reply 0 "0a1b\n".toList

theorem nodeContainerId_patient_secondAttempt :
    Monotone (fun i : ℕ => (i : ℚ)+1) ∧
      Patient "docker-compose".toList "clickhouse1".toList 0 secondAttempt (fun i => i+1) 300 := by
  have hclock : Monotone (fun i : ℕ => (i : ℚ)+1) := by
    intro i j h
    simpa using h
  refine ⟨hclock,(nodeContainerId_patient_iff _ _ _ _ _ _ hclock).2 ?_⟩
  intro k hfail _
  cases k with
  | zero => norm_num
  | succ k => exact absurd (hfail 1 (by omega)) (by decide +kernel)

/-- When every attempt fails and takes 100 seconds, the loop gives up after 200 of 300 seconds. -/
theorem nodeContainerId_early :
    (nodeContainerId "docker-compose".toList "clickhouse1".toList 0 (fun _ => .reply 1 [])
        (fun i => 100*(i+1)) 300 2).2 =
      some (1,.runtimeError
        "failed to get docker container id for the clickhouse1 service".toList) ∧
      ¬ Patient "docker-compose".toList "clickhouse1".toList 0 (fun _ => .reply 1 [])
        (fun i => 100*(i+1)) 300 := by
  have hraised : (nodeContainerId "docker-compose".toList "clickhouse1".toList 0
      (fun _ => .reply 1 []) (fun i => 100*(i+1)) 300 2).2 = some (1,.runtimeError
        "failed to get docker container id for the clickhouse1 service".toList) := by
    decide +kernel
  refine ⟨hraised,?_⟩
  intro hpatient
  have hearly := hpatient.not_early _ _ _ hraised
  norm_num at hearly

end ClickHouseRegression.Cluster
