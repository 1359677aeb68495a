import ClickHouseRegression.Loop.Cleanup

/-! `add_config` of the S3 suite: the config file is written on one node after the other and
removed from them in a `finally` block. -/
namespace ClickHouseRegression.Steps
open Cleanup

/-- What happens for one node, each time a place where the code can raise. -/
inductive ConfigAction
  | debugContent
  | openShell
  | expectPrompt
  | sendTail
  | expectHeader
  | expectNewline
  | writeConfig
  | removeConfig
  | grepPreprocessed
  | showPreprocessed
  | assertExitcode
  | closeTerminal
  | stopClickhouse
  | getLogSize
  | startClickhouse
  | openTerminal
  | sendTailFrom
  | expectReloaded
  | closeShell
  deriving DecidableEq

structure ConfigOptions where
  debug : Bool
  restart : Bool
  checkPreprocessed : Bool

/-- The shell that follows the log of the server. -/
def tailActions : List ConfigAction :=
  [.openShell,.expectPrompt,.sendTail,.expectHeader,.expectNewline]

/-- `check_preprocessed_config_is_updated`, whose loop runs the given number of times. -/
def checkPreprocessedConfigIsUpdated (o : ConfigOptions) (polls : ℕ) : List ConfigAction :=
  List.replicate polls .grepPreprocessed ++ (if o.debug then [.showPreprocessed] else []) ++
    [.assertExitcode]

def waitForConfigToBeLoaded (o : ConfigOptions) : List ConfigAction :=
  (if o.restart then [.closeTerminal,.stopClickhouse,.getLogSize,.startClickhouse,.openTerminal,
    .sendTailFrom] else []) ++ [.expectReloaded]

/-- The actions before the config is written. -/
def beforeWrite (o : ConfigOptions) : List ConfigAction :=
  (if o.debug then [.debugContent] else []) ++ tailActions

/-- The actions after the config is written. -/
def afterWrite (o : ConfigOptions) (polls : ℕ) : List ConfigAction :=
  (if o.checkPreprocessed then
    checkPreprocessedConfigIsUpdated o polls ++ waitForConfigToBeLoaded o else []) ++ [.closeShell]

def setUpActions (o : ConfigOptions) (polls : ℕ) : List ConfigAction :=
  beforeWrite o ++ .writeConfig :: afterWrite o polls

/-- The preprocessed config is checked here in any case. -/
def afterRemove (o : ConfigOptions) (polls : ℕ) : List ConfigAction :=
  checkPreprocessedConfigIsUpdated o polls ++ waitForConfigToBeLoaded o ++ [.closeShell]

def removeActions (o : ConfigOptions) (polls : ℕ) : List ConfigAction :=
  tailActions ++ .removeConfig :: afterRemove o polls

/-- The circumstances of a loop over the nodes: how often the check polls in each iteration, and
what raises. -/
structure Circumstances where
  polls : ℕ → ℕ
  fault : ℕ → ℕ → Fault

variable {ν : Type*}

def forNodes (actions : ℕ → List ConfigAction) (c : Circumstances) (nodes : List ν) :
    Outcome (ν × ConfigAction) :=
  forEach (fun i node => perform (c.fault i) ((actions (c.polls i)).map fun a => (node,a))) nodes

/-- `add_config`, with a body that may raise between the two loops. -/
def addConfig (o : ConfigOptions) (modify : Bool) (setUp removal : Circumstances)
    (bodyRaises : Bool) (nodes : List ν) : Outcome (ν × ConfigAction) :=
  ((forNodes (setUpActions o) setUp nodes).andThen ⟨[],bodyRaises⟩).tryFinally
    (if modify then .done else forNodes (removeActions o) removal nodes)

/-- The loop arrives at the effect of the action in the first iteration for the node. -/
def ArrivesFor [DecidableEq ν] (actions : ℕ → List ConfigAction) (c : Circumstances) (target : ℕ)
    (nodes : List ν) (node : ν) : Prop :=
  Arrives (fun i => (actions (c.polls i)).length) c.fault target (nodes.idxOf node)

/-- A loop over the nodes takes an action that occurs once in each iteration for a node exactly if
it arrives there in the first iteration for the node. -/
theorem mem_forNodes_iff [DecidableEq ν] {actions : ℕ → List ConfigAction} {c : Circumstances}
    {nodes : List ν} {node : ν} {a : ConfigAction} {before : List ConfigAction}
    {after : ℕ → List ConfigAction} (hactions : ∀ n, actions n = before ++ a :: after n)
    (hb : a ∉ before) (ha : ∀ n, a ∉ after n) :
    (node,a) ∈ (forNodes actions c nodes).events ↔
      node ∈ nodes ∧ ArrivesFor actions c before.length nodes node := by
  have hpair : ∀ as : List ConfigAction, a ∉ as → (node,a) ∉ as.map fun a => (node,a) := by
    intro as has hmem
    obtain ⟨b,hb,he⟩ := List.mem_map.1 hmem
    exact has ((Prod.mk.inj he).2 ▸ hb)
  apply mem_loop_iff
  · intro i y
    rw [List.length_map]
  · intro i j
    have h := getElem?_between (hpair before hb) (hpair _ (ha (c.polls i))) j
    rw [List.length_map] at h
    rw [hactions,List.map_append,List.map_cons]
    exact h
  · intro i y hy hmem
    obtain ⟨b,-,he⟩ := List.mem_map.1 hmem
    exact hy (Prod.mk.inj he).1

theorem forNodes_action {actions : ℕ → List ConfigAction} {c : Circumstances} {nodes : List ν}
    {node : ν} {a : ConfigAction} (h : (node,a) ∈ (forNodes actions c nodes).events) :
    ∃ n, a ∈ actions n := by
  obtain ⟨i,y,-,hmem,-⟩ := (mem_forEach _ _ _).1 h
  obtain ⟨b,hb,he⟩ := List.mem_map.1 (mem_of_mem_perform hmem)
  exact ⟨c.polls i,(Prod.mk.inj he).2 ▸ hb⟩

/-- Checking and waiting neither write nor remove the config. -/
theorem mem_check {o : ConfigOptions} {polls : ℕ} {a : ConfigAction}
    (h : a ∈ checkPreprocessedConfigIsUpdated o polls ++ waitForConfigToBeLoaded o) :
    a ≠ .writeConfig ∧ a ≠ .removeConfig := by
  have hif : ∀ (b : Bool) (as : List ConfigAction), a ∈ (if b then as else []) → a ∈ as := by
    intro b as ha
    cases b with
    | false => exact absurd ha List.not_mem_nil
    | true => exact ha
  rcases List.mem_append.1 h with h | h
  · rcases List.mem_append.1 h with h | h
    · rcases List.mem_append.1 h with h | h
      · obtain rfl := List.eq_of_mem_replicate h
        decide
      · obtain rfl := List.mem_singleton.1 (hif _ _ h)
        decide
    · obtain rfl := List.mem_singleton.1 h
      decide
  · rcases List.mem_append.1 h with h | h
    · have hall : ∀ b ∈ [ConfigAction.closeTerminal,.stopClickhouse,.getLogSize,.startClickhouse,
          .openTerminal,.sendTailFrom], b ≠ .writeConfig ∧ b ≠ .removeConfig := by decide
      exact hall a (hif _ _ h)
    · obtain rfl := List.mem_singleton.1 h
      decide

theorem mem_beforeWrite {o : ConfigOptions} {a : ConfigAction} (h : a ∈ beforeWrite o) :
    a ≠ .writeConfig ∧ a ≠ .removeConfig := by
  have hall : ∀ b ∈ .debugContent :: tailActions, b ≠ .writeConfig ∧ b ≠ .removeConfig := by decide
  apply hall
  rcases List.mem_append.1 h with h | h
  · cases hd : o.debug with
    | false =>
      rw [hd] at h
      exact absurd h List.not_mem_nil
    | true =>
      rw [hd] at h
      exact List.mem_cons.2 (.inl (List.mem_singleton.1 h))
  · exact List.mem_cons_of_mem _ h

theorem mem_afterRemove {o : ConfigOptions} {polls : ℕ} {a : ConfigAction}
    (h : a ∈ afterRemove o polls) : a ≠ .writeConfig ∧ a ≠ .removeConfig := by
  rcases List.mem_append.1 h with h | h
  · exact mem_check h
  · obtain rfl := List.mem_singleton.1 h
    decide

theorem mem_afterWrite {o : ConfigOptions} {polls : ℕ} {a : ConfigAction}
    (h : a ∈ afterWrite o polls) : a ≠ .writeConfig ∧ a ≠ .removeConfig := by
  rw [afterWrite] at h
  cases hc : o.checkPreprocessed with
  | false =>
    rw [hc] at h
    obtain rfl := List.mem_singleton.1 h
    decide
  | true =>
    rw [hc] at h
    exact mem_afterRemove h

theorem write_not_mem_removeActions (o : ConfigOptions) (polls : ℕ) :
    .writeConfig ∉ removeActions o polls := by
  intro h
  rcases List.mem_append.1 h with h | h
  · exact absurd h (by decide)
  · rcases List.mem_cons.1 h with h | h
    · exact absurd h (by decide)
    · exact (mem_afterRemove h).1 rfl

theorem remove_not_mem_setUpActions (o : ConfigOptions) (polls : ℕ) :
    .removeConfig ∉ setUpActions o polls := by
  intro h
  rcases List.mem_append.1 h with h | h
  · exact (mem_beforeWrite h).2 rfl
  · rcases List.mem_cons.1 h with h | h
    · exact absurd h (by decide)
    · exact (mem_afterWrite h).2 rfl

section
variable (o : ConfigOptions) (setUp removal : Circumstances) (bodyRaises : Bool) (nodes : List ν)

/-- The events of both loops; the body has none. -/
theorem mem_addConfig (e : ν × ConfigAction) :
    e ∈ (addConfig o false setUp removal bodyRaises nodes).events ↔
      e ∈ (forNodes (setUpActions o) setUp nodes).events ∨
        e ∈ (forNodes (removeActions o) removal nodes).events := by
  rw [addConfig,Outcome.tryFinally,List.mem_append,Outcome.mem_andThen]
  simp

variable [DecidableEq ν]

theorem configWritten_iff (node : ν) :
    (node,.writeConfig) ∈ (addConfig o false setUp removal bodyRaises nodes).events ↔
      node ∈ nodes ∧ ArrivesFor (setUpActions o) setUp (beforeWrite o).length nodes node := by
  have hwrite : (node,.writeConfig) ∈ (forNodes (setUpActions o) setUp nodes).events ↔
      node ∈ nodes ∧ ArrivesFor (setUpActions o) setUp (beforeWrite o).length nodes node :=
    mem_forNodes_iff (fun _ => rfl) (fun h => (mem_beforeWrite h).1 rfl)
      (fun _ h => (mem_afterWrite h).1 rfl)
  rw [mem_addConfig,hwrite]
  constructor
  · rintro (h | h)
    · exact h
    · obtain ⟨polls,hmem⟩ := forNodes_action h
      exact absurd hmem (write_not_mem_removeActions o polls)
  · exact .inl

theorem configRemoved_iff (node : ν) :
    (node,.removeConfig) ∈ (addConfig o false setUp removal bodyRaises nodes).events ↔
      node ∈ nodes ∧ ArrivesFor (removeActions o) removal tailActions.length nodes node := by
  have hremove : (node,.removeConfig) ∈ (forNodes (removeActions o) removal nodes).events ↔
      node ∈ nodes ∧ ArrivesFor (removeActions o) removal tailActions.length nodes node :=
    mem_forNodes_iff (fun _ => rfl) (by decide) (fun _ h => (mem_afterRemove h).2 rfl)
  rw [mem_addConfig,hremove]
  constructor
  · rintro (h | h)
    · obtain ⟨polls,hmem⟩ := forNodes_action h
      exact absurd hmem (remove_not_mem_setUpActions o polls)
    · exact h
  · exact .inr

/-- The config is removed from every node on which it was written if and only if for every node
the removal arrives at `rm` wherever the set-up arrives at the writing. -/
theorem addConfig_removes_iff :
    (∀ node, (node,.writeConfig) ∈ (addConfig o false setUp removal bodyRaises nodes).events →
        (node,.removeConfig) ∈ (addConfig o false setUp removal bodyRaises nodes).events) ↔
      ∀ node ∈ nodes, ArrivesFor (setUpActions o) setUp (beforeWrite o).length nodes node →
        ArrivesFor (removeActions o) removal tailActions.length nodes node := by
  simp only [configWritten_iff,configRemoved_iff]
  constructor
  · intro h node hnode hwrite
    exact (h node ⟨hnode,hwrite⟩).2
  · rintro h node ⟨hnode,hwrite⟩
    exact ⟨hnode,h node hnode hwrite⟩

end

end ClickHouseRegression.Steps
