import ClickHouseRegression.Cluster.SessionInvariant

/-! Which sessions are closed: `Node.close_bashes` goes by the end of the node's text, the sweep of
`Cluster.bash` by the live threads, and `Cluster.close_bash` by the key. -/
namespace ClickHouseRegression.Cluster

namespace Sessions

/-- From one state to another exactly the selected sessions are exited and removed. -/
structure ClosesExactly (selected : SessionKey → Prop) (s s' : Sessions) : Prop where
  removed : ∀ k i, (k,i) ∈ s'.table.entries ↔ (k,i) ∈ s.table.entries ∧ ¬ selected k
  exited : ∀ k i, (k,i) ∈ s.table.entries → selected k → s'.status i = .exited
  kept : ∀ i, (∀ k, (k,i) ∈ s.table.entries → ¬ selected k) → s'.status i = s.status i

variable {s s' s'' : Sessions} {selected selected' : SessionKey → Prop}

theorem ClosesExactly.refl (h : ∀ k i, (k,i) ∈ s.table.entries → ¬ selected k) :
    s.ClosesExactly selected s := by
  refine ⟨?_,?_,fun _ _ => rfl⟩
  · intro k i
    exact ⟨fun hk => ⟨hk,h k i hk⟩,And.left⟩
  · intro k i hk hsel
    exact absurd hsel (h k i hk)

/-- One closing after another. -/
theorem ClosesExactly.trans (h : s.ClosesExactly selected s')
    (h' : s'.ClosesExactly selected' s'') :
    s.ClosesExactly (fun k => selected k ∨ selected' k) s'' := by
  refine ⟨?_,?_,?_⟩
  · intro k i
    rw [h'.removed,h.removed,not_or,and_assoc]
  · intro k i hk hsel
    by_cases hlater : ∃ k', (k',i) ∈ s'.table.entries ∧ selected' k'
    · obtain ⟨k',hk',hsel'⟩ := hlater
      exact h'.exited k' i hk' hsel'
    · rw [h'.kept i fun k' hk' hs' => hlater ⟨k',hk',hs'⟩]
      apply h.exited k i hk
      by_contra hs
      exact hlater ⟨k,(h.removed k i).2 ⟨hk,hs⟩,hsel.resolve_left hs⟩
  · intro i hnone
    have hfirst : ∀ k, (k,i) ∈ s.table.entries → ¬ selected k := by
      intro k hk hs
      exact hnone k hk (.inl hs)
    have hsecond : ∀ k, (k,i) ∈ s'.table.entries → ¬ selected' k := by
      intro k hk hs
      exact hnone k ((h.removed k i).1 hk).1 (.inr hs)
    rw [h'.kept i hsecond,h.kept i hfirst]

/-- Only the keys of the table matter. -/
theorem ClosesExactly.congr (h : s.ClosesExactly selected s')
    (hsel : ∀ k i, (k,i) ∈ s.table.entries → (selected k ↔ selected' k)) :
    s.ClosesExactly selected' s' := by
  refine ⟨?_,?_,?_⟩
  · intro k i
    rw [h.removed]
    exact and_congr_right fun hk => not_congr (hsel k i hk)
  · intro k i hk hs
    exact h.exited k i hk ((hsel k i hk).2 hs)
  · intro i hnone
    refine h.kept i ?_
    intro k hk hs
    exact hnone k hk ((hsel k i hk).1 hs)

/-- `close_bash` closes the session of its key. -/
theorem close_closesExactly (s : Sessions) (key : SessionKey) :
    s.ClosesExactly (· = key) (s.close key) := by
  unfold Sessions.close
  cases hg : s.table.get key with
  | none =>
    refine ClosesExactly.refl ?_
    rintro k i hk rfl
    exact OrderedMap.get_eq_none_iff.1 hg i hk
  | some shell =>
    have hkey := OrderedMap.get_eq_some_iff.1 hg
    refine ⟨?_,?_,?_⟩
    · intro k i
      exact OrderedMap.mem_remove.trans and_comm
    · rintro k i hk rfl
      rw [OrderedMap.value_unique hk hkey]
      exact Function.update_self ..
    · intro i hnone
      have hne : i ≠ shell := by
        rintro rfl
        exact hnone key hkey rfl
      exact Function.update_of_ne hne ..

/-- Closing the keys of a list one by one. -/
theorem foldl_close_closesExactly (s : Sessions) (keys : List SessionKey) :
    s.ClosesExactly (· ∈ keys) (keys.foldl close s) := by
  induction keys generalizing s with
  | nil => exact ClosesExactly.refl (by simp)
  | cons key keys ih =>
    refine ((close_closesExactly s key).trans (ih (s.close key))).congr ?_
    intro k i _
    exact List.mem_cons.symm

/-- A loop over a copy of the keys closes exactly those that pass its test. -/
theorem closeAll_closesExactly (s : Sessions) (test : SessionKey → Bool) :
    s.ClosesExactly (test · = true) (s.closeAll test) := by
  refine (foldl_close_closesExactly s _).congr ?_
  intro k i hk
  rw [List.mem_filter]
  exact and_iff_right (OrderedMap.mem_keys hk)

/-- A session that is not selected keeps its shell as it was, since no shell has two keys. -/
theorem ClosesExactly.status_eq (h : s.ClosesExactly selected s') (hl : s.Linked) {k : SessionKey}
    {i : ℕ} (hk : (k,i) ∈ s.table.entries) (hsel : ¬ selected k) : s'.status i = s.status i := by
  refine h.kept i ?_
  intro k' hk' hsel'
  rw [hl.unique k' k i hk' hk] at hsel'
  exact hsel hsel'

/-- Whether the thread of a key is not alive. -/
def Stale (thread : Text) (input : BashInput) (key : SessionKey) : Prop :=
  key.1 ∉ thread :: input.otherThreads

/-- The sweep after a shell was opened: it closes the stale sessions, and not the one that is
returned. -/
structure SweepExact (s : Sessions) (thread : Text) (node : Option Text) (input : BashInput) :
    Prop where
  swept : ∀ s₁, s.table.get (thread,nodeText node) = none →
    (if node.isSome then input.containerError else none) = none →
    openShell (thread,nodeText node) node input.attempts s = some (s₁,.ok ()) →
    (if node.isNone then input.exportError else none) = none →
    ∃ s' shell, s.bash thread node input = some (s',.returned shell) ∧
      s₁.ClosesExactly (Stale thread input) s' ∧
      ((thread,nodeText node),shell) ∈ s'.table.entries ∧ s'.status shell = .opened
  untouched : ∀ shell, s.table.get (thread,nodeText node) = some shell →
    s.bash thread node input = some (s,.returned shell)

theorem sweepExact (hl : s.Linked) (thread : Text) (node : Option Text) (input : BashInput) :
    s.SweepExact thread node input := by
  refine ⟨?_,?_⟩
  · intro s₁ hg hc hop hexport
    obtain ⟨hl₁,hok⟩ := hl.openShell hop
    obtain ⟨s₀,hl₀,rfl⟩ := hok rfl
    have hexact : (s₀.store (thread,nodeText node) .opened).ClosesExactly (Stale thread input)
        ((s₀.store (thread,nodeText node) .opened).closeAll
          fun key => !(thread :: input.otherThreads).contains key.1) := by
      refine (closeAll_closesExactly _ _).congr ?_
      intro k i _
      simp [Stale]
    have hown : ((thread,nodeText node),s₀.count) ∈
        (s₀.store (thread,nodeText node) .opened).table.entries :=
      OrderedMap.mem_put.2 (.inl ⟨rfl,rfl⟩)
    have halive : ¬ Stale thread input (thread,nodeText node) := by simp [Stale]
    have hstays := (hexact.removed _ _).2 ⟨hown,halive⟩
    refine ⟨_,s₀.count,?_,hexact,hstays,?_⟩
    · unfold Sessions.bash
      simp only [hg,hc,hop,hexport,OrderedMap.get_eq_some_iff.2 hstays]
    · rw [hexact.status_eq hl₁ hown halive]
      exact Function.update_self ..
  · intro shell hg
    unfold Sessions.bash
    simp only [hg]

/-- The three ways of closing sessions close exactly what they should: `close_bashes` the sessions
of the node, the sweep those of threads that have ended, `close_bash` the one of the thread. -/
structure ClosingExact (s : Sessions) (name : Text) : Prop where
  closeBashes : ∀ s' r, s.step (.closeBashes name) = some (s',r) →
    s.ClosesExactly (·.2 = name) s'
  sweep : ∀ thread node input, s.SweepExact thread node input
  closeBash : ∀ thread node s' r, s.step (.closeBash thread node) = some (s',r) →
    s.ClosesExactly (· = (thread,nodeText node)) s'

/-- For every session table and every name: sessions are closed exactly if no session belongs to
another node whose text ends with the name. -/
theorem closingExact_iff (hl : s.Linked) (name : Text) :
    s.ClosingExact name ↔ ∀ k i, (k,i) ∈ s.table.entries → name <:+ k.2 → k.2 = name := by
  have hall := closeAll_closesExactly s fun key => name.isSuffixOf key.2
  constructor
  · intro hexact k i hk hsuffix
    by_contra hne
    have hstays := ((hexact.closeBashes _ _ rfl).removed k i).2 ⟨hk,hne⟩
    exact ((hall.removed k i).1 hstays).2 (List.isSuffixOf_iff_suffix.2 hsuffix)
  · intro hnames
    refine ⟨?_,sweepExact hl,?_⟩
    · intro s' r h
      cases h
      refine hall.congr ?_
      intro k i hk
      rw [List.isSuffixOf_iff_suffix]
      refine ⟨hnames k i hk,?_⟩
      rintro rfl
      exact List.suffix_refl _
    · intro thread node s' r h
      cases h
      exact close_closesExactly s _

/-- Sessions of one thread to two nodes. -/
def twoNodes (first second : Text) : Sessions :=
  (empty.store ("MainThread".toList,first) .opened).store ("MainThread".toList,second) .opened

theorem twoNodes_linked (first second : Text) : (twoNodes first second).Linked :=
  (empty_linked.store _ _).store _ _

theorem closingExact_twoNodes :
    (twoNodes "clickhouse1".toList "clickhouse2".toList).Linked ∧
      (twoNodes "clickhouse1".toList "clickhouse2".toList).ClosingExact "clickhouse1".toList := by
  refine ⟨twoNodes_linked _ _,(closingExact_iff (twoNodes_linked _ _) _).2 ?_⟩
  have hnames : ∀ p ∈ (twoNodes "clickhouse1".toList "clickhouse2".toList).table.entries,
      "clickhouse1".toList.isSuffixOf p.1.2 = true → p.1.2 = "clickhouse1".toList := by
    decide +kernel
  intro k i hk hsuffix
  exact hnames (k,i) hk (List.isSuffixOf_iff_suffix.2 hsuffix)

/-- Closing the sessions to `clickhouse1` closes the one to `old-clickhouse1` too. -/
theorem closeBashes_suffix :
    ((twoNodes "old-clickhouse1".toList "clickhouse1".toList).step
        (.closeBashes "clickhouse1".toList)).map (fun r => r.1.table.keys) = some [] ∧
      ¬ (twoNodes "old-clickhouse1".toList "clickhouse1".toList).ClosingExact
        "clickhouse1".toList := by
  refine ⟨by rfl,?_⟩
  intro hexact
  have hclosed := hexact.closeBashes _ _ rfl
  have hstays := (hclosed.removed ("MainThread".toList,"old-clickhouse1".toList) 0).2
    ⟨by decide +kernel,by decide⟩
  exact absurd hstays (by decide +kernel)

end Sessions

end ClickHouseRegression.Cluster
