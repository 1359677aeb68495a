import ClickHouseRegression.Helpers.BoundaryTexts

/-! How many distinct texts `Column.values` yields. Repeating the list of values `cardinality` times
and taking `row_count` of them gives the first `row_count` values of the list itself. -/
namespace ClickHouseRegression.Helpers
open Sql Fallible

/-- `n` draws from a set that has members add to a finite set at most `c` elements in all exactly if
the larger of the possible unions has no more. -/
theorem card_union_draws_iff {α : Type*} [DecidableEq α] (base : Finset α) {S : Set α}
    (hS : S.Nonempty) (n c : ℕ) :
    (∀ ts : List α, ts.length = n → (∀ t ∈ ts, t ∈ S) → (base ∪ ts.toFinset).card ≤ c) ↔
      (base.card : ℕ∞) + min (n : ℕ∞) (S \ ↑base).encard ≤ c := by
  constructor
  · intro h
    obtain ⟨T,hT,hcard⟩ := Set.exists_subset_encard_eq (min_le_right (n : ℕ∞) (S \ ↑base).encard)
    have hle : T.encard ≤ n := hcard.trans_le (min_le_left _ _)
    have hfinite : T.Finite := Set.finite_of_encard_le_coe hle
    obtain ⟨F,rfl⟩ := hfinite.exists_finset_coe
    rw [Set.encard_coe_eq_coe_finsetCard] at hcard hle
    have hlen : F.card ≤ n := ENat.natCast_le_natCast.1 hle
    obtain ⟨t₀,ht₀⟩ := hS
    -- the chosen elements once each, then one of the set to fill up
    have hdraws := h (F.toList ++ List.replicate (n-F.card) t₀) (by simp [hlen]) (by
      intro t ht
      rcases List.mem_append.1 ht with ht | ht
      · exact (hT (Finset.mem_toList.1 ht)).1
      · rwa [List.eq_of_mem_replicate ht])
    have hdisjoint : Disjoint base F := by
      rw [Finset.disjoint_right]
      intro t ht hbase
      exact (hT ht).2 hbase
    have hsub : base ∪ F ⊆ base ∪ (F.toList ++ List.replicate (n-F.card) t₀).toFinset := by
      refine Finset.union_subset_union_right fun t ht => ?_
      rw [List.mem_toFinset,List.mem_append,Finset.mem_toList]
      exact .inl ht
    have hsum := (Finset.card_le_card hsub).trans hdraws
    rw [Finset.card_union_of_disjoint hdisjoint] at hsum
    rw [← hcard]
    exact_mod_cast hsum
  · intro h ts hlen hts
    have hunion : base ∪ ts.toFinset = base ∪ (ts.toFinset \ base) := by simp
    have hnew : (ts.toFinset \ base).card ≤ n :=
      (Finset.card_le_card Finset.sdiff_subset).trans (hlen ▸ ts.toFinset_card_le)
    have hmem : ((ts.toFinset \ base).card : ℕ∞) ≤ (S \ ↑base).encard := by
      rw [← Set.encard_coe_eq_coe_finsetCard]
      refine Set.encard_le_encard fun t ht => ?_
      rw [Finset.mem_coe,Finset.mem_sdiff,List.mem_toFinset] at ht
      exact ⟨hts t ht.1,ht.2⟩
    rw [hunion,Finset.card_union_of_disjoint Finset.disjoint_sdiff]
    have hsum : (base.card : ℕ∞) + (ts.toFinset \ base).card ≤ c :=
      (add_le_add_right (le_min (by exact_mod_cast hnew) hmem) _).trans h
    exact_mod_cast hsum

/-- At most `cardinality` distinct texts are yielded, whatever the source. -/
def KeepsCardinality (d : DataType) (rowCount cardinality : ℕ) : Prop :=
  ∀ (R : RandomSource) (s s' : R.State) (values : List Text),
    columnValues d rowCount cardinality s = some (values,s') → values.toFinset.card ≤ cardinality

/-- The number of distinct texts that `row_count` values can have: the fixed ones first, then others
that are drawn. -/
noncomputable def DataType.distinctCount (d : DataType) (rowCount : ℕ) : ℕ∞ :=
  d.boundaryCount rowCount + min ((rowCount-3 : ℕ) : ℕ∞) d.othersCount

variable {R : RandomSource}

theorem mapM_item (l : List Text) (is : List ℕ) (h : ∀ i ∈ is, i < l.length) (s : R.State) :
    (is.mapM (item l) : Rand R (List Text)) s = some (is.map (l.getD · []),s) := by
  induction is with
  | nil => rfl
  | cons i is ih =>
    have hi := h i List.mem_cons_self
    have hitem : (item l i : Rand R Text) s = some (l.getD i [],s) := by
      rw [item,List.getElem?_eq_getElem hi,List.getD_eq_getElem _ _ hi]
      rfl
    rw [List.mapM_cons]
    show ((item l i : Rand R Text) s).bind _ = _
    rw [hitem]
    show ((is.mapM (item l) : Rand R (List Text)) s).bind _ = _
    rw [ih fun j hj => h j (List.mem_cons_of_mem i hj)]
    rfl

theorem map_range_getD {l : List Text} {n : ℕ} (h : n ≤ l.length) :
    (List.range n).map (l.getD · []) = l.take n := by
  refine List.ext_getElem (by simpa using h) fun i hi _ => ?_
  have hn : i < n := by simpa using hi
  rw [List.getElem_map,List.getElem_range,List.getD_eq_getElem _ _ (by omega),List.getElem_take]

/-- Repeating the list does not change its first values. -/
theorem take_flatten_replicate {l : List Text} {n c : ℕ} (hn : n ≤ l.length) (hc : 1 ≤ c) :
    (List.replicate c l).flatten.take n = l.take n := by
  obtain ⟨k,rfl⟩ : ∃ k, c = k+1 := ⟨c-1,by omega⟩
  rw [List.replicate_succ,List.flatten_cons,List.take_append_of_le_length hn]

/-- What a column yields: the boundary texts and then the random ones, cut to the number of rows. -/
theorem columnValues_eq_some_iff (d : DataType) {rowCount cardinality : ℕ} (hcard : 1 ≤ cardinality)
    (s s' : R.State) (values : List Text) :
    columnValues d rowCount cardinality s = some (values,s') ↔
      ∃ extra, extraValues d rowCount s = some (extra,s') ∧
        values = (d.boundaryTexts ++ extra).take rowCount := by
  have hrun : ∀ extra t, extraValues d rowCount s = some (extra,t) →
      columnValues d rowCount cardinality s = some ((d.boundaryTexts ++ extra).take rowCount,t) := by
    intro extra t hextra
    have hlen := ((extraValues_yields d rowCount).holds s extra t hextra).1
    have hlong : rowCount ≤ (d.boundaryTexts ++ extra).length := by
      rw [List.length_append,hlen]
      show rowCount ≤ 3 + (rowCount-3)
      omega
    have hrepeat := take_flatten_replicate hlong hcard
    have hlength : rowCount ≤ (List.replicate cardinality (d.boundaryTexts ++ extra)).flatten.length := by
      have := congrArg List.length hrepeat
      simp only [List.length_take,Nat.min_eq_left hlong] at this
      omega
    show ((extraValues d rowCount : Rand R (List Text)) s).bind _ = _
    rw [hextra]
    show ((List.range rowCount).mapM (item (List.replicate cardinality
      (d.boundaryTexts ++ extra)).flatten) : Rand R (List Text)) t = _
    rw [mapM_item _ _ (fun i hi => (List.mem_range.1 hi).trans_le hlength),map_range_getD hlength]
    exact congrArg (fun v => some (v,t)) hrepeat
  constructor
  · intro h
    cases hextra : (extraValues d rowCount : Rand R (List Text)) s with
    | none =>
      change ((extraValues d rowCount : Rand R (List Text)) s).bind _ = _ at h
      rw [hextra] at h
      cases h
    | some p =>
      have hp := hrun p.1 p.2 hextra
      rw [h] at hp
      cases hp
      exact ⟨p.1,rfl,rfl⟩
  · rintro ⟨extra,hextra,rfl⟩
    exact hrun extra s' hextra

theorem extraValues_mem_randTexts {d : DataType} {rowCount : ℕ} {s s' : R.State} {extra : List Text}
    (h : extraValues d rowCount s = some (extra,s')) : ∀ t ∈ extra, t ∈ d.randTexts := by
  have hvalue : Yields False (· ∈ d.randTexts) (d.randValue : Rand R Text) :=
    ⟨fun s t s' hs => ⟨R,s,s',hs⟩,False.elim⟩
  have hextra : Yields False (fun r => ∀ t ∈ r, t ∈ d.randTexts)
      (extraValues d rowCount : Rand R (List Text)) := by
    unfold extraValues
    split
    · refine (Yields.mapM fun x hx => ?_).mono id fun r hr => hr.2
      rwa [List.eq_of_mem_replicate hx]
    · exact .pure (by simp)
  exact hextra.holds s extra s' h

theorem keepsCardinality_few (d : DataType) {rowCount cardinality : ℕ} (hrows : rowCount ≤ 3)
    (hcard : 1 ≤ cardinality) :
    KeepsCardinality d rowCount cardinality ↔
      (d.boundaryTexts.take rowCount).toFinset.card ≤ cardinality := by
  have hextra : ∀ (R : RandomSource) (s : R.State), extraValues d rowCount s = some ([],s) := by
    intro R s
    rw [extraValues,if_neg (by omega)]
    rfl
  constructor
  · intro h
    refine h replay [] [] _ ((columnValues_eq_some_iff d hcard _ _ _).2 ⟨[],hextra replay [],?_⟩)
    rw [List.append_nil]
  · intro h R s s' values hvalues
    obtain ⟨extra,hrun,rfl⟩ := (columnValues_eq_some_iff d hcard _ _ _).1 hvalues
    rw [hextra] at hrun
    cases hrun
    rwa [List.append_nil]

/-- Beyond three rows the random texts come in, as many of them as there are other rows. -/
theorem keepsCardinality_many (d : DataType) {rowCount cardinality : ℕ} (hrows : 3 < rowCount)
    (hcard : 1 ≤ cardinality) :
    KeepsCardinality d rowCount cardinality ↔
      ∀ ts : List Text, ts.length = rowCount-3 → (∀ t ∈ ts, t ∈ d.randTexts) →
        (d.boundaryTexts.toFinset ∪ ts.toFinset).card ≤ cardinality := by
  have htake : ∀ ts : List Text, ts.length = rowCount-3 →
      (d.boundaryTexts ++ ts).take rowCount = d.boundaryTexts ++ ts := by
    intro ts hts
    refine List.take_of_length_le ?_
    rw [List.length_append,hts]
    show 3 + (rowCount-3) ≤ rowCount
    omega
  constructor
  · intro h ts hlen hts
    obtain ⟨answers,hanswers⟩ := d.exists_replay_randTexts hts
    have hextra : extraValues d rowCount (show replay.State from answers ++ []) = some (ts,[]) := by
      rw [extraValues,if_pos hrows,← hlen]
      exact hanswers []
    have hvalues := h replay _ _ _
      ((columnValues_eq_some_iff d hcard _ _ _).2 ⟨ts,hextra,rfl⟩)
    rwa [htake ts hlen,List.toFinset_append] at hvalues
  · intro h R s s' values hvalues
    obtain ⟨extra,hextra,rfl⟩ := (columnValues_eq_some_iff d hcard _ _ _).1 hvalues
    have hlen := ((extraValues_yields d rowCount).holds s extra s' hextra).1
    rw [htake extra hlen,List.toFinset_append]
    exact h extra hlen (extraValues_mem_randTexts hextra)

theorem DataType.randTexts_eq_empty_iff (d : DataType) :
    d.randTexts = ∅ ↔ d.fixedStringsPositive = false := by
  rw [← Set.encard_eq_zero,d.randTexts_encard,d.randCount_eq_zero_iff]

/-- The bound holds exactly if that many texts can never be distinct, or a random value is needed
and a `FixedString` without characters makes `rand_value` raise. -/
theorem keepsCardinality_iff (d : DataType) (rowCount cardinality : ℕ) (hcard : 1 ≤ cardinality) :
    KeepsCardinality d rowCount cardinality ↔
      (3 < rowCount ∧ d.fixedStringsPositive = false) ∨ d.distinctCount rowCount ≤ cardinality := by
  unfold DataType.distinctCount
  rcases Nat.lt_or_ge 3 rowCount with hrows | hrows
  · have hall : d.boundaryTexts.toFinset.card = d.boundaryCount rowCount := by
      rw [← d.boundaryTexts_take_card,List.take_of_length_le (show 3 ≤ rowCount by omega)]
    rw [keepsCardinality_many d hrows hcard,← d.others_encard,← hall,← d.randTexts_eq_empty_iff]
    rcases d.randTexts.eq_empty_or_nonempty with hempty | hne
    · refine iff_of_true ?_ (.inl ⟨hrows,hempty⟩)
      intro ts hlen hts
      obtain ⟨t,ht⟩ := List.exists_mem_of_length_pos (show 0 < ts.length by omega)
      have hnone := hts t ht
      rw [hempty] at hnone
      exact absurd hnone (Set.notMem_empty t)
    · rw [card_union_draws_iff _ hne,or_iff_right fun h => hne.ne_empty h.2]
  · have hnone : ((rowCount-3 : ℕ) : ℕ∞) = 0 := by
      rw [Nat.sub_eq_zero_of_le hrows]
      rfl
    rw [keepsCardinality_few d hrows hcard,d.boundaryTexts_take_card,hnone,zero_min,add_zero,
      or_iff_right fun h => by omega]
    exact ENat.natCast_le_natCast.symm

theorem keepsCardinality_emptyTuple : KeepsCardinality (.tuple []) 3 1 :=
  (keepsCardinality_iff (.tuple []) 3 1 le_rfl).2 (.inr (by
    unfold DataType.distinctCount
    have hone : (DataType.tuple []).boundaryCount 3 = 1 := by rfl
    rw [hone,Nat.sub_self,Nat.cast_zero,zero_min]
    rfl))

/-- Ten rows of a `Bool` hold its four texts at most. -/
example : (DataType.leaf .boolean).distinctCount 10 = 4 := by rfl

/-- Two rows of an `Int8` hold its largest and its smallest value. -/
theorem columnValues_int8_two :
    (columnValues (.leaf (.int .int8)) 2 1 (show cycling.State from (0 : ℕ))).map Prod.fst =
        some ["toInt8(127)".toList,"toInt8(-128)".toList] ∧
      ¬ KeepsCardinality (.leaf (.int .int8)) 2 1 := by
  have hvalues : (columnValues (.leaf (.int .int8)) 2 1 (show cycling.State from (0 : ℕ))).map Prod.fst =
      some ["toInt8(127)".toList,"toInt8(-128)".toList] := by rfl
  refine ⟨hvalues,fun h => ?_⟩
  obtain ⟨⟨values,s'⟩,hrun,rfl⟩ := Option.map_eq_some_iff.1 hvalues
  have hcount := h cycling _ _ _ hrun
  revert hcount
  decide +kernel

end ClickHouseRegression.Helpers
