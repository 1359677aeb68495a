import ClickHouseRegression.Rbac.Privileges

/-! The privileges granted for a number are those that are checked as granted for it, whichever spellings the
number selects, on the whole table and on columns. -/
namespace ClickHouseRegression.Rbac
open Text

theorem hasBit_eq_testBit (grants i : ℕ) : hasBit grants i = grants.testBit i := by
  rw [hasBit,Nat.one_shiftLeft,Nat.and_two_pow]
  cases grants.testBit i with
  | false => simp
  | true => simp

/-- A name in a `GRANT`: one piece without blanks around it. -/
structure IsSpelling (t : Text) : Prop where
  plain : ∀ c ∈ t, Sql.plainChar c = true
  trimmed : Trimmed t
  nonempty : t ≠ []

def Family.spellings (f : Family) : List Text :=
  noneAlias :: (f.subprivileges.flatMap Subprivilege.aliases++f.superAliases)

/-- Every spelling stands for one thing. -/
structure Family.WellFormed (f : Family) : Prop where
  spelling : ∀ t ∈ f.spellings, IsSpelling t
  nodup : f.spellings.Nodup
  names : (f.subprivileges.map Subprivilege.name).Nodup

/-- A server takes the spellings for what the family has them stand for. -/
structure Family.Understood (f : Family) (covers : Text → Text → Bool) : Prop where
  noneCovers : ∀ q ∈ f.subprivileges, covers noneAlias (checkedPrivilege q.name) = false
  superCovers : ∀ t ∈ f.superAliases, ∀ q ∈ f.subprivileges, covers t (checkedPrivilege q.name) = true
  aliasCovers : ∀ p ∈ f.subprivileges, ∀ t ∈ p.aliases, ∀ q ∈ f.subprivileges,
    covers t (checkedPrivilege q.name) = decide (q.name = p.name)

theorem IsSpelling.notMem_paren {t : Text} (h : IsSpelling t) : '(' ∉ t := by
  intro hmem
  have hplain := h.plain _ hmem
  exact absurd hplain (by decide)

theorem IsSpelling.notMem_comma {t : Text} (h : IsSpelling t) : ',' ∉ t := by
  intro hmem
  have hplain := h.plain _ hmem
  exact absurd hplain (by decide)

theorem takeWhile_ne_append {t rest : Text} (h : '(' ∉ t) :
    (t++ '(' :: rest).takeWhile (· ≠ '(') = t := by
  rw [List.takeWhile_append_of_pos]
  · simp
  · intro c hc
    exact decide_eq_true fun heq => h (heq ▸ hc)

theorem dropWhile_ne_append {t rest : Text} (h : '(' ∉ t) :
    (t++ '(' :: rest).dropWhile (· ≠ '(') = '(' :: rest := by
  rw [List.dropWhile_append_of_pos]
  · simp
  · intro c hc
    exact decide_eq_true fun heq => h (heq ▸ hc)

theorem grantElement_spelling {pad t : Text} (hpad : Blank pad) (ht : IsSpelling t) :
    grantElement (pad++t) = (t,none) := by
  have hstrip : (pad++t).strip = t := by
    have h := strip_eq hpad ht.trimmed (b := []) (by simp [Blank])
    rwa [List.append_nil] at h
  have htake : t.takeWhile (· ≠ '(') = t := by
    apply List.takeWhile_eq_self_iff.2
    intro c hc
    exact decide_eq_true fun heq => ht.notMem_paren (heq ▸ hc)
  rw [grantElement,hstrip,htake,if_neg ht.notMem_paren]

def withColumns (t columns : Text) : Text := t++ '(' :: columns++[')']

theorem grantElement_columns {pad t : Text} (hpad : Blank pad) (ht : IsSpelling t) (columns : Text) :
    grantElement (pad++withColumns t columns) = (t,some columns) := by
  have htrimmed : Trimmed (withColumns t columns) := by
    refine ⟨?_,?_⟩
    · intro c hc
      cases t with
      | nil => exact absurd rfl ht.nonempty
      | cons d t => exact ht.trimmed.head c hc
    · intro c hc
      rw [withColumns,List.getLast?_concat] at hc
      cases hc
      decide
  have hstrip : (pad++withColumns t columns).strip = withColumns t columns := by
    have h := strip_eq hpad htrimmed (b := []) (by simp [Blank])
    rwa [List.append_nil] at h
  have happ : withColumns t columns = t++ '(' :: (columns++[')']) := by simp [withColumns]
  have hmem : '(' ∈ withColumns t columns := by simp [withColumns]
  rw [grantElement,hstrip,if_pos hmem,happ,takeWhile_ne_append ht.notMem_paren,
    dropWhile_ne_append ht.notMem_paren,List.tail_cons,List.dropLast_concat]

/-- `", ".join` is a join with commas of the texts after blanks. -/
theorem intercalate_spaced (t : Text) (ts : List Text) :
    ", ".toList.intercalate (t :: ts) = Sql.join (t :: ts.map (' ' :: ·)) := by
  rw [Sql.join]
  induction ts generalizing t with
  | nil => rw [List.map_nil,List.intercalate_singleton,List.intercalate_singleton]
  | cons u us ih =>
    rw [List.map_cons,List.intercalate_cons_cons,List.intercalate_cons_cons,ih u]
    have hsep : ", ".toList = [','] ++ [' '] := rfl
    rw [hsep,List.append_assoc,List.append_assoc,List.append_assoc]
    congr 2
    cases us with
    | nil => rw [List.map_nil,List.intercalate_singleton,List.intercalate_singleton]; rfl
    | cons v vs => rw [List.map_cons,List.intercalate_cons_cons,List.intercalate_cons_cons]; rfl

theorem inner_of_columns {columns : Text} (h : ∀ c ∈ columns, Sql.plainChar c = true ∨ c = ',') :
    Sql.Inner columns := by
  induction columns with
  | nil => exact Sql.whole_nil.inner
  | cons c columns ih =>
    have htail := ih fun d hd => h d (List.mem_cons_of_mem c hd)
    cases h c List.mem_cons_self with
    | inl hplain => exact (Sql.whole_char hplain).inner.append htail
    | inr hcomma =>
      subst hcomma
      exact Sql.inner_comma.append htail

namespace Family
variable {f : Family} (hf : f.WellFormed)
include hf

theorem WellFormed.nodup_aliases : (f.subprivileges.flatMap Subprivilege.aliases).Nodup :=
  (List.nodup_cons.1 hf.nodup).2.of_append_left

theorem ne_none {t : Text} (h : t ∈ f.subprivileges.flatMap Subprivilege.aliases++f.superAliases) : t ≠ noneAlias :=
  fun heq => (List.nodup_cons.1 hf.nodup).1 (heq ▸ h)

omit hf in
theorem clamped_of_lt {grants : ℕ} (h : grants < f.permutationCount) : f.clamped grants = grants := by
  rw [clamped,if_neg (by omega)]

omit hf in
theorem clamped_of_le {grants : ℕ} (h : f.permutationCount ≤ grants) : f.clamped grants = f.permutationCount-1 := by
  have hpos : 0 < f.permutationCount := by
    rw [permutationCount,Nat.one_shiftLeft]
    exact Nat.two_pow_pos _
  rw [clamped,if_pos (by omega)]

omit hf in
theorem chosen_all : f.chosen (f.permutationCount-1) = f.subprivileges := by
  have hall : f.subprivileges.zipIdx.filter (fun p => hasBit (f.permutationCount-1) p.2) = f.subprivileges.zipIdx := by
    apply List.filter_eq_self.2
    intro p hp
    rw [hasBit_eq_testBit,permutationCount,Nat.one_shiftLeft,Nat.testBit_two_pow_sub_one]
    have hlt := (List.mem_zipIdx hp).2.1
    exact decide_eq_true (by omega)
  rw [chosen,hall,List.zipIdx_map_fst]

omit hf in
theorem chosen_ne_nil {grants : ℕ} (hpos : grants ≠ 0) (h : grants < f.permutationCount) : f.chosen grants ≠ [] := by
  obtain ⟨i,hi⟩ := Nat.exists_testBit_of_ne_zero hpos
  have hlt : i < f.subprivileges.length := by
    by_contra hge
    have hsmall : grants < 2^i := by
      apply lt_of_lt_of_le h
      rw [permutationCount,Nat.one_shiftLeft]
      exact Nat.pow_le_pow_right (by decide) (not_lt.1 hge)
    rw [Nat.testBit_lt_two_pow hsmall] at hi
    cases hi
  have hmem : (f.subprivileges[i],i) ∈ f.subprivileges.zipIdx.filter fun p => hasBit grants p.2 := by
    refine List.mem_filter.2 ⟨?_,?_⟩
    · rw [List.mem_zipIdx_iff_getElem?]
      exact List.getElem?_eq_getElem hlt
    · rw [hasBit_eq_testBit]
      exact hi
  intro hnil
  rw [chosen,List.map_eq_nil_iff] at hnil
  rw [hnil] at hmem
  cases hmem

omit hf in
theorem chosen_subset {grants : ℕ} : f.chosen grants ⊆ f.subprivileges := by
  intro p hp
  obtain ⟨q,hq,rfl⟩ := List.mem_map.1 hp
  exact (List.mem_zipIdx' (List.mem_of_mem_filter hq)).2 ▸ List.getElem_mem _

omit hf in
theorem chosen_zero : f.chosen 0 = [] := by
  rw [chosen,List.map_eq_nil_iff,List.filter_eq_nil_iff]
  intro p _
  rw [hasBit_eq_testBit,Nat.zero_testBit]
  exact Bool.false_ne_true

omit hf in
theorem privilegeList_spellings {grants : ℕ} {texts : List Text} (h : f.privilegeList grants = some texts) :
    texts ≠ [] ∧ texts ⊆ f.spellings := by
  rw [privilegeList] at h
  split at h
  · obtain ⟨t,ht,rfl⟩ := Option.map_eq_some_iff.1 h
    refine ⟨List.cons_ne_nil _ _,?_⟩
    intro u hu
    rw [List.mem_singleton.1 hu]
    exact List.mem_cons_of_mem _ (List.mem_append_right _ (List.mem_of_getElem? ht))
  · next hlt =>
    split at h
    · cases h
      refine ⟨List.cons_ne_nil _ _,?_⟩
      intro u hu
      rw [List.mem_singleton.1 hu]
      exact List.mem_cons_self
    · next hpos =>
      cases h
      refine ⟨fun hnil => chosen_ne_nil hpos (not_le.1 hlt) (List.map_eq_nil_iff.1 hnil),?_⟩
      intro t ht
      obtain ⟨p,hp,rfl⟩ := List.mem_map.1 ht
      exact List.mem_cons_of_mem _ (List.mem_append_left _
        (List.mem_flatMap.2 ⟨p,chosen_subset hp,List.get_mem _ _⟩))

/-- What the spellings of a number cover is what is chosen by it. -/
theorem covers_privilegeList {covers : Text → Text → Bool} (hcovers : f.Understood covers) {grants : ℕ}
    {texts : List Text} (h : f.privilegeList grants = some texts) {q : Subprivilege} (hq : q ∈ f.subprivileges) :
    (∃ t ∈ texts, covers t (checkedPrivilege q.name) = true) ↔ q ∈ f.chosen (f.clamped grants) := by
  rw [privilegeList] at h
  split at h
  · next hge =>
    obtain ⟨t,ht,rfl⟩ := Option.map_eq_some_iff.1 h
    rw [clamped_of_le hge,chosen_all]
    exact ⟨fun _ => hq,fun _ => ⟨t,List.mem_cons_self,hcovers.superCovers t (List.mem_of_getElem? ht) q hq⟩⟩
  · next hlt =>
    rw [clamped_of_lt (not_le.1 hlt)]
    split at h
    · next hzero =>
      cases h
      subst hzero
      rw [chosen_zero]
      constructor
      · intro hsome
        obtain ⟨t,ht,hcovered⟩ := hsome
        rw [List.mem_singleton.1 ht,hcovers.noneCovers q hq] at hcovered
        cases hcovered
      · exact fun hnone => absurd hnone List.not_mem_nil
    · cases h
      have hspelling : ∀ p ∈ f.chosen grants,
          covers (p.spelling grants) (checkedPrivilege q.name) = decide (q.name = p.name) :=
        fun p hp => hcovers.aliasCovers p (chosen_subset hp) _ (List.get_mem _ _) q hq
      constructor
      · intro hsome
        obtain ⟨t,ht,hcovered⟩ := hsome
        obtain ⟨p,hp,rfl⟩ := List.mem_map.1 ht
        rw [hspelling p hp,decide_eq_true_eq] at hcovered
        have hqp : q = p := List.inj_on_of_nodup_map hf.names hq (chosen_subset hp) hcovered
        exact hqp ▸ hp
      · intro hchosen
        exact ⟨q.spelling grants,List.mem_map_of_mem hchosen,(hspelling q hchosen).trans (decide_eq_true rfl)⟩

/-- A privilege is checked as granted where it is chosen. -/
theorem mem_privilegeHandler {grants : ℕ} {check : Text × Bool} (h : check ∈ f.privilegeHandler grants) :
    ∃ q ∈ f.subprivileges, check.1 = q.name ∧ (check.2 = true ↔ q ∈ f.chosen (f.clamped grants)) := by
  obtain ⟨⟨q,i⟩,hzip,rfl⟩ := List.mem_map.1 h
  have hget := List.mem_zipIdx_iff_getElem?.1 hzip
  refine ⟨q,List.mem_of_getElem? hget,rfl,?_⟩
  constructor
  · intro hbit
    exact List.mem_map.2 ⟨(q,i),List.mem_filter.2 ⟨hzip,hbit⟩,rfl⟩
  · intro hchosen
    obtain ⟨⟨q',j⟩,hj,heq⟩ := List.mem_map.1 hchosen
    have hqq : q' = q := heq
    subst hqq
    obtain ⟨hzip',hbit⟩ := List.mem_filter.1 hj
    have hget' := List.mem_zipIdx_iff_getElem?.1 hzip'
    have hij : i = j := by
      have hnodup := List.Nodup.of_map _ hf.names
      obtain ⟨hi,hiq⟩ := List.getElem?_eq_some_iff.1 hget
      obtain ⟨hj,hjq⟩ := List.getElem?_eq_some_iff.1 hget'
      exact (hnodup.getElem_inj_iff).1 (hiq.trans hjq.symm)
    exact hij ▸ hbit

omit hf in
theorem privileges_isSome {grants : ℕ} (h : grants ∈ f.allPermutations) : ∃ text, f.privileges grants = some text := by
  rw [allPermutations,List.mem_range] at h
  suffices hlist : ∃ texts, f.privilegeList grants = some texts by
    obtain ⟨texts,htexts⟩ := hlist
    exact ⟨_,Option.map_eq_some_iff.2 ⟨texts,htexts,rfl⟩⟩
  rw [privilegeList]
  split
  · have hlt : grants-f.permutationCount < f.superAliases.length := by omega
    exact ⟨_,Option.map_eq_some_iff.2 ⟨_,List.getElem?_eq_getElem hlt,rfl⟩⟩
  · split
    · exact ⟨_,rfl⟩
    · exact ⟨_,rfl⟩

end Family

theorem blank_nil : Blank [] := fun _ hc => nomatch hc

theorem blank_spaces (n : ℕ) : Blank (List.replicate n ' ') := by
  intro c hc
  rw [List.eq_of_mem_replicate hc]
  decide

/-- The server splits the text where the pieces were put together. -/
theorem grantElements_join {pieces : List Text} {elements : List (Text × Option Text)} (hne : pieces ≠ [])
    (hwhole : ∀ piece ∈ pieces, Sql.Whole piece)
    (helements : List.Forall₂ (fun piece element => grantElement piece = element) pieces elements) :
    grantElements (Sql.join pieces) = some elements := by
  have hmap : pieces.map grantElement = elements := by
    rw [← List.forall₂_eq_eq_eq]
    exact List.forall₂_map_left_iff.2 helements
  rw [grantElements,Sql.pieces_join hwhole hne,Option.map_some,hmap]

section
variable {texts : List Text} (hne : texts ≠ []) (hspelling : ∀ t ∈ texts, IsSpelling t)
include hne hspelling

/-- Spellings as a `GRANT` on the whole table. -/
theorem grantElements_intercalate :
    grantElements (", ".toList.intercalate texts) = some (texts.map fun t => (t,none)) := by
  cases texts with
  | nil => exact absurd rfl hne
  | cons t ts =>
    rw [intercalate_spaced]
    apply grantElements_join (List.cons_ne_nil _ _)
    · intro piece hpiece
      cases hpiece with
      | head => exact Sql.whole_plain (hspelling t List.mem_cons_self).plain
      | tail _ hpiece =>
        obtain ⟨u,hu,rfl⟩ := List.mem_map.1 hpiece
        exact (Sql.whole_char (by decide)).append (Sql.whole_plain (hspelling u (List.mem_cons_of_mem t hu)).plain)
    · refine .cons (grantElement_spelling blank_nil (hspelling t List.mem_cons_self)) ?_
      rw [List.forall₂_map_left_iff,List.forall₂_map_right_iff,List.forall₂_same]
      exact fun u hu => grantElement_spelling (blank_spaces 1) (hspelling u (List.mem_cons_of_mem t hu))

/-- Spellings as a `GRANT` on columns. -/
theorem grantElements_onColumns {columns : Text} (hcolumns : ∀ c ∈ columns, Sql.plainChar c = true ∨ c = ',') :
    grantElements (onColumns (", ".toList.intercalate texts) columns) =
      some (texts.map fun t => (t,some columns)) := by
  have hwhole : ∀ t ∈ texts, Sql.Whole (withColumns t columns) := by
    intro t ht
    have hparens := Sql.whole_parens (inner_of_columns hcolumns)
    have happ : withColumns t columns = t++('(' :: (columns++[')'])) := by simp [withColumns]
    rw [happ]
    exact (Sql.whole_plain (hspelling t ht).plain).append hparens
  cases texts with
  | nil => exact absurd rfl hne
  | cons t ts =>
    have hsplit : (", ".toList.intercalate (t :: ts)).splitOn ',' = t :: ts.map (' ' :: ·) := by
      rw [intercalate_spaced,Sql.join]
      apply List.splitOn_intercalate _ _ (List.cons_ne_nil _ _)
      intro piece hpiece
      cases hpiece with
      | head => exact (hspelling t List.mem_cons_self).notMem_comma
      | tail _ hpiece =>
        obtain ⟨u,hu,rfl⟩ := List.mem_map.1 hpiece
        intro hmem
        cases hmem with
        | tail _ hmem => exact (hspelling u (List.mem_cons_of_mem t hu)).notMem_comma hmem
    rw [onColumns,hsplit,List.map_cons,intercalate_spaced,List.map_map,List.map_map]
    apply grantElements_join (List.cons_ne_nil _ _)
    · intro piece hpiece
      cases hpiece with
      | head => exact hwhole t List.mem_cons_self
      | tail _ hpiece =>
        obtain ⟨u,hu,rfl⟩ := List.mem_map.1 hpiece
        exact (Sql.whole_char (by decide)).append ((Sql.whole_char (by decide)).append
          (hwhole u (List.mem_cons_of_mem t hu)))
    · refine .cons (grantElement_columns blank_nil (hspelling t List.mem_cons_self) columns) ?_
      rw [List.forall₂_map_left_iff,List.forall₂_map_right_iff,List.forall₂_same]
      intro u hu
      exact grantElement_columns (blank_spaces 2) (hspelling u (List.mem_cons_of_mem t hu)) columns

end

theorem granted_iff {covers : Text → Text → Bool} {t privilege : Text} {texts : List Text} {columns : Option Text}
    (h : grantElements t = some (texts.map fun t => (t,columns))) :
    Granted covers t privilege columns ↔ ∃ t ∈ texts, covers t privilege = true := by
  constructor
  · intro hgranted
    obtain ⟨elements,helements,element,hmem,hcovers,_⟩ := hgranted
    cases h.symm.trans helements
    obtain ⟨u,hu,rfl⟩ := List.mem_map.1 hmem
    exact ⟨u,hu,hcovers⟩
  · intro hsome
    obtain ⟨u,hu,hcovers⟩ := hsome
    exact ⟨_,h,_,List.mem_map_of_mem hu,hcovers,rfl⟩

/-- On a server that understands the spellings a privilege is granted where it is checked as granted. -/
theorem granted_privileges {f : Family} (hf : f.WellFormed) {covers : Text → Text → Bool}
    (hcovers : f.Understood covers) {grants : ℕ} {text : Text} (h : f.privileges grants = some text)
    {check : Text × Bool} (hcheck : check ∈ f.privilegeHandler grants) :
    (Granted covers text (checkedPrivilege check.1) none ↔ check.2 = true) ∧
      ∀ columns : Text, (∀ c ∈ columns, Sql.plainChar c = true ∨ c = ',') →
        (Granted covers (onColumns text columns) (checkedPrivilege check.1) (some columns) ↔ check.2 = true) := by
  obtain ⟨texts,htexts,rfl⟩ := Option.map_eq_some_iff.1 h
  obtain ⟨hne,hsub⟩ := f.privilegeList_spellings htexts
  obtain ⟨q,hq,hname,hchosen⟩ := Family.mem_privilegeHandler hf hcheck
  have hspelling : ∀ t ∈ texts, IsSpelling t := fun t ht => hf.spelling t (hsub ht)
  have hcovered := (Family.covers_privilegeList hf hcovers htexts hq).trans hchosen.symm
  rw [hname]
  constructor
  · exact (granted_iff (grantElements_intercalate hne hspelling)).trans hcovered
  · intro columns hcolumns
    exact (granted_iff (grantElements_onColumns hne hspelling hcolumns)).trans hcovered

/-- The conditions on the spellings can be tested. -/
def isSpelling (t : Text) : Bool :=
  t.all Sql.plainChar && t.head?.all (!isSpace ·) && t.getLast?.all (!isSpace ·) && !t.isEmpty

theorem isSpelling_sound {t : Text} (h : isSpelling t = true) : IsSpelling t := by
  simp only [isSpelling,Bool.and_eq_true,List.all_eq_true,Option.all_eq_true,Bool.not_eq_true',
    List.isEmpty_eq_false_iff] at h
  exact ⟨h.1.1.1,⟨h.1.1.2,h.1.2⟩,h.2⟩

theorem wellFormed_of_tests {f : Family} (hspelling : f.spellings.all isSpelling = true)
    (hnodup : f.spellings.Nodup) (hnames : (f.subprivileges.map Subprivilege.name).Nodup) : f.WellFormed :=
  ⟨fun t ht => isSpelling_sound (List.all_eq_true.1 hspelling t ht),hnodup,hnames⟩

theorem wellFormed_families : ∀ f ∈ [alterColumn,alterIndex,alterConstraint], f.WellFormed := by
  intro f hf
  cases hf with
  | head => exact wellFormed_of_tests (by decide) (by decide) (by decide)
  | tail _ hf =>
    cases hf with
    | head => exact wellFormed_of_tests (by decide) (by decide) (by decide)
    | tail _ hf =>
      rw [List.mem_singleton.1 hf]
      exact wellFormed_of_tests (by decide) (by decide) (by decide)

/-- The server's own names of the privileges are those of the tests. -/
theorem understood_showPrivileges : ∀ f ∈ [alterColumn,alterIndex,alterConstraint],
    f.Understood (PrivilegeRow.covers showPrivileges) := by
  intro f hf
  cases hf with
  | head => exact ⟨by decide +kernel,by decide +kernel,by decide +kernel⟩
  | tail _ hf =>
    cases hf with
    | head => exact ⟨by decide +kernel,by decide +kernel,by decide +kernel⟩
    | tail _ hf =>
      rw [List.mem_singleton.1 hf]
      exact ⟨by decide +kernel,by decide +kernel,by decide +kernel⟩

/-- The permutations outside of a stress run are some of those of a stress run. -/
theorem alterColumnPermutations_subset (stress : Bool) : alterColumnPermutations stress ⊆ alterColumn.allPermutations := by
  cases stress with
  | false => decide
  | true => exact List.Subset.refl _

theorem alterIndexPermutations_subset (stress mergeTree : Bool) :
    alterIndexPermutations stress mergeTree ⊆ alterIndex.allPermutations := by
  rw [alterIndexPermutations]
  split
  · exact List.Subset.refl _
  · decide

/-- The families with the numbers that their tests try. -/
def tested (stress mergeTree : Bool) : List (Family × List ℕ) :=
  [(alterColumn,alterColumnPermutations stress),(alterIndex,alterIndexPermutations stress mergeTree),
    (alterConstraint,alterConstraintPermutations)]

theorem mem_tested {stress mergeTree : Bool} {e : Family × List ℕ} (he : e ∈ tested stress mergeTree) :
    e.1 ∈ [alterColumn,alterIndex,alterConstraint] ∧ e.2 ⊆ e.1.allPermutations := by
  cases he with
  | head => exact ⟨List.mem_cons_self,alterColumnPermutations_subset stress⟩
  | tail _ he =>
    cases he with
    | head => exact ⟨List.mem_cons_of_mem _ List.mem_cons_self,alterIndexPermutations_subset stress mergeTree⟩
    | tail _ he =>
      rw [List.mem_singleton.1 he]
      exact ⟨List.mem_cons_of_mem _ (List.mem_cons_of_mem _ List.mem_cons_self),List.Subset.refl _⟩

namespace Family
variable {f : Family}

def verdicts (f : Family) (grants : ℕ) : List Bool := (f.privilegeHandler grants).map Prod.snd

theorem verdicts_eq (grants : ℕ) :
    f.verdicts grants = (List.range f.subprivileges.length).map (f.clamped grants).testBit := by
  rw [verdicts,privilegeHandler,List.map_map,List.range_eq_range',← List.zipIdx_map_snd 0,List.map_map]
  apply List.map_congr_left
  intro p _
  exact hasBit_eq_testBit _ _

theorem verdicts_injOn {a b : ℕ} (ha : a < f.permutationCount) (hb : b < f.permutationCount)
    (h : f.verdicts a = f.verdicts b) : a = b := by
  rw [verdicts_eq,verdicts_eq,clamped_of_lt ha,clamped_of_lt hb] at h
  apply Nat.eq_of_testBit_eq
  intro i
  by_cases hi : i < f.subprivileges.length
  · exact List.map_inj_left.1 h i (List.mem_range.2 hi)
  · have hpow : f.permutationCount ≤ 2^i := by
      rw [permutationCount,Nat.one_shiftLeft]
      exact Nat.pow_le_pow_right (by decide) (not_lt.1 hi)
    rw [Nat.testBit_lt_two_pow (lt_of_lt_of_le ha hpow),Nat.testBit_lt_two_pow (lt_of_lt_of_le hb hpow)]

/-- Each combination of checks belongs to a number. -/
theorem exists_verdicts {checks : List Bool} (hlen : checks.length = f.subprivileges.length) :
    ∃ grants < f.permutationCount, f.verdicts grants = checks := by
  have hlt : Nat.ofBits (fun i : Fin checks.length => checks[i]) < f.permutationCount := by
    rw [permutationCount,Nat.one_shiftLeft,← hlen]
    exact Nat.ofBits_lt_two_pow _
  refine ⟨_,hlt,?_⟩
  rw [verdicts_eq,clamped_of_lt hlt]
  apply List.ext_getElem
  · rw [List.length_map,List.length_range,hlen]
  · intro i _ hi
    rw [List.getElem_map,List.getElem_range,Nat.testBit_ofBits_lt _ _ hi]
    rfl

theorem verdicts_super {grants : ℕ} (h : f.permutationCount ≤ grants) :
    f.verdicts grants = List.replicate f.subprivileges.length true := by
  rw [verdicts_eq,clamped_of_le h,permutationCount,Nat.one_shiftLeft,List.eq_replicate_iff]
  refine ⟨by simp,?_⟩
  intro b hb
  obtain ⟨i,hi,rfl⟩ := List.mem_map.1 hb
  rw [Nat.testBit_two_pow_sub_one]
  exact decide_eq_true (List.mem_range.1 hi)

end Family

/-- Every combination of checks is made once, and the one with all privileges once more for each name of the
super-privilege. -/
theorem allPermutations_cover (f : Family) {checks : List Bool} (hlen : checks.length = f.subprivileges.length) :
    (f.allPermutations.map f.verdicts).count checks =
      1+if checks = List.replicate f.subprivileges.length true then f.superAliases.length else 0 := by
  rw [Family.allPermutations,List.range_add,List.map_append,List.count_append,List.map_map]
  congr 1
  · apply List.count_eq_one_of_mem
    · apply List.Nodup.map_on _ List.nodup_range
      exact fun a ha b hb h => Family.verdicts_injOn (List.mem_range.1 ha) (List.mem_range.1 hb) h
    · obtain ⟨grants,hlt,hgrants⟩ := f.exists_verdicts hlen
      exact List.mem_map.2 ⟨grants,List.mem_range.2 hlt,hgrants⟩
  · have hmap : (List.range f.superAliases.length).map (f.verdicts ∘ (f.permutationCount+·)) =
        List.replicate f.superAliases.length (List.replicate f.subprivileges.length true) := by
      rw [List.eq_replicate_iff]
      refine ⟨by simp,?_⟩
      intro verdicts hv
      obtain ⟨i,_,rfl⟩ := List.mem_map.1 hv
      exact Family.verdicts_super (Nat.le_add_right _ i)
    rw [hmap]
    by_cases hall : checks = List.replicate f.subprivileges.length true
    · rw [if_pos hall,hall,List.count_replicate_self]
    · rw [if_neg hall,List.count_eq_zero]
      exact fun hmem => hall (List.eq_of_mem_replicate hmem)

theorem allPermutations_cover_constraint :
    (alterConstraint.allPermutations.map alterConstraint.verdicts).count [true,true] =
      1+if [true,true] = List.replicate alterConstraint.subprivileges.length true
        then alterConstraint.superAliases.length else 0 :=
  allPermutations_cover alterConstraint rfl

/-- Some permutation grants with this spelling. -/
def Family.Uses (f : Family) (t : Text) : Prop :=
  ∃ grants ∈ f.allPermutations, t ∈ (f.privilegeList grants).getD []

/-- Where the first privilege is granted the number is odd: of two aliases it is always the second. -/
theorem not_uses_first {f : Family} (hf : f.WellFormed) {p : Subprivilege} {rest : List Subprivilege} {a b : Text}
    (hfirst : f.subprivileges = p :: rest) (haliases : p.aliases = [a,b]) : ¬ f.Uses a := by
  have hnodup := hf.nodup_aliases
  rw [hfirst,List.flatMap_cons,haliases,List.nodup_append'] at hnodup
  obtain ⟨hab,_,hrest⟩ := hnodup
  have hmem : a ∈ f.subprivileges.flatMap Subprivilege.aliases := by
    rw [hfirst,List.flatMap_cons,haliases]
    exact List.mem_append_left _ List.mem_cons_self
  intro huses
  obtain ⟨grants,_,ha⟩ := huses
  rw [Family.privilegeList] at ha
  split at ha
  · next hge =>
    cases hsuper : f.superAliases[grants-f.permutationCount]? with
    | none =>
      rw [hsuper] at ha
      cases ha
    | some t =>
      rw [hsuper] at ha
      have hat : a = t := List.mem_singleton.1 ha
      exact List.disjoint_of_nodup_append (List.nodup_cons.1 hf.nodup).2 hmem (hat ▸ List.mem_of_getElem? hsuper)
  · split at ha
    · exact f.ne_none hf (List.mem_append_left _ hmem) (List.mem_singleton.1 ha)
    · obtain ⟨q,hq,hqa⟩ := List.mem_map.1 ha
      obtain ⟨⟨q',i⟩,hqi,rfl⟩ := List.mem_map.1 hq
      obtain ⟨hzip,hbit⟩ := List.mem_filter.1 hqi
      have hget := (List.mem_zipIdx_iff_getElem?.1 hzip)
      rw [hfirst] at hget
      cases i with
      | zero =>
        have hqp : p = q' := Option.some.inj hget
        subst hqp
        have hodd : grants % 2 = 1 := by
          rw [hasBit_eq_testBit,Nat.testBit_zero] at hbit
          exact of_decide_eq_true hbit
        have hb : p.spelling grants = b := by
          have hget? : p.aliases[grants % p.aliases.length]? = some b := by
            rw [haliases]
            change [a,b][grants % 2]? = some b
            rw [hodd]
            rfl
          exact Option.some.inj ((List.getElem?_eq_getElem _).symm.trans hget?)
        have hne : a ≠ b := fun heq => (List.nodup_cons.1 hab).1 (heq ▸ List.mem_cons_self)
        exact hne (hqa.symm.trans hb)
      | succ i =>
        have hin : q' ∈ rest := List.mem_of_getElem? hget
        have hspelling : q'.spelling grants ∈ q'.aliases := List.get_mem _ _
        exact hrest List.mem_cons_self (List.mem_flatMap.2 ⟨q',hin,hqa ▸ hspelling⟩)

/-- A few of the permutations show that a spelling is used. -/
theorem uses_of_tests {f : Family} (permutations : List ℕ) (unused : List Text)
    (hin : permutations.all (fun grants => grants < f.permutationCount+f.superAliases.length) = true)
    (h : f.spellings.all (fun t => decide (t ∈ unused) ||
      permutations.any fun grants => decide (t ∈ (f.privilegeList grants).getD [])) = true)
    {t : Text} (ht : t ∈ f.spellings) (hused : t ∉ unused) : f.Uses t := by
  have htest := List.all_eq_true.1 h t ht
  rw [Bool.or_eq_true,decide_eq_true_eq,List.any_eq_true] at htest
  obtain ⟨grants,hgrants,hmem⟩ := htest.resolve_left hused
  exact ⟨grants,List.mem_range.2 (of_decide_eq_true (List.all_eq_true.1 hin grants hgrants)),of_decide_eq_true hmem⟩

/-- The permutations use all spellings but one of `ADD COLUMN` and one of `ADD CONSTRAINT`. -/
theorem uses_iff : ∀ e ∈ [(alterColumn,["ALTER ADD COLUMN".toList]),(alterIndex,[]),
    (alterConstraint,["ALTER ADD CONSTRAINT".toList])], ∀ t ∈ e.1.spellings, e.1.Uses t ↔ t ∉ e.2 := by
  intro e he t ht
  cases he with
  | head =>
    refine ⟨?_,uses_of_tests [0,62,63,64,65] _ (by decide) (by decide) ht⟩
    intro huses hmem
    rw [List.mem_singleton.1 hmem] at huses
    exact not_uses_first (wellFormed_families alterColumn (by simp)) rfl rfl huses
  | tail _ he =>
    cases he with
    | head => exact ⟨fun _ => List.not_mem_nil,uses_of_tests [0,58,59,61,62,63,64,65,66] _ (by decide) (by decide) ht⟩
    | tail _ he =>
      rw [List.mem_singleton.1 he] at ht ⊢
      refine ⟨?_,uses_of_tests [0,2,3,4,5,6] _ (by decide) (by decide) ht⟩
      intro huses hmem
      rw [List.mem_singleton.1 hmem] at huses
      exact not_uses_first (wellFormed_families alterConstraint (by simp)) rfl rfl huses

theorem uses_iff_addColumn :
    alterColumn.Uses "ALTER ADD COLUMN".toList ↔ "ALTER ADD COLUMN".toList ∉ ["ALTER ADD COLUMN".toList] :=
  uses_iff _ List.mem_cons_self _ (List.mem_cons_of_mem _ List.mem_cons_self)

end ClickHouseRegression.Rbac
