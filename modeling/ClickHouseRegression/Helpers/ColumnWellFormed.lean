import ClickHouseRegression.Helpers.ColumnTypes

/-! The generated types are ones a server accepts, at every depth. The generators only look at
flags of the outermost type; that these flags say enough is the content of this module. -/
namespace ClickHouseRegression.Helpers

namespace DataType

mutual
/-- The types that occur in a type, at any depth. -/
def parts : DataType → List DataType
  | leaf l => [leaf l]
  | nullable d => nullable d :: d.parts
  | lowCardinality d => lowCardinality d :: d.parts
  | tuple ds => tuple ds :: partsAll ds
  | map key value => map key value :: (key.parts ++ value.parts)
  | array d => array d :: d.parts

def partsAll : List DataType → List DataType
  | [] => []
  | d :: ds => d.parts ++ partsAll ds
end

/-- A leaf, or a `Nullable` of a leaf where the server allows it, that supports low cardinality. -/
def LowCardinalityElement (below : Prop) (d : DataType) : Prop :=
  ∃ l : Leaf, l.supportsLowCardinality = true ∧ (d = leaf l ∨ (¬ below ∧ d = nullable (leaf l)))

/-- A leaf that can be a key, or a string of low cardinality. -/
def MapKey (d : DataType) : Prop :=
  ∃ l : Leaf, (l.isValidMapKey = true ∧ d = leaf l) ∨
    (l.isString = true ∧ d = lowCardinality (leaf l))

/-- What the outermost constructor of a type may hold; `below` says that the server is taken to be
below 22.4. -/
def WellFormed (below : Prop) : DataType → Prop
  | nullable d => ∃ l, d = leaf l
  | lowCardinality d => d.LowCardinalityElement below
  | map key _ => key.MapKey
  | _ => True

/-- Every type that occurs in the type is well formed. -/
def Accepted (below : Prop) (d : DataType) : Prop := ∀ e ∈ d.parts, e.WellFormed below

variable {below : Prop}

theorem accepted_leaf (l : Leaf) : (leaf l).Accepted below := by
  intro e he
  rw [parts,List.mem_singleton] at he
  exact he ▸ trivial

theorem accepted_nullable {d : DataType} (h : d.Accepted below)
    (hd : (nullable d).WellFormed below) : (nullable d).Accepted below := by
  rw [Accepted,parts]
  exact List.forall_mem_cons.2 ⟨hd,h⟩

theorem accepted_lowCardinality {d : DataType} (h : d.Accepted below)
    (hd : d.LowCardinalityElement below) : (lowCardinality d).Accepted below := by
  rw [Accepted,parts]
  exact List.forall_mem_cons.2 ⟨hd,h⟩

theorem accepted_array {d : DataType} (h : d.Accepted below) : (array d).Accepted below := by
  rw [Accepted,parts]
  exact List.forall_mem_cons.2 ⟨trivial,h⟩

theorem accepted_map {key value : DataType} (hkey : key.Accepted below)
    (hvalue : value.Accepted below) (h : key.MapKey) : (map key value).Accepted below := by
  rw [Accepted,parts]
  exact List.forall_mem_cons.2 ⟨h,List.forall_mem_append.2 ⟨hkey,hvalue⟩⟩

theorem accepted_tuple {ds : List DataType} (h : ∀ d ∈ ds, d.Accepted below) :
    (tuple ds).Accepted below := by
  have hall : ∀ e ∈ partsAll ds, e.WellFormed below := by
    induction ds with
    | nil =>
      intro e he
      exact absurd he List.not_mem_nil
    | cons d ds ih =>
      rw [partsAll]
      exact List.forall_mem_append.2
        ⟨h d List.mem_cons_self,ih fun d hd => h d (List.mem_cons_of_mem _ hd)⟩
  rw [Accepted,parts]
  exact List.forall_mem_cons.2 ⟨trivial,hall⟩

/-- The flag `is_valid_map_key` is only set on types that can be keys. -/
theorem mapKey_of_isValidMapKey {d : DataType} (h : d.isValidMapKey = true) : d.MapKey := by
  cases d with
  | leaf l => exact ⟨l,.inl ⟨h,rfl⟩⟩
  | lowCardinality d =>
    cases d with
    | leaf l => exact ⟨l,.inr ⟨h,rfl⟩⟩
    | _ => exact Bool.noConfusion h
  | _ => exact Bool.noConfusion h

end DataType

section
variable {numeric : Char → Bool} {server : Option Text}

/-- The server has a version, and where it first differs from 22.4 it is the smaller one. A server
that is only known as 22 does not differ and is not below. -/
def Below224 (numeric : Char → Bool) (server : Option Text) : Prop :=
  ∃ s : ServerVersion numeric, server = some s.text ∧ Order.Below s.values [22,4]

theorem check_of_below224 (hnumeric : ∀ c, c.isDigit = true → numeric c = true)
    (h : Below224 numeric server) :
    checkClickhouseVersion numeric "<22.4".toList server = some true := by
  obtain ⟨s,rfl,hs⟩ := h
  have haccepts := accepts_lt_iff hnumeric (by decide : [22,4].map Number.ofNat ≠ []) s
  exact haccepts.2 ((Order.below_iff _ _).1 hs)

theorem mem_generateLowCard {ds lowCards : List DataType}
    (h : generateLowCardDatatypes numeric server ds = some lowCards) :
    ∀ d ∈ lowCards, ∃ e ∈ ds, d = .lowCardinality e ∧ lowCardAllowed numeric server e = some true := by
  induction ds generalizing lowCards with
  | nil =>
    obtain rfl := Option.some.inj h
    intro d hd
    exact absurd hd List.not_mem_nil
  | cons e ds ih =>
    simp only [generateLowCardDatatypes,Option.bind_eq_bind,Option.bind_eq_some_iff] at h
    obtain ⟨allowed,hallowed,rest,hrest,h⟩ := h
    obtain rfl := Option.some.inj h
    have hmem : ∀ d ∈ rest, ∃ e' ∈ e :: ds, d = .lowCardinality e' ∧
        lowCardAllowed numeric server e' = some true := by
      intro d hd
      obtain ⟨e',he',hd⟩ := ih hrest d hd
      exact ⟨e',List.mem_cons_of_mem _ he',hd⟩
    cases allowed with
    | false => exact hmem
    | true => exact List.forall_mem_cons.2 ⟨⟨e,List.mem_cons_self,rfl,hallowed⟩,hmem⟩

theorem lowCardAllowed_element (hnumeric : ∀ c, c.isDigit = true → numeric c = true)
    {leaves : List Leaf} {d : DataType}
    (hd : d ∈ leaves.map .leaf ++ generateNullableDatatypes (leaves.map .leaf))
    (h : lowCardAllowed numeric server d = some true) :
    d.LowCardinalityElement (Below224 numeric server) := by
  have hflag : d.unwrap.supportsLowCardinality = true := by
    by_contra hne
    rw [lowCardAllowed,if_neg hne] at h
    exact absurd h (by decide)
  rw [lowCardAllowed,if_pos hflag] at h
  rcases List.mem_append.1 hd with hd | hd
  · obtain ⟨l,-,rfl⟩ := List.mem_map.1 hd
    exact ⟨l,hflag,.inl rfl⟩
  · obtain ⟨e,he,rfl⟩ := List.mem_map.1 hd
    obtain ⟨l,-,rfl⟩ := List.mem_map.1 he
    refine ⟨l,hflag,.inr ⟨?_,rfl⟩⟩
    intro hbelow
    rw [check_of_below224 hnumeric hbelow] at h
    exact Bool.noConfusion (Option.some.inj h)

theorem commonComplex_accepted {below : Prop} :
    ∀ d ∈ commonComplexDatatypes, d.Accepted below := by
  intro d hd
  have hstring : (DataType.leaf .string).Accepted below := DataType.accepted_leaf _
  have hfloat : (DataType.lowCardinality (.leaf .float64)).Accepted below :=
    DataType.accepted_lowCardinality (DataType.accepted_leaf _) ⟨.float64,rfl,.inl rfl⟩
  simp only [commonComplexDatatypes,List.mem_cons,List.not_mem_nil,or_false] at hd
  rcases hd with rfl | rfl | rfl
  · exact DataType.accepted_array hstring
  · exact DataType.accepted_map hstring hfloat ⟨.string,.inl ⟨rfl,rfl⟩⟩
  · exact DataType.accepted_tuple (List.forall_mem_singleton.2 hstring)

theorem generateMap_accepted {below : Prop} {ds : List DataType}
    (h : ∀ d ∈ ds, d.Accepted below) : ∀ d ∈ generateMapDatatypes ds, d.Accepted below := by
  intro d hd
  obtain ⟨key,hkey,hd⟩ := List.mem_flatMap.1 hd
  cases hvalid : key.isValidMapKey with
  | false =>
    rw [hvalid] at hd
    exact absurd hd List.not_mem_nil
  | true =>
    rw [hvalid] at hd
    obtain ⟨value,hvalue,rfl⟩ := List.mem_map.1 hd
    exact DataType.accepted_map (h key hkey) (h value hvalue)
      (DataType.mapKey_of_isValidMapKey hvalid)

/-- What is made from accepted types is accepted. -/
theorem allTestDatatypes_accepted {below : Prop} {leaves : List Leaf} {lowCards : List DataType}
    (hlow : ∀ d ∈ lowCards, d.Accepted below) :
    ∀ d ∈ allTestDatatypes (leaves.map .leaf) lowCards, d.Accepted below := by
  have hbasic : ∀ d ∈ leaves.map DataType.leaf, d.Accepted below := by
    intro d hd
    obtain ⟨l,-,rfl⟩ := List.mem_map.1 hd
    exact DataType.accepted_leaf l
  have hnull : ∀ d ∈ generateNullableDatatypes (leaves.map .leaf), d.Accepted below := by
    intro d hd
    obtain ⟨e,he,rfl⟩ := List.mem_map.1 hd
    obtain ⟨l,-,rfl⟩ := List.mem_map.1 he
    exact DataType.accepted_nullable (DataType.accepted_leaf l) ⟨l,rfl⟩
  have helements : ∀ d ∈ elementDatatypes (leaves.map .leaf)
      (generateNullableDatatypes (leaves.map .leaf)) lowCards, d.Accepted below := by
    simp only [elementDatatypes,List.forall_mem_append]
    exact ⟨⟨⟨hbasic,hnull⟩,hlow⟩,commonComplex_accepted⟩
  have harray : ∀ d ∈ generateArrayDatatypes (elementDatatypes (leaves.map .leaf)
      (generateNullableDatatypes (leaves.map .leaf)) lowCards), d.Accepted below := by
    intro d hd
    obtain ⟨e,he,rfl⟩ := List.mem_map.1 hd
    exact DataType.accepted_array (helements e he)
  simp only [allTestDatatypes,List.forall_mem_append,List.forall_mem_singleton]
  exact ⟨⟨⟨⟨⟨hbasic,generateMap_accepted helements⟩,hnull⟩,harray⟩,hlow⟩,
    DataType.accepted_tuple helements⟩

theorem includedOrBasic_leaves {leaves : List Leaf} {basic : List DataType}
    (h : includedOrBasic numeric server (leaves.map .leaf) = some basic) :
    ∃ leaves' : List Leaf, basic = leaves'.map .leaf := by
  rw [includedOrBasic] at h
  split at h
  · obtain ⟨dt,-,rfl⟩ := Option.map_eq_some_iff.1 h
    exact ⟨_,rfl⟩
  · obtain rfl := Option.some.inj h
    exact ⟨leaves,rfl⟩

/-- Every type at any depth of a generated column is well formed on the server. -/
theorem generateAllColumnTypes_wellFormed (hnumeric : ∀ c, c.isDigit = true → numeric c = true)
    {leaves : List Leaf} {columns : List NamedColumn}
    (h : generateAllColumnTypes numeric server (leaves.map .leaf) = some columns) :
    ∀ c ∈ columns, ∀ d ∈ c.datatype.parts, d.WellFormed (Below224 numeric server) := by
  simp only [generateAllColumnTypes,Option.bind_eq_bind,Option.bind_eq_some_iff] at h
  obtain ⟨basic,hbasic,lowCards,hlow,h⟩ := h
  obtain rfl := Option.some.inj h
  obtain ⟨leaves',rfl⟩ := includedOrBasic_leaves hbasic
  have haccepted : ∀ d ∈ lowCards, d.Accepted (Below224 numeric server) := by
    intro d hd
    obtain ⟨e,he,rfl,hallowed⟩ := mem_generateLowCard hlow d hd
    have helement := lowCardAllowed_element hnumeric he hallowed
    refine DataType.accepted_lowCardinality ?_ helement
    obtain ⟨l,-,rfl | ⟨-,rfl⟩⟩ := helement
    · exact DataType.accepted_leaf l
    · exact DataType.accepted_nullable (DataType.accepted_leaf l) ⟨l,rfl⟩
  intro c hc
  obtain ⟨d,hd,rfl⟩ := List.mem_map.1 hc
  exact allTestDatatypes_accepted haccepted d hd

end

/-- Server 22 comes before 22.4, but at its precision it is not below: a `Nullable` of a string
gets a low cardinality. -/
theorem generateAllColumnTypes_server22 :
    (some "22".toList : Option Text) = some (ServerVersion.ofNats [22] (by decide)).text ∧
      ([22] : List ℕ) < [22,4] ∧
      ¬ ∀ columns, generateAllColumnTypes Char.isDigit (some "22".toList) [.leaf .string] =
          some columns →
        ∀ c ∈ columns, ∀ d ∈ c.datatype.parts, d.WellFormed (([22] : List ℕ) < [22,4]) := by
  have hlt : ([22] : List ℕ) < [22,4] := by decide
  refine ⟨rfl,hlt,?_⟩
  intro hall
  let string : DataType := .leaf .string
  have hgenerated : generateAllColumnTypes Char.isDigit (some "22".toList) [string] =
      some ((allTestDatatypes [string]
        [.lowCardinality string,.lowCardinality (.nullable string)]).map column) := rfl
  have hcolumn : column (.lowCardinality (.nullable string)) ∈ (allTestDatatypes [string]
      [.lowCardinality string,.lowCardinality (.nullable string)]).map column := by
    refine List.mem_map_of_mem (List.mem_append_left _ (List.mem_append_right _ ?_))
    exact List.mem_cons_of_mem _ List.mem_cons_self
  obtain ⟨l,-,hl | ⟨hbelow,-⟩⟩ := hall _ hgenerated _ hcolumn _ List.mem_cons_self
  · exact DataType.noConfusion hl
  · exact hbelow hlt

/-- The columns made from a string and a float on a server below 22.4. -/
theorem generateAllColumnTypes_wellFormed_string :
    Below224 Char.isDigit (some "22.3".toList) ∧
      ∃ columns, generateAllColumnTypes Char.isDigit (some "22.3".toList)
          ([.string,.float32].map .leaf) = some columns ∧
        ∀ c ∈ columns, ∀ d ∈ c.datatype.parts,
          d.WellFormed (Below224 Char.isDigit (some "22.3".toList)) := by
  refine ⟨⟨ServerVersion.ofNats [22,3] (by decide),rfl,[22],3,4,[],[],rfl,rfl,by decide⟩,_,rfl,?_⟩
  have hgenerated : generateAllColumnTypes Char.isDigit (some "22.3".toList)
      ([.string,.float32].map .leaf) = some _ := rfl
  exact generateAllColumnTypes_wellFormed (fun _ h => h) hgenerated

end ClickHouseRegression.Helpers
