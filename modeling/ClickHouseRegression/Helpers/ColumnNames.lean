import ClickHouseRegression.Helpers.ColumnTypes
import ClickHouseRegression.Helpers.Literals
import ClickHouseRegression.Code.Delimited

/-! The name of a column determines its type. Every bracket and comma of the type becomes the
separator `_`, and what follows a separator tells whether the type goes on. -/
namespace ClickHouseRegression.Helpers
open Sql Delimited

theorem columnText_append (a b : Text) : columnText (a ++ b) = columnText a ++ columnText b := by
  simp [columnText,lower,replace]

theorem columnText_cons (c : Char) (t : Text) :
    columnText (c :: t) = columnText [c] ++ columnText t := columnText_append [c] t

theorem columnText_call (f a : Text) :
    columnText (call f a) = columnText f ++ '_' :: (columnText a ++ ['_']) := by
  rw [call,columnText_append,columnText_cons,columnText_append]
  rfl

/-- Signs and digits stay as they are. -/
theorem columnText_singleton {c : Char} (h : c = '-' ∨ c.isDigit = true) :
    columnText [c] = [c] := by
  rcases h with rfl | hd
  · rfl
  · have hne : ∀ s : Char, s.isDigit = false → c ≠ s := by
      rintro s hs rfl
      rw [hd] at hs
      exact Bool.noConfusion hs
    have hlower : c.toLower = c := by
      rw [Char.toLower,dif_neg]
      rintro ⟨hA,-⟩
      simp only [Char.isDigit,Bool.and_eq_true,decide_eq_true_eq,UInt32.le_iff_toNat_le] at hd hA
      have h9 : '9'.val.toNat = 57 := rfl
      have h65 : 'A'.val.toNat = 65 := rfl
      omega
    simp only [columnText,lower,replace,List.map_cons,List.map_nil,if_neg (hne '(' rfl),
      if_neg (hne ')' rfl),if_neg (hne ',' rfl),hlower]

theorem columnText_str (n : ℤ) : columnText (str n) = str n := by
  have h : ∀ t : Text, (∀ c ∈ t, c = '-' ∨ c.isDigit = true) → columnText t = t := by
    intro t ht
    induction t with
    | nil => rfl
    | cons c t ih =>
      rw [columnText_cons,columnText_singleton (ht c List.mem_cons_self),
        ih fun c hc => ht c (List.mem_cons_of_mem _ hc)]
      rfl
  exact h (str n) fun c hc => str_chars n hc

/-- What follows the first word of a type. -/
inductive Kind
  | plain
  | parameter
  | nullable
  | lowCardinality
  | tuple
  | map
  | array
  deriving DecidableEq

namespace Leaf

/-- The name of a leaf without its parameter. -/
def word : Leaf → Text
  | decimal t _ => t.base
  | dateTime64 _ _ => "DateTime64".toList
  | fixedString _ => "FixedString".toList
  | l => l.name

def parameter : Leaf → Option ℤ
  | decimal _ scale => some scale
  | dateTime64 precision _ => some precision
  | fixedString length => some length
  | _ => none

theorem name_of_parameter (l : Leaf) :
    l.name = match l.parameter with
      | none => l.word
      | some n => call l.word (str n) := by
  cases l <;> rfl

end Leaf

namespace DataType

def word : DataType → Text
  | leaf l => l.word
  | nullable _ => "Nullable".toList
  | lowCardinality _ => "LowCardinality".toList
  | tuple _ => "Tuple".toList
  | map _ _ => "Map".toList
  | array _ => "Array".toList

def kind : DataType → Kind
  | leaf l => if l.parameter.isSome then .parameter else .plain
  | nullable _ => .nullable
  | lowCardinality _ => .lowCardinality
  | tuple _ => .tuple
  | map _ _ => .map
  | array _ => .array

end DataType

def intTypes : List IntType :=
  [.int8,.int16,.int32,.int64,.int128,.int256,.uint8,.uint16,.uint32,.uint64,.uint128,.uint256]

def decimalTypes : List DecimalType := [.decimal32,.decimal64,.decimal128,.decimal256]

/-- The leaves that have neither a width nor a parameter. -/
def simpleLeaves : List Leaf :=
  [.float32,.float64,.date,.date32,.dateTime,.string,.boolean,.uuid]

/-- The first words of the types that take a parameter or other types. -/
def openingWords : List (Text × Kind) :=
  [("DateTime64".toList,.parameter),("FixedString".toList,.parameter),
    ("Nullable".toList,.nullable),("LowCardinality".toList,.lowCardinality),
    ("Tuple".toList,.tuple),("Map".toList,.map),("Array".toList,.array)]

/-- The first words of all types. -/
def words : List (Text × Kind) :=
  intTypes.map (fun t => (t.name,Kind.plain)) ++ simpleLeaves.map (fun l => (l.name,Kind.plain)) ++
    decimalTypes.map (fun t => (t.base,Kind.parameter)) ++ openingWords

theorem mem_words (d : DataType) : (d.word,d.kind) ∈ words := by
  cases d with
  | leaf l =>
    cases l with
    | int t => cases t <;> decide +kernel
    | decimal t scale =>
      have h : ∀ t ∈ decimalTypes, (t.base,.parameter) ∈ words := by decide +kernel
      exact h t (by cases t <;> decide)
    | dateTime64 precision before228 =>
      exact (by decide +kernel : ("DateTime64".toList,.parameter) ∈ words)
    | fixedString length =>
      exact (by decide +kernel : ("FixedString".toList,.parameter) ∈ words)
    | _ => decide +kernel
  | nullable d => exact (by decide +kernel : ("Nullable".toList,.nullable) ∈ words)
  | lowCardinality d =>
    exact (by decide +kernel : ("LowCardinality".toList,.lowCardinality) ∈ words)
  | tuple ds => exact (by decide +kernel : ("Tuple".toList,.tuple) ∈ words)
  | map key value => exact (by decide +kernel : ("Map".toList,.map) ∈ words)
  | array d => exact (by decide +kernel : ("Array".toList,.array) ∈ words)

/-- The words stay apart in lower case and none holds the separator. -/
theorem words_apart : (words.map fun w => columnText w.1).Nodup ∧
    ∀ w ∈ words, '_' ∉ columnText w.1 ∧ columnText w.1 ≠ [] := by
  decide +kernel

theorem columnText_word (d : DataType) : '_' ∉ columnText d.word ∧ columnText d.word ≠ [] :=
  words_apart.2 _ (mem_words d)

/-- The first word of the name tells the constructor. -/
theorem word_determines {d d' : DataType} (h : columnText d.word = columnText d'.word) :
    d.word = d'.word ∧ d.kind = d'.kind := by
  have hw := List.inj_on_of_nodup_map words_apart.1 (mem_words d) (mem_words d') h
  exact ⟨congrArg Prod.fst hw,congrArg Prod.snd hw⟩

/-- What follows the first word in the name of a column. -/
def columnTail : DataType → Text
  | .leaf l => match l.parameter with
    | none => []
    | some n => '_' :: (str n ++ ['_'])
  | .nullable d => '_' :: (columnName d ++ ['_'])
  | .lowCardinality d => '_' :: (columnName d ++ ['_'])
  | .tuple ds => '_' :: (columnText (join (DataType.names ds)) ++ ['_'])
  | .map key value => '_' :: (columnName key ++ '_' :: (columnName value ++ ['_']))
  | .array d => '_' :: (columnName d ++ ['_'])

theorem columnName_split (d : DataType) : columnName d = columnText d.word ++ columnTail d := by
  cases d with
  | leaf l =>
    rw [columnName,DataType.name,l.name_of_parameter,columnTail]
    cases l.parameter with
    | none => exact (List.append_nil _).symm
    | some n => exact (columnText_call _ _).trans (by rw [columnText_str]; rfl)
  | nullable d => exact columnText_call _ _
  | lowCardinality d => exact columnText_call _ _
  | tuple ds => exact columnText_call _ _
  | map key value =>
    rw [columnName,DataType.name,columnText_call,columnText_append,columnText_append,columnTail,
      List.append_assoc,List.append_assoc]
    rfl
  | array d => exact columnText_call _ _

theorem columnTail_stops (d : DataType) {r : Text} (h : Stops '_' r) :
    Stops '_' (columnTail d ++ r) := by
  cases d with
  | leaf l =>
    rw [columnTail]
    cases l.parameter with
    | none => exact h
    | some n => exact (stops_cons _ _ _).2 rfl
  | _ => exact (stops_cons _ _ _).2 rfl

theorem columnName_start (d : DataType) : ∃ c t, columnName d = c :: t ∧ c ≠ '_' := by
  obtain ⟨hsep,hne⟩ := columnText_word d
  obtain ⟨c,t,hct⟩ := List.exists_cons_of_ne_nil hne
  refine ⟨c,t ++ columnTail d,by rw [columnName_split,hct]; rfl,?_⟩
  rintro rfl
  exact hsep (hct ▸ List.mem_cons_self)

/-- Two names with stopping rests start with the same word. -/
theorem columnName_word {d d' : DataType} {r r' : Text} (hr : Stops '_' r) (hr' : Stops '_' r')
    (h : columnName d ++ r = columnName d' ++ r') :
    d.word = d'.word ∧ d.kind = d'.kind ∧ columnTail d ++ r = columnTail d' ++ r' := by
  rw [columnName_split,columnName_split,List.append_assoc,List.append_assoc] at h
  obtain ⟨hw,ht⟩ := word_unique '_' (columnText_word d).1 (columnText_word d').1
    (columnTail_stops d hr) (columnTail_stops d' hr') h
  obtain ⟨hw,hk⟩ := word_determines hw
  exact ⟨hw,hk,ht⟩

theorem names_eq_map (ds : List DataType) : DataType.names ds = ds.map DataType.name := by
  induction ds with
  | nil => rfl
  | cons d ds ih => rw [DataType.names,ih,List.map_cons]

/-- The body of a tuple is its elements, each closed by a separator. -/
theorem columnText_join (d : DataType) (ds : List DataType) :
    columnText (join (DataType.names (d :: ds))) ++ ['_'] = closeAll '_' columnName (d :: ds) := by
  induction ds generalizing d with
  | nil => simp [names_eq_map,join,closeAll,columnName]
  | cons d' ds ih =>
    have hjoin : join (DataType.names (d :: d' :: ds)) =
        d.name ++ ',' :: join (DataType.names (d' :: ds)) := by
      simp [names_eq_map,join,List.intercalate_cons_cons]
    rw [hjoin,columnText_append,columnText_cons,List.append_assoc,List.append_assoc,ih d',
      closeAll_cons d]
    rfl

/-- The body of an empty tuple is not the body of another one. -/
theorem tupleBody_unique {ds ds' : List DataType} {r r' : Text} (hr : Stops '_' r)
    (hr' : Stops '_' r') (hds : ∀ d ∈ ds, UniqueAt '_' columnName DataType.name d)
    (h : columnText (join (DataType.names ds)) ++ ['_'] ++ r =
      columnText (join (DataType.names ds')) ++ ['_'] ++ r') :
    DataType.names ds = DataType.names ds' ∧ r = r' := by
  have hstart : ∀ (d : DataType) (ds : List DataType) (r r' : Text),
      '_' :: r ≠ closeAll '_' columnName (d :: ds) ++ r' := by
    intro d ds r r' he
    obtain ⟨c,t,hc,hne⟩ := columnName_start d
    rw [closeAll_cons,hc] at he
    exact hne (List.cons.inj he).1.symm
  cases ds with
  | nil =>
    cases ds' with
    | nil => exact ⟨rfl,List.append_cancel_left h⟩
    | cons d' ds' =>
      rw [columnText_join d' ds'] at h
      exact absurd h (hstart d' ds' r r')
  | cons d ds =>
    cases ds' with
    | nil =>
      rw [columnText_join d ds] at h
      exact absurd h.symm (hstart d ds r' r)
    | cons d' ds' =>
      rw [columnText_join,columnText_join] at h
      rw [names_eq_map,names_eq_map]
      exact closeAll_unique columnName_start hds (d' :: ds') r r' hr hr' h

theorem leaf_kind (l : Leaf) :
    (DataType.leaf l).kind = .plain ∨ (DataType.leaf l).kind = .parameter := by
  rw [DataType.kind]
  cases l.parameter with
  | none => exact .inl rfl
  | some n => exact .inr rfl

theorem underscore_not_mem_str (n : ℤ) : '_' ∉ str n := by
  intro h
  rcases str_chars n h with h | h
  · exact absurd h (by decide)
  · exact absurd h (by decide)

theorem leaf_unique (l : Leaf) : UniqueAt '_' columnName DataType.name (.leaf l) := by
  intro d' r r' hr hr' h
  obtain ⟨hw,hk,ht⟩ := columnName_word hr hr' h
  cases d' with
  | leaf l' =>
    have hw : l.word = l'.word := hw
    simp only [DataType.name,l.name_of_parameter,l'.name_of_parameter]
    simp only [columnTail] at ht
    simp only [DataType.kind] at hk
    cases hp : l.parameter with
    | none =>
      cases hp' : l'.parameter with
      | none =>
        rw [hp,hp'] at ht
        exact ⟨hw,ht⟩
      | some n' =>
        rw [hp,hp'] at hk
        exact Kind.noConfusion hk
    | some n =>
      cases hp' : l'.parameter with
      | none =>
        rw [hp,hp'] at hk
        exact Kind.noConfusion hk
      | some n' =>
        rw [hp,hp'] at ht
        simp only [List.cons_append,List.append_assoc,List.nil_append] at ht
        obtain ⟨hn,hr⟩ := word_unique '_' (underscore_not_mem_str n) (underscore_not_mem_str n')
          (by simp) (by simp) (List.cons.inj ht).2
        exact ⟨congrArg₂ call hw hn,(List.cons.inj hr).2⟩
  | _ => rcases leaf_kind l with hl | hl <;> exact Kind.noConfusion (hl.symm.trans hk)

theorem leaf_kind_ne (l : Leaf) {k : Kind} (hplain : k ≠ .plain) (hparameter : k ≠ .parameter) :
    k ≠ (DataType.leaf l).kind := by
  rcases leaf_kind l with hl | hl
  · rw [hl]
    exact hplain
  · rw [hl]
    exact hparameter

/-- A type with one element, read up to its closing separator. -/
theorem wrapped_unique {d d' : DataType} {r r' : Text}
    (hd : UniqueAt '_' columnName DataType.name d)
    (ht : '_' :: (columnName d ++ ['_']) ++ r = '_' :: (columnName d' ++ ['_']) ++ r') :
    d.name = d'.name ∧ r = r' := by
  simp only [List.cons_append,List.append_assoc,List.nil_append] at ht
  exact hd.closed (List.cons.inj ht).2

mutual
/-- The name of a column, before a rest that stops it, is read in one way only. -/
theorem columnName_unique (d : DataType) : UniqueAt '_' columnName DataType.name d := by
  cases d with
  | leaf l => exact leaf_unique l
  | nullable d =>
    intro d' r r' hr hr' h
    obtain ⟨-,hk,ht⟩ := columnName_word hr hr' h
    cases d' with
    | nullable d' =>
      obtain ⟨hd,hr⟩ := wrapped_unique (columnName_unique d) ht
      exact ⟨congrArg (call _) hd,hr⟩
    | leaf l => exact absurd hk (leaf_kind_ne l nofun nofun)
    | _ => exact Kind.noConfusion hk
  | lowCardinality d =>
    intro d' r r' hr hr' h
    obtain ⟨-,hk,ht⟩ := columnName_word hr hr' h
    cases d' with
    | lowCardinality d' =>
      obtain ⟨hd,hr⟩ := wrapped_unique (columnName_unique d) ht
      exact ⟨congrArg (call _) hd,hr⟩
    | leaf l => exact absurd hk (leaf_kind_ne l nofun nofun)
    | _ => exact Kind.noConfusion hk
  | tuple ds =>
    intro d' r r' hr hr' h
    obtain ⟨-,hk,ht⟩ := columnName_word hr hr' h
    cases d' with
    | tuple ds' =>
      obtain ⟨hds,hr⟩ := tupleBody_unique hr hr' (columnNames_unique ds) (List.cons.inj ht).2
      exact ⟨congrArg (fun names => call _ (join names)) hds,hr⟩
    | leaf l => exact absurd hk (leaf_kind_ne l nofun nofun)
    | _ => exact Kind.noConfusion hk
  | map key value =>
    intro d' r r' hr hr' h
    obtain ⟨-,hk,ht⟩ := columnName_word hr hr' h
    cases d' with
    | map key' value' =>
      simp only [columnTail,List.cons_append,List.append_assoc,List.nil_append] at ht
      obtain ⟨hkey,ht⟩ := (columnName_unique key).closed (List.cons.inj ht).2
      obtain ⟨hvalue,hr⟩ := (columnName_unique value).closed ht
      exact ⟨by rw [DataType.name,DataType.name,hkey,hvalue],hr⟩
    | leaf l => exact absurd hk (leaf_kind_ne l nofun nofun)
    | _ => exact Kind.noConfusion hk
  | array d =>
    intro d' r r' hr hr' h
    obtain ⟨-,hk,ht⟩ := columnName_word hr hr' h
    cases d' with
    | array d' =>
      obtain ⟨hd,hr⟩ := wrapped_unique (columnName_unique d) ht
      exact ⟨congrArg (call _) hd,hr⟩
    | leaf l => exact absurd hk (leaf_kind_ne l nofun nofun)
    | _ => exact Kind.noConfusion hk

theorem columnNames_unique (ds : List DataType) :
    ∀ d ∈ ds, UniqueAt '_' columnName DataType.name d := by
  cases ds with
  | nil => exact fun d hd => absurd hd List.not_mem_nil
  | cons d ds => exact List.forall_mem_cons.2 ⟨columnName_unique d,columnNames_unique ds⟩
end

theorem columnName_injective {d d' : DataType} (h : columnName d = columnName d') :
    d.name = d'.name := by
  have h' : columnName d ++ [] = columnName d' ++ [] := by rw [h]
  exact (columnName_unique d d' [] [] (stops_nil _) (stops_nil _) h').1

theorem kind_of_name {d d' : DataType} (h : d.name = d'.name) : d.kind = d'.kind := by
  have h' : columnName d ++ [] = columnName d' ++ [] := by rw [columnName,columnName,h]
  exact (columnName_word (stops_nil _) (stops_nil _) h').2.1

theorem name_map_inj {key key' value value' : DataType}
    (h : (DataType.map key value).name = (DataType.map key' value').name) :
    key.name = key'.name ∧ value.name = value'.name := by
  have hc : columnName (.map key value) ++ [] = columnName (.map key' value') ++ [] := by
    rw [columnName,columnName,h]
  obtain ⟨-,-,ht⟩ := columnName_word (stops_nil _) (stops_nil _) hc
  simp only [columnTail,List.append_nil] at ht
  obtain ⟨hkey,ht⟩ := (columnName_unique key).closed (List.cons.inj ht).2
  exact ⟨hkey,((columnName_unique value).closed ht).1⟩

/-- The types of a list are of the given kinds and have different names. -/
structure Apart (ks : List Kind) (ds : List DataType) : Prop where
  kinds : ∀ d ∈ ds, d.kind ∈ ks
  names : ds.Pairwise fun d d' => d.name ≠ d'.name

theorem Apart.append {ks ks' : List Kind} {ds ds' : List DataType} (h : Apart ks ds)
    (h' : Apart ks' ds') (hks : ∀ k ∈ ks, k ∉ ks') : Apart (ks ++ ks') (ds ++ ds') := by
  constructor
  · intro d hd
    rcases List.mem_append.1 hd with hd | hd
    · exact List.mem_append_left _ (h.kinds d hd)
    · exact List.mem_append_right _ (h'.kinds d hd)
  · refine List.pairwise_append.2 ⟨h.names,h'.names,?_⟩
    intro d hd d' hd' he
    exact hks d.kind (h.kinds d hd) (kind_of_name he ▸ h'.kinds d' hd')

theorem Apart.sublist {ks : List Kind} {ds ds' : List DataType} (h : Apart ks ds)
    (hs : ds'.Sublist ds) : Apart ks ds' :=
  ⟨fun d hd => h.kinds d (hs.subset hd),h.names.sublist hs⟩

/-- A constructor that keeps names apart makes one kind out of a list. -/
theorem Apart.wrap {ks : List Kind} {ds : List DataType} (h : Apart ks ds)
    {f : DataType → DataType} {k : Kind} (hk : ∀ d, (f d).kind = k)
    (hf : ∀ d d', (f d).name = (f d').name → d.name = d'.name) : Apart [k] (ds.map f) := by
  constructor
  · intro d hd
    obtain ⟨e,-,rfl⟩ := List.mem_map.1 hd
    rw [hk]
    exact List.mem_singleton_self k
  · rw [List.pairwise_map]
    exact h.names.imp fun hne he => hne (hf _ _ he)

theorem leaves_apart {leaves : List Leaf} (h : (leaves.map Leaf.name).Nodup) :
    Apart [.plain,.parameter] (leaves.map DataType.leaf) := by
  constructor
  · intro d hd
    obtain ⟨l,-,rfl⟩ := List.mem_map.1 hd
    rcases leaf_kind l with hl | hl
    · rw [hl]
      decide
    · rw [hl]
      decide
  · rw [List.pairwise_map]
    exact List.pairwise_map.1 h

theorem commonComplex_apart : Apart [.array,.map,.tuple] commonComplexDatatypes := by
  constructor
  · simp [commonComplexDatatypes,DataType.kind]
  · have hkind : commonComplexDatatypes.Pairwise fun d d' => d.kind ≠ d'.kind := by
      simp [commonComplexDatatypes,DataType.kind]
    exact hkind.imp fun hne he => hne (kind_of_name he)

/-- The products of keys and values are apart because a map name is read in one way. -/
theorem generateMap_apart {ks : List Kind} {ds : List DataType} (h : Apart ks ds) :
    Apart [.map] (generateMapDatatypes ds) := by
  have hmem : ∀ key, ∀ d ∈ (if key.isValidMapKey then ds.map (DataType.map key) else []),
      ∃ value, d = .map key value := by
    intro key d hd
    cases hkey : key.isValidMapKey with
    | false =>
      rw [hkey] at hd
      exact absurd hd List.not_mem_nil
    | true =>
      rw [hkey] at hd
      obtain ⟨value,-,rfl⟩ := List.mem_map.1 hd
      exact ⟨value,rfl⟩
  constructor
  · intro d hd
    obtain ⟨key,-,hd⟩ := List.mem_flatMap.1 hd
    obtain ⟨value,rfl⟩ := hmem key d hd
    exact List.mem_singleton_self _
  · rw [generateMapDatatypes,List.pairwise_flatMap]
    constructor
    · intro key _
      cases key.isValidMapKey with
      | false => exact List.Pairwise.nil
      | true =>
        have hwrap : Apart [.map] (ds.map (DataType.map key)) :=
          h.wrap (fun _ => rfl) fun _ _ he => (name_map_inj he).2
        exact hwrap.names
    · refine h.names.imp ?_
      intro key key' hne d hd d' hd' he
      obtain ⟨value,rfl⟩ := hmem key d hd
      obtain ⟨value',rfl⟩ := hmem key' d' hd'
      exact hne (name_map_inj he).1

/-- The six families of generated types are apart. -/
theorem allTestDatatypes_apart {basic lowCards : List DataType}
    (hbasic : Apart [.plain,.parameter] basic)
    (hlow : Apart [.lowCardinality] lowCards) :
    ∃ ks, Apart ks (allTestDatatypes basic lowCards) := by
  have hnull : Apart [.nullable] (generateNullableDatatypes basic) :=
    hbasic.wrap (fun _ => rfl) fun _ _ he => call_injective _ he
  have helements := ((hbasic.append hnull (by decide)).append hlow (by decide)).append
    commonComplex_apart (by decide)
  have harray : Apart [.array] (generateArrayDatatypes _) :=
    helements.wrap (fun _ => rfl) fun _ _ he => call_injective _ he
  have htuple : Apart [.tuple] [generateTupleDatatype (elementDatatypes basic
      (generateNullableDatatypes basic) lowCards)] :=
    ⟨fun d hd => List.mem_singleton.1 hd ▸ List.mem_singleton_self _,List.pairwise_singleton _ _⟩
  exact ⟨_,((((hbasic.append (generateMap_apart helements) (by decide)).append hnull
    (by decide)).append harray (by decide)).append hlow (by decide)).append htuple (by decide)⟩

section
variable (numeric : Char → Bool) (server : Option Text)

theorem generateLowCard_sublist {ds lowCards : List DataType}
    (h : generateLowCardDatatypes numeric server ds = some lowCards) :
    lowCards.Sublist (ds.map .lowCardinality) := by
  induction ds generalizing lowCards with
  | nil =>
    obtain rfl := Option.some.inj h
    exact List.Sublist.refl _
  | cons d ds ih =>
    simp only [generateLowCardDatatypes,Option.bind_eq_bind,Option.bind_eq_some_iff] at h
    obtain ⟨allowed,-,rest,hrest,h⟩ := h
    obtain rfl := Option.some.inj h
    cases allowed with
    | false => exact (ih hrest).cons _
    | true => exact (ih hrest).cons_cons _

theorem basicDatatypes_apart {basic : List DataType}
    (h : basicDatatypes numeric server = some basic) : Apart [.plain,.parameter] basic := by
  obtain ⟨dt,hdt,rfl⟩ := Option.map_eq_some_iff.1 h
  obtain ⟨before228,-,rfl⟩ := Option.map_eq_some_iff.1 hdt
  apply leaves_apart
  cases before228 <;> decide +kernel

/-- A column name determines the type, and the generated columns have different names. -/
theorem columnNames_distinct :
    (∀ d d', (column d).name = (column d').name → d.name = d'.name) ∧
      ∀ (leaves : List Leaf) (columns : List NamedColumn), (leaves.map Leaf.name).Nodup →
        generateAllColumnTypes numeric server (leaves.map .leaf) = some columns →
          (columns.map NamedColumn.name).Nodup := by
  refine ⟨fun d d' h => columnName_injective h,?_⟩
  intro leaves columns hleaves h
  simp only [generateAllColumnTypes,Option.bind_eq_bind,Option.bind_eq_some_iff] at h
  obtain ⟨basic,hbasic,lowCards,hlow,h⟩ := h
  obtain rfl := Option.some.inj h
  have hb : Apart [.plain,.parameter] basic := by
    rw [includedOrBasic] at hbasic
    split at hbasic
    · exact basicDatatypes_apart numeric server hbasic
    · obtain rfl := Option.some.inj hbasic
      exact leaves_apart hleaves
  have hnull : Apart [.nullable] (generateNullableDatatypes basic) :=
    hb.wrap (fun _ => rfl) fun _ _ he => call_injective _ he
  have hwrap : Apart [.lowCardinality] ((basic ++ generateNullableDatatypes basic).map
      .lowCardinality) :=
    (hb.append hnull (by decide)).wrap (fun _ => rfl) fun _ _ he => call_injective _ he
  have hl := hwrap.sublist (generateLowCard_sublist numeric server hlow)
  obtain ⟨ks,hall⟩ := allTestDatatypes_apart hb hl
  rw [List.map_map,List.Nodup,List.pairwise_map]
  exact hall.names.imp fun hne he => hne (columnName_injective he)

end

/-- The columns made from a string and a decimal, and two types whose names nearly agree. -/
theorem columnNames_distinct_string :
    (column (.tuple [.array (.leaf .string)])).name ≠ (column (.tuple [.array (.leaf .string),
        .leaf .string])).name ∧
      ∃ columns, generateAllColumnTypes Char.isDigit (some "22.3".toList)
          ([.string,.decimal .decimal32 2].map .leaf) = some columns ∧
        (columns.map NamedColumn.name).Nodup := by
  refine ⟨?_,_,rfl,?_⟩
  · intro h
    have hname := (columnNames_distinct Char.isDigit none).1 _ _ h
    exact absurd hname (by decide +kernel)
  · exact (columnNames_distinct Char.isDigit (some "22.3".toList)).2
      [.string,.decimal .decimal32 2] _ (by decide +kernel) rfl

end ClickHouseRegression.Helpers
