import ClickHouseRegression.Helpers.Tables
import ClickHouseRegression.Helpers.Literals

/-! The statement of `Table.insert_test_data` splits back into the values of its columns. -/
namespace ClickHouseRegression.Helpers
open Sql Fallible

variable {R : RandomSource}

/-- What the loop over the rows needs of the values a column yields. -/
def Rows (rowCount : ℕ) (values : List Text) : Prop :=
  values.length = rowCount ∧ ∀ t ∈ values, Whole t

theorem extraValues_yields (d : DataType) (rowCount : ℕ) :
    Yields (rowCount ≤ 3 ∨ d.fixedStringsPositive = true) (Rows (rowCount-3))
      (extraValues d rowCount : Rand R (List Text)) := by
  unfold extraValues
  split
  case isTrue hlt =>
    have hvalue : ∀ x ∈ List.replicate (rowCount-3) d,
        Yields (rowCount ≤ 3 ∨ d.fixedStringsPositive = true) Whole (x.randValue : Rand R Text) := by
      intro x hx
      rw [List.eq_of_mem_replicate hx]
      exact d.randValue_yields.mono (fun h => h.resolve_left (by omega)) fun _ h => h
    refine (Yields.mapM hvalue).mono id fun r hr => ?_
    rw [List.length_replicate] at hr
    exact hr
  case isFalse hle =>
    have hnone : rowCount-3 = 0 := by omega
    rw [hnone]
    exact .pure ⟨rfl,by simp⟩

theorem columnValues_yields (d : DataType) (rowCount cardinality : ℕ) (hcard : 1 ≤ cardinality) :
    Yields (rowCount ≤ 3 ∨ d.fixedStringsPositive = true) (Rows rowCount)
      (columnValues d rowCount cardinality : Rand R (List Text)) := by
  refine (extraValues_yields d rowCount).bind fun extra hextra => ?_
  have hwhole : ∀ t ∈ (List.replicate cardinality
      ([d.maxValue,d.minValue,d.zeroOrNullValue] ++ extra)).flatten, Whole t := by
    intro t ht
    obtain ⟨l,hl,ht⟩ := List.mem_flatten.1 ht
    rw [List.eq_of_mem_replicate hl] at ht
    rcases List.mem_append.1 ht with ht | ht
    · simp only [List.mem_cons,List.not_mem_nil,or_false] at ht
      rcases ht with rfl | rfl | rfl
      · exact d.maxValue_whole
      · exact d.minValue_whole
      · exact d.zeroOrNullValue_whole
    · exact hextra.2 t ht
  have hlong : rowCount ≤ (List.replicate cardinality
      ([d.maxValue,d.minValue,d.zeroOrNullValue] ++ extra)).flatten.length := by
    have hone : rowCount ≤ ([d.maxValue,d.minValue,d.zeroOrNullValue] ++ extra).length := by
      rw [List.length_append,hextra.1]
      simp only [List.length_cons,List.length_nil]
      omega
    rw [List.length_flatten,List.map_replicate,List.sum_replicate,smul_eq_mul]
    exact hone.trans (Nat.le_mul_of_pos_left _ hcard)
  refine (Yields.mapM (P := Whole) ?_).mono id fun r hr => ?_
  · intro i hi
    have hlt := (List.mem_range.1 hi).trans_le hlong
    exact .item (fun t ht => hwhole t (List.mem_of_getElem? ht)) fun _ => hlt
  · rw [List.length_range] at hr
    exact hr

theorem columnsValues_yields {rowCount cardinality : ℕ} (hcard : 1 ≤ cardinality)
    (columns : List (Column R)) (random : Option R.State)
    (hfixed : rowCount ≤ 3 ∨ ∀ c ∈ columns, c.datatype.fixedStringsPositive = true) :
    ∃ values, columnsValues rowCount cardinality random columns = some values ∧
      values.length = columns.length ∧ ∀ v ∈ values, Rows rowCount v := by
  induction columns generalizing random with
  | nil => exact ⟨[],rfl,rfl,by simp⟩
  | cons c columns ih =>
    have hyields := columnValues_yields (R := R) c.datatype rowCount cardinality hcard
    obtain ⟨v,s,hv⟩ := hyields.returns (hfixed.imp_right fun h => h c List.mem_cons_self)
      (random.getD c.random)
    obtain ⟨values,hvalues,hlen,hrows⟩ := ih (random.map fun _ => s)
      (hfixed.imp_right fun h c' hc' => h c' (List.mem_cons_of_mem c hc'))
    refine ⟨v :: values,?_,by rw [List.length_cons,hlen,List.length_cons],?_⟩
    · rw [columnsValues,hv]
      show (columnsValues rowCount cardinality (random.map fun _ => s) columns).bind _ = _
      rw [hvalues]
      rfl
    · intro u hu
      rcases List.mem_cons.1 hu with rfl | hu
      · exact hyields.holds _ _ _ hv
      · exact hrows u hu

/-- The cells of a row, one of each column. -/
def rowCells (values : List (List Text)) (row : ℕ) : List Text := values.map fun v => v.getD row []

/-- A row in its parentheses. -/
def parens (cells : List Text) : Text := '(' :: (join cells ++ [')'])

section
variable {rowCount : ℕ} {values : List (List Text)} (hrows : ∀ v ∈ values, Rows rowCount v)
include hrows

theorem rowText_eq {row : ℕ} (hrow : row < rowCount) :
    rowText values row = some (parens (rowCells values row)) := by
  have hcells : values.mapM (fun v => v[row]?) = some (rowCells values row) := by
    refine mapM_eq_map fun v hv => ?_
    have hlt : row < v.length := by rwa [(hrows v hv).1]
    rw [List.getElem?_eq_getElem hlt,List.getD_eq_getElem _ _ hlt]
  rw [rowText,hcells]
  rfl

theorem valuesText_eq :
    valuesText values rowCount = some (join ((List.range rowCount).map fun r => parens (rowCells values r))) := by
  rw [valuesText,mapM_eq_map fun r hr => rowText_eq hrows (List.mem_range.1 hr)]
  rfl

theorem rowCells_whole {row : ℕ} (hrow : row < rowCount) : ∀ t ∈ rowCells values row, Whole t := by
  intro t ht
  obtain ⟨v,hv,rfl⟩ := List.mem_map.1 ht
  have hlt : row < v.length := by rwa [(hrows v hv).1]
  rw [List.getD_eq_getElem _ _ hlt]
  exact (hrows v hv).2 _ (List.getElem_mem hlt)

theorem rowsOf_valuesText :
    rowsOf (join ((List.range rowCount).map fun r => parens (rowCells values r))) =
      some ((List.range rowCount).map fun r => parens (rowCells values r)) := by
  cases rowCount with
  | zero => rfl
  | succ n =>
    have hwhole : ∀ t ∈ (List.range (n+1)).map (fun r => parens (rowCells values r)), Whole t := by
      intro t ht
      obtain ⟨r,hr,rfl⟩ := List.mem_map.1 ht
      exact whole_parens (inner_join (rowCells_whole hrows (List.mem_range.1 hr)))
    have hne : (List.range (n+1)).map (fun r => parens (rowCells values r)) ≠ [] := by simp
    have hpieces := pieces_join hwhole hne
    have htext : join ((List.range (n+1)).map fun r => parens (rowCells values r)) ≠ [] := by
      intro h
      rw [h] at hpieces
      have hfirst := congrArg (fun o => o.bind List.head?) hpieces
      rw [List.range_succ_eq_map,List.map_cons] at hfirst
      exact absurd hfirst (by simp [pieces,split,parens])
    rw [rowsOf,if_neg htext,hpieces]

theorem cellsOf_parens {row : ℕ} (hrow : row < rowCount) (hne : values ≠ []) :
    cellsOf (parens (rowCells values row)) = some (rowCells values row) := by
  have hcells : rowCells values row ≠ [] := by simpa [rowCells] using hne
  have hends : (parens (rowCells values row)).head? = some '(' ∧
      (parens (rowCells values row)).getLast? = some ')' := by
    refine ⟨rfl,?_⟩
    rw [parens,← List.cons_append,List.getLast?_concat]
  have hmiddle : (parens (rowCells values row)).tail.dropLast = join (rowCells values row) := by
    simp [parens]
  rw [cellsOf,if_pos hends,hmiddle,pieces_join (rowCells_whole hrows hrow) hcells]

end

/-- The statement holds `rowCount` rows of one cell for each column, and the cells are the values
that the columns yield, unless a random `FixedString` without characters is needed. -/
theorem insertTestData_splits (name : Text) (columns : List (Column R)) (rowCount cardinality : ℕ)
    (random : Option R.State) (hcolumns : columns ≠ []) (hcard : 1 ≤ cardinality)
    (hfixed : rowCount ≤ 3 ∨ ∀ c ∈ columns, c.datatype.fixedStringsPositive = true) :
    (∃ values text rows,
      columnsValues rowCount cardinality random columns = some values ∧
      insertTestData name columns rowCount cardinality random =
        some ("INSERT INTO ".toList ++ name ++ " VALUES ".toList ++ text) ∧
      rowsOf text = some rows ∧ rows.length = rowCount ∧
      ∀ (r : ℕ) row, rows[r]? = some row →
        ∃ cells, cellsOf row = some cells ∧ cells.length = columns.length ∧
          ∀ c < columns.length, cells[c]? = (values[c]?).bind (·[r]?)) ∧
    ∀ d : DataType, pieces d.maxValue = some [d.maxValue] ∧ pieces d.minValue = some [d.minValue] ∧
      pieces d.zeroOrNullValue = some [d.zeroOrNullValue] ∧
      ∀ s t s', (d.randValue : Rand R Text) s = some (t,s') → pieces t = some [t] := by
  constructor
  · obtain ⟨values,hvalues,hlen,hrows⟩ := columnsValues_yields hcard columns random hfixed
    have hne : values ≠ [] := by
      rintro rfl
      exact hcolumns (List.length_eq_zero_iff.1 hlen.symm)
    refine ⟨values,_,_,hvalues,?_,rowsOf_valuesText hrows,by simp,?_⟩
    · rw [insertTestData,hvalues]
      show (valuesText values rowCount).bind _ = _
      rw [valuesText_eq hrows]
      rfl
    · intro r row hrow
      obtain ⟨r',hr',rfl⟩ := Option.map_eq_some_iff.1 ((List.getElem?_map ..).symm.trans hrow)
      obtain ⟨hr,rfl⟩ : r < rowCount ∧ r = r' := by
        simpa [List.getElem?_range'] using List.getElem?_eq_some_iff.1 hr'
      refine ⟨_,cellsOf_parens hrows hr hne,by rw [rowCells,List.length_map,hlen],fun c hc => ?_⟩
      have hcv : c < values.length := by rwa [hlen]
      have hrv : r < values[c].length := by rwa [(hrows _ (List.getElem_mem hcv)).1]
      rw [rowCells,List.getElem?_map,List.getElem?_eq_getElem hcv,Option.map_some,Option.bind_some,
        List.getElem?_eq_getElem hrv,List.getD_eq_getElem _ _ hrv]
  · intro d
    refine ⟨pieces_whole d.maxValue_whole,pieces_whole d.minValue_whole,
      pieces_whole d.zeroOrNullValue_whole,?_⟩
    intro s t s' h
    exact pieces_whole (d.randValue_yields.holds s t s' h)

/-- A source that runs through the integers of a range one after the other. -/
def cycling : RandomSource where
  State := ℕ
  integer lo hi s := (lo + (s : ℤ) % (hi-lo+1),s+1)
  uniform _ _ s := ("0.5".toList,s+1)
  integer_mem := by
    intro lo hi s h
    have hpos : 0 < hi-lo+1 := by omega
    have h0 := Int.emod_nonneg (s : ℤ) hpos.ne'
    have h1 := Int.emod_lt_of_pos (s : ℤ) hpos
    constructor
    · show lo ≤ lo + (s : ℤ) % (hi-lo+1)
      omega
    · show lo + (s : ℤ) % (hi-lo+1) ≤ hi
      omega
  uniform_chars := by
    intro lo hi s c hc
    have hall : "0.5".toList.all (fun c => c.isAlphanum || c == '.') = true := by rfl
    have hchar := List.all_eq_true.1 hall c hc
    rw [Bool.or_eq_true,beq_iff_eq] at hchar
    exact hchar.imp_right .inl

/-- A column whose random source starts anew. -/
def freshColumn (d : DataType) : Column cycling := ⟨d,(0 : ℕ)⟩

def nestedColumns : List (Column cycling) :=
  [freshColumn (.tuple [.leaf (.decimal .decimal32 9),.leaf .uuid,.tuple []]),
    freshColumn (.map (.lowCardinality (.leaf (.fixedString 52))) (.array (.nullable (.leaf .float64))))]

theorem insertTestData_splits_nested :
    ∃ text rows, insertTestData "t".toList nestedColumns 5 2 none =
        some ("INSERT INTO ".toList ++ "t".toList ++ " VALUES ".toList ++ text) ∧
      rowsOf text = some rows ∧ rows.length = 5 ∧
      ∀ row ∈ rows, ∃ cells, cellsOf row = some cells ∧ cells.length = 2 := by
  obtain ⟨⟨_,text,rows,_,htext,hrows,hlen,hcells⟩,_⟩ :=
    insertTestData_splits "t".toList nestedColumns 5 2 none (by simp [nestedColumns]) (by decide)
      (.inr (by decide +kernel))
  refine ⟨text,rows,htext,hrows,hlen,fun row hrow => ?_⟩
  obtain ⟨r,hr⟩ := List.getElem?_of_mem hrow
  obtain ⟨cells,hcell,hlen,_⟩ := hcells r row hr
  exact ⟨cells,hcell,hlen⟩

/-- The fourth value of an empty `FixedString` is a random letter of no letters. -/
theorem insertTestData_fixedString_zero :
    ¬ ∃ text rows, insertTestData "t".toList [freshColumn (.leaf (.fixedString 0))] 4 2 none =
        some ("INSERT INTO ".toList ++ "t".toList ++ " VALUES ".toList ++ text) ∧
      rowsOf text = some rows ∧ rows.length = 4 := by
  have hnone : insertTestData "t".toList [freshColumn (.leaf (.fixedString 0))] 4 2 none = none := by
    rfl
  rintro ⟨text,rows,htext,-⟩
  rw [hnone] at htext
  cases htext

end ClickHouseRegression.Helpers
