import ClickHouseRegression.Text
import ClickHouseRegression.Map.Ordered
import ClickHouseRegression.Loop.Fallible
import ClickHouseRegression.Order.SortBy

/-! The reports of the keeper performance tests: a csv file that compares the configurations of every
setup, and a markdown summary that names the best and the worst of them. -/
namespace ClickHouseRegression.Reports
open Fallible SortBy

variable {τ : Type}

/-- The insert times of a configuration, one for each repeat. -/
abbrev Times (τ : Type) := {l : List τ // l ≠ []}

abbrev Configuration (τ : Type) := Text × Times τ

/-- `configurations_insert_time_values`, of at least one configuration. -/
structure Measurements (τ : Type) where
  values : OrderedMap Text (Times τ)
  nonempty : values.entries ≠ []

/-- Arithmetic on the times, which are floats: division raises at zero, and `int` of what is not finite
does. -/
structure Arithmetic (τ : Type) where
  sub : τ → τ → τ
  timesHundred : τ → τ
  div : τ → τ → Option τ
  int : τ → Option ℤ

variable [LinearOrder τ]

def minTime (c : Configuration τ) : τ := c.2.val.min c.2.property

/-- `sorted(configurations_insert_time_values.items(), key=lambda x: x[1])`. -/
def Measurements.data (m : Measurements τ) : List (Configuration τ) :=
  sortBy (fun c => c.2.val) m.values.entries

theorem Measurements.data_ne_nil (m : Measurements τ) : m.data ≠ [] := sortBy_ne_nil m.nonempty

/-- The calls of `writerow`. -/
inductive Line (τ : Type) where
  | counts (repeats inserts : ℤ)
  | minimums (times : List τ)
  | setup (name : Text)
  | configurations (names : List Text)
  | comparison (name : Text) (changes : List ℤ)
  | separator
  deriving DecidableEq

section
variable (A : Arithmetic τ) (m : Measurements τ) (setups : List Text) (setup : Text)

/-- `setup == setups[0]`. -/
def isFirst : Bool := setups.head? == some setup

/-- The configurations in the columns of a setup. -/
def columns : List (Configuration τ) :=
  m.data.filter fun c => c.1.contains setup || isFirst setups setup

/-- The configurations that get a row of their own. -/
def rows : List (Configuration τ) :=
  m.data.filter fun c => !c.1.contains setup || isFirst setups setup

/-- `int((min(first) - min(second)) * 100 / min(first))`. -/
def change (first second : Configuration τ) : Option ℤ := do
  let quotient ← A.div (A.timesHundred (A.sub (minTime first) (minTime second))) (minTime first)
  A.int quotient

def writeComparison (lines : List (Line τ)) (first : Configuration τ) :
    Except (List (Line τ)) (List (Line τ)) :=
  match (columns m setups setup).mapM (change A first) with
  | none => .error lines
  | some changes => .ok (lines ++ [.comparison first.1 changes])

def minimumLines : List (Line τ) :=
  if isFirst setups setup then [.minimums ((columns m setups setup).map minTime)] else []

/-- The rows of one setup. A setup that is a part of every name is left out. -/
def writeSetup : Except (List (Line τ)) (List (Line τ)) :=
  if (columns m setups setup).length ≠ m.data.length ∨ isFirst setups setup then do
    let lines ← (rows m setups setup).foldlM (writeComparison A m setups setup)
      (minimumLines m setups setup ++
        [.setup setup,.configurations ((columns m setups setup).map Prod.fst)])
    return lines ++ [.separator]
  else .ok (minimumLines m setups setup)

def writeNext (blocks : List (List (Line τ))) (setup : Text) :
    Except (List (List (Line τ))) (List (List (Line τ))) :=
  match writeSetup A m setups setup with
  | .ok lines => .ok (blocks ++ [lines])
  | .error lines => .error (blocks ++ [lines])

/-- The rows appended to the file, one block for each setup. -/
def createCsvFile (repeats inserts : ℤ) : Except (List (List (Line τ))) (List (List (Line τ))) :=
  setups.foldlM (writeNext A m setups) [[.counts repeats inserts]]

end

namespace Measurements
variable (m : Measurements τ)

/-- The configuration that the summary names as the best. -/
def best : Text := (m.data.head m.data_ne_nil).1

/-- The configuration that the summary names as the worst. -/
def worst : Text := (m.data.getLast m.data_ne_nil).1

/-- The minimum insert time of one configuration is at most that of another. -/
def Faster (a b : Text) : Prop :=
  ∀ s t, (a,s) ∈ m.values.entries → (b,t) ∈ m.values.entries → minTime (a,s) ≤ minTime (b,t)

/-- One time list comes before another in lexicographic order only where its minimum is no larger. -/
def OrderedByMinimum : Prop := Agrees (fun c => c.2.val) minTime m.values.entries

theorem faster_iff {c d : Configuration τ} (hc : c ∈ m.data) (hd : d ∈ m.data) :
    m.Faster c.1 d.1 ↔ minTime c ≤ minTime d := by
  have hc' : c ∈ m.values.entries := mem_sortBy.1 hc
  have hd' : d ∈ m.values.entries := mem_sortBy.1 hd
  constructor
  · intro h
    exact h c.2 d.2 hc' hd'
  · intro h s t hs ht
    rw [OrderedMap.value_unique hs hc',OrderedMap.value_unique ht hd']
    exact h

theorem names_pairwise_iff {l : List (Configuration τ)} (hl : l.Sublist m.data) :
    (l.map Prod.fst).Pairwise m.Faster ↔ l.Pairwise fun c d => minTime c ≤ minTime d := by
  rw [List.pairwise_map]
  constructor
  · intro h
    apply h.imp_of_mem
    intro c d hc hd hcd
    exact (m.faster_iff (hl.subset hc) (hl.subset hd)).1 hcd
  · intro h
    apply h.imp_of_mem
    intro c d hc hd hcd
    exact (m.faster_iff (hl.subset hc) (hl.subset hd)).2 hcd

theorem data_pairwise_iff :
    m.data.Pairwise (fun c d => minTime c ≤ minTime d) ↔ m.OrderedByMinimum := by
  apply sortBy_pairwise_iff
  intro c d h
  simp only [minTime,Subtype.val_inj.1 h]

/-- With a single repeat the lists are ordered as their only times are. -/
theorem orderedByMinimum_of_singleRepeat (h : ∀ c ∈ m.values.entries, c.2.val.length = 1) :
    m.OrderedByMinimum := by
  intro c hc d hd hlt
  obtain ⟨s,hs⟩ := List.length_eq_one_iff.1 (h c hc)
  obtain ⟨t,ht⟩ := List.length_eq_one_iff.1 (h d hd)
  simp only [hs,ht,List.cons_lt_cons_iff,List.not_lt_nil,and_false,or_false] at hlt
  simpa only [minTime,hs,ht,List.min_singleton] using hlt.le

end Measurements

section
variable {A : Arithmetic τ} {m : Measurements τ} {setups : List Text} {setup : Text}

/-- The configuration of a row of its own. -/
def Line.compared : Line τ → Option Text
  | .comparison name _ => some name
  | _ => none

/-- Wherever a block lists configurations they are in order of their minimum insert times: in its
columns, in its rows and in the row of the minimums. -/
structure Measurements.Lists (m : Measurements τ) (block : List (Line τ)) : Prop where
  minimums : ∀ times, Line.minimums times ∈ block → times.Pairwise (· ≤ ·)
  columns : ∀ names, Line.configurations names ∈ block → names.Pairwise m.Faster
  rows : (block.filterMap Line.compared).Pairwise m.Faster

omit [LinearOrder τ] in
theorem filterMap_comparisons (done : List (Configuration τ × List ℤ)) :
    (done.map fun c => (Line.comparison c.1.1 c.2 : Line τ)).filterMap Line.compared =
      (done.map Prod.fst).map Prod.fst := by
  induction done with
  | nil => rfl
  | cons c done ih =>
    rw [List.map_cons,List.map_cons,List.map_cons,← ih]
    rfl

/-- The rows that are written before an exception, or all of them. -/
theorem writeComparisons (A : Arithmetic τ) (m : Measurements τ) (setups : List Text) (setup : Text)
    (lines : List (Line τ)) (l : List (Configuration τ)) :
    ∃ done : List (Configuration τ × List ℤ), done.map Prod.fst <+: l ∧
      endState (l.foldlM (writeComparison A m setups setup) lines) =
        lines ++ done.map fun c => .comparison c.1.1 c.2 := by
  induction l generalizing lines with
  | nil => exact ⟨[],List.prefix_rfl,(List.append_nil lines).symm⟩
  | cons c l ih =>
    rw [List.foldlM_cons,writeComparison]
    cases (columns m setups setup).mapM (change A c) with
    | none => exact ⟨[],List.nil_prefix,(List.append_nil lines).symm⟩
    | some changes =>
      obtain ⟨done,hdone,hstate⟩ := ih (lines ++ [.comparison c.1 changes])
      refine ⟨(c,changes) :: done,List.cons_prefix_cons.2 ⟨rfl,hdone⟩,?_⟩
      rw [List.map_cons,List.append_cons]
      exact hstate

theorem minimumLines_lists (h : m.data.Pairwise fun c d => minTime c ≤ minTime d) {times : List τ}
    (htimes : Line.minimums times ∈ minimumLines m setups setup) : times.Pairwise (· ≤ ·) := by
  unfold minimumLines at htimes
  split at htimes
  · cases List.mem_singleton.1 htimes
    exact List.pairwise_map.2 (h.sublist List.filter_sublist)
  · cases htimes

theorem minimumLines_eq {line : Line τ} (h : line ∈ minimumLines m setups setup) :
    ∃ times, line = .minimums times := by
  unfold minimumLines at h
  split at h
  · exact ⟨_,List.mem_singleton.1 h⟩
  · cases h

theorem minimumLines_compared : (minimumLines m setups setup).filterMap Line.compared = [] := by
  unfold minimumLines
  split <;> rfl

/-- A block with any of its rows, with or without the separator at its end. -/
theorem block_lists (h : m.data.Pairwise fun c d => minTime c ≤ minTime d)
    {done : List (Configuration τ × List ℤ)} (hdone : done.map Prod.fst <+: rows m setups setup)
    (last : List (Line τ)) (hlast : ∀ line ∈ last, line = .separator) :
    m.Lists (minimumLines m setups setup ++
      [.setup setup,.configurations ((columns m setups setup).map Prod.fst)] ++
      done.map (fun c => .comparison c.1.1 c.2) ++ last) := by
  have hrows : (done.map Prod.fst).Sublist m.data := hdone.sublist.trans List.filter_sublist
  refine ⟨?_,?_,?_⟩
  · intro times htimes
    simp only [List.mem_append,List.mem_cons,List.mem_map,List.not_mem_nil,or_false,reduceCtorEq,
      and_false,exists_false] at htimes
    rcases htimes with htimes | htimes
    · exact minimumLines_lists h htimes
    · cases hlast _ htimes
  · intro names hnames
    simp only [List.mem_append,List.mem_cons,List.mem_map,List.not_mem_nil,or_false,reduceCtorEq,
      and_false,exists_false,false_or,Line.configurations.injEq] at hnames
    rcases hnames with (hnames | rfl) | hnames
    · obtain ⟨times,htimes⟩ := minimumLines_eq hnames
      cases htimes
    · exact (m.names_pairwise_iff List.filter_sublist).2 (h.sublist List.filter_sublist)
    · cases hlast _ hnames
  · have hnone : last.filterMap Line.compared = [] := by
      rw [List.filterMap_eq_nil_iff]
      intro line hline
      rw [hlast line hline]
      rfl
    rw [List.filterMap_append,List.filterMap_append,List.filterMap_append,hnone,minimumLines_compared,
      filterMap_comparisons,List.append_nil]
    exact (m.names_pairwise_iff hrows).2 (h.sublist hrows)

theorem writeSetup_lists (A : Arithmetic τ) (setups : List Text) (setup : Text)
    (h : m.data.Pairwise fun c d => minTime c ≤ minTime d) :
    m.Lists (endState (writeSetup A m setups setup)) := by
  unfold writeSetup
  split
  · obtain ⟨done,hdone,hstate⟩ := writeComparisons A m setups setup
      (minimumLines m setups setup ++
        [.setup setup,.configurations ((columns m setups setup).map Prod.fst)]) (rows m setups setup)
    cases hrun : (rows m setups setup).foldlM (writeComparison A m setups setup)
        (minimumLines m setups setup ++
          [.setup setup,.configurations ((columns m setups setup).map Prod.fst)]) with
    | error lines =>
      rw [hrun] at hstate
      have hblock := block_lists h hdone [] (by simp)
      rw [List.append_nil,← hstate] at hblock
      exact hblock
    | ok lines =>
      rw [hrun] at hstate
      have hblock := block_lists h hdone [.separator] (by simp)
      rw [← hstate] at hblock
      exact hblock
  · refine ⟨fun times => minimumLines_lists h,?_,?_⟩
    · intro names hnames
      obtain ⟨times,htimes⟩ := minimumLines_eq hnames
      cases htimes
    · rw [endState,minimumLines_compared]
      exact List.Pairwise.nil

theorem endState_writeNext (A : Arithmetic τ) (m : Measurements τ) (setups : List Text)
    (blocks : List (List (Line τ))) (setup : Text) :
    endState (writeNext A m setups blocks setup) = blocks ++ [endState (writeSetup A m setups setup)] := by
  unfold writeNext
  cases writeSetup A m setups setup with
  | ok lines => rfl
  | error lines => rfl

/-- The file up to its end or up to an exception. -/
theorem createCsvFile_lists (h : m.data.Pairwise fun c d => minTime c ≤ minTime d)
    (repeats inserts : ℤ) :
    ∀ block ∈ endState (createCsvFile A m setups repeats inserts), m.Lists block := by
  apply endState_foldlM (P := fun blocks => ∀ block ∈ blocks, m.Lists block)
  · intro blocks setup _ hblocks
    rw [endState_writeNext]
    intro block hblock
    rcases List.mem_append.1 hblock with hblock | hblock
    · exact hblocks block hblock
    · rw [List.mem_singleton.1 hblock]
      exact writeSetup_lists A setups setup h
  · intro block hblock
    rw [List.mem_singleton.1 hblock]
    refine ⟨?_,?_,List.Pairwise.nil⟩
    · intro times htimes
      cases List.mem_singleton.1 htimes
    · intro names hnames
      cases List.mem_singleton.1 hnames

end

/-- The listings of both reports are in order of the minimum insert times, with the best configuration
first and the worst last, exactly when lexicographically smaller time lists have no larger minimums; with
a single repeat they never have. -/
theorem reports_iff (A : Arithmetic τ) (m : Measurements τ) (setups : List Text) (repeats inserts : ℤ) :
    (((∀ block ∈ endState (createCsvFile A m setups repeats inserts), m.Lists block) ∧
      (m.data.map Prod.fst).Pairwise m.Faster ∧
      (∀ name, m.Faster m.best name) ∧ ∀ name, m.Faster name m.worst) ↔ m.OrderedByMinimum) ∧
    ((∀ c ∈ m.values.entries, c.2.val.length = 1) → m.OrderedByMinimum) := by
  refine ⟨?_,m.orderedByMinimum_of_singleRepeat⟩
  constructor
  · rintro ⟨-,hnames,-,-⟩
    exact m.data_pairwise_iff.1 ((m.names_pairwise_iff (List.Sublist.refl _)).1 hnames)
  · intro h
    have hdata := m.data_pairwise_iff.2 h
    refine ⟨createCsvFile_lists hdata repeats inserts,
      (m.names_pairwise_iff (List.Sublist.refl _)).2 hdata,?_,?_⟩
    · intro name s t hs ht
      have ht' : (name,t) ∈ m.data := mem_sortBy.2 ht
      exact (m.faster_iff (List.head_mem m.data_ne_nil) ht').2 (head_le m.data_ne_nil hdata ht') s t hs ht
    · intro name s t hs ht
      have hs' : (name,s) ∈ m.data := mem_sortBy.2 hs
      exact (m.faster_iff hs' (List.getLast_mem m.data_ne_nil)).2
        (le_getLast m.data_ne_nil hdata hs') s t hs ht

/-- Exact arithmetic. -/
def seconds : Arithmetic ℚ where
  sub a b := a-b
  timesHundred a := a*100
  div a b := if b = 0 then none else some (a/b)
  int a := some (a.num.tdiv a.den)

/-- The second repeat of `zookeeper` was the fastest. -/
def secondRepeat : Measurements ℚ where
  values := ⟨[("zookeeper".toList,⟨[3,1],by simp⟩),("keeper".toList,⟨[2,2],by simp⟩)],by decide⟩
  nonempty := by simp

theorem reports_secondRepeat :
    ¬ ((∀ block ∈ endState (createCsvFile seconds secondRepeat ["all setups".toList] 2 1),
        secondRepeat.Lists block) ∧
      (secondRepeat.data.map Prod.fst).Pairwise secondRepeat.Faster ∧
      (∀ name, secondRepeat.Faster secondRepeat.best name) ∧
      ∀ name, secondRepeat.Faster name secondRepeat.worst) := by
  rintro ⟨-,-,hbest,-⟩
  have hname : secondRepeat.best = "keeper".toList := by decide
  have hle := hbest "zookeeper".toList ⟨[2,2],by simp⟩ ⟨[3,1],by simp⟩
    (by rw [hname]; exact List.mem_cons_of_mem _ List.mem_cons_self) List.mem_cons_self
  exact absurd hle (by decide)

end ClickHouseRegression.Reports
