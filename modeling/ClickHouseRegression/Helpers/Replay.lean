import ClickHouseRegression.Helpers.InsertTestData

/-! A source of random numbers that replays given answers. What a computation gives for some source
it gives for this one too, and the answers of several runs can be put one after the other. -/
namespace ClickHouseRegression.Helpers
open Sql Fallible

inductive Answer
  | integer (n : ℤ)
  | float (t : Text)

/-- What `str` writes for floats. -/
def floatChar (c : Char) : Bool := c.isAlphanum = true ∨ c = '.' ∨ c = '-' ∨ c = '+'

/-- The answer if it fits, else the first number of the range. -/
def Answer.toInteger (lo hi : ℤ) : Option Answer → ℤ
  | some (integer n) => if lo ≤ n ∧ n ≤ hi then n else lo
  | _ => lo

def Answer.toFloat : Option Answer → Text
  | some (float t) => if t.all floatChar then t else []
  | _ => []

abbrev replay : RandomSource where
  State := List Answer
  integer lo hi s := (Answer.toInteger lo hi s.head?,s.tail)
  uniform _ _ s := (Answer.toFloat s.head?,s.tail)
  integer_mem := by
    intro lo hi s h
    unfold Answer.toInteger
    split
    · split
      · assumption
      · exact ⟨le_rfl,h⟩
    · exact ⟨le_rfl,h⟩
  uniform_chars := by
    intro lo hi s c hc
    have hfloat : floatChar c = true := by
      unfold Answer.toFloat at hc
      split at hc
      · split at hc
        case isTrue hall => exact List.all_eq_true.1 hall c hc
        case isFalse => exact absurd hc List.not_mem_nil
      · exact absurd hc List.not_mem_nil
    exact of_decide_eq_true hfloat

variable {α β : Type}

/-- The computation gives `a` on these answers and leaves the later ones. -/
def Gives (m : Rand replay α) (answers : List Answer) (a : α) : Prop :=
  ∀ rest : List Answer, m (answers ++ rest) = some (a,rest)

theorem Gives.bind {m : Rand replay α} {f : α → Rand replay β} {first second : List Answer} {a : α}
    {b : β} (hm : Gives m first a) (hf : Gives (f a) second b) : Gives (m >>= f) (first ++ second) b := by
  intro rest
  rw [List.append_assoc]
  show (m (first ++ (second ++ rest))).bind (fun p => f p.1 p.2) = _
  rw [hm]
  exact hf rest

/-- Every result of the computation, for whatever source, comes with answers that lead to it. -/
def Replays (m : (R : RandomSource) → Rand R α) : Prop :=
  ∀ (R : RandomSource) (s : R.State) (a : α) (s' : R.State), m R s = some (a,s') →
    ∃ answers, Gives (m replay) answers a

namespace Replays

theorem pure (a : α) : Replays fun R => (Pure.pure a : Rand R α) := by
  intro R s b s' h
  cases Option.some.inj h
  exact ⟨[],fun _ => rfl⟩

theorem bind {m : (R : RandomSource) → Rand R α} {f : (R : RandomSource) → α → Rand R β}
    (hm : Replays m) (hf : ∀ a, Replays fun R => f R a) : Replays fun R => m R >>= f R := by
  intro R s b s' h
  change (m R s).bind (fun p => f R p.1 p.2) = some (b,s') at h
  obtain ⟨⟨a,t⟩,ha,hb⟩ := Option.bind_eq_some_iff.1 h
  obtain ⟨first,hfirst⟩ := hm R s a t ha
  obtain ⟨second,hsecond⟩ := hf a R t b s' hb
  exact ⟨first ++ second,hfirst.bind hsecond⟩

theorem randint (lo hi : ℤ) : Replays fun R => (Helpers.randint lo hi : Rand R ℤ) := by
  intro R s n s' h
  unfold Helpers.randint at h
  split at h
  case isTrue hle =>
    have hmem := R.integer_mem lo hi s hle
    rw [Option.some.inj h] at hmem
    refine ⟨[.integer n],fun rest => ?_⟩
    show (if lo ≤ hi then some (Answer.toInteger lo hi (some (.integer n)),rest) else none) = _
    rw [if_pos hle,Answer.toInteger,if_pos hmem]
  case isFalse => exact absurd h (by simp)

theorem uniform (lo hi : Text) : Replays fun R => (Helpers.uniform lo hi : Rand R Text) := by
  intro R s t s' h
  have ht := R.uniform_chars lo hi s
  rw [Option.some.inj h] at ht
  have hall : t.all floatChar = true := List.all_eq_true.2 fun c hc => decide_eq_true (ht c hc)
  refine ⟨[.float t],fun rest => ?_⟩
  show some (Answer.toFloat (some (.float t)),rest) = _
  rw [Answer.toFloat,if_pos hall]

theorem item (l : List α) (i : ℕ) : Replays fun R => (Fallible.item l i : Rand R α) := by
  intro R s a s' h
  obtain ⟨b,hb,hab⟩ := Option.map_eq_some_iff.1 h
  cases hab
  refine ⟨[],fun rest => ?_⟩
  show (l[i]?).map _ = _
  rw [hb]
  rfl

end Replays

theorem replays_randString (max : Text) (most : ℤ) :
    Replays fun R => (randString max most : Rand R Text) :=
  (Replays.randint _ _).bind fun _ => (Replays.item _ _).bind fun _ =>
    (Replays.randint _ _).bind fun _ => .pure _

theorem Leaf.replays_randValue (l : Leaf) : Replays fun R => (l.randValue : Rand R Text) := by
  cases l with
  | float32 => exact (Replays.uniform _ _).bind fun _ => .pure _
  | float64 => exact (Replays.uniform _ _).bind fun _ => (Replays.randint _ _).bind fun _ => .pure _
  | decimal t scale => exact (Replays.uniform _ _).bind fun _ => .pure _
  | string => exact replays_randString _ _
  | fixedString length => exact replays_randString _ _
  | uuid =>
    exact (Replays.randint _ _).bind fun _ => (Replays.randint _ _).bind fun _ =>
      (Replays.randint _ _).bind fun _ => (Replays.randint _ _).bind fun _ =>
        (Replays.randint _ _).bind fun _ => .pure _
  | _ => exact (Replays.randint _ _).bind fun _ => .pure _

namespace DataType

mutual
theorem replays_randValue : ∀ d : DataType, Replays fun R => (d.randValue : Rand R Text)
  | leaf l => by
    simp only [randValue]
    exact l.replays_randValue
  | nullable d => by
    simp only [randValue]
    exact replays_randValue d
  | lowCardinality d => by
    simp only [randValue]
    exact replays_randValue d
  | tuple ds => by
    simp only [randValue]
    exact (replays_randValues ds).bind fun _ => .pure _
  | map key value => by
    simp only [randValue]
    exact (replays_randValue key).bind fun _ => (replays_randValue value).bind fun _ => .pure _
  | array d => by
    simp only [randValue]
    exact (replays_randValue d).bind fun _ => .pure _

theorem replays_randValues : ∀ ds : List DataType,
    Replays fun R => (randValues ds : Rand R (List Text))
  | [] => by
    simp only [randValues]
    exact .pure _
  | d :: ds => by
    simp only [randValues]
    exact (replays_randValue d).bind fun _ => (replays_randValues ds).bind fun _ => .pure _
end

/-- The texts that `rand_value` can return. -/
def randTexts (d : DataType) : Set Text :=
  { t | ∃ (R : RandomSource) (s s' : R.State), d.randValue s = some (t,s') }

/-- Any texts that can be returned are returned one after the other by some run. -/
theorem exists_replay_randTexts (d : DataType) {ts : List Text} (h : ∀ t ∈ ts, t ∈ d.randTexts) :
    ∃ answers, Gives ((List.replicate ts.length d).mapM randValue) answers ts := by
  induction ts with
  | nil => exact ⟨[],fun _ => rfl⟩
  | cons t ts ih =>
    obtain ⟨R,s,s',ht⟩ := h t List.mem_cons_self
    obtain ⟨first,hfirst⟩ := d.replays_randValue R s t s' ht
    obtain ⟨later,hlater⟩ := ih fun u hu => h u (List.mem_cons_of_mem t hu)
    refine ⟨first ++ (later ++ []),?_⟩
    rw [List.length_cons,List.replicate_succ,List.mapM_cons]
    exact hfirst.bind (hlater.bind fun _ => rfl)

end DataType

end ClickHouseRegression.Helpers
