import ClickHouseRegression.Helpers.InsertTestData

/-! `rand_value` called without a random source. Each datatype either puts in the default source of
the module or hands on what it was given. -/
namespace ClickHouseRegression.Helpers
open Sql Fallible

/-- The argument `random` in a call that starts without a source: left out, `None`, or the default
source, once a datatype has put it in. -/
inductive RandomArg
  | omitted
  | none
  | source
  deriving DecidableEq

/-- A parameter `random=None` handed on. -/
def RandomArg.passed : RandomArg → RandomArg
  | omitted => none
  | random => random

/-- A missing positional argument, a method of `None`, or what the source itself raises. -/
inductive RandError
  | typeError
  | attributeError
  | drawing
  deriving DecidableEq

/-- Computations on the default source. -/
abbrev RandCall (R : RandomSource) := StateT R.State (Except RandError)

variable {R : RandomSource}

def draw {α : Type} (m : Rand R α) : RandCall R α := fun s =>
  match m s with
  | some r => .ok r
  | none => .error .drawing

def raise {α : Type} (e : RandError) : RandCall R α := fun _ => .error e

/-- All but `Float32` replace a missing source; the parameter of `Float32.rand_value` has no
default. -/
def Leaf.randValueArg (l : Leaf) (random : RandomArg) : RandCall R Text :=
  match l,random with
  | float32,.omitted => raise .typeError
  | float32,.none => raise .attributeError
  | _,_ => draw l.randValue

namespace DataType

mutual
def randValueArg : DataType → RandomArg → RandCall R Text
  | leaf l,random => l.randValueArg random
  | nullable d,_ => d.randValueArg .source
  | lowCardinality d,random => d.randValueArg random.passed
  | tuple ds,random => do
    let items ← randValuesArg ds random.passed
    return call "tuple".toList (join items)
  | map key value,random => do
    let k ← key.randValueArg random.passed
    let v ← value.randValueArg random.passed
    return call "map".toList (k ++ ",".toList ++ v)
  | array d,random => do
    let v ← d.randValueArg random.passed
    return '[' :: (v ++ [']'])

def randValuesArg : List DataType → RandomArg → RandCall R (List Text)
  | [],_ => return []
  | d :: ds,random => do
    let v ← d.randValueArg random
    let vs ← randValuesArg ds random
    return v :: vs
end

mutual
/-- Every `Float32` in the type lies within a `Nullable`. -/
def float32sNullable : DataType → Bool
  | leaf .float32 => false
  | leaf _ => true
  | nullable _ => true
  | lowCardinality d => d.float32sNullable
  | tuple ds => allFloat32sNullable ds
  | map key value => key.float32sNullable && value.float32sNullable
  | array d => d.float32sNullable

def allFloat32sNullable : List DataType → Bool
  | [] => true
  | d :: ds => d.float32sNullable && allFloat32sNullable ds
end

end DataType

section
variable {α β : Type}

theorem draw_bind (m : Rand R α) (f : α → Rand R β) :
    draw (m >>= f) = draw m >>= fun a => draw (f a) := by
  funext s
  show draw (m >>= f) s = Except.bind (draw m s) fun p => draw (f p.1) p.2
  have hbind : (m >>= f) s = (m s).bind fun p => f p.1 p.2 := rfl
  rw [draw,draw,hbind]
  cases m s with
  | none => rfl
  | some p => rfl

/-- The computation raises from every state. -/
def Raises (m : RandCall R α) : Prop := ∀ s, ∃ e, m s = .error e

theorem raises_raise (e : RandError) : Raises (raise e : RandCall R α) := fun _ => ⟨e,rfl⟩

theorem Raises.bind_left {m : RandCall R α} (h : Raises m) (f : α → RandCall R β) :
    Raises (m >>= f) := by
  intro s
  obtain ⟨e,he⟩ := h s
  refine ⟨e,?_⟩
  show Except.bind (m s) _ = _
  rw [he]
  rfl

theorem Raises.bind_right (m : RandCall R α) {f : α → RandCall R β} (h : ∀ a, Raises (f a)) :
    Raises (m >>= f) := by
  intro s
  show ∃ e, Except.bind (m s) _ = _
  cases m s with
  | error e => exact ⟨e,rfl⟩
  | ok p => exact h p.1 p.2

end

theorem RandomArg.passed_eq_source {random : RandomArg} : random.passed = .source ↔ random = .source := by
  cases random <;> decide

/-- With a source, or a leaf that replaces a missing one, the default source is drawn from. -/
theorem Leaf.randValueArg_eq {l : Leaf} {random : RandomArg}
    (h : random = .source ∨ (DataType.leaf l).float32sNullable = true) :
    (l.randValueArg random : RandCall R Text) = draw l.randValue := by
  cases l with
  | float32 =>
    rw [h.resolve_right (by decide)]
    rfl
  | _ => rfl

theorem Leaf.raises_randValueArg {l : Leaf} {random : RandomArg} (h : random ≠ .source)
    (hl : (DataType.leaf l).float32sNullable = false) : Raises (l.randValueArg random : RandCall R Text) := by
  cases l with
  | float32 =>
    cases random with
    | omitted => exact raises_raise _
    | none => exact raises_raise _
    | source => exact absurd rfl h
  | _ => exact Bool.noConfusion hl

namespace DataType

mutual
theorem randValueArg_eq : ∀ (d : DataType) (random : RandomArg),
    random = .source ∨ d.float32sNullable = true →
      (d.randValueArg random : RandCall R Text) = draw d.randValue
  | leaf l,random,h => by
    rw [randValueArg,randValue]
    exact l.randValueArg_eq h
  | nullable d,_,_ => by
    rw [randValueArg,randValue]
    exact randValueArg_eq d .source (.inl rfl)
  | lowCardinality d,random,h => by
    rw [float32sNullable] at h
    rw [randValueArg,randValue]
    exact randValueArg_eq d random.passed (h.imp_left RandomArg.passed_eq_source.2)
  | tuple ds,random,h => by
    rw [float32sNullable] at h
    rw [randValueArg,randValue,draw_bind,
      randValuesArg_eq ds random.passed (h.imp_left RandomArg.passed_eq_source.2)]
    rfl
  | map key value,random,h => by
    rw [float32sNullable,Bool.and_eq_true] at h
    rw [randValueArg,randValue,draw_bind,
      randValueArg_eq key random.passed (h.imp RandomArg.passed_eq_source.2 And.left),
      randValueArg_eq value random.passed (h.imp RandomArg.passed_eq_source.2 And.right)]
    refine congrArg _ (funext fun k => ?_)
    rw [draw_bind]
    rfl
  | array d,random,h => by
    rw [float32sNullable] at h
    rw [randValueArg,randValue,draw_bind,
      randValueArg_eq d random.passed (h.imp_left RandomArg.passed_eq_source.2)]
    rfl

theorem randValuesArg_eq : ∀ (ds : List DataType) (random : RandomArg),
    random = .source ∨ allFloat32sNullable ds = true →
      (randValuesArg ds random : RandCall R (List Text)) = draw (randValues ds)
  | [],_,_ => by
    rw [randValuesArg,randValues]
    rfl
  | d :: ds,random,h => by
    rw [allFloat32sNullable,Bool.and_eq_true] at h
    rw [randValuesArg,randValues,draw_bind,randValueArg_eq d random (h.imp_right And.left),
      randValuesArg_eq ds random (h.imp_right And.right)]
    refine congrArg _ (funext fun v => ?_)
    rw [draw_bind]
    rfl
end

mutual
theorem raises_randValueArg : ∀ (d : DataType) (random : RandomArg), random ≠ .source →
    d.float32sNullable = false → Raises (d.randValueArg random : RandCall R Text)
  | leaf l,random,h,hd => by
    rw [randValueArg]
    exact l.raises_randValueArg h hd
  | nullable d,_,_,hd => by
    rw [float32sNullable] at hd
    exact Bool.noConfusion hd
  | lowCardinality d,random,h,hd => by
    rw [float32sNullable] at hd
    rw [randValueArg]
    exact raises_randValueArg d random.passed (mt RandomArg.passed_eq_source.1 h) hd
  | tuple ds,random,h,hd => by
    rw [float32sNullable] at hd
    rw [randValueArg]
    exact (raises_randValuesArg ds random.passed (mt RandomArg.passed_eq_source.1 h) hd).bind_left _
  | map key value,random,h,hd => by
    rw [float32sNullable,Bool.and_eq_false_iff] at hd
    have hpassed := mt RandomArg.passed_eq_source.1 h
    rw [randValueArg]
    rcases hd with hkey | hvalue
    · exact (raises_randValueArg key random.passed hpassed hkey).bind_left _
    · exact .bind_right _ fun _ => (raises_randValueArg value random.passed hpassed hvalue).bind_left _
  | array d,random,h,hd => by
    rw [float32sNullable] at hd
    rw [randValueArg]
    exact (raises_randValueArg d random.passed (mt RandomArg.passed_eq_source.1 h) hd).bind_left _

theorem raises_randValuesArg : ∀ (ds : List DataType) (random : RandomArg), random ≠ .source →
    allFloat32sNullable ds = false → Raises (randValuesArg ds random : RandCall R (List Text))
  | [],_,_,hds => by
    rw [allFloat32sNullable] at hds
    exact Bool.noConfusion hds
  | d :: ds,random,h,hds => by
    rw [allFloat32sNullable,Bool.and_eq_false_iff] at hds
    rw [randValuesArg]
    rcases hds with hd | hds
    · exact (raises_randValueArg d random h hd).bind_left _
    · exact .bind_right _ fun _ => (raises_randValuesArg ds random h hds).bind_left _
end

end DataType

/-- Without a source `rand_value` returns, with the text it gives for the default source, exactly if
every `Float32` lies within a `Nullable`. -/
theorem randValue_default_iff (d : DataType) (hfixed : d.fixedStringsPositive = true)
    (random : RandomArg) (hrandom : random ≠ .source) (s : R.State) :
    (∃ t s', d.randValueArg random s = .ok (t,s') ∧ d.randValue s = some (t,s')) ↔
      d.float32sNullable = true := by
  constructor
  · rintro ⟨t,s',harg,-⟩
    by_contra hd
    obtain ⟨e,he⟩ := d.raises_randValueArg (R := R) random hrandom (by simpa using hd) s
    rw [harg] at he
    cases he
  · intro hd
    obtain ⟨t,s',hs⟩ := (d.randValue_yields (R := R)).returns hfixed s
    refine ⟨t,s',?_,hs⟩
    rw [d.randValueArg_eq random (.inr hd),draw,hs]

/-- `Nullable(Float32)` within a map. -/
theorem randValue_default_map :
    ∃ t s', (DataType.map (.leaf .string) (.nullable (.leaf .float32))).randValueArg .none
        (show cycling.State from (0 : ℕ)) = .ok (t,s') ∧
      (DataType.map (.leaf .string) (.nullable (.leaf .float32))).randValue
        (show cycling.State from (0 : ℕ)) = some (t,s') :=
  (randValue_default_iff _ (by decide) .none (by decide) _).2 (by decide)

/-- `Float32().rand_value()` misses its argument, and under `LowCardinality` it gets `None`. -/
theorem randValue_default_float32 :
    (DataType.leaf .float32).randValueArg .omitted (show cycling.State from (0 : ℕ)) =
        .error .typeError ∧
      (DataType.lowCardinality (.leaf .float32)).randValueArg .omitted
        (show cycling.State from (0 : ℕ)) = .error .attributeError :=
  ⟨rfl,rfl⟩

end ClickHouseRegression.Helpers
