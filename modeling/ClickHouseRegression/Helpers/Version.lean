import ClickHouseRegression.Text
import ClickHouseRegression.Order.Truncation

/-! `check_clickhouse_version`: a requirement is cut to the number of leading numeric
components of the server version and then compared with them. -/
namespace ClickHouseRegression.Helpers

/-- `version.translate({ord(i): None for i in "<>="})`. -/
def withoutRelation (version : Text) : Text := version.filter (fun c => !"<>=".toList.contains c)

/-- `str.isnumeric`, given the table of numeric characters. -/
def isnumeric (numeric : Char → Bool) (t : Text) : Bool := !t.isEmpty && t.all numeric

/-- `int` on decimal digits; anything else is a `ValueError`. -/
def int (t : Text) : Option ℕ :=
  if !t.isEmpty && t.all Char.isDigit then some (t.foldl (fun n c => 10*n+(c.toNat-48)) 0) else none

/-- The variable `index` after the loop over the components, `length` of them. -/
def indexAfter (numeric : Char → Bool) (length : ℕ) : ℕ → List Text → ℕ
  | index,[] => index
  | index,i :: rest =>
    if !isnumeric numeric i then index
    else if index = length-1 then index+1
    else if rest = [] then index
    else indexAfter numeric length (index+1) rest

/-- The inner `check` for a context with this `clickhouse_version`; `none` is a `ValueError`. -/
def checkClickhouseVersion (numeric : Char → Bool) (version : Text) (server : Option Text) :
    Option Bool :=
  match server with
  | none => some false
  | some server => do
    let versionList := (withoutRelation version).splitOn '.'
    let serverList := server.splitOn '.'
    let index := indexAfter numeric serverList.length 0 serverList
    if index = 0 then none
    let versionList ← (versionList.take index).mapM int
    let serverList ← (serverList.take index).mapM int
    if "==".toList.isPrefixOf version then return serverList = versionList
    else if ">=".toList.isPrefixOf version then return ¬ serverList < versionList
    else if "<=".toList.isPrefixOf version then return ¬ versionList < serverList
    else if "=".toList.isPrefixOf version then return serverList = versionList
    else if ">".toList.isPrefixOf version then return versionList < serverList
    else if "<".toList.isPrefixOf version then return serverList < versionList
    else return serverList = versionList

/-- A component of decimal digits. -/
structure Number where
  digits : Text
  nonempty : digits ≠ []
  decimal : ∀ c ∈ digits, c.isDigit = true

def Number.value (n : Number) : ℕ := n.digits.foldl (fun v c => 10*v+(c.toNat-48)) 0

inductive Bound
  | ge
  | gt
  | lt
  | le

def Bound.text : Bound → Text
  | ge => ">=".toList
  | gt => ">".toList
  | lt => "<".toList
  | le => "<=".toList

def Bound.holds : Bound → List ℕ → List ℕ → Bool
  | ge,s,v => ¬ s < v
  | gt,s,v => v < s
  | lt,s,v => s < v
  | le,s,v => ¬ v < s

def dotted (components : List Text) : Text := ['.'].intercalate components

def requirement (b : Bound) (v : List Number) : Text := b.text ++ dotted (v.map (·.digits))

/-- A server version: numeric components, then possibly components of which the first is
not numeric. -/
structure ServerVersion (numeric : Char → Bool) where
  numbers : List Number
  suffix : List Text
  nonempty : numbers ≠ []
  dotless : ∀ t ∈ suffix, '.' ∉ t
  nonnumeric : ∀ t ∈ suffix.head?, isnumeric numeric t = false

namespace ServerVersion
variable {numeric : Char → Bool}

def text (s : ServerVersion numeric) : Text := dotted (s.numbers.map (·.digits) ++ s.suffix)
def values (s : ServerVersion numeric) : List ℕ := s.numbers.map (·.value)

end ServerVersion

theorem Number.dotless (n : Number) : '.' ∉ n.digits := by
  intro h
  have hd := n.decimal '.' h
  revert hd
  decide

theorem Number.isnumeric_digits {numeric : Char → Bool}
    (hnumeric : ∀ c, c.isDigit = true → numeric c = true) (n : Number) :
    isnumeric numeric n.digits = true := by
  simp only [isnumeric,Bool.and_eq_true,List.all_eq_true]
  exact ⟨by simpa using n.nonempty,fun c hc => hnumeric c (n.decimal c hc)⟩

theorem Number.int_digits (n : Number) : int n.digits = some n.value := by
  have h : (!n.digits.isEmpty && n.digits.all Char.isDigit) = true := by
    simp only [Bool.and_eq_true,List.all_eq_true]
    exact ⟨by simpa using n.nonempty,n.decimal⟩
  rw [int,if_pos h]
  rfl

theorem mapM_int (ns : List Number) :
    (ns.map (·.digits)).mapM int = some (ns.map (·.value)) := by
  induction ns with
  | nil => rfl
  | cons n ns ih => simp [List.mapM_cons,n.int_digits,ih]

theorem splitOn_dotted {components : List Text} (h : ∀ t ∈ components, '.' ∉ t)
    (hne : components ≠ []) : (dotted components).splitOn '.' = components :=
  List.splitOn_intercalate '.' h hne

/-- The loop stops after the numeric components. -/
theorem indexAfter_numbers {numeric : Char → Bool}
    (hnumeric : ∀ c, c.isDigit = true → numeric c = true) (ns : List Number) (suffix : List Text)
    (hs : ∀ t ∈ suffix.head?, isnumeric numeric t = false) (index length : ℕ)
    (hl : index+(ns.length+suffix.length) = length) :
    indexAfter numeric length index (ns.map (·.digits) ++ suffix) = index+ns.length := by
  induction ns generalizing index with
  | nil =>
    cases suffix with
    | nil => rfl
    | cons t suffix => simp [indexAfter,hs t rfl]
  | cons n ns ih =>
    simp only [List.length_cons] at hl
    simp only [List.map_cons,List.cons_append,indexAfter,n.isnumeric_digits hnumeric,Bool.not_true,
      Bool.false_eq_true,if_false]
    by_cases hlast : index = length-1
    · rw [if_pos hlast,List.length_cons]
      omega
    · have hrest : ns.map (·.digits) ++ suffix ≠ [] := by
        intro h
        have h0 := congrArg List.length h
        simp only [List.length_append,List.length_map,List.length_nil] at h0
        omega
      rw [if_neg hlast,if_neg hrest,ih (index+1) (by omega),List.length_cons]
      omega

theorem mem_dotted {c : Char} {components : List Text} (h : c ∈ dotted components) :
    c = '.' ∨ ∃ t ∈ components, c ∈ t := by
  induction components with
  | nil => simp [dotted] at h
  | cons t rest ih =>
    by_cases hr : rest = []
    · subst hr
      simp only [dotted,List.intercalate_singleton] at h
      exact Or.inr ⟨t,List.mem_cons_self,h⟩
    · rw [dotted,List.intercalate_cons_of_ne_nil hr] at h
      simp only [List.mem_append,List.mem_singleton] at h
      rcases h with (h | h) | h
      · exact Or.inr ⟨t,List.mem_cons_self,h⟩
      · exact Or.inl h
      · rcases ih h with h | ⟨u,hu,h⟩
        · exact Or.inl h
        · exact Or.inr ⟨u,List.mem_cons_of_mem t hu,h⟩

/-- Neither a digit nor a dot is one of the relation signs. -/
theorem not_relation_sign {v : List Number} {c : Char} (h : c ∈ dotted (v.map (·.digits))) :
    c ≠ '<' ∧ c ≠ '>' ∧ c ≠ '=' := by
  rcases mem_dotted h with rfl | ⟨t,ht,hc⟩
  · decide
  · obtain ⟨n,-,rfl⟩ := List.mem_map.mp ht
    have hd := n.decimal c hc
    refine ⟨?_,?_,?_⟩ <;> (rintro rfl; revert hd; decide)

theorem withoutRelation_requirement (b : Bound) (v : List Number) :
    withoutRelation (requirement b v) = dotted (v.map (·.digits)) := by
  have hv : withoutRelation (dotted (v.map (·.digits))) = dotted (v.map (·.digits)) := by
    rw [withoutRelation,List.filter_eq_self]
    intro c hc
    obtain ⟨h1,h2,h3⟩ := not_relation_sign hc
    simp [h1,h2,h3]
  have hb : withoutRelation b.text = [] := by cases b <;> decide
  rw [requirement,withoutRelation,List.filter_append]
  change withoutRelation b.text ++ withoutRelation _ = _
  rw [hb,hv,List.nil_append]

/-- The first character after the relation is a digit, so `>` and `<` are not read as `>=`, `<=`. -/
theorem requirement_cons (b : Bound) (v : List Number) (hv : v ≠ []) :
    ∃ c t, requirement b v = b.text ++ c :: t ∧ c ≠ '=' := by
  rcases hd : dotted (v.map (·.digits)) with _ | ⟨c,t⟩
  · exfalso
    obtain ⟨n,ns,rfl⟩ := List.exists_cons_of_ne_nil hv
    have hn := n.nonempty
    cases ns with
    | nil => simp [dotted,hn] at hd
    | cons m ns => simp [dotted,List.intercalate_cons_cons] at hd
  · have hc : c ∈ dotted (v.map (·.digits)) := by rw [hd]; exact List.mem_cons_self
    exact ⟨c,t,by rw [requirement,hd],(not_relation_sign hc).2.2⟩

/-- What the check computes: the server components against the requirement cut to their number. -/
theorem checkClickhouseVersion_eq {numeric : Char → Bool}
    (hnumeric : ∀ c, c.isDigit = true → numeric c = true) (b : Bound) {v : List Number}
    (hv : v ≠ []) (s : ServerVersion numeric) :
    checkClickhouseVersion numeric (requirement b v) (some s.text) =
      some (b.holds s.values ((v.map (·.value)).take s.values.length)) := by
  have hserver : s.text.splitOn '.' = s.numbers.map (·.digits) ++ s.suffix := by
    apply splitOn_dotted
    · intro t ht
      rcases List.mem_append.mp ht with h | h
      · obtain ⟨n,-,rfl⟩ := List.mem_map.mp h
        exact n.dotless
      · exact s.dotless t h
    · simp [s.nonempty]
  have hversion : (withoutRelation (requirement b v)).splitOn '.' = v.map (·.digits) := by
    rw [withoutRelation_requirement]
    apply splitOn_dotted
    · intro t ht
      obtain ⟨n,-,rfl⟩ := List.mem_map.mp ht
      exact n.dotless
    · simpa using hv
  have hindex : indexAfter numeric (s.numbers.map (·.digits) ++ s.suffix).length 0
      (s.numbers.map (·.digits) ++ s.suffix) = s.numbers.length := by
    have h := indexAfter_numbers hnumeric s.numbers s.suffix s.nonnumeric 0 _ rfl
    simpa using h
  have hpos : s.numbers.length ≠ 0 := by simpa using s.nonempty
  have htake : (s.numbers.map (·.digits) ++ s.suffix).take s.numbers.length =
      s.numbers.map (·.digits) := by
    have hl : s.numbers.length = (s.numbers.map (·.digits)).length := by simp
    rw [hl,List.take_left]
  have hlen : s.values.length = s.numbers.length := by simp [ServerVersion.values]
  obtain ⟨c,t,hreq,hc⟩ := requirement_cons b v hv
  simp only [checkClickhouseVersion,hserver,hversion,hindex,hpos,if_false,htake,← List.map_take,
    mapM_int,hlen]
  rw [hreq]
  cases b <;> simp [Bound.text,Bound.holds,hc.symm,ServerVersion.values,List.isPrefixOf]

/-- The gate lets a server of this version through. -/
def Accepts {numeric : Char → Bool} (b : Bound) (v : List Number) (s : ServerVersion numeric) :
    Prop :=
  checkClickhouseVersion numeric (requirement b v) (some s.text) = some true

/-- The first server is known at a lower precision than the requirement and agrees with it
so far, while the second one is below the requirement and does not. -/
def Straddles {numeric : Char → Bool} (v : List Number) (s₁ s₂ : ServerVersion numeric) : Prop :=
  s₁.values <+: v.map (·.value) ∧ s₂.values < v.map (·.value) ∧
    ¬ s₂.values <+: v.map (·.value)

section
variable {numeric : Char → Bool} (hnumeric : ∀ c, c.isDigit = true → numeric c = true)
  {v : List Number} (hv : v ≠ [])
include hnumeric hv

theorem accepts_gt_iff (s : ServerVersion numeric) :
    Accepts .gt v s ↔ v.map (·.value) < s.values := by
  simp [Accepts,checkClickhouseVersion_eq hnumeric .gt hv,Bound.holds,Order.take_length_lt_iff]

theorem accepts_le_iff (s : ServerVersion numeric) :
    Accepts .le v s ↔ ¬ v.map (·.value) < s.values := by
  simp [Accepts,checkClickhouseVersion_eq hnumeric .le hv,Bound.holds,Order.take_length_lt_iff]

theorem accepts_lt_iff (s : ServerVersion numeric) :
    Accepts .lt v s ↔ s.values < v.map (·.value) ∧ ¬ s.values <+: v.map (·.value) := by
  simp [Accepts,checkClickhouseVersion_eq hnumeric .lt hv,Bound.holds,Order.lt_take_length_iff]

theorem accepts_ge_iff (s : ServerVersion numeric) :
    Accepts .ge v s ↔ ¬ (s.values < v.map (·.value) ∧ ¬ s.values <+: v.map (·.value)) := by
  simp only [Accepts,checkClickhouseVersion_eq hnumeric .ge hv,Bound.holds,
    Order.lt_take_length_iff,Option.some.injEq,decide_eq_true_eq]

/-- `>` and `<=` are thresholds in the server version; `>=` and `<` are too, except exactly
across the gap that a server of lower precision than the requirement opens. -/
theorem checkClickhouseVersion_threshold (s₁ s₂ : ServerVersion numeric)
    (h : s₁.values ≤ s₂.values) :
    (Accepts .gt v s₁ → Accepts .gt v s₂) ∧ (Accepts .le v s₂ → Accepts .le v s₁) ∧
      ((Accepts .ge v s₁ → Accepts .ge v s₂) ↔ ¬ Straddles v s₁ s₂) ∧
      ((Accepts .lt v s₂ → Accepts .lt v s₁) ↔ ¬ Straddles v s₁ s₂) := by
  rw [accepts_gt_iff hnumeric hv,accepts_gt_iff hnumeric hv,accepts_le_iff hnumeric hv,
    accepts_le_iff hnumeric hv,accepts_ge_iff hnumeric hv,accepts_ge_iff hnumeric hv,
    accepts_lt_iff hnumeric hv,accepts_lt_iff hnumeric hv]
  have hlt : s₂.values < v.map (·.value) → s₁.values < v.map (·.value) := lt_of_le_of_lt h
  refine ⟨fun h1 => lt_of_lt_of_le h1 h,fun h2 h1 => h2 (lt_of_lt_of_le h1 h),?_,?_⟩
  · unfold Straddles
    tauto
  · unfold Straddles
    tauto

end

/-- A component given by its value. -/
def Number.ofNat (n : ℕ) : Number where
  digits := Nat.toDigits 10 n
  nonempty := Nat.toDigits_ne_nil
  decimal := fun _ hc => Nat.isDigit_of_mem_toDigits (by decide) (by decide) hc

/-- A version without a suffix. -/
def ServerVersion.ofNats (ns : List ℕ) (h : ns ≠ []) : ServerVersion Char.isDigit where
  numbers := ns.map Number.ofNat
  suffix := []
  nonempty := by simpa using h
  dotless := by simp
  nonnumeric := by simp

/-- The threshold at `>=22.3` between the servers `22.3.1` and `22.8`. -/
theorem checkClickhouseVersion_threshold_at_22_3 :
    (ServerVersion.ofNats [22,3,1] (by decide)).values ≤
        (ServerVersion.ofNats [22,8] (by decide)).values ∧
      ((Accepts .ge ([22,3].map Number.ofNat) (ServerVersion.ofNats [22,3,1] (by decide)) →
          Accepts .ge ([22,3].map Number.ofNat) (ServerVersion.ofNats [22,8] (by decide))) ↔
        ¬ Straddles ([22,3].map Number.ofNat) (ServerVersion.ofNats [22,3,1] (by decide))
          (ServerVersion.ofNats [22,8] (by decide))) :=
  ⟨by decide,(checkClickhouseVersion_threshold (fun _ h => h) (by decide) _ _ (by decide)).2.2.1⟩

/-- `22.3` satisfies `>=22.3.5` and the later `22.3.1` does not. -/
theorem checkClickhouseVersion_not_monotone :
    checkClickhouseVersion Char.isDigit ">=22.3.5".toList (some "22.3".toList) = some true ∧
      checkClickhouseVersion Char.isDigit ">=22.3.5".toList (some "22.3.1".toList) = some false ∧
      ([22,3] : List ℕ) ≤ [22,3,1] := by
  decide +kernel

end ClickHouseRegression.Helpers
