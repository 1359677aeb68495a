import Mathlib

/-! Maps that remember the order of insertion. Adding needs an absent key and removing a
present one; both fail otherwise. -/
namespace ClickHouseRegression

structure OrderedMap (κ β : Type) where
  entries : List (κ × β)
  nodup : (entries.map Prod.fst).Nodup

namespace OrderedMap

variable {κ β : Type}

@[ext] theorem ext {m m' : OrderedMap κ β} (h : m.entries = m'.entries) : m = m' := by
  cases m
  cases m'
  cases h
  rfl

def empty : OrderedMap κ β := ⟨[],List.nodup_nil⟩

def keys (m : OrderedMap κ β) : List κ := m.entries.map Prod.fst

theorem mem_keys {k : κ} {v : β} {m : OrderedMap κ β} (h : (k,v) ∈ m.entries) : k ∈ m.keys :=
  List.mem_map_of_mem h

/-- A key has one value. -/
theorem value_unique {k : κ} {v w : β} {m : OrderedMap κ β} (hv : (k,v) ∈ m.entries)
    (hw : (k,w) ∈ m.entries) : v = w := by
  have h := List.inj_on_of_nodup_map m.nodup hv hw rfl
  exact (Prod.mk.inj h).2

theorem nodup_concat {k : κ} {m : OrderedMap κ β} (h : k ∉ m.keys) (v : β) :
    ((m.entries ++ [(k,v)]).map Prod.fst).Nodup := by
  rw [List.map_append,List.nodup_append]
  refine ⟨m.nodup,List.nodup_singleton _,?_⟩
  rintro a ha b hb rfl
  obtain rfl : a = k := by simpa using hb
  exact h ha

variable [DecidableEq κ]

/-- The entries under all other keys, in order. -/
def others (k : κ) (m : OrderedMap κ β) : List (κ × β) := m.entries.filter (·.1 ≠ k)

/-- Add a new entry after all others. -/
def append (k : κ) (v : β) (m : OrderedMap κ β) : Option (OrderedMap κ β) :=
  if h : k ∈ m.keys then none
  else some ⟨m.entries ++ [(k,v)],nodup_concat h v⟩

def erase (k : κ) (m : OrderedMap κ β) : Option (OrderedMap κ β) :=
  if k ∈ m.keys then
    some ⟨m.others k,m.nodup.sublist (List.filter_sublist.map Prod.fst)⟩
  else none

/-- Apply `f` to the first value under the key. -/
def modifyEntries (k : κ) (f : β → Option β) : List (κ × β) → Option (List (κ × β))
  | [] => none
  | (a,v) :: rest =>
    if a = k then (f v).map fun w => (a,w) :: rest
    else (modifyEntries k f rest).map ((a,v) :: ·)

theorem modifyEntries_keys {k : κ} {f : β → Option β} {l l' : List (κ × β)}
    (h : modifyEntries k f l = some l') : l'.map Prod.fst = l.map Prod.fst := by
  induction l generalizing l' with
  | nil => cases h
  | cons p l ih =>
    obtain ⟨a,v⟩ := p
    rw [modifyEntries] at h
    split_ifs at h
    · obtain ⟨w,_,rfl⟩ := Option.map_eq_some_iff.1 h
      rfl
    · obtain ⟨r,hr,rfl⟩ := Option.map_eq_some_iff.1 h
      rw [List.map_cons,List.map_cons,ih hr]

def modify (k : κ) (f : β → Option β) (m : OrderedMap κ β) : Option (OrderedMap κ β) :=
  match h : modifyEntries k f m.entries with
  | none => none
  | some l => some ⟨l,by rw [modifyEntries_keys h]; exact m.nodup⟩

theorem append_eq_some {k : κ} {v : β} {m m' : OrderedMap κ β} (h : m.append k v = some m') :
    k ∉ m.keys ∧ m'.entries = m.entries ++ [(k,v)] := by
  unfold append at h
  split_ifs at h with hk
  cases h
  exact ⟨hk,rfl⟩

theorem erase_eq_some {k : κ} {m m' : OrderedMap κ β} (h : m.erase k = some m') :
    k ∈ m.keys ∧ m'.entries = m.others k := by
  unfold erase at h
  split_ifs at h with hk
  cases h
  exact ⟨hk,rfl⟩

theorem modify_eq_some {k : κ} {f : β → Option β} {m m' : OrderedMap κ β}
    (h : m.modify k f = some m') : modifyEntries k f m.entries = some m'.entries := by
  unfold modify at h
  split at h
  · cases h
  · next l hl =>
    cases h
    exact hl

theorem filter_ne_of_not_mem {k : κ} {l : List (κ × β)} (h : k ∉ l.map Prod.fst) :
    l.filter (·.1 ≠ k) = l := by
  rw [List.filter_eq_self]
  intro p hp
  have hne : p.1 ≠ k := fun hk => h (hk ▸ List.mem_map_of_mem hp)
  simpa using hne

/-- Adding an entry and removing it again gives the map back. -/
theorem erase_of_append {k : κ} {v : β} {m m' : OrderedMap κ β} (h : m.append k v = some m') :
    m'.erase k = some m := by
  obtain ⟨hk,he⟩ := append_eq_some h
  have hmem : k ∈ m'.keys := by
    rw [keys,he]
    simp
  rw [erase,if_pos hmem]
  congr 1
  apply ext
  change m'.others k = m.entries
  rw [others,he,List.filter_append,filter_ne_of_not_mem hk]
  simp

/-- A change of one value that can be taken back. -/
theorem modify_of_modify {k : κ} {f g : β → Option β} (hfg : ∀ v w, f v = some w → g w = some v)
    {m m' : OrderedMap κ β} (h : m.modify k f = some m') : m'.modify k g = some m := by
  have hback : ∀ l l' : List (κ × β), modifyEntries k f l = some l' →
      modifyEntries k g l' = some l := by
    intro l
    induction l with
    | nil =>
      intro l' hl
      cases hl
    | cons p l ih =>
      obtain ⟨a,v⟩ := p
      intro l' hl
      rw [modifyEntries] at hl
      split_ifs at hl with ha
      · obtain ⟨w,hw,rfl⟩ := Option.map_eq_some_iff.1 hl
        rw [modifyEntries,if_pos ha,hfg v w hw,Option.map_some]
      · obtain ⟨r,hr,rfl⟩ := Option.map_eq_some_iff.1 hl
        rw [modifyEntries,if_neg ha,ih r hr,Option.map_some]
  have he := hback _ _ (modify_eq_some h)
  unfold modify
  split
  · next hn =>
    rw [he] at hn
    cases hn
  · next l hl =>
    rw [he] at hl
    cases hl
    rfl

/-- The key was present, and its value is the one that was changed. -/
theorem modify_value {k : κ} {f : β → Option β} {m m' : OrderedMap κ β}
    (h : m.modify k f = some m') :
    ∃ v w, (k,v) ∈ m.entries ∧ (k,w) ∈ m'.entries ∧ f v = some w := by
  have he := modify_eq_some h
  generalize m.entries = l at he
  generalize m'.entries = l' at he
  induction l generalizing l' with
  | nil => cases he
  | cons p l ih =>
    obtain ⟨a,v⟩ := p
    rw [modifyEntries] at he
    split_ifs at he with ha
    · obtain ⟨w,hw,rfl⟩ := Option.map_eq_some_iff.1 he
      subst ha
      exact ⟨v,w,List.mem_cons_self,List.mem_cons_self,hw⟩
    · obtain ⟨r,hr,rfl⟩ := Option.map_eq_some_iff.1 he
      obtain ⟨x,y,hx,hy,hxy⟩ := ih r hr
      exact ⟨x,y,List.mem_cons_of_mem _ hx,List.mem_cons_of_mem _ hy,hxy⟩

theorem others_append {k : κ} {v : β} {m m' : OrderedMap κ β} (h : m.append k v = some m') :
    m'.others k = m.others k := by
  rw [others,(append_eq_some h).2,List.filter_append]
  simp [others]

theorem others_erase {k : κ} {m m' : OrderedMap κ β} (h : m.erase k = some m') :
    m'.others k = m.others k := by
  rw [others,(erase_eq_some h).2,others,List.filter_filter]
  simp

theorem others_modify {k : κ} {f : β → Option β} {m m' : OrderedMap κ β}
    (h : m.modify k f = some m') : m'.others k = m.others k := by
  have he := modify_eq_some h
  unfold others
  generalize m.entries = l at he
  generalize m'.entries = l' at he
  induction l generalizing l' with
  | nil => cases he
  | cons p l ih =>
    obtain ⟨a,v⟩ := p
    rw [modifyEntries] at he
    split_ifs at he with ha
    · obtain ⟨w,_,rfl⟩ := Option.map_eq_some_iff.1 he
      simp [ha]
    · obtain ⟨r,hr,rfl⟩ := Option.map_eq_some_iff.1 he
      rw [List.filter_cons_of_pos (by simpa using ha),List.filter_cons_of_pos (by simpa using ha),
        ih r hr]

/-- `d.get(k)`. -/
def get (k : κ) (m : OrderedMap κ β) : Option β := (m.entries.find? (·.1 = k)).map Prod.snd

/-- `del d[k]`, where the key may be absent. -/
def remove (k : κ) (m : OrderedMap κ β) : OrderedMap κ β :=
  ⟨m.others k,m.nodup.sublist (List.filter_sublist.map Prod.fst)⟩

/-- `d[k] = v`: a present key keeps its place. -/
def put (k : κ) (v : β) (m : OrderedMap κ β) : OrderedMap κ β :=
  if h : k ∈ m.keys then
    ⟨m.entries.map fun p => if p.1 = k then (k,v) else p,by
      have hfst : Prod.fst ∘ (fun p : κ × β => if p.1 = k then (k,v) else p) = Prod.fst := by
        funext p
        by_cases hp : p.1 = k
        · simp [hp]
        · simp [hp]
      rw [List.map_map,hfst]
      exact m.nodup⟩
  else ⟨m.entries ++ [(k,v)],nodup_concat h v⟩

theorem get_eq_some_iff {k : κ} {v : β} {m : OrderedMap κ β} :
    m.get k = some v ↔ (k,v) ∈ m.entries := by
  unfold get
  rw [Option.map_eq_some_iff]
  constructor
  · rintro ⟨⟨a,w⟩,hf,rfl⟩
    have ha := List.find?_some hf
    rw [decide_eq_true_eq] at ha
    cases ha
    exact List.mem_of_find?_eq_some hf
  · intro h
    cases hf : m.entries.find? (·.1 = k) with
    | none =>
      have hn := List.find?_eq_none.1 hf (k,v) h
      simp at hn
    | some p =>
      obtain ⟨a,w⟩ := p
      have ha := List.find?_some hf
      rw [decide_eq_true_eq] at ha
      cases ha
      exact ⟨_,rfl,value_unique (List.mem_of_find?_eq_some hf) h⟩

theorem get_eq_none_iff {k : κ} {m : OrderedMap κ β} :
    m.get k = none ↔ ∀ v, (k,v) ∉ m.entries := by
  rw [← Option.not_isSome_iff_eq_none,Option.isSome_iff_exists,not_exists]
  exact forall_congr' fun v => not_congr get_eq_some_iff

theorem mem_remove {k a : κ} {v : β} {m : OrderedMap κ β} :
    (a,v) ∈ (m.remove k).entries ↔ a ≠ k ∧ (a,v) ∈ m.entries := by
  change (a,v) ∈ m.entries.filter (·.1 ≠ k) ↔ _
  rw [List.mem_filter,and_comm]
  simp

theorem mem_put {k a : κ} {v w : β} {m : OrderedMap κ β} :
    (a,w) ∈ (m.put k v).entries ↔ (a = k ∧ w = v) ∨ (a ≠ k ∧ (a,w) ∈ m.entries) := by
  unfold put
  split_ifs with hk
  · rw [List.mem_map]
    constructor
    · rintro ⟨⟨b,x⟩,hb,he⟩
      by_cases hbk : b = k
      · rw [if_pos hbk] at he
        cases he
        exact .inl ⟨rfl,rfl⟩
      · rw [if_neg hbk] at he
        cases he
        exact .inr ⟨hbk,hb⟩
    · rintro (⟨rfl,rfl⟩ | ⟨ha,hm⟩)
      · obtain ⟨⟨b,x⟩,hb,rfl⟩ := List.mem_map.1 hk
        exact ⟨_,hb,if_pos rfl⟩
      · exact ⟨(a,w),hm,if_neg ha⟩
  · rw [List.mem_append,List.mem_singleton,Prod.mk.injEq]
    constructor
    · rintro (h | h)
      · exact .inr ⟨fun hak => hk (hak ▸ mem_keys h),h⟩
      · exact .inl h
    · rintro (h | h)
      · exact .inr h
      · exact .inl h.2

end OrderedMap

end ClickHouseRegression
