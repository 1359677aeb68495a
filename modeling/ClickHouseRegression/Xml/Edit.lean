import ClickHouseRegression.Xml.Indent
import ClickHouseRegression.Map.Ordered

/-! Editing an element tree in place: `find` takes the first child with a tag, and a chain of
`find` calls followed by a mutation rewrites the tree along that path. Trees are compared by
their content, which ignores whitespace-only texts and tails. -/
namespace ClickHouseRegression.Xml.Element

mutual
def content : Element → Element
  | mk tag attrib text tail children =>
    mk tag attrib (dropBlank text) (dropBlank tail) (contentAll children)

def contentAll : List Element → List Element
  | [] => []
  | c :: cs => c.content :: contentAll cs
end

theorem contentAll_eq_map (cs : List Element) : contentAll cs = cs.map content := by
  induction cs with
  | nil => rfl
  | cons c cs ih => rw [contentAll,ih,List.map_cons]

theorem content_mk (tag : Tag) (attrib : List (Text × Text)) (text tail : Option Text)
    (children : List Element) :
    (mk tag attrib text tail children).content =
      mk tag attrib (dropBlank text) (dropBlank tail) (children.map content) := by
  rw [content,contentAll_eq_map]

theorem dropBlank_dropBlank (t : Option Text) : dropBlank (dropBlank t) = dropBlank t := by
  unfold dropBlank
  split_ifs <;> simp_all [blank]

@[simp] theorem content_tag (e : Element) : e.content.tag = e.tag := by
  cases e
  rw [content_mk]
  rfl

@[simp] theorem content_children (e : Element) :
    e.content.children = e.children.map content := by
  cases e
  rw [content_mk]
  rfl

theorem content_withChildren (cs : List Element) (e : Element) :
    (e.withChildren cs).content = e.content.withChildren (cs.map content) := by
  cases e
  simp only [withChildren,content_mk]

theorem content_normalize (e : Element) : e.normalize.content = e.content := by
  induction e with
  | mk tag attrib text tail children ih =>
    rw [normalize_mk,content_mk,content_mk,dropBlank_dropBlank,List.map_map]
    congr 1
    · split_ifs
      · rfl
      · exact dropBlank_dropBlank text
    · exact List.map_congr_left ih

/-- Indenting keeps the content. -/
theorem content_indent {line inner : ℕ → Text} (hl : ∀ n, blank (some (line n)) = true)
    (hi : ∀ n, blank (some (inner n)) = true) (level : ℕ) (e : Element) :
    (e.indent line inner level).content = e.content := by
  rw [← content_normalize,indent_normalize hl hi,content_normalize]

/-- Rewrite the first element of a list that has the tag. -/
def updateFirst (n : Text) (f : Element → Option Element) : List Element → Option (List Element)
  | [] => none
  | c :: cs =>
    if c.tag = .name n then (f c).map (· :: cs) else (updateFirst n f cs).map (c :: ·)

/-- `f(e.find(n))` for a mutation `f`; `find` gives `None` where there is no such child. -/
def update (n : Text) (f : Element → Option Element) (e : Element) : Option Element :=
  (updateFirst n f e.children).map e.withChildren

/-- `e.append(child)` for each child in order. -/
def extend (cs : List Element) (e : Element) : Option Element :=
  some (e.withChildren (e.children ++ cs))

def removeFirst (n : Text) : List Element → Option (List Element)
  | [] => none
  | c :: cs => if c.tag = .name n then some cs else (removeFirst n cs).map (c :: ·)

/-- `e.remove(e.find(n))`. -/
def removeChild (n : Text) (e : Element) : Option Element :=
  (removeFirst n e.children).map e.withChildren

/-- A mutation keeps the tag, so that `find` still finds the element. -/
def KeepsTag (f : Element → Option Element) : Prop := ∀ c d, f c = some d → d.tag = c.tag

/-- A mutation `f` acts on the content as `g`. -/
def Lifts (f g : Element → Option Element) : Prop := ∀ e, (f e).map content = g e.content

theorem updateFirst_content {n : Text} {f g : Element → Option Element} (h : Lifts f g)
    (cs : List Element) :
    (updateFirst n f cs).map (List.map content) = updateFirst n g (cs.map content) := by
  induction cs with
  | nil => rfl
  | cons c cs ih =>
    rw [List.map_cons,updateFirst,updateFirst,content_tag,← ih,← h]
    split_ifs
    · cases f c <;> rfl
    · cases updateFirst n f cs <;> rfl

theorem update_lifts {n : Text} {f g : Element → Option Element} (h : Lifts f g) :
    Lifts (update n f) (update n g) := by
  intro e
  unfold update
  rw [content_children,← updateFirst_content h]
  cases updateFirst n f e.children with
  | none => rfl
  | some cs => exact congrArg some (content_withChildren cs e)

theorem extend_lifts (cs : List Element) : Lifts (extend cs) (extend (cs.map content)) := by
  intro e
  simp [extend,content_withChildren]

theorem removeFirst_content (n : Text) (cs : List Element) :
    (removeFirst n cs).map (List.map content) = removeFirst n (cs.map content) := by
  induction cs with
  | nil => rfl
  | cons c cs ih =>
    rw [List.map_cons,removeFirst,removeFirst,content_tag,← ih]
    split_ifs
    · rfl
    · cases removeFirst n cs <;> rfl

theorem removeChild_lifts (n : Text) : Lifts (removeChild n) (removeChild n) := by
  intro e
  unfold removeChild
  rw [content_children,← removeFirst_content]
  cases removeFirst n e.children with
  | none => rfl
  | some cs => exact congrArg some (content_withChildren cs e)

/-- `f(root.find(p₁).find(p₂)...)`. -/
def updatePath : List Text → (Element → Option Element) → Element → Option Element
  | [],f => f
  | n :: path,f => update n (updatePath path f)

theorem updatePath_lifts {f g : Element → Option Element} (h : Lifts f g) (path : List Text) :
    Lifts (updatePath path f) (updatePath path g) := by
  induction path with
  | nil => exact h
  | cons n path ih => exact update_lifts ih

def setChildren (cs : List Element) (e : Element) : Option Element := some (e.withChildren cs)

theorem tag_withChildren (cs : List Element) (e : Element) : (e.withChildren cs).tag = e.tag := by
  cases e
  rfl

theorem setChildren_keepsTag (cs : List Element) : KeepsTag (setChildren cs) := by
  rintro c d h
  cases h
  exact tag_withChildren cs c

theorem extend_keepsTag (cs : List Element) : KeepsTag (extend cs) := by
  rintro c d h
  cases h
  exact tag_withChildren _ c

theorem removeChild_keepsTag (n : Text) : KeepsTag (removeChild n) := by
  intro c d h
  obtain ⟨cs,_,rfl⟩ := Option.map_eq_some_iff.1 h
  exact tag_withChildren cs c

theorem update_keepsTag (n : Text) (f : Element → Option Element) : KeepsTag (update n f) := by
  intro c d h
  obtain ⟨cs,_,rfl⟩ := Option.map_eq_some_iff.1 h
  exact tag_withChildren cs c

theorem updateFirst_updateFirst {n : Text} {f : Element → Option Element} (hf : KeepsTag f)
    (g : Element → Option Element) (cs : List Element) :
    (updateFirst n f cs).bind (updateFirst n g) = updateFirst n (fun c => (f c).bind g) cs := by
  induction cs with
  | nil => rfl
  | cons c cs ih =>
    rw [updateFirst,updateFirst]
    split_ifs with hc
    · cases hd : f c with
      | none => rfl
      | some d =>
        have ht : d.tag = .name n := (hf c d hd).trans hc
        simp [updateFirst,ht]
    · rw [← ih]
      cases updateFirst n f cs with
      | none => rfl
      | some ds => simp [updateFirst,hc]

/-- Two mutations of the same child are one. -/
theorem update_update {n : Text} {f : Element → Option Element} (hf : KeepsTag f)
    (g : Element → Option Element) (e : Element) :
    (update n f e).bind (update n g) = update n (fun c => (f c).bind g) e := by
  unfold update
  rw [← updateFirst_updateFirst hf]
  cases updateFirst n f e.children with
  | none => rfl
  | some cs =>
    simp only [Option.map_some,Option.bind_some,children_withChildren]
    cases updateFirst n g cs with
    | none => rfl
    | some ds => simp

theorem updateFirst_comm {a b : Text} (hab : a ≠ b) {f g : Element → Option Element}
    (hf : KeepsTag f) (hg : KeepsTag g) (cs : List Element) :
    (updateFirst a f cs).bind (updateFirst b g) = (updateFirst b g cs).bind (updateFirst a f) := by
  induction cs with
  | nil => rfl
  | cons c cs ih =>
    by_cases hca : c.tag = .name a
    · have hcb : c.tag ≠ .name b := by
        rw [hca]
        exact fun h => hab (Tag.name.inj h)
      rw [updateFirst,updateFirst,if_pos hca,if_neg hcb]
      cases hd : f c with
      | none => cases updateFirst b g cs <;> simp [updateFirst,hca,hd]
      | some d =>
        have ht : d.tag ≠ .name b := by
          rw [hf c d hd]
          exact hcb
        cases hu : updateFirst b g cs <;> simp [updateFirst,hca,hd,ht,hu]
    · by_cases hcb : c.tag = .name b
      · rw [updateFirst,updateFirst,if_neg hca,if_pos hcb]
        cases hd : g c with
        | none => cases updateFirst a f cs <;> simp [updateFirst,hcb,hd]
        | some d =>
          have ht : d.tag ≠ .name a := by
            rw [hg c d hd]
            exact hca
          cases hu : updateFirst a f cs <;> simp [updateFirst,hcb,hd,ht,hu]
      · rw [updateFirst,updateFirst,if_neg hca,if_neg hcb]
        cases hu : updateFirst a f cs with
        | none =>
          rw [hu] at ih
          cases hv : updateFirst b g cs with
          | none => rfl
          | some ds =>
            rw [hv] at ih
            simp only [Option.bind_none,Option.bind_some] at ih
            simp [updateFirst,hca,← ih]
        | some ds =>
          rw [hu] at ih
          cases hv : updateFirst b g cs with
          | none =>
            rw [hv] at ih
            simp only [Option.bind_none,Option.bind_some] at ih
            simp [updateFirst,hcb,ih]
          | some es =>
            rw [hv] at ih
            simp only [Option.bind_some] at ih
            simp [updateFirst,hca,hcb,ih]

/-- Mutations of children with different tags commute. -/
theorem update_comm {a b : Text} (hab : a ≠ b) {f g : Element → Option Element}
    (hf : KeepsTag f) (hg : KeepsTag g) (e : Element) :
    (update a f e).bind (update b g) = (update b g e).bind (update a f) := by
  have h := updateFirst_comm hab hf hg e.children
  unfold update
  cases hu : updateFirst a f e.children with
  | none =>
    rw [hu] at h
    cases hv : updateFirst b g e.children with
    | none => rfl
    | some es =>
      rw [hv] at h
      simp only [Option.bind_none,Option.bind_some] at h
      simp [← h]
  | some ds =>
    rw [hu] at h
    cases hv : updateFirst b g e.children with
    | none =>
      rw [hv] at h
      simp only [Option.bind_none,Option.bind_some] at h
      simp [h]
    | some es =>
      rw [hv] at h
      simp only [Option.bind_some] at h
      simp [h]

theorem updateFirst_append {n : Text} (f : Element → Option Element) {before : List Element}
    (hb : ∀ c ∈ before, c.tag ≠ .name n) {c : Element} (hc : c.tag = .name n)
    (after : List Element) :
    updateFirst n f (before ++ c :: after) = (f c).map (before ++ · :: after) := by
  induction before with
  | nil => simp [updateFirst,hc]
  | cons d before ih =>
    rw [List.cons_append,updateFirst,if_neg (hb d List.mem_cons_self),
      ih fun x hx => hb x (List.mem_cons_of_mem d hx)]
    cases f c <;> rfl

theorem updateFirst_tags {n : Text} {f : Element → Option Element} (hf : KeepsTag f)
    {cs ds : List Element} (h : updateFirst n f cs = some ds) : ds.map tag = cs.map tag := by
  induction cs generalizing ds with
  | nil => cases h
  | cons c cs ih =>
    rw [updateFirst] at h
    split_ifs at h
    · obtain ⟨d,hd,rfl⟩ := Option.map_eq_some_iff.1 h
      rw [List.map_cons,List.map_cons,hf c d hd]
    · obtain ⟨ds,hds,rfl⟩ := Option.map_eq_some_iff.1 h
      rw [List.map_cons,List.map_cons,ih hds]

theorem updateFirst_isSome_iff {n : Text} {f : Element → Option Element}
    (hf : ∀ c, (f c).isSome = true) (cs : List Element) :
    (updateFirst n f cs).isSome = true ↔ .name n ∈ cs.map tag := by
  induction cs with
  | nil => simp [updateFirst]
  | cons c cs ih =>
    rw [updateFirst,List.map_cons,List.mem_cons]
    split_ifs with hc
    · simp [hf,hc]
    · simp [ih,Ne.symm hc]

theorem updateFirst_isSome_mono {n : Text} {f g : Element → Option Element}
    (hfg : ∀ c, (f c).isSome = true → (g c).isSome = true) {cs : List Element}
    (h : (updateFirst n f cs).isSome = true) : (updateFirst n g cs).isSome = true := by
  induction cs with
  | nil => exact h
  | cons c cs ih =>
    rw [updateFirst] at h ⊢
    split_ifs at h ⊢
    · rw [Option.isSome_map] at h ⊢
      exact hfg c h
    · rw [Option.isSome_map] at h ⊢
      exact ih h

section OrderedMap

variable {β : Type} {render : Text → β → Element} (htag : ∀ k v, (render k v).tag = .name k)

/-- The children that stand for the entries of a map. -/
def entriesOf (render : Text → β → Element) (m : OrderedMap Text β) : List Element :=
  m.entries.map fun p => render p.1 p.2

theorem extend_entries {k : Text} {v : β} {m m' : OrderedMap Text β}
    (h : m.append k v = some m') (e : Element) :
    extend [render k v] (e.withChildren (entriesOf render m)) =
      setChildren (entriesOf render m') e := by
  rw [extend,setChildren,withChildren_withChildren,children_withChildren,entriesOf,entriesOf,
    (OrderedMap.append_eq_some h).2,List.map_append]
  rfl

include htag

theorem removeFirst_entries {k : Text} {l : List (Text × β)} (hl : (l.map Prod.fst).Nodup)
    (hk : k ∈ l.map Prod.fst) :
    removeFirst k (l.map fun p => render p.1 p.2) =
      some ((l.filter (·.1 ≠ k)).map fun p => render p.1 p.2) := by
  induction l with
  | nil => cases hk
  | cons p l ih =>
    rw [List.map_cons,List.nodup_cons] at hl
    rw [List.map_cons,removeFirst,htag]
    by_cases hp : p.1 = k
    · rw [if_pos (by rw [hp]),List.filter_cons_of_neg (by simpa using hp),
        OrderedMap.filter_ne_of_not_mem (hp ▸ hl.1)]
    · have hk' : k ∈ l.map Prod.fst := by
        rw [List.map_cons,List.mem_cons] at hk
        exact hk.resolve_left (Ne.symm hp)
      rw [if_neg fun h => hp (Tag.name.inj h),ih hl.2 hk',
        List.filter_cons_of_pos (by simpa using hp)]
      rfl

theorem removeChild_entries {k : Text} {m m' : OrderedMap Text β} (h : m.erase k = some m')
    (e : Element) :
    removeChild k (e.withChildren (entriesOf render m)) = setChildren (entriesOf render m') e := by
  obtain ⟨hk,he⟩ := OrderedMap.erase_eq_some h
  rw [removeChild,children_withChildren,entriesOf,removeFirst_entries htag m.nodup hk,setChildren,
    entriesOf,he,OrderedMap.others]
  simp

theorem updateFirst_entries {k : Text} {f : Element → Option Element} {g : β → Option β}
    (hfg : ∀ v w, g v = some w → f (render k v) = some (render k w)) {l l' : List (Text × β)}
    (h : OrderedMap.modifyEntries k g l = some l') :
    updateFirst k f (l.map fun p => render p.1 p.2) = some (l'.map fun p => render p.1 p.2) := by
  induction l generalizing l' with
  | nil => cases h
  | cons p l ih =>
    obtain ⟨a,v⟩ := p
    rw [OrderedMap.modifyEntries] at h
    rw [List.map_cons,updateFirst,htag]
    by_cases ha : a = k
    · subst ha
      rw [if_pos rfl] at h ⊢
      obtain ⟨w,hw,rfl⟩ := Option.map_eq_some_iff.1 h
      rw [hfg v w hw]
      rfl
    · rw [if_neg ha] at h
      obtain ⟨r,hr,rfl⟩ := Option.map_eq_some_iff.1 h
      rw [if_neg fun h => ha (Tag.name.inj h),ih hr]
      rfl

theorem update_entries {k : Text} {f : Element → Option Element} {g : β → Option β}
    (hfg : ∀ v w, g v = some w → f (render k v) = some (render k w)) {m m' : OrderedMap Text β}
    (h : m.modify k g = some m') (e : Element) :
    update k f (e.withChildren (entriesOf render m)) = setChildren (entriesOf render m') e := by
  rw [update,children_withChildren,entriesOf,
    updateFirst_entries htag hfg (OrderedMap.modify_eq_some h)]
  simp [setChildren,entriesOf]

end OrderedMap

end ClickHouseRegression.Xml.Element
