import ClickHouseRegression.Xml.Edit

/-! Reading along a chain of `find` calls, and what such a chain finds after a mutation at its end. -/
namespace ClickHouseRegression.Xml.Element

/-- `e.find(n)`. -/
def find (n : Text) (e : Element) : Option Element := e.children.find? fun c => c.tag = .name n

/-- `e.find(p₁).find(p₂)...`. -/
def findPath : List Text → Element → Option Element
  | [],e => some e
  | n :: path,e => (e.find n).bind (findPath path)

theorem findPath_append (path rest : List Text) (e : Element) :
    findPath (path ++ rest) e = (findPath path e).bind (findPath rest) := by
  induction path generalizing e with
  | nil => rfl
  | cons n path ih =>
    rw [List.cons_append,findPath,findPath]
    cases e.find n with
    | none => rfl
    | some c => exact ih c

theorem find_content (n : Text) (e : Element) : (e.find n).map content = e.content.find n := by
  unfold find
  rw [content_children,List.find?_map]
  congr 2
  funext c
  simp

theorem findPath_content (path : List Text) (e : Element) :
    (findPath path e).map content = findPath path e.content := by
  induction path generalizing e with
  | nil => rfl
  | cons n path ih =>
    rw [findPath,findPath,← find_content]
    cases e.find n with
    | none => rfl
    | some c => exact ih c

theorem tag_of_find {n : Text} {e c : Element} (h : e.find n = some c) : c.tag = .name n := by
  simpa using List.find?_some h

theorem updateFirst_find {n : Text} {f : Element → Option Element} {c d : Element} (hf : f c = some d)
    (hd : d.tag = .name n) {cs : List Element} (h : cs.find? (fun c => c.tag = .name n) = some c) :
    ∃ ds, updateFirst n f cs = some ds ∧ ds.find? (fun c => c.tag = .name n) = some d := by
  induction cs with
  | nil => cases h
  | cons b cs ih =>
    by_cases hb : b.tag = .name n
    · rw [List.find?_cons_of_pos (by simpa using hb)] at h
      cases h
      refine ⟨d :: cs,by rw [updateFirst,if_pos hb,hf]; rfl,?_⟩
      rw [List.find?_cons_of_pos (by simpa using hd)]
    · rw [List.find?_cons_of_neg (by simpa using hb)] at h
      obtain ⟨ds,hds,hfind⟩ := ih h
      refine ⟨b :: ds,by rw [updateFirst,if_neg hb,hds]; rfl,?_⟩
      rwa [List.find?_cons_of_neg (by simpa using hb)]

/-- A mutation of what is found is found in its place. -/
theorem update_find {n : Text} {f : Element → Option Element} {e c d : Element} (h : e.find n = some c)
    (hf : f c = some d) (htag : d.tag = c.tag) : ∃ e', update n f e = some e' ∧ e'.find n = some d := by
  obtain ⟨ds,hds,hfind⟩ := updateFirst_find hf (htag.trans (tag_of_find h)) h
  refine ⟨e.withChildren ds,by rw [update,hds]; rfl,?_⟩
  rwa [find,children_withChildren]

theorem updatePath_find {path : List Text} {f : Element → Option Element} {e c d : Element}
    (h : findPath path e = some c) (hf : f c = some d) (htag : d.tag = c.tag) :
    ∃ e', updatePath path f e = some e' ∧ e'.tag = e.tag ∧ findPath path e' = some d := by
  induction path generalizing e with
  | nil =>
    cases h
    exact ⟨d,hf,htag,rfl⟩
  | cons n path ih =>
    obtain ⟨b,hb,hpath⟩ := Option.bind_eq_some_iff.1 h
    obtain ⟨b',hupdate,hbtag,hfind⟩ := ih hpath
    obtain ⟨e',he',hb'⟩ := update_find hb hupdate hbtag
    refine ⟨e',he',update_keepsTag n _ e e' he',?_⟩
    rw [findPath,hb']
    exact hfind

/-- The same up to whitespace, for a mutation followed by a change of whitespace alone. -/
theorem findPath_of_content {path : List Text} {e e' c : Element} (h : findPath path e = some c)
    (he : e'.content = e.content) : ∃ c', findPath path e' = some c' ∧ c'.content = c.content := by
  have hc := findPath_content path e'
  rw [he,← findPath_content,h] at hc
  exact Option.map_eq_some_iff.1 hc

end ClickHouseRegression.Xml.Element
