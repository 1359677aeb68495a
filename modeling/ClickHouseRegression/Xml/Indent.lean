import ClickHouseRegression.Xml.Element

/-! Pretty-printing an element tree by rewriting its whitespace, and the content of a tree that
is left when whitespace between elements is ignored. -/
namespace ClickHouseRegression.Xml

/-- `not t or not t.strip()`. -/
def blank : Option Text → Bool
  | none => true
  | some t => t.strip.isEmpty

/-- `if not t or not t.strip(): t = pad`. -/
def fill (pad : Text) (t : Option Text) : Option Text := if blank t then some pad else t

def dropBlank (t : Option Text) : Option Text := if blank t then none else t

namespace Element

def fillTail (pad : Text) (e : Element) : Element := e.withTail (fill pad e.tail)

/-- One call of the indenting recursion, with `child` for the recursive calls: after the loop
over the children the loop variable is the last child. -/
def indentNode (line inner : Text) (level : ℕ) (child : Element → Element) : Element → Element
  | mk tag attrib text tail [] =>
    mk tag attrib text (if level = 0 then tail else fill line tail) []
  | mk tag attrib text tail (c :: cs) =>
    mk tag attrib (fill inner text) (fill line tail)
      (((c :: cs).map child).modifyLast (fillTail line))

mutual
/-- The indenting recursion; `line` and `inner` give the two paddings at each level. -/
def indent (line inner : ℕ → Text) : ℕ → Element → Element
  | level,mk tag attrib text tail children =>
    indentNode (line level) (inner level) level id
      (mk tag attrib text tail (indentAll line inner (level+1) children))

def indentAll (line inner : ℕ → Text) : ℕ → List Element → List Element
  | _,[] => []
  | level,c :: cs => c.indent line inner level :: indentAll line inner level cs
end

mutual
/-- The tree with the whitespace around child elements left out. -/
def normalize : Element → Element
  | mk tag attrib text tail children =>
    mk tag attrib (if children.isEmpty then text else dropBlank text) (dropBlank tail)
      (normalizeAll children)

def normalizeAll : List Element → List Element
  | [] => []
  | c :: cs => c.normalize :: normalizeAll cs
end

variable (line inner : ℕ → Text)

theorem indentAll_eq_map (level : ℕ) (cs : List Element) :
    indentAll line inner level cs = cs.map (indent line inner level) := by
  induction cs with
  | nil => rfl
  | cons c cs ih => rw [indentAll,ih,List.map_cons]

theorem normalizeAll_eq_map (cs : List Element) : normalizeAll cs = cs.map normalize := by
  induction cs with
  | nil => rfl
  | cons c cs ih => rw [normalizeAll,ih,List.map_cons]

theorem indent_eq (level : ℕ) (e : Element) :
    e.indent line inner level =
      indentNode (line level) (inner level) level (indent line inner (level+1)) e := by
  obtain ⟨tag,attrib,text,tail,children⟩ := e
  rw [indent,indentAll_eq_map]
  cases children with
  | nil => rfl
  | cons c cs => simp [indentNode]

theorem indentNode_concat (line inner : Text) (level : ℕ) (child : Element → Element) (tag : Tag)
    (attrib : List (Text × Text)) (text tail : Option Text) (cs : List Element) (c : Element) :
    indentNode line inner level child (mk tag attrib text tail (cs ++ [c])) =
      mk tag attrib (fill inner text) (fill line tail)
        (cs.map child ++ [fillTail line (child c)]) := by
  obtain ⟨d,ds,hds⟩ : ∃ d ds, cs ++ [c] = d :: ds := List.exists_cons_of_ne_nil (by simp)
  rw [hds,indentNode,← hds,List.map_append,List.map_singleton,List.modifyLast_concat]

theorem normalize_mk (tag : Tag) (attrib : List (Text × Text)) (text tail : Option Text)
    (children : List Element) :
    (mk tag attrib text tail children).normalize =
      mk tag attrib (if children.isEmpty then text else dropBlank text) (dropBlank tail)
        (children.map normalize) := by
  rw [normalize,normalizeAll_eq_map]

end Element

theorem fill_fill (pad : Text) (t : Option Text) : fill pad (fill pad t) = fill pad t := by
  unfold fill
  split_ifs <;> simp_all

/-- A tail filled for the child and then for the parent is settled after one round. -/
theorem fill_round (outer own : Text) (t : Option Text) :
    fill outer (fill own (fill outer (fill own t))) = fill outer (fill own t) := by
  unfold fill
  split_ifs <;> simp_all

theorem dropBlank_fill {pad : Text} (h : blank (some pad) = true) (t : Option Text) :
    dropBlank (fill pad t) = dropBlank t := by
  unfold dropBlank fill
  split_ifs <;> simp_all

namespace Element

theorem fillTail_normalize {pad : Text} (h : blank (some pad) = true) (e : Element) :
    (e.fillTail pad).normalize = e.normalize := by
  obtain ⟨tag,attrib,text,tail,children⟩ := e
  simp only [fillTail,withTail,Element.tail]
  rw [normalize_mk,normalize_mk,dropBlank_fill h]

theorem modifyLast_map_normalize {pad : Text} (h : blank (some pad) = true) (cs : List Element) :
    (cs.modifyLast (fillTail pad)).map normalize = cs.map normalize := by
  induction cs using List.reverseRecOn with
  | nil => rfl
  | append_singleton cs c _ =>
    rw [List.modifyLast_concat]
    simp [fillTail_normalize h]

/-- One call of the recursion keeps the content if the recursive calls do. -/
theorem indentNode_normalize {line inner : Text} (hl : blank (some line) = true)
    (hi : blank (some inner) = true) (level : ℕ) {child : Element → Element} {e : Element}
    (hc : ∀ c ∈ e.children, (child c).normalize = c.normalize) :
    (indentNode line inner level child e).normalize = e.normalize := by
  obtain ⟨tag,attrib,text,tail,children⟩ := e
  cases children with
  | nil =>
    rw [indentNode,normalize_mk,normalize_mk]
    split_ifs
    · rfl
    · rw [dropBlank_fill hl]
    all_goals simp_all
  | cons c cs =>
    have hmap : ((c :: cs).map child).map normalize = (c :: cs).map normalize := by
      rw [List.map_map]
      exact List.map_congr_left hc
    have hne : (((c :: cs).map child).modifyLast (fillTail line)).isEmpty = false := by
      have hlen := congrArg List.length (modifyLast_map_normalize hl ((c :: cs).map child))
      simp only [List.length_map,List.length_cons] at hlen
      exact List.isEmpty_eq_false_iff.2 (List.ne_nil_of_length_eq_add_one hlen)
    rw [indentNode,normalize_mk,normalize_mk,dropBlank_fill hl,modifyLast_map_normalize hl,hmap,hne]
    simp [dropBlank_fill hi]

/-- Indenting keeps the content of every tree. -/
theorem indent_normalize {line inner : ℕ → Text} (hl : ∀ n, blank (some (line n)) = true)
    (hi : ∀ n, blank (some (inner n)) = true) (level : ℕ) (e : Element) :
    (e.indent line inner level).normalize = e.normalize := by
  induction e generalizing level with
  | mk tag attrib text tail children ih =>
    rw [indent_eq]
    exact indentNode_normalize (hl level) (hi level) level fun c hc => ih c hc (level+1)

theorem indentNode_withTail (line inner : Text) {level : ℕ} (h : level ≠ 0)
    (child : Element → Element) (t : Option Text) (e : Element) :
    indentNode line inner level child (e.withTail t) =
      (indentNode line inner level child e).withTail (fill line t) := by
  obtain ⟨tag,attrib,text,tail,children⟩ := e
  cases children with
  | nil => simp [withTail,indentNode,h]
  | cons c cs => rfl

theorem indentNode_tail (line inner : Text) {level : ℕ} (h : level ≠ 0)
    (child : Element → Element) (e : Element) :
    (indentNode line inner level child e).tail = fill line e.tail := by
  obtain ⟨tag,attrib,text,tail,children⟩ := e
  cases children with
  | nil => simp [Element.tail,indentNode,h]
  | cons c cs => rfl

/-- A recursive call fills the tail of its element and looks at it for nothing else. -/
structure FillsTail (child : Element → Element) (own : Text) : Prop where
  withTail : ∀ t e, child (e.withTail t) = (child e).withTail (fill own t)
  tail : ∀ e, (child e).tail = fill own e.tail

theorem FillsTail.last {child : Element → Element} {own : Text} (h : FillsTail child own)
    (line : Text) {c : Element} (hc : child (child c) = child c) :
    fillTail line (child (fillTail line (child c))) = fillTail line (child c) := by
  unfold fillTail
  rw [h.withTail,hc,h.tail,tail_withTail,withTail_withTail,fill_round]

theorem indentNode_idem {child : Element → Element} {own : Text} (h : FillsTail child own)
    (line inner : Text) (level : ℕ) {e : Element}
    (hc : ∀ c ∈ e.children, child (child c) = child c) :
    indentNode line inner level child (indentNode line inner level child e) =
      indentNode line inner level child e := by
  obtain ⟨tag,attrib,text,tail,children⟩ := e
  rcases children.eq_nil_or_concat' with rfl | ⟨cs,c,rfl⟩
  · simp only [indentNode]
    split_ifs
    · rfl
    · rw [fill_fill]
  · have hcs : (cs.map child).map child = cs.map child := by
      rw [List.map_map]
      exact List.map_congr_left fun d hd => hc d (List.mem_append_left _ hd)
    have hlast := h.last line (hc c (List.mem_append_right _ List.mem_cons_self))
    rw [indentNode_concat,indentNode_concat,fill_fill,fill_fill,hcs,hlast]

theorem indent_fillsTail (line inner : ℕ → Text) {level : ℕ} (h : level ≠ 0) :
    FillsTail (indent line inner level) (line level) := by
  refine ⟨fun t e => ?_,fun e => ?_⟩
  · rw [indent_eq,indent_eq,indentNode_withTail _ _ h]
  · rw [indent_eq,indentNode_tail _ _ h]

/-- Indenting a second time changes nothing. -/
theorem indent_idem (line inner : ℕ → Text) (level : ℕ) (e : Element) :
    (e.indent line inner level).indent line inner level = e.indent line inner level := by
  induction e generalizing level with
  | mk tag attrib text tail children ih =>
    rw [indent_eq line inner level (mk tag attrib text tail children),indent_eq]
    exact indentNode_idem (indent_fillsTail line inner (Nat.succ_ne_zero level)) _ _ _
      fun c hc => ih c hc (level+1)

end Element

end ClickHouseRegression.Xml
