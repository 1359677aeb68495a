import ClickHouseRegression.Text

/-! Element trees as `xml.etree.ElementTree` keeps them: the text before the first child is a
field of the element, the text after it a field of the element itself. -/
namespace ClickHouseRegression.Xml

inductive Tag
  | name (n : Text)
  | comment
  deriving DecidableEq

inductive Element
  | mk (tag : Tag) (attrib : List (Text × Text)) (text tail : Option Text) (children : List Element)

namespace Element

def tag : Element → Tag
  | mk tag _ _ _ _ => tag

def attrib : Element → List (Text × Text)
  | mk _ attrib _ _ _ => attrib

def text : Element → Option Text
  | mk _ _ text _ _ => text

def tail : Element → Option Text
  | mk _ _ _ tail _ => tail

def children : Element → List Element
  | mk _ _ _ _ children => children

/-- `Element(name)`. -/
def new (n : Text) : Element := mk (.name n) [] none none []

/-- `Comment(text)`. -/
def comment (text : Text) : Element := mk .comment [] (some text) none []

def withText (t : Option Text) : Element → Element
  | mk tag attrib _ tail children => mk tag attrib t tail children

def withTail (t : Option Text) : Element → Element
  | mk tag attrib text _ children => mk tag attrib text t children

def withChildren (children : List Element) : Element → Element
  | mk tag attrib text tail _ => mk tag attrib text tail children

def append (e child : Element) : Element := e.withChildren (e.children ++ [child])

/-- An assignment `d[key] = value` on a dictionary kept in insertion order. -/
def assign (key value : Text) : List (Text × Text) → List (Text × Text)
  | [] => [(key,value)]
  | (k,v) :: rest => if k = key then (k,value) :: rest else (k,v) :: assign key value rest

/-- `e.set(key, value)`. -/
def set (key value : Text) : Element → Element
  | mk tag attrib text tail children => mk tag (assign key value attrib) text tail children

/-- Induction over trees: a property that passes from all children to their parent. -/
@[elab_as_elim,induction_eliminator]
theorem induct {motive : Element → Prop}
    (mk : ∀ tag attrib text tail children, (∀ c ∈ children, motive c) →
      motive (mk tag attrib text tail children)) (e : Element) : motive e := by
  refine Element.rec (motive_1 := motive) (motive_2 := fun cs => ∀ c ∈ cs, motive c) ?_ ?_ ?_ e
  · exact mk
  · intro c hc
    cases hc
  · intro c cs hc hcs d hd
    rcases List.mem_cons.1 hd with rfl | hd
    · exact hc
    · exact hcs d hd

@[simp] theorem withTail_withTail (s t : Option Text) (e : Element) :
    (e.withTail s).withTail t = e.withTail t := by
  cases e
  rfl

@[simp] theorem tail_withTail (t : Option Text) (e : Element) : (e.withTail t).tail = t := by
  cases e
  rfl

@[simp] theorem withChildren_withChildren (a b : List Element) (e : Element) :
    (e.withChildren a).withChildren b = e.withChildren b := by
  cases e
  rfl

@[simp] theorem children_withChildren (a : List Element) (e : Element) :
    (e.withChildren a).children = a := by
  cases e
  rfl

theorem withChildren_children (e : Element) : e.withChildren e.children = e := by
  cases e
  rfl

theorem assign_of_not_mem {key : Text} (value : Text) {d : List (Text × Text)}
    (h : key ∉ d.map Prod.fst) : assign key value d = d ++ [(key,value)] := by
  induction d with
  | nil => rfl
  | cons p d ih =>
    obtain ⟨k,v⟩ := p
    simp only [List.map_cons,List.mem_cons,not_or] at h
    rw [assign,if_neg (Ne.symm h.1),ih h.2]
    rfl

/-- Setting the items of a dictionary one by one copies it. -/
theorem foldl_assign {d : List (Text × Text)} (h : (d.map Prod.fst).Nodup) :
    ∀ acc : List (Text × Text), (∀ k ∈ acc.map Prod.fst, k ∉ d.map Prod.fst) →
      d.foldl (fun a p => assign p.1 p.2 a) acc = acc ++ d := by
  induction d with
  | nil => simp
  | cons p d ih =>
    intro acc hacc
    rw [List.map_cons,List.nodup_cons] at h
    have hp : p.1 ∉ acc.map Prod.fst := by
      intro hp
      exact hacc p.1 hp (by simp)
    rw [List.foldl_cons,assign_of_not_mem _ hp,ih h.2]
    · simp
    · intro k hk hd
      rw [List.map_append,List.mem_append] at hk
      rcases hk with hk | hk
      · exact hacc k hk (by simp [List.mem_map] at hd ⊢; exact .inr hd)
      · rw [List.map_singleton,List.mem_singleton] at hk
        exact h.1 (hk ▸ hd)

end Element

end ClickHouseRegression.Xml
