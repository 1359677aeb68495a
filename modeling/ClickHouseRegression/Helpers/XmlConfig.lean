import ClickHouseRegression.Xml.Indent

/-! Configuration files built by `create_xml_config_content` from nested dictionaries, and the
proof that their element tree carries exactly the dictionary it was built from. -/
namespace ClickHouseRegression.Helpers
open Xml Xml.Element

def defaultIndent : Text := "  ".toList

/-- `"\n" + level * by`. -/
def indentLine (unit : Text) (level : ℕ) : Text := '\n' :: Text.times level unit

/-- `xml_indent(elem, level, by)`, with `unit` for `by`; the recursive calls leave `by` at its
default. -/
def xmlIndent (elem : Element) (level : ℕ) (unit : Text) : Element :=
  elem.indentNode (indentLine unit level) (indentLine unit level ++ unit) level
    (indent (indentLine defaultIndent) (fun n => indentLine defaultIndent n ++ defaultIndent)
      (level+1))

def xmlAppend (root : Element) (tag : Text) (text : Option Text) : Element :=
  root.append ((Element.new tag).withText text)

structure KeyWithAttributes where
  name : Text
  attributes : List (Text × Text)
  nodup : (attributes.map Prod.fst).Nodup

inductive Key
  | str (k : Text)
  | withAttributes (k : KeyWithAttributes)

mutual
inductive Entry
  | mk (key : Key) (value : Value)

/-- A value of a configuration dictionary; `list` stands for lists and tuples. -/
inductive Value
  | leaf (text : Option Text)
  | dict (entries : List Entry)
  | list (dicts : List (List Entry))
end

/-- `Element(k.name)` with its attributes set one by one. -/
def KeyWithAttributes.element (k : KeyWithAttributes) : Element :=
  k.attributes.foldl (fun e a => e.set a.1 a.2) (Element.new k.name)

mutual
def createXmlTree : List Entry → Element → Element
  | [],root => root
  | entry :: entries,root => createXmlTree entries (createXmlEntry entry root)

/-- The body of the loop over `entries.items()`. -/
def createXmlEntry : Entry → Element → Element
  | .mk (.withAttributes k) (.dict v),root => root.append (createXmlTree v k.element)
  | .mk (.withAttributes k) (.list v),root => root.append (createXmlTrees v k.element)
  | .mk (.withAttributes k) (.leaf v),root => root.append (k.element.withText v)
  | .mk (.str k) (.dict v),root => root.append (createXmlTree v (Element.new k))
  | .mk (.str k) (.list v),root => root.append (createXmlTrees v (Element.new k))
  | .mk (.str k) (.leaf v),root => xmlAppend root k v

/-- `for e in v: create_xml_tree(e, xml_element)`. -/
def createXmlTrees : List (List Entry) → Element → Element
  | [],root => root
  | entries :: rest,root => createXmlTrees rest (createXmlTree entries root)
end

def uidComment (uid : Text) : Element := Element.comment ("config uid: ".toList ++ uid)

/-- The tree that `create_xml_config_content` serialises. -/
def configTree (uid root : Text) (entries : List Entry) : Element :=
  xmlIndent (createXmlTree entries ((Element.new root).append (uidComment uid))) 0 defaultIndent

structure Config where
  content : Text
  path : Text
  name : Text
  uid : Text
  preprocessedName : Text

/-- `os.path.join` of two components. -/
def pathJoin (dir file : Text) : Text :=
  if file.head? = some '/' then file
  else if dir = [] ∨ dir.getLast? = some '/' then dir ++ file
  else dir ++ '/' :: file

def xmlWithUtf8 : Text := "<?xml version=\"1.0\" encoding=\"utf-8\"?>\n".toList

/-- `tostring` stands for the serialiser with `short_empty_elements=False`. -/
def createXmlConfigContent (tostring : Element → Text) (uid : Text) (entries : List Entry)
    (configFile configDDir root : Text) : Config where
  content := xmlWithUtf8 ++ tostring (configTree uid root entries)
  path := pathJoin configDDir configFile
  name := configFile
  uid := uid
  preprocessedName := "config.xml".toList

def Key.name : Key → Text
  | .str k => k
  | .withAttributes k => k.name

def Key.attributes : Key → List (Text × Text)
  | .str _ => []
  | .withAttributes k => k.attributes

mutual
/-- The element an entry describes: a dictionary nests its entries, a list of dictionaries
nests all of them in order, and a leaf is text. -/
def Entry.element : Entry → Element
  | .mk key (.leaf t) => .mk (.name key.name) key.attributes t none []
  | .mk key (.dict es) => .mk (.name key.name) key.attributes none none (elements es)
  | .mk key (.list ds) => .mk (.name key.name) key.attributes none none (elementsOfList ds)

def elements : List Entry → List Element
  | [] => []
  | e :: es => e.element :: elements es

def elementsOfList : List (List Entry) → List Element
  | [] => []
  | es :: ds => elements es ++ elementsOfList ds
end

/-- The tree without whitespace around child elements and without the uid comment. -/
def readBack (uid : Text) (e : Element) : Element :=
  e.normalize.withChildren <| e.normalize.children.filter fun c =>
    !(c.tag = .comment ∧ c.text = (uidComment uid).text)

theorem set_foldl (n : Text) (d acc : List (Text × Text)) :
    d.foldl (fun e a => Element.set a.1 a.2 e) (.mk (.name n) acc none none []) =
      .mk (.name n) (d.foldl (fun e a => assign a.1 a.2 e) acc) none none [] := by
  induction d generalizing acc with
  | nil => rfl
  | cons a d ih => exact ih _

theorem KeyWithAttributes.element_eq (k : KeyWithAttributes) :
    k.element = .mk (.name k.name) k.attributes none none [] := by
  have h := foldl_assign k.nodup [] (by simp)
  rw [List.nil_append] at h
  rw [KeyWithAttributes.element,Element.new,set_foldl,h]

mutual
theorem createXmlTree_eq : ∀ (es : List Entry) (root : Element),
    createXmlTree es root = root.withChildren (root.children ++ elements es)
  | [],root => by
    rw [createXmlTree,elements,List.append_nil,withChildren_children]
  | e :: es,root => by
    rw [createXmlTree,createXmlTree_eq es,createXmlEntry_eq e,Element.append,withChildren_withChildren,
      children_withChildren,elements,List.append_assoc]
    rfl

theorem createXmlEntry_eq : ∀ (e : Entry) (root : Element),
    createXmlEntry e root = root.append e.element
  | .mk (.withAttributes k) (.dict v),root => by
    rw [createXmlEntry,createXmlTree_eq v,k.element_eq,Entry.element]
    rfl
  | .mk (.withAttributes k) (.list v),root => by
    rw [createXmlEntry,createXmlTrees_eq v,k.element_eq,Entry.element]
    rfl
  | .mk (.withAttributes k) (.leaf v),root => by
    rw [createXmlEntry,k.element_eq,Entry.element]
    rfl
  | .mk (.str k) (.dict v),root => by
    rw [createXmlEntry,createXmlTree_eq v,Entry.element]
    rfl
  | .mk (.str k) (.list v),root => by
    rw [createXmlEntry,createXmlTrees_eq v,Entry.element]
    rfl
  | .mk (.str k) (.leaf v),root => by
    rw [createXmlEntry,Entry.element]
    rfl

theorem createXmlTrees_eq : ∀ (ds : List (List Entry)) (root : Element),
    createXmlTrees ds root = root.withChildren (root.children ++ elementsOfList ds)
  | [],root => by
    rw [createXmlTrees,elementsOfList,List.append_nil,withChildren_children]
  | es :: ds,root => by
    rw [createXmlTrees,createXmlTrees_eq ds,createXmlTree_eq es,withChildren_withChildren,
      children_withChildren,elementsOfList,List.append_assoc]
end

mutual
theorem element_normalize : ∀ e : Entry, e.element.normalize = e.element
  | .mk key (.leaf t) => by
    rw [Entry.element,normalize_mk]
    rfl
  | .mk key (.dict es) => by
    rw [Entry.element,normalize_mk,elements_normalize es]
    simp [dropBlank,blank]
  | .mk key (.list ds) => by
    rw [Entry.element,normalize_mk,elementsOfList_normalize ds]
    simp [dropBlank,blank]

theorem elements_normalize : ∀ es : List Entry, (elements es).map normalize = elements es
  | [] => by
    rw [elements]
    rfl
  | e :: es => by
    rw [elements,List.map_cons,element_normalize e,elements_normalize es]

theorem elementsOfList_normalize :
    ∀ ds : List (List Entry), (elementsOfList ds).map normalize = elementsOfList ds
  | [] => by
    rw [elementsOfList]
    rfl
  | es :: ds => by
    rw [elementsOfList,List.map_append,elements_normalize es,elementsOfList_normalize ds]
end

theorem elements_tag (es : List Entry) {c : Element} (h : c ∈ elements es) : c.tag ≠ .comment := by
  induction es with
  | nil =>
    rw [elements] at h
    cases h
  | cons e es ih =>
    rw [elements,List.mem_cons] at h
    rcases h with rfl | h
    · obtain ⟨key,value⟩ := e
      cases value <;> simp [Entry.element,Element.tag]
    · exact ih h

theorem indentLine_blank {unit : Text} (h : unit.strip = []) (level : ℕ) :
    blank (some (indentLine unit level)) = true := by
  rw [blank,indentLine,List.isEmpty_iff]
  exact Text.append_strip (show Text.strip ['\n'] = [] by decide) (Text.times_strip level h)

theorem indentLine_append_blank {unit : Text} (h : unit.strip = []) (level : ℕ) :
    blank (some (indentLine unit level ++ unit)) = true := by
  have hline := indentLine_blank h level
  rw [blank,List.isEmpty_iff] at hline ⊢
  exact Text.append_strip hline h

theorem defaultIndent_strip : defaultIndent.strip = [] := by decide

/-- The recursion of the source. -/
theorem xmlIndent_eq (elem : Element) (level : ℕ) (unit : Text) :
    xmlIndent elem level unit =
      elem.indentNode (indentLine unit level) (indentLine unit level ++ unit) level
        (fun child => xmlIndent child (level+1) defaultIndent) := by
  have hchild : indent (indentLine defaultIndent)
      (fun n => indentLine defaultIndent n ++ defaultIndent) (level+1) =
        fun child => xmlIndent child (level+1) defaultIndent := by
    funext child
    exact indent_eq _ _ _ child
  rw [xmlIndent,hchild]

theorem xmlIndent_normalize {unit : Text} (h : unit.strip = []) (elem : Element) (level : ℕ) :
    (xmlIndent elem level unit).normalize = elem.normalize := by
  refine indentNode_normalize (indentLine_blank h level) (indentLine_append_blank h level) level ?_
  intro c _
  exact indent_normalize (indentLine_blank defaultIndent_strip)
    (indentLine_append_blank defaultIndent_strip) (level+1) c

theorem xmlIndent_idem (elem : Element) (level : ℕ) (unit : Text) :
    xmlIndent (xmlIndent elem level unit) level unit = xmlIndent elem level unit :=
  indentNode_idem (indent_fillsTail _ _ (Nat.succ_ne_zero level)) _ _ _
    fun c _ => indent_idem _ _ _ c

theorem configTree_normalize (uid root : Text) (entries : List Entry) :
    (configTree uid root entries).normalize =
      .mk (.name root) [] none none (uidComment uid :: elements entries) := by
  rw [configTree,xmlIndent_normalize defaultIndent_strip,createXmlTree_eq,Element.append,
    withChildren_withChildren,children_withChildren]
  simp only [Element.new,withChildren,Element.children,List.nil_append,List.singleton_append]
  rw [normalize_mk,List.map_cons,elements_normalize]
  rfl

/-- The configuration read back is the dictionary it was built from, with the same tags,
attributes, order, nesting and leaf texts, and indenting twice is indenting once. -/
theorem configTree_reads_back :
    (∀ (uid root : Text) (entries : List Entry),
      readBack uid (configTree uid root entries) =
        .mk (.name root) [] none none (elements entries)) ∧
    (∀ (elem : Element) (level : ℕ) (unit : Text),
      xmlIndent (xmlIndent elem level unit) level unit = xmlIndent elem level unit) := by
  refine ⟨fun uid root entries => ?_,xmlIndent_idem⟩
  have hkeep : (elements entries).filter (fun c : Element =>
      !(c.tag = .comment ∧ c.text = (uidComment uid).text)) = elements entries := by
    rw [List.filter_eq_self]
    intro c hc
    simp [elements_tag entries hc]
  rw [readBack,configTree_normalize]
  simp only [withChildren,Element.children]
  rw [List.filter_cons_of_neg (by simp [uidComment,Element.comment,Element.tag]),hkeep]

end ClickHouseRegression.Helpers
