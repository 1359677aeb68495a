import ClickHouseRegression.Loop.Indexed
import ClickHouseRegression.TieredStorage.Refinement
import ClickHouseRegression.Xml.Find

/-! `removing_disks_from_volume` with `inplace=True`: the loop removes children from the volume that
it iterates over. -/
namespace ClickHouseRegression.TieredStorage
open Xml Xml.Element

/-- `disk.text in disks`. -/
def named (names : List Text) (c : Element) : Bool :=
  match c.text with
  | none => false
  | some t => names.contains t

/-- One turn of the loop; `remove` compares by identity and so removes the child of this turn. -/
def removingTurn (names : List Text) (i : ℕ) (c : Element) (cs : List Element) :
    Except Empty (List Element) :=
  .ok (if named names c then cs.eraseIdx i else cs)

/-- The loop over the children of the volume. -/
def removeDisks (names : List Text) (v : Element) : Option Element :=
  match Loop.indexed id (removingTurn names) (v.children.length+1) 0 v.children with
  | some (.ok cs) => some (v.withChildren cs)
  | _ => none

/-- The chain of `find` calls that leads to a volume. -/
def volumePath (policy volume : Text) : List Text :=
  [storageConfiguration,policies,policy,volumes,volume]

/-- The tree that is written; `none` where a `find` gives `None`. -/
def removingDisksFromVolume (reread : Element → Element) (policy volume : Text) (names : List Text)
    (file : Element) : Option Element :=
  (updatePath (volumePath policy volume) (removeDisks names) (reread file)).map (xmlIndent · 0)

theorem removeDisks_eq (names : List Text) (v : Element) :
    removeDisks names v = some (v.withChildren (Loop.skipping (named names) v.children)) := by
  have hloop : Loop.indexed id (removingTurn names) (v.children.length+1) 0 v.children =
      some (.ok (Loop.skipping (named names) v.children)) :=
    Loop.indexed_removing (fun _ _ _ => rfl) v.children
  rw [removeDisks,hloop]

/-- No child with one of the names is left, and the others are as they were. -/
structure Removed (names : List Text) (before after : List Element) : Prop where
  gone : ∀ c ∈ after, named names c = false
  kept : after.filter (fun c => !named names c) = before.filter fun c => !named names c

/-- No two neighbours have names to be removed. -/
def NotAdjacent (names : List Text) (cs : List Element) : Prop :=
  cs.IsChain fun a b => ¬ (named names a = true ∧ named names b = true)

/-- The step writes the volume without the disks exactly if no two of them are next to each other;
the tree that is written differs from the edited one in whitespace only. -/
theorem removingDisksFromVolume_iff (reread : Element → Element) (policy volume : Text)
    (names : List Text) (file v : Element)
    (hfound : findPath (volumePath policy volume) (reread file) = some v) :
    ∃ after written w, removingDisksFromVolume reread policy volume names file = some written ∧
      findPath (volumePath policy volume) written = some w ∧
      w.content = (v.withChildren after).content ∧
      (Removed names v.children after ↔ NotAdjacent names v.children) := by
  obtain ⟨edited,hedited,-,hfind⟩ := updatePath_find hfound (removeDisks_eq names v)
    (tag_withChildren _ v)
  obtain ⟨w,hw,hcontent⟩ := findPath_of_content hfind (xmlIndent_content edited 0)
  refine ⟨_,_,w,?_,hw,hcontent,?_⟩
  · rw [removingDisksFromVolume,hedited]
    rfl
  · constructor
    · intro h
      exact (Loop.skipping_removes_iff v.children).1 h.gone
    · intro h
      exact ⟨(Loop.skipping_removes_iff v.children).2 h,Loop.filter_skipping v.children⟩

/-- A configuration with one volume of these disks. -/
def oneVolume (names : List Text) : Element :=
  (Element.new "yandex".toList).append
    (((Element.new storageConfiguration).append (Element.new disks)).append
      ((Element.new policies).append (newPolicy "jbods".toList [("main".toList,names)])))

theorem findPath_oneVolume (names : List Text) :
    findPath (volumePath "jbods".toList "main".toList) (oneVolume names) =
      some (newVolume "main".toList names) := rfl

theorem removingDisksFromVolume_jbods :
    ∃ after written w, removingDisksFromVolume id "jbods".toList "main".toList
        ["jbod1".toList,"jbod3".toList] (oneVolume ["jbod1".toList,"jbod2".toList,"jbod3".toList]) =
          some written ∧
      findPath (volumePath "jbods".toList "main".toList) written = some w ∧
      w.content = ((newVolume "main".toList ["jbod1".toList,"jbod2".toList,"jbod3".toList]).withChildren
        after).content ∧
      (Removed ["jbod1".toList,"jbod3".toList]
          (newVolume "main".toList ["jbod1".toList,"jbod2".toList,"jbod3".toList]).children after ↔
        NotAdjacent ["jbod1".toList,"jbod3".toList]
          (newVolume "main".toList ["jbod1".toList,"jbod2".toList,"jbod3".toList]).children) :=
  removingDisksFromVolume_iff id _ _ _ _ _ (findPath_oneVolume _)

/-- Two disks next to each other are to be removed and the second one stays. -/
theorem removingDisksFromVolume_adjacent :
    ((removingDisksFromVolume id "jbods".toList "main".toList ["jbod1".toList,"jbod2".toList]
        (oneVolume ["jbod1".toList,"jbod2".toList])).bind
          (findPath (volumePath "jbods".toList "main".toList))).map
            (fun w => w.children.map fun c => (c.text,named ["jbod1".toList,"jbod2".toList] c)) =
      some [(some "jbod2".toList,true)] := by
  rfl

end ClickHouseRegression.TieredStorage
