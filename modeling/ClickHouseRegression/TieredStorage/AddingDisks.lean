import ClickHouseRegression.TieredStorage.RemovingDisks

/-! `adding_disks_to_volume` in its two modes: appending to the volume in the storage file, or writing
a file of its own with the disks that the server reports. -/
namespace ClickHouseRegression.TieredStorage
open Xml Xml.Element

/-- An element with whitespace around its children and after it. -/
def spaced (name : Text) (text tail : Option Text) (children : List Element) : Element :=
  .mk (.name name) [] text tail children

/-- `fromstring(base_config)`. -/
def baseConfigRoot : Element :=
  spaced "yandex".toList (some "\n    ".toList) none
    [spaced storageConfiguration (some "\n        ".toList) (some "\n".toList)
      [spaced disks none (some "\n        ".toList) [],spaced policies none (some "\n    ".toList) []]]

/-- The order in which the members of a set are iterated over. -/
structure SetOrder where
  list : Finset Text → List Text
  mem : ∀ s t, t ∈ list s ↔ t ∈ s

/-- A file of the directory `config.d`. -/
structure ConfigFile where
  name : Text
  root : Element

def policyVolumeFile (policy name : Text) : Text :=
  "policy_".toList ++ policy ++ "_volume_".toList ++ name ++ ".xml".toList

/-- `adding_volume_to_policy` with `inplace=False`. -/
def addingVolumeToPolicyApart (policy name : Text) (names : List Text) : Option ConfigFile := do
  let policyElement := (Element.new policy).append (Element.new volumes)
  let root ← updatePath [storageConfiguration,policies] (extend [policyElement]) baseConfigRoot
  let root ← updatePath [storageConfiguration,policies,policy,volumes] (extend [newVolume name names]) root
  return ⟨policyVolumeFile policy name,xmlIndent root 0⟩

/-- `adding_disks_to_volume` with `inplace=False`, for the disks in the first row of the answer of the
server; `none` where there is no row. The union is computed and not assigned. -/
def addingDisksToVolumeApart (order : SetOrder) (policy volume : Text) (answer : Option (List Text))
    (names : List Text) : Option ConfigFile := do
  let reported ← answer
  let volumeDisks := reported.toFinset
  let _ := volumeDisks ∪ names.toFinset
  addingVolumeToPolicyApart policy volume (order.list volumeDisks)

/-- `adding_disks_to_volume` with `inplace=True`. -/
def addingDisksToVolume (reread : Element → Element) (policy volume : Text) (names : List Text)
    (file : Element) : Option Element :=
  (Step.addingDisksToVolume policy volume names).run reread file

/-- The disks of a volume: the texts of its `disk` elements, unless blank. -/
def diskNames (v : Element) : List Text :=
  (v.children.filter fun c => c.tag = .name disk).filterMap fun c => dropBlank c.text

/-- A name of a disk is not blank. -/
structure DiskName where
  text : Text
  written : blank (some text) = false

theorem content_text (e : Element) : e.content.text = dropBlank e.text := by
  cases e
  rw [content_mk]
  rfl

theorem diskNames_content (v : Element) : diskNames v.content = diskNames v := by
  unfold diskNames
  rw [content_children,List.filter_map,List.filterMap_map]
  have htag : ((fun c : Element => decide (c.tag = .name disk)) ∘ content) =
      fun c : Element => decide (c.tag = .name disk) := by
    funext c
    simp
  have htext : ((fun c : Element => dropBlank c.text) ∘ content) = fun c : Element => dropBlank c.text := by
    funext c
    simp [content_text,dropBlank_dropBlank]
  rw [htag,htext]

theorem diskNames_append (v : Element) (cs : List Element) :
    diskNames (v.withChildren (v.children ++ cs)) = diskNames v ++ diskNames (v.withChildren cs) := by
  simp only [diskNames,children_withChildren,List.filter_append,List.filterMap_append]

theorem diskNames_new (v : Element) (names : List Text) (h : ∀ t ∈ names, blank (some t) = false) :
    diskNames (v.withChildren (names.map (textElement disk))) = names := by
  rw [diskNames,children_withChildren]
  induction names with
  | nil => rfl
  | cons t names ih =>
    have ht := h t List.mem_cons_self
    have hhead : ((textElement disk t).tag = .name disk) ∧ dropBlank (textElement disk t).text = some t := by
      refine ⟨rfl,?_⟩
      show dropBlank (some t) = some t
      rw [dropBlank,ht]
      rfl
    rw [List.map_cons,List.filter_cons_of_pos (by simpa using hhead.1),List.filterMap_cons,hhead.2,
      ih fun u hu => h u (List.mem_cons_of_mem t hu)]

theorem diskNames_written {v : Element} {t : Text} (h : t ∈ diskNames v) : blank (some t) = false := by
  obtain ⟨c,-,hc⟩ := List.mem_filterMap.1 h
  unfold dropBlank at hc
  split at hc
  case isTrue => cases hc
  case isFalse hblank =>
    rw [hc] at hblank
    simpa using hblank

/-- The volume that was found holds the existing and the new disks. -/
def HoldsUnion (found : Option Element) (existing names : List Text) : Prop :=
  ∃ w, found = some w ∧ ∀ t, t ∈ diskNames w ↔ t ∈ existing ∨ t ∈ names

section
variable (policy volume : Text)

theorem addingDisksToVolume_union (reread : Element → Element) (names : List DiskName)
    {file v : Element} (hfound : findPath (volumePath policy volume) (reread file) = some v) :
    HoldsUnion ((addingDisksToVolume reread policy volume (names.map DiskName.text) file).bind
      (findPath (volumePath policy volume))) (diskNames v) (names.map DiskName.text) := by
  have hnames : ∀ t ∈ names.map DiskName.text, blank (some t) = false := by
    intro t ht
    obtain ⟨n,-,rfl⟩ := List.mem_map.1 ht
    exact n.written
  obtain ⟨edited,hedited,-,hfind⟩ := updatePath_find (f := extend
    ((names.map DiskName.text).map (textElement disk))) hfound rfl (tag_withChildren _ v)
  obtain ⟨w,hw,hcontent⟩ := findPath_of_content hfind (xmlIndent_content edited 0)
  refine ⟨w,?_,fun t => ?_⟩
  · have hrun : addingDisksToVolume reread policy volume (names.map DiskName.text) file =
        some (xmlIndent edited 0) := congrArg (Option.map (xmlIndent · 0)) hedited
    rw [hrun]
    exact hw
  · rw [← diskNames_content,hcontent,diskNames_content,diskNames_append,diskNames_new _ _ hnames,
      List.mem_append]

/-- The separate file holds the given disks and no others. -/
theorem addingVolumeToPolicyApart_finds (names : List Text) (h : ∀ t ∈ names, blank (some t) = false) :
    ∃ f w, addingVolumeToPolicyApart policy volume names = some f ∧
      findPath (volumePath policy volume) f.root = some w ∧ diskNames w = names := by
  obtain ⟨first,hfirst,-,hpolicies⟩ := updatePath_find
    (f := extend [(Element.new policy).append (Element.new volumes)])
    (show findPath [storageConfiguration,policies] baseConfigRoot = some _ from rfl) rfl
    (tag_withChildren _ _)
  have hvolumes : findPath [storageConfiguration,policies,policy,volumes] first =
      some (Element.new volumes) := by
    rw [show [storageConfiguration,policies,policy,volumes] =
      [storageConfiguration,policies] ++ [policy,volumes] from rfl,findPath_append,hpolicies]
    simp [findPath,find,spaced,withChildren,Element.children,Element.append,Element.new,Element.tag]
  obtain ⟨second,hsecond,-,hfind⟩ := updatePath_find (f := extend [newVolume volume names]) hvolumes rfl
    (tag_withChildren _ _)
  have hvolume : findPath (volumePath policy volume) second = some (newVolume volume names) := by
    rw [show volumePath policy volume =
      [storageConfiguration,policies,policy,volumes] ++ [volume] from rfl,findPath_append,hfind]
    simp [findPath,find,newVolume,withChildren,Element.children,Element.new,Element.tag]
  obtain ⟨w,hw,hcontent⟩ := findPath_of_content hvolume (xmlIndent_content second 0)
  refine ⟨⟨policyVolumeFile policy volume,xmlIndent second 0⟩,w,?_,hw,?_⟩
  · rw [addingVolumeToPolicyApart]
    simp only [hfirst,hsecond,bind,Option.bind,pure]
  · rw [← diskNames_content,hcontent,diskNames_content]
    exact diskNames_new _ names h

/-- Both modes write the union exactly if every new disk is in the volume already. The server reports
the disks of the volume. -/
theorem addingDisksToVolume_modes_iff (reread : Element → Element) (order : SetOrder)
    (names : List DiskName) (file v : Element) (reported : List Text)
    (hfound : findPath (volumePath policy volume) (reread file) = some v)
    (hreported : ∀ t, t ∈ reported ↔ t ∈ diskNames v) :
    (HoldsUnion ((addingDisksToVolume reread policy volume (names.map DiskName.text) file).bind
          (findPath (volumePath policy volume))) (diskNames v) (names.map DiskName.text) ∧
        HoldsUnion ((addingDisksToVolumeApart order policy volume (some reported)
          (names.map DiskName.text)).bind fun f => findPath (volumePath policy volume) f.root)
            (diskNames v) (names.map DiskName.text)) ↔
      ∀ t ∈ names.map DiskName.text, t ∈ diskNames v := by
  have hmem : ∀ t, t ∈ order.list reported.toFinset ↔ t ∈ diskNames v := by
    intro t
    rw [order.mem,List.mem_toFinset,hreported]
  obtain ⟨f,w,hrun,hw,hdisks⟩ := addingVolumeToPolicyApart_finds policy volume
    (order.list reported.toFinset) fun t ht => diskNames_written ((hmem t).1 ht)
  have hapart : (addingDisksToVolumeApart order policy volume (some reported)
      (names.map DiskName.text)).bind (fun f => findPath (volumePath policy volume) f.root) = some w :=
    (congrArg (fun o : Option ConfigFile => o.bind fun f => findPath (volumePath policy volume) f.root)
      hrun).trans hw
  rw [hapart,and_iff_right (addingDisksToVolume_union policy volume reread names hfound)]
  constructor
  · rintro ⟨w',hw',hunion⟩ t ht
    cases hw'
    rw [← hmem,← hdisks]
    exact (hunion t).2 (.inr ht)
  · intro h
    refine ⟨w,rfl,fun t => ?_⟩
    rw [hdisks,hmem]
    exact ⟨.inl,fun ht => ht.elim id (h t)⟩

end

/-- The members in lexicographic order. -/
def sortedOrder : SetOrder where
  list s := s.sort
  mem := by simp

def jbod1 : DiskName := ⟨"jbod1".toList,by rfl⟩
def jbod2 : DiskName := ⟨"jbod2".toList,by rfl⟩

theorem addingDisksToVolume_modes_jbod1 :
    (HoldsUnion ((addingDisksToVolume id "jbods".toList "main".toList [jbod1.text]
          (oneVolume [jbod1.text])).bind (findPath (volumePath "jbods".toList "main".toList)))
            (diskNames (newVolume "main".toList [jbod1.text])) [jbod1.text] ∧
        HoldsUnion ((addingDisksToVolumeApart sortedOrder "jbods".toList "main".toList
          (some [jbod1.text]) [jbod1.text]).bind fun f =>
            findPath (volumePath "jbods".toList "main".toList) f.root)
            (diskNames (newVolume "main".toList [jbod1.text])) [jbod1.text]) ↔
      ∀ t ∈ [jbod1.text], t ∈ diskNames (newVolume "main".toList [jbod1.text]) :=
  addingDisksToVolume_modes_iff _ _ id sortedOrder [jbod1] _ _ _ (findPath_oneVolume _)
    fun t => by rw [show diskNames (newVolume "main".toList [jbod1.text]) = [jbod1.text] by rfl]

/-- The separate file is written with the disk that was there and without the new one. -/
theorem addingDisksToVolumeApart_forgets :
    ((addingDisksToVolumeApart sortedOrder "jbods".toList "main".toList (some [jbod1.text])
      [jbod2.text]).bind fun f => findPath (volumePath "jbods".toList "main".toList) f.root).map
        diskNames = some [jbod1.text] ∧
      ((addingDisksToVolume id "jbods".toList "main".toList [jbod2.text] (oneVolume [jbod1.text])).bind
        (findPath (volumePath "jbods".toList "main".toList))).map diskNames =
          some [jbod1.text,jbod2.text] := by
  decide +kernel

end ClickHouseRegression.TieredStorage
