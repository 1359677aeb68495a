import ClickHouseRegression.TieredStorage.ChangeConfig

/-! The storage configuration as ordered maps of disks, policies and volumes, and the proof that
the in-place steps carry these maps out on the file. -/
namespace ClickHouseRegression.TieredStorage
open Xml Xml.Element

/-- Attributes and surrounding text of an element, which the steps carry along. -/
structure Frame where
  attrib : List (Text × Text)
  text : Option Text
  tail : Option Text

def Frame.plain : Frame := ⟨[],none,none⟩

def Frame.element (f : Frame) (name : Text) (children : List Element) : Element :=
  .mk (.name name) f.attrib f.text f.tail children

/-- A child of a disk: a setting with its value, or an element that is more than a name and a text. -/
inductive DiskItem
  | setting (name value : Text)
  | other (e : Element) (more : ∀ name value, e ≠ (textElement name value).content)

structure Disk where
  frame : Frame
  items : List DiskItem

/-- A child of a volume: the name of one of its disks, or another setting. -/
inductive Item
  | disk (name : Text)
  | setting (e : Element) (other : e.tag ≠ .name TieredStorage.disk)

structure Volume where
  frame : Frame
  items : List Item

def Item.diskName : Item → Option Text
  | disk name => some name
  | setting _ _ => none

/-- The list of disk names of a volume. -/
def Volume.disks (v : Volume) : List Text := v.items.filterMap Item.diskName

structure Policy where
  frame : Frame
  before : List Element
  volumesFrame : Frame
  volumes : OrderedMap Text Volume
  after : List Element
  first : ∀ c ∈ before, c.tag ≠ .name TieredStorage.volumes

structure Storage where
  disks : OrderedMap Text Disk
  policies : OrderedMap Text Policy

def DiskItem.element : DiskItem → Element
  | setting name value => (textElement name value).content
  | other e _ => e

def Disk.element (name : Text) (d : Disk) : Element :=
  d.frame.element name (d.items.map DiskItem.element)

def Item.element : Item → Element
  | disk name => (textElement TieredStorage.disk name).content
  | setting e _ => e

def Volume.element (name : Text) (v : Volume) : Element :=
  v.frame.element name (v.items.map Item.element)

def Policy.volumesElement (p : Policy) : Element :=
  p.volumesFrame.element TieredStorage.volumes (entriesOf Volume.element p.volumes)

def Policy.element (name : Text) (p : Policy) : Element :=
  p.frame.element name (p.before ++ p.volumesElement :: p.after)

def Policy.withVolumes (p : Policy) (vs : OrderedMap Text Volume) : Policy := { p with volumes := vs }

/-- A setting that is given, under its name. -/
def given (name : Text) (value : Option Text) : List DiskItem := value.toList.map (.setting name)

/-- A new disk: its path and the settings that are given. -/
def Disk.ofOptions (d : DiskOptions) : Disk where
  frame := .plain
  items := .setting "path".toList d.path ::
    (given "disk_space_bytes".toList d.diskSpaceBytes ++
      given "keep_free_space_bytes".toList d.keepFreeSpaceBytes ++
      given "keep_free_space_ratio".toList d.keepFreeSpaceRatio)

/-- The value of a setting of the disk. -/
def DiskItem.valueOf (name : Text) : DiskItem → Option Text
  | setting name' value => if name' = name then some value else none
  | other _ _ => none

def Disk.value (name : Text) (d : Disk) : Option Text := d.items.findSome? (·.valueOf name)

/-- The disk holds the path and the given settings under their names, and nothing else. -/
structure Disk.Holds (options : DiskOptions) (d : Disk) : Prop where
  path : d.value "path".toList = some options.path
  diskSpaceBytes : d.value "disk_space_bytes".toList = options.diskSpaceBytes
  keepFreeSpaceBytes : d.value "keep_free_space_bytes".toList = options.keepFreeSpaceBytes
  keepFreeSpaceRatio : d.value "keep_free_space_ratio".toList = options.keepFreeSpaceRatio
  only : ∀ item ∈ d.items, ∃ name value, item = .setting name value ∧
    name ∈ ["path".toList,"disk_space_bytes".toList,"keep_free_space_bytes".toList,
      "keep_free_space_ratio".toList]

def Volume.ofDisks (names : List Text) : Volume := ⟨.plain,names.map .disk⟩

def Volume.addDisks (names : List Text) (v : Volume) : Volume :=
  { v with items := v.items ++ names.map .disk }

/-- The volumes of a new policy; their names must differ. -/
def volumesOf : List (Text × List Text) → OrderedMap Text Volume → Option (OrderedMap Text Volume)
  | [],m => some m
  | v :: vs,m => (m.append v.1 (.ofDisks v.2)).bind (volumesOf vs)

def Policy.ofVolumes (m : OrderedMap Text Volume) : Policy := ⟨.plain,[],.plain,m,[],by simp⟩

namespace Storage

def withDisks (s : Storage) (m : OrderedMap Text Disk) : Storage := { s with disks := m }

def withPolicies (s : Storage) (m : OrderedMap Text Policy) : Storage := { s with policies := m }

/-- Change the volumes of a present policy. -/
def onVolumes (policy : Text)
    (f : OrderedMap Text Volume → Option (OrderedMap Text Volume)) (s : Storage) : Option Storage :=
  (s.policies.modify policy fun p => (f p.volumes).map p.withVolumes).map s.withPolicies

/-- The steps on the maps; they fail where an addition names a present element or a removal an
absent one. -/
def step (s : Storage) : Step → Option Storage
  | .addingDisk name d => (s.disks.append name (.ofOptions d)).map s.withDisks
  | .removingDisk name => (s.disks.erase name).map s.withDisks
  | .addingPolicy name vs =>
    (volumesOf vs .empty).bind fun m => (s.policies.append name (.ofVolumes m)).map s.withPolicies
  | .removingPolicy name => (s.policies.erase name).map s.withPolicies
  | .addingVolumeToPolicy policy name names =>
    s.onVolumes policy fun m => m.append name (.ofDisks names)
  | .removingVolume policy name => s.onVolumes policy fun m => m.erase name
  | .addingDisksToVolume policy volume names =>
    s.onVolumes policy fun m => m.modify volume fun v => some (v.addDisks names)

def steps : List Step → Storage → Option Storage
  | [],s => some s
  | st :: rest,s => (s.step st).bind (steps rest)

end Storage

/-- A tree with the children of its `disks` and `policies` sections replaced. -/
def sections (base : Element) (ds ps : List Element) : Option Element :=
  update storageConfiguration
    (fun x => (update disks (setChildren ds) x).bind (update policies (setChildren ps))) base

/-- The tree is the configuration `s` within `base`, which holds everything outside the two
sections; nothing follows its root element. -/
def Represents (base : Element) (s : Storage) (e : Element) : Prop :=
  base.tail = none ∧
    sections base (entriesOf Disk.element s.disks) (entriesOf Policy.element s.policies) =
      some e.content

/-- Writing a configuration file and reading it again changes at most whitespace-only texts and
tails. -/
def Faithful (reread : Element → Element) : Prop :=
  ∀ base s e, Represents base s e → (reread e).content = e.content

theorem disks_ne_policies : disks ≠ policies := by decide

section Sections

variable {base : Element} {ds ps : List Element} {f : Element → Option Element}

theorem sections_disks (hf : KeepsTag f) {ds' : List Element}
    (h : ∀ c : Element, f (c.withChildren ds) = setChildren ds' c) :
    (sections base ds ps).bind (update storageConfiguration (update disks f)) =
      sections base ds' ps := by
  have hk : KeepsTag fun x => (update disks (setChildren ds) x).bind
      (update policies (setChildren ps)) := by
    intro c d hd
    obtain ⟨x,hx,hd⟩ := Option.bind_eq_some_iff.1 hd
    rw [update_keepsTag _ _ x d hd,update_keepsTag _ _ c x hx]
  rw [sections,update_update hk]
  congr 1
  funext x
  rw [Option.bind_assoc]
  calc
    (update disks (setChildren ds) x).bind
        (fun y => (update policies (setChildren ps) y).bind (update disks f))
      = (update disks (setChildren ds) x).bind
        (fun y => (update disks f y).bind (update policies (setChildren ps))) := by
        congr 1
        funext y
        exact update_comm disks_ne_policies.symm (setChildren_keepsTag ps) hf y
    _ = ((update disks (setChildren ds) x).bind (update disks f)).bind
        (update policies (setChildren ps)) := by
        rw [Option.bind_assoc]
    _ = (update disks (setChildren ds') x).bind (update policies (setChildren ps)) := by
        rw [update_update (setChildren_keepsTag ds)]
        congr 2
        funext c
        exact h c

theorem sections_policies {ps' : List Element}
    (h : ∀ c : Element, f (c.withChildren ps) = setChildren ps' c) :
    (sections base ds ps).bind (update storageConfiguration (update policies f)) =
      sections base ds ps' := by
  have hk : KeepsTag fun x => (update disks (setChildren ds) x).bind
      (update policies (setChildren ps)) := by
    intro c d hd
    obtain ⟨x,hx,hd⟩ := Option.bind_eq_some_iff.1 hd
    rw [update_keepsTag _ _ x d hd,update_keepsTag _ _ c x hx]
  rw [sections,update_update hk]
  congr 1
  funext x
  rw [Option.bind_assoc]
  congr 1
  funext y
  rw [update_update (setChildren_keepsTag ps)]
  congr 1
  funext c
  exact h c

theorem sections_isSome (h : (sections base ds ps).isSome = true) (ds' ps' : List Element) :
    (sections base ds' ps').isSome = true := by
  have htags : ∀ (as bs : List Element) (x : Element),
      ((update disks (setChildren as) x).bind (update policies (setChildren bs))).isSome = true ↔
        .name disks ∈ x.children.map tag ∧ .name policies ∈ x.children.map tag := by
    intro as bs x
    have hd := updateFirst_isSome_iff (n := disks) (f := setChildren as) (fun _ => rfl) x.children
    unfold update
    cases hu : updateFirst disks (setChildren as) x.children with
    | none =>
      rw [hu] at hd
      constructor
      · intro h
        cases h
      · rintro ⟨h,-⟩
        cases hd.2 h
    | some cs =>
      rw [hu] at hd
      have hp := updateFirst_isSome_iff (n := policies) (f := setChildren bs) (fun _ => rfl) cs
      rw [updateFirst_tags (setChildren_keepsTag as) hu] at hp
      simp only [Option.map_some,Option.bind_some,children_withChildren,Option.isSome_map,hp]
      exact ⟨fun h => ⟨hd.1 rfl,h⟩,fun h => h.2⟩
  unfold sections update at h ⊢
  rw [Option.isSome_map] at h ⊢
  refine updateFirst_isSome_mono (fun c hc => ?_) h
  exact (htags ds' ps' c).2 ((htags ds ps c).1 hc)

end Sections

theorem Disk.element_tag (name : Text) (d : Disk) : (d.element name).tag = .name name := rfl
theorem Volume.element_tag (name : Text) (v : Volume) : (v.element name).tag = .name name := rfl
theorem Policy.element_tag (name : Text) (p : Policy) : (p.element name).tag = .name name := rfl

theorem dropBlank_none : dropBlank none = none := rfl

/-- The editor's children of a new disk are the elements of what the disk holds. -/
theorem children_content (d : DiskOptions) :
    d.children.map Element.content = (Disk.ofOptions d).items.map DiskItem.element := by
  obtain ⟨path,diskSpaceBytes,keepFreeSpaceBytes,keepFreeSpaceRatio⟩ := d
  cases diskSpaceBytes <;> cases keepFreeSpaceBytes <;> cases keepFreeSpaceRatio <;> rfl

theorem newDisk_content (name : Text) (d : DiskOptions) :
    (newDisk name d).content = (Disk.ofOptions d).element name := by
  rw [newDisk,Element.new,withChildren,content_mk,dropBlank_none,children_content]
  rfl

theorem Disk.ofOptions_holds (d : DiskOptions) : (Disk.ofOptions d).Holds d := by
  obtain ⟨path,diskSpaceBytes,keepFreeSpaceBytes,keepFreeSpaceRatio⟩ := d
  constructor
  case only =>
    have hgiven : ∀ (name : Text) (value : Option Text), ∀ item ∈ given name value,
        ∃ value', item = .setting name value' := by
      intro name value item hitem
      obtain ⟨value',-,rfl⟩ := List.mem_map.1 hitem
      exact ⟨value',rfl⟩
    simp only [ofOptions,List.forall_mem_cons,List.forall_mem_append]
    refine ⟨⟨_,path,rfl,by decide⟩,⟨?_,?_⟩,?_⟩
    all_goals
      intro item hitem
      obtain ⟨value,rfl⟩ := hgiven _ _ item hitem
      exact ⟨_,value,rfl,by decide⟩
  all_goals
    cases diskSpaceBytes <;> cases keepFreeSpaceBytes <;> cases keepFreeSpaceRatio <;> rfl

theorem newVolume_content (name : Text) (names : List Text) :
    (newVolume name names).content = (Volume.ofDisks names).element name := by
  rw [newVolume,Element.new,withChildren,content_mk,dropBlank_none,Volume.element,Volume.ofDisks,
    List.map_map,List.map_map]
  rfl

theorem volumesOf_entries (vs : List (Text × List Text)) {m m' : OrderedMap Text Volume}
    (h : volumesOf vs m = some m') :
    m'.entries = m.entries ++ vs.map fun v => (v.1,Volume.ofDisks v.2) := by
  induction vs generalizing m with
  | nil =>
    cases h
    simp
  | cons v vs ih =>
    obtain ⟨m₁,h₁,h₂⟩ := Option.bind_eq_some_iff.1 h
    rw [ih h₂,(OrderedMap.append_eq_some h₁).2]
    simp

theorem newPolicy_content (name : Text) {vs : List (Text × List Text)} {m : OrderedMap Text Volume}
    (h : volumesOf vs .empty = some m) :
    (newPolicy name vs).content = (Policy.ofVolumes m).element name := by
  have he := volumesOf_entries vs h
  rw [newPolicy,Element.append,content_withChildren]
  simp only [Element.new,Element.children,withChildren,content_mk,dropBlank_none,List.map_cons,
    List.map_nil,List.nil_append,List.map_map]
  rw [Policy.element,Policy.volumesElement,Policy.ofVolumes,entriesOf,he]
  simp [Frame.element,Frame.plain,OrderedMap.empty,newVolume_content,Function.comp_def]

/-- A mutation of the volumes of a policy that follows the map. -/
theorem update_volumes {f : Element → Option Element}
    {g : OrderedMap Text Volume → Option (OrderedMap Text Volume)}
    (h : ∀ (m m' : OrderedMap Text Volume) (c : Element), g m = some m' →
      f (c.withChildren (entriesOf Volume.element m)) = setChildren (entriesOf Volume.element m') c)
    (name : Text) (p q : Policy) (hq : (g p.volumes).map p.withVolumes = some q) :
    update volumes f (p.element name) = some (q.element name) := by
  obtain ⟨m,hm,rfl⟩ := Option.map_eq_some_iff.1 hq
  have hf : f p.volumesElement = some (p.withVolumes m).volumesElement := h _ _ p.volumesElement hm
  have hu := updateFirst_append f p.first (show p.volumesElement.tag = .name volumes from rfl) p.after
  rw [update,Policy.element,Frame.element,Element.children,hu,hf]
  rfl

/-- The content mutation of a step turns the sections of `s` into those of its successor. -/
theorem sections_step {s s' : Storage} {st : Step} (h : s.step st = some s') (base : Element) :
    (sections base (entriesOf Disk.element s.disks) (entriesOf Policy.element s.policies)).bind
        (updatePath st.path st.mutation.content.apply) =
      sections base (entriesOf Disk.element s'.disks) (entriesOf Policy.element s'.policies) := by
  cases st with
  | addingDisk name d =>
    obtain ⟨m,hm,rfl⟩ := Option.map_eq_some_iff.1 h
    refine sections_disks (extend_keepsTag _) fun c => ?_
    rw [List.map_singleton,newDisk_content]
    exact extend_entries hm c
  | removingDisk name =>
    obtain ⟨m,hm,rfl⟩ := Option.map_eq_some_iff.1 h
    exact sections_disks (removeChild_keepsTag name) (removeChild_entries Disk.element_tag hm)
  | addingPolicy name vs =>
    obtain ⟨m,hv,hm⟩ := Option.bind_eq_some_iff.1 h
    obtain ⟨ps,hp,rfl⟩ := Option.map_eq_some_iff.1 hm
    refine sections_policies fun c => ?_
    change extend ([newPolicy name vs].map Element.content) _ = _
    rw [List.map_singleton,newPolicy_content name hv]
    exact extend_entries hp c
  | removingPolicy name =>
    obtain ⟨m,hm,rfl⟩ := Option.map_eq_some_iff.1 h
    exact sections_policies (removeChild_entries Policy.element_tag hm)
  | addingVolumeToPolicy policy name names =>
    obtain ⟨m,hm,rfl⟩ := Option.map_eq_some_iff.1 h
    refine sections_policies (update_entries Policy.element_tag (update_volumes ?_ policy) hm)
    intro vs vs' c hvs
    change extend ([newVolume name names].map Element.content) _ = _
    rw [List.map_singleton,newVolume_content]
    exact extend_entries hvs c
  | removingVolume policy name =>
    obtain ⟨m,hm,rfl⟩ := Option.map_eq_some_iff.1 h
    refine sections_policies (update_entries Policy.element_tag (update_volumes ?_ policy) hm)
    intro vs vs' c hvs
    exact removeChild_entries Volume.element_tag hvs c
  | addingDisksToVolume policy volume names =>
    obtain ⟨m,hm,rfl⟩ := Option.map_eq_some_iff.1 h
    refine sections_policies (update_entries Policy.element_tag (update_volumes ?_ policy) hm)
    intro vs vs' c hvs
    refine update_entries Volume.element_tag ?_ hvs c
    rintro v w hw
    cases hw
    change extend ((names.map (textElement disk)).map Element.content) _ = _
    rw [extend,Volume.element,Volume.element,Volume.addDisks,List.map_append,List.map_map,
      List.map_map]
    rfl

/-- One step on the file follows the step on the maps. -/
theorem Step.run_refines {reread : Element → Element} (hf : Faithful reread) {base e : Element}
    {s s' : Storage} {st : Step} (hr : Represents base s e) (h : s.step st = some s') :
    ∃ e', st.run reread e = some e' ∧ Represents base s' e' := by
  have hs := sections_step h base
  rw [hr.2,Option.bind_some,← Step.run_content (hf base s e hr)] at hs
  have hold : (sections base (entriesOf Disk.element s.disks)
      (entriesOf Policy.element s.policies)).isSome = true := by
    rw [hr.2]
    rfl
  have hsome := sections_isSome hold
    (entriesOf Disk.element s'.disks) (entriesOf Policy.element s'.policies)
  rw [← hs,Option.isSome_map,Option.isSome_iff_exists] at hsome
  obtain ⟨e',he'⟩ := hsome
  refine ⟨e',he',hr.1,?_⟩
  rw [← hs,he',Option.map_some]

theorem runSteps_refines {reread : Element → Element} (hf : Faithful reread) {base e : Element}
    {s s' : Storage} {sts : List Step} (hr : Represents base s e) (h : s.steps sts = some s') :
    ∃ e', runSteps reread sts e = some e' ∧ Represents base s' e' := by
  induction sts generalizing s e with
  | nil =>
    cases h
    exact ⟨e,rfl,hr⟩
  | cons st sts ih =>
    obtain ⟨s₁,h₁,h₂⟩ := Option.bind_eq_some_iff.1 h
    obtain ⟨e₁,he₁,hr₁⟩ := Step.run_refines hf hr h₁
    obtain ⟨e',he',hr'⟩ := ih hr₁ h₂
    refine ⟨e',?_,hr'⟩
    rw [runSteps,he₁,Option.bind_some,he']

/-- The removal that undoes an addition. -/
def Step.undo : Step → Option Step
  | addingDisk name _ => some (removingDisk name)
  | addingPolicy name _ => some (removingPolicy name)
  | addingVolumeToPolicy policy name _ => some (removingVolume policy name)
  | _ => none

theorem Storage.step_undo {s s' : Storage} {st u : Step} (hu : st.undo = some u)
    (h : s.step st = some s') : s'.step u = some s := by
  cases st with
  | addingDisk name d =>
    cases hu
    obtain ⟨m,hm,rfl⟩ := Option.map_eq_some_iff.1 h
    exact congrArg (Option.map _) (OrderedMap.erase_of_append hm)
  | addingPolicy name vs =>
    cases hu
    obtain ⟨vols,_,hv⟩ := Option.bind_eq_some_iff.1 h
    obtain ⟨m,hm,rfl⟩ := Option.map_eq_some_iff.1 hv
    exact congrArg (Option.map _) (OrderedMap.erase_of_append hm)
  | addingVolumeToPolicy policy name names =>
    cases hu
    obtain ⟨m,hm,rfl⟩ := Option.map_eq_some_iff.1 h
    refine congrArg (Option.map _) (OrderedMap.modify_of_modify ?_ hm)
    intro p q hq
    obtain ⟨vs,hvs,rfl⟩ := Option.map_eq_some_iff.1 hq
    exact congrArg (Option.map _) (OrderedMap.erase_of_append hvs)
  | removingDisk name => cases hu
  | removingPolicy name => cases hu
  | removingVolume policy name => cases hu
  | addingDisksToVolume policy volume names => cases hu

/-- The policy keeps everything but its volumes, and `keep` relates its volumes before and
after; all disks and all other policies stay. -/
def Storage.PolicyUntouched (policy : Text)
    (keep : OrderedMap Text Volume → OrderedMap Text Volume → Prop) (s s' : Storage) : Prop :=
  s'.disks = s.disks ∧ s'.policies.others policy = s.policies.others policy ∧
    ∃ p m, (policy,p) ∈ s.policies.entries ∧ (policy,p.withVolumes m) ∈ s'.policies.entries ∧
      keep p.volumes m

/-- What a step leaves alone. -/
def Storage.Untouched (s s' : Storage) : Step → Prop
  | .addingDisk name _ => s'.policies = s.policies ∧ s'.disks.others name = s.disks.others name
  | .removingDisk name => s'.policies = s.policies ∧ s'.disks.others name = s.disks.others name
  | .addingPolicy name _ => s'.disks = s.disks ∧ s'.policies.others name = s.policies.others name
  | .removingPolicy name => s'.disks = s.disks ∧ s'.policies.others name = s.policies.others name
  | .addingVolumeToPolicy policy name _ =>
    PolicyUntouched policy (fun m m' => m'.others name = m.others name) s s'
  | .removingVolume policy name =>
    PolicyUntouched policy (fun m m' => m'.others name = m.others name) s s'
  | .addingDisksToVolume policy volume names =>
    PolicyUntouched policy (fun m m' => m'.others volume = m.others volume ∧
      ∃ v, (volume,v) ∈ m.entries ∧ (volume,v.addDisks names) ∈ m'.entries ∧
        (v.addDisks names).disks = v.disks ++ names) s s'

theorem Volume.disks_addDisks (names : List Text) (v : Volume) :
    (v.addDisks names).disks = v.disks ++ names := by
  have hnames : (names.map Item.disk).filterMap Item.diskName = names := by
    rw [List.filterMap_map]
    exact List.filterMap_some
  rw [Volume.disks,addDisks,List.filterMap_append,hnames]
  rfl

theorem Storage.onVolumes_untouched {policy : Text}
    {f : OrderedMap Text Volume → Option (OrderedMap Text Volume)}
    {keep : OrderedMap Text Volume → OrderedMap Text Volume → Prop}
    (hk : ∀ m m', f m = some m' → keep m m') {s s' : Storage}
    (h : s.onVolumes policy f = some s') : PolicyUntouched policy keep s s' := by
  obtain ⟨ps,hps,rfl⟩ := Option.map_eq_some_iff.1 h
  obtain ⟨p,q,hp,hq,hpq⟩ := OrderedMap.modify_value hps
  obtain ⟨m,hm,rfl⟩ := Option.map_eq_some_iff.1 hpq
  exact ⟨rfl,OrderedMap.others_modify hps,p,m,hp,hq,hk _ _ hm⟩

theorem Storage.step_untouched {s s' : Storage} {st : Step} (h : s.step st = some s') :
    s.Untouched s' st := by
  cases st with
  | addingDisk name d =>
    obtain ⟨m,hm,rfl⟩ := Option.map_eq_some_iff.1 h
    exact ⟨rfl,OrderedMap.others_append hm⟩
  | removingDisk name =>
    obtain ⟨m,hm,rfl⟩ := Option.map_eq_some_iff.1 h
    exact ⟨rfl,OrderedMap.others_erase hm⟩
  | addingPolicy name vs =>
    obtain ⟨vols,_,hv⟩ := Option.bind_eq_some_iff.1 h
    obtain ⟨m,hm,rfl⟩ := Option.map_eq_some_iff.1 hv
    exact ⟨rfl,OrderedMap.others_append hm⟩
  | removingPolicy name =>
    obtain ⟨m,hm,rfl⟩ := Option.map_eq_some_iff.1 h
    exact ⟨rfl,OrderedMap.others_erase hm⟩
  | addingVolumeToPolicy policy name names =>
    rw [Untouched]
    refine onVolumes_untouched ?_ h
    intro m m' hm
    exact OrderedMap.others_append hm
  | removingVolume policy name =>
    rw [Untouched]
    refine onVolumes_untouched ?_ h
    intro m m' hm
    exact OrderedMap.others_erase hm
  | addingDisksToVolume policy volume names =>
    rw [Untouched]
    refine onVolumes_untouched ?_ h
    intro m m' hm
    obtain ⟨v,w,hv,hw,hvw⟩ := OrderedMap.modify_value hm
    cases hvw
    exact ⟨OrderedMap.others_modify hm,v,hv,hw,v.disks_addDisks names⟩

theorem Storage.step_addingDisk {s s' : Storage} {name : Text} {options : DiskOptions}
    (h : s.step (.addingDisk name options) = some s') :
    ∃ d, (name,d) ∈ s'.disks.entries ∧ d.Holds options := by
  obtain ⟨m,hm,rfl⟩ := Option.map_eq_some_iff.1 h
  refine ⟨Disk.ofOptions options,?_,Disk.ofOptions_holds options⟩
  rw [withDisks,(OrderedMap.append_eq_some hm).2]
  exact List.mem_append_right _ List.mem_cons_self

/-- A configuration with one disk and one policy whose volume holds it. -/
def smallStorage : Storage where
  disks := ⟨[("jbod1".toList,Disk.ofOptions ⟨"/jbod1/".toList,none,none,none⟩)],by simp⟩
  policies := ⟨[("jbods".toList,Policy.ofVolumes
    ⟨[("main".toList,Volume.ofDisks ["jbod1".toList])],by simp⟩)],by simp⟩

/-- The file `base_config`, without its line breaks. -/
def baseConfig : Element :=
  (Element.new "yandex".toList).append
    (((Element.new storageConfiguration).append (Element.new disks)).append (Element.new policies))

/-- The parser does not keep what follows the root element. -/
def parsed (e : Element) : Element := e.withTail none

theorem parsed_faithful : Faithful parsed := by
  rintro base s e ⟨hb,hs⟩
  obtain ⟨cs,_,hc⟩ := Option.map_eq_some_iff.1 hs
  have ht : e.content.tail = none := by
    rw [← hc,← hb]
    cases base
    rfl
  cases e
  rw [content_mk] at ht
  rw [parsed,withTail,content_mk,content_mk]
  exact congrArg (fun t => Element.mk _ _ _ t _) ht.symm

def smallConfig : Element :=
  (Element.new "yandex".toList).append
    (((Element.new storageConfiguration).append
      ((Element.new disks).append (newDisk "jbod1".toList ⟨"/jbod1/".toList,none,none,none⟩))).append
      ((Element.new policies).append (newPolicy "jbods".toList [("main".toList,["jbod1".toList])])))

theorem smallConfig_represents : Represents baseConfig smallStorage smallConfig := by
  exact ⟨rfl,rfl⟩

/-- A disk is added and put into the volume, a second volume is added and the first removed. -/
def smallSteps : List Step :=
  [.addingDisk "new".toList ⟨"/new/".toList,none,some "1024".toList,none⟩,
   .addingDisksToVolume "jbods".toList "main".toList ["new".toList],
   .addingVolumeToPolicy "jbods".toList "external".toList ["new".toList],
   .removingVolume "jbods".toList "main".toList]

end ClickHouseRegression.TieredStorage
