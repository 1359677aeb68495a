import ClickHouseRegression.Text.Numerals
import ClickHouseRegression.Helpers.XmlConfig

/-! The storage policy of several volumes in the disk level encryption suite. Disks and directories are
named after the indices of the volume and of the disk in it. -/
namespace ClickHouseRegression.MultiVolume
open Helpers Numerals

/-- The lists are long enough for the indices that are read. -/
structure Arguments where
  numberOfVolumes : ℕ
  numbersOfDisks : List ℕ
  disksTypes : List (List Text)
  keys : List (List Text)
  volumesInRange : numberOfVolumes ≤ numbersOfDisks.length
  typesInRange : ∀ j < numberOfVolumes, ∀ i < numbersOfDisks.getD j 0, i < (disksTypes.getD j []).length
  keysInRange : ∀ j < numberOfVolumes, ∀ i < numbersOfDisks.getD j 0,
    (disksTypes.getD j []).getD i [] = "encrypted".toList → i < (keys.getD j []).length

/-- The index of a volume and of a disk in it. -/
abbrev Index := ℕ × ℕ

/-- `{j}{i}`. -/
def indexText (p : Index) : Text := str p.1 ++ str p.2

def localName (p : Index) : Text := "local".toList ++ indexText p

def encryptedName (p : Index) : Text := "encrypted_local".toList ++ indexText p

def diskPath (p : Index) : Text := "/disk_local".toList ++ (indexText p ++ "/".toList)

def volumeName (j : ℕ) : Text := "volume".toList ++ str j

inductive Disk where
  | onPath (path : Text)
  | encrypted (disk path key : Text)

def Disk.path? : Disk → Option Text
  | .onPath path => some path
  | .encrypted _ _ _ => none

def Disk.disk? : Disk → Option Text
  | .onPath _ => none
  | .encrypted disk _ _ => some disk

def Disk.entries : Disk → List Entry
  | .onPath path => [.mk (.str "path".toList) (.leaf (some path))]
  | .encrypted disk path key =>
    [.mk (.str "type".toList) (.leaf (some "encrypted".toList)),.mk (.str "disk".toList) (.leaf (some disk)),
      .mk (.str "path".toList) (.leaf (some path)),.mk (.str "key".toList) (.leaf (some key))]

namespace Arguments
variable (a : Arguments)

def count (j : ℕ) : ℕ := a.numbersOfDisks.getD j 0

def diskType (p : Index) : Text := (a.disksTypes.getD p.1 []).getD p.2 []

def key (p : Index) : Text := (a.keys.getD p.1 []).getD p.2 []

/-- `for j in range(number_of_volumes): for i in range(numbers_of_disks[j])`. -/
def indices : List Index :=
  (List.range a.numberOfVolumes).flatMap fun j => (List.range (a.count j)).map (j,·)

/-- The paths that `create_directories_multi_volume_policy` creates. -/
def createDirectoriesMultiVolumePolicy : List Text := a.indices.map diskPath

/-- The disks that the first loop appends at an index. -/
def disksAt (p : Index) : List (Text × Disk) :=
  if a.diskType p = "local".toList then [(localName p,.onPath (diskPath p))]
  else if a.diskType p = "encrypted".toList then
    [(localName p,.onPath (diskPath p)),
      (encryptedName p,.encrypted (localName p) "encrypted/".toList (a.key p))]
  else []

def disks : List (Text × Disk) := a.indices.flatMap a.disksAt

/-- The disk that the last loop appends to the volume. -/
def volumeDisk (p : Index) : Option Text :=
  if a.diskType p = "local".toList then some (localName p)
  else if a.diskType p = "encrypted".toList then some (encryptedName p)
  else none

/-- `volumes[name].append({"disk": disk})`. -/
def appendTo (name disk : Text) (volumes : List (Text × List Text)) : List (Text × List Text) :=
  volumes.map fun v => if v.1 = name then (v.1,v.2 ++ [disk]) else v

def addToVolume (volumes : List (Text × List Text)) (p : Index) : List (Text × List Text) :=
  match a.volumeDisk p with
  | some disk => appendTo (volumeName p.1) disk volumes
  | none => volumes

def volumes : List (Text × List Text) :=
  a.indices.foldl a.addToVolume ((List.range a.numberOfVolumes).map fun j => (volumeName j,[]))

/-- The dictionary that `add_config_multi_volume_policy` passes on. -/
def addConfigMultiVolumePolicy (policyName : Text) (moveFactor : Bool) : List Entry :=
  let volumes := a.volumes.map fun v =>
    Entry.mk (.str v.1) (.list (v.2.map fun disk => [.mk (.str "disk".toList) (.leaf (some disk))]))
  let factor := if moveFactor then [Entry.mk (.str "move_factor".toList) (.leaf (some "0.99".toList))] else []
  [.mk (.str "storage_configuration".toList) (.dict
    [.mk (.str "disks".toList) (.list (a.disks.map fun d => [.mk (.str d.1) (.dict d.2.entries)])),
      .mk (.str "policies".toList) (.dict
        [.mk (.str policyName) (.dict (.mk (.str "volumes".toList) (.dict volumes) :: factor))])])]

end Arguments

/-- The entries nested in those with the key; the dictionaries of a list count as one. -/
def under (key : Text) (entries : List Entry) : List Entry :=
  entries.flatMap fun
    | .mk k (.dict nested) => if k.name = key then nested else []
    | .mk k (.list dicts) => if k.name = key then dicts.flatten else []
    | .mk _ (.leaf _) => []

/-- The disks that a configuration defines. -/
def definedDisks (config : List Entry) : List Entry :=
  under "disks".toList (under "storage_configuration".toList config)

/-- The volumes of a policy in a configuration. -/
def definedVolumes (policyName : Text) (config : List Entry) : List Entry :=
  under "volumes".toList (under policyName (under "policies".toList
    (under "storage_configuration".toList config)))

namespace Arguments
variable (a : Arguments)

/-- The disks that a volume or an encrypted disk refers to. -/
def references : List Text := a.volumes.flatMap Prod.snd ++ a.disks.filterMap (·.2.disk?)

def paths : List Text := a.disks.filterMap (·.2.path?)

structure WellDefined : Prop where
  names : ∀ p ∈ a.indices, ∀ q ∈ a.indices, p ≠ q →
    ((a.disksAt p).map Prod.fst).Disjoint ((a.disksAt q).map Prod.fst)
  paths : ∀ p ∈ a.indices, ∀ q ∈ a.indices, p ≠ q →
    ((a.disksAt p).filterMap (·.2.path?)).Disjoint ((a.disksAt q).filterMap (·.2.path?))
  references : ∀ name ∈ a.references, (a.disks.map Prod.fst).count name = 1
  volumes : a.volumes = (List.range a.numberOfVolumes).map fun j =>
    (volumeName j,(List.range (a.count j)).filterMap fun i => a.volumeDisk (j,i))
  directories : a.paths = a.createDirectoriesMultiVolumePolicy

def Known (p : Index) : Prop :=
  a.diskType p = "local".toList ∨ a.diskType p = "encrypted".toList

instance (p : Index) : Decidable (a.Known p) := inferInstanceAs (Decidable (_ ∨ _))

/-- Every disk has one of the two types, and where the numeral of a volume that is not empty ends in a
shorter numeral, the volume with the rest of its digits has too few disks to reach that end. -/
structure Separate : Prop where
  known : ∀ p ∈ a.indices, a.Known p
  few : ∀ n < a.numberOfVolumes, 0 < a.count n → ∀ k, Ends n k → a.count (n/10^k) ≤ 10*(n%10^k)

variable {a}

@[simp] theorem mem_indices {p : Index} : p ∈ a.indices ↔ p.1 < a.numberOfVolumes ∧ p.2 < a.count p.1 := by
  obtain ⟨j,i⟩ := p
  simp [indices,and_comm]

theorem indices_nodup : a.indices.Nodup := by
  rw [indices,List.nodup_flatMap]
  constructor
  · intro j _
    exact List.nodup_range.map fun i i' h => (Prod.mk.inj h).2
  · apply List.nodup_range.imp
    intro j j' hne p hp hp'
    obtain ⟨i,_,rfl⟩ := List.mem_map.1 hp
    obtain ⟨i',_,h⟩ := List.mem_map.1 hp'
    exact hne (Prod.mk.inj h).1.symm

end Arguments

theorem localName_inj {p q : Index} : localName p = localName q ↔ indexText p = indexText q :=
  List.append_right_inj "local".toList

theorem encryptedName_inj {p q : Index} : encryptedName p = encryptedName q ↔ indexText p = indexText q :=
  List.append_right_inj "encrypted_local".toList

theorem diskPath_inj {p q : Index} : diskPath p = diskPath q ↔ indexText p = indexText q :=
  (List.append_right_inj "/disk_local".toList).trans (List.append_left_inj "/".toList)

theorem volumeName_inj {j j' : ℕ} : volumeName j = volumeName j' ↔ j = j' := by
  constructor
  · intro h
    exact Int.ofNat_inj.1 (str_injective (List.append_cancel_left h))
  · intro h
    rw [h]

theorem localName_ne_encryptedName (p q : Index) : localName p ≠ encryptedName q := by
  intro h
  cases (List.cons.inj h).1

namespace Arguments
variable {a : Arguments}

section
variable (few : ∀ n < a.numberOfVolumes, 0 < a.count n → ∀ k, Ends n k → a.count (n/10^k) ≤ 10*(n%10^k))
include few

/-- A volume with a shorter numeral has no disk of the same text. -/
theorem indexText_ne_of_shorter {p q : Index} (hp : p ∈ a.indices) (hq : q ∈ a.indices)
    (hshort : (Nat.toDigits 10 p.1).length < (Nat.toDigits 10 q.1).length) :
    indexText p ≠ indexText q := by
  intro h
  rw [mem_indices] at hp hq
  obtain ⟨k,hends,hj,hi⟩ := ends_of_collision h hshort
  have hle := few q.1 hq.1 (Nat.zero_lt_of_lt hq.2) k hends
  rw [← hj] at hle
  omega

theorem eq_of_indexText {p q : Index} (hp : p ∈ a.indices) (hq : q ∈ a.indices)
    (h : indexText p = indexText q) : p = q := by
  rcases lt_trichotomy (Nat.toDigits 10 p.1).length (Nat.toDigits 10 q.1).length with hlt | heq | hgt
  · exact absurd h (indexText_ne_of_shorter few hp hq hlt)
  · obtain ⟨hj,hi⟩ := List.append_inj h heq
    exact Prod.ext (toDigits_inj hj) (toDigits_inj hi)
  · exact absurd h.symm (indexText_ne_of_shorter few hq hp hgt)

end

/-- Where the first volume has enough disks, two of the disks have one text. -/
theorem indexText_collision {n k : ℕ} (h : Ends n k) :
    indexText (n/10^k,10*(n%10^k)) = indexText (n,0) := h.collision

theorem mem_names {p : Index} {name : Text} (h : name ∈ (a.disksAt p).map Prod.fst) :
    name = localName p ∨ name = encryptedName p := by
  unfold disksAt at h
  split_ifs at h
  · exact .inl (List.mem_singleton.1 h)
  · simpa using h
  · cases h

theorem mem_paths {p : Index} {path : Text} (h : path ∈ (a.disksAt p).filterMap (·.2.path?)) :
    path = diskPath p := by
  unfold disksAt at h
  split_ifs at h
  · exact List.mem_singleton.1 h
  · exact List.mem_singleton.1 h
  · cases h

theorem localName_mem {p : Index} (h : a.Known p) : localName p ∈ (a.disksAt p).map Prod.fst := by
  unfold disksAt
  split_ifs with hlocal hencrypted
  · exact List.mem_cons_self
  · exact List.mem_cons_self
  · exact (h.elim hlocal hencrypted).elim

theorem volumeDisk_mem {p : Index} {disk : Text} (h : a.volumeDisk p = some disk) :
    disk ∈ (a.disksAt p).map Prod.fst := by
  unfold volumeDisk at h
  unfold disksAt
  split_ifs at h ⊢
  · exact List.mem_singleton.2 (Option.some.inj h).symm
  · exact List.mem_cons_of_mem _ (List.mem_singleton.2 (Option.some.inj h).symm)

theorem disk?_mem {p : Index} {disk : Text} (h : disk ∈ (a.disksAt p).filterMap (·.2.disk?)) :
    disk ∈ (a.disksAt p).map Prod.fst := by
  unfold disksAt at h ⊢
  split_ifs at h ⊢
  · cases h
  · rw [List.mem_singleton.1 h]
    exact List.mem_cons_self
  · cases h

theorem flatMap_range_eq {β : Type} {f : ℕ → List β} {j n : ℕ} (hj : j < n) (h : ∀ j', j' ≠ j → f j' = []) :
    (List.range n).flatMap f = f j := by
  induction n with
  | zero => omega
  | succ n ih =>
    rw [List.range_succ,List.flatMap_append,List.flatMap_singleton]
    rcases Nat.lt_succ_iff_lt_or_eq.1 hj with hlt | rfl
    · rw [ih hlt,h n (by omega),List.append_nil]
    · have hnil : (List.range j).flatMap f = [] := by
        rw [List.flatMap_eq_nil_iff]
        intro j' hj'
        exact h j' (by have := List.mem_range.1 hj'; omega)
      rw [hnil,List.nil_append]

theorem filter_indices {j : ℕ} (hj : j < a.numberOfVolumes) :
    a.indices.filter (·.1 = j) = (List.range (a.count j)).map (j,·) := by
  rw [indices,List.filter_flatMap,flatMap_range_eq hj]
  · rw [List.filter_eq_self]
    intro p hp
    obtain ⟨i,_,rfl⟩ := List.mem_map.1 hp
    simp
  · intro j' hj'
    rw [List.filter_eq_nil_iff]
    intro p hp
    obtain ⟨i,_,rfl⟩ := List.mem_map.1 hp
    simpa using hj'

/-- Other volumes stay as they are. -/
theorem addToVolume_eq (g : ℕ → List Text) (n : ℕ) (p : Index) :
    a.addToVolume ((List.range n).map fun j => (volumeName j,g j)) p =
      (List.range n).map fun j => (volumeName j,g j ++ ([p].filter (·.1 = j)).filterMap a.volumeDisk) := by
  unfold addToVolume
  cases hdisk : a.volumeDisk p with
  | none =>
    apply List.map_congr_left
    intro j _
    by_cases hj : p.1 = j <;> simp [hj,hdisk]
  | some disk =>
    dsimp only
    rw [appendTo,List.map_map]
    apply List.map_congr_left
    intro j _
    rw [Function.comp_apply]
    by_cases hj : p.1 = j
    · simp [hj,hdisk]
    · have hne : volumeName j ≠ volumeName p.1 := fun h => hj (volumeName_inj.1 h).symm
      simp [hj,hne]

theorem foldl_addToVolume (l : List Index) (g : ℕ → List Text) (n : ℕ) :
    l.foldl a.addToVolume ((List.range n).map fun j => (volumeName j,g j)) =
      (List.range n).map fun j => (volumeName j,g j ++ (l.filter (·.1 = j)).filterMap a.volumeDisk) := by
  induction l generalizing g with
  | nil => simp
  | cons p l ih =>
    rw [List.foldl_cons,addToVolume_eq,ih]
    apply List.map_congr_left
    intro j _
    rw [List.append_assoc,← List.filterMap_append,← List.filter_append,List.singleton_append]

theorem volumes_eq : a.volumes = (List.range a.numberOfVolumes).map fun j =>
    (volumeName j,(List.range (a.count j)).filterMap fun i => a.volumeDisk (j,i)) := by
  rw [volumes,foldl_addToVolume a.indices fun _ => []]
  apply List.map_congr_left
  intro j hj
  rw [List.nil_append,filter_indices (List.mem_range.1 hj),List.filterMap_map]
  rfl

/-- References lead to a disk of the list. -/
theorem references_mem {name : Text} (h : name ∈ a.references) :
    ∃ p ∈ a.indices, name ∈ (a.disksAt p).map Prod.fst := by
  rcases List.mem_append.1 h with h | h
  · rw [volumes_eq,List.flatMap_map,List.mem_flatMap] at h
    obtain ⟨j,hj,h⟩ := h
    obtain ⟨i,hi,hdisk⟩ := List.mem_filterMap.1 h
    exact ⟨(j,i),mem_indices.2 ⟨List.mem_range.1 hj,List.mem_range.1 hi⟩,volumeDisk_mem hdisk⟩
  · rw [disks,List.filterMap_flatMap,List.mem_flatMap] at h
    obtain ⟨p,hp,h⟩ := h
    exact ⟨p,hp,disk?_mem h⟩

theorem paths_disksAt (p : Index) :
    (a.disksAt p).filterMap (·.2.path?) = if a.Known p then [diskPath p] else [] := by
  unfold disksAt Known
  split_ifs <;> simp_all [Disk.path?]

theorem paths_eq : a.paths = (a.indices.filter fun p => a.Known p).map diskPath := by
  rw [paths,disks,List.filterMap_flatMap]
  simp only [paths_disksAt]
  induction a.indices with
  | nil => rfl
  | cons p l ih =>
    rw [List.flatMap_cons,ih]
    by_cases hp : a.Known p <;> simp [hp]

/-- A directory for every path, exactly if no disk was passed over. -/
theorem directories_iff : a.paths = a.createDirectoriesMultiVolumePolicy ↔ ∀ p ∈ a.indices, a.Known p := by
  rw [paths_eq,createDirectoriesMultiVolumePolicy]
  constructor
  · intro h p hp
    have hlength := congrArg List.length h
    rw [List.length_map,List.length_map] at hlength
    simpa using List.length_filter_eq_length_iff.1 hlength p hp
  · intro h
    rw [List.filter_eq_self.2 fun p hp => decide_eq_true (h p hp)]

theorem disksAt_nodup (p : Index) : ((a.disksAt p).map Prod.fst).Nodup := by
  unfold disksAt
  split_ifs
  · exact List.nodup_singleton _
  · rw [List.map_cons,List.map_cons,List.map_nil,List.nodup_cons,List.mem_singleton]
    exact ⟨localName_ne_encryptedName p p,List.nodup_singleton _⟩
  · exact List.nodup_nil

theorem names_disjoint {p q : Index} (h : indexText p ≠ indexText q) :
    ((a.disksAt p).map Prod.fst).Disjoint ((a.disksAt q).map Prod.fst) := by
  intro name hp hq
  rcases mem_names hp with rfl | rfl
  · rcases mem_names hq with hq | hq
    · exact h (localName_inj.1 hq)
    · exact localName_ne_encryptedName p q hq
  · rcases mem_names hq with hq | hq
    · exact localName_ne_encryptedName q p hq.symm
    · exact h (encryptedName_inj.1 hq)

/-- With all texts distinct every name is defined once. -/
theorem disks_nodup (h : ∀ p ∈ a.indices, ∀ q ∈ a.indices, indexText p = indexText q → p = q) :
    (a.disks.map Prod.fst).Nodup := by
  rw [disks,List.map_flatMap,List.nodup_flatMap]
  constructor
  · intro p _
    exact disksAt_nodup p
  · apply indices_nodup.imp_of_mem
    intro p q hp hq hne
    exact names_disjoint fun htext => hne (h p hp q hq htext)

theorem wellDefined_of_separate (h : a.Separate) : a.WellDefined := by
  have hinj : ∀ p ∈ a.indices, ∀ q ∈ a.indices, indexText p = indexText q → p = q :=
    fun p hp q hq => eq_of_indexText h.few hp hq
  refine ⟨?_,?_,?_,volumes_eq,directories_iff.2 h.known⟩
  · intro p hp q hq hne
    exact names_disjoint fun htext => hne (hinj p hp q hq htext)
  · intro p hp q hq hne path hpath hpath'
    rw [mem_paths hpath] at hpath'
    exact hne (hinj p hp q hq (diskPath_inj.1 (mem_paths hpath')))
  · intro name hname
    obtain ⟨p,hp,hmem⟩ := references_mem hname
    apply List.count_eq_one_of_mem (disks_nodup hinj)
    rw [disks,List.map_flatMap,List.mem_flatMap]
    exact ⟨p,hp,hmem⟩

/-- Two disks of one text, with known types, are not distinct. -/
theorem not_wellDefined_of_collision {p q : Index} (hp : p ∈ a.indices) (hq : q ∈ a.indices) (hne : p ≠ q)
    (htext : indexText p = indexText q) : ¬ a.WellDefined := by
  intro h
  have hknown := directories_iff.1 h.directories
  apply h.names p hp q hq hne (localName_mem (hknown p hp))
  rw [localName_inj.2 htext]
  exact localName_mem (hknown q hq)

theorem separate_of_wellDefined (h : a.WellDefined) : a.Separate := by
  refine ⟨directories_iff.1 h.directories,?_⟩
  intro n hn hcount k hends
  by_contra hmany
  have hshorter : n/10^k < n := by
    have hpos : 0 < n := lt_of_lt_of_le (by positivity) hends.longer
    exact Nat.div_lt_self hpos (Nat.one_lt_pow (by have := hends.pos; omega) (by decide))
  have hp : ((n/10^k,10*(n%10^k)) : Index) ∈ a.indices := mem_indices.2 ⟨by omega,not_le.1 hmany⟩
  have hq : ((n,0) : Index) ∈ a.indices := mem_indices.2 ⟨hn,hcount⟩
  have hne : ((n/10^k,10*(n%10^k)) : Index) ≠ (n,0) := fun heq => by
    have := (Prod.mk.inj heq).1
    omega
  exact not_wellDefined_of_collision hp hq hne (indexText_collision hends) h

/-- Up to ten disks in every volume are told apart, however many volumes there are. -/
theorem separate_of_count_le_ten (hknown : ∀ p ∈ a.indices, a.Known p) (hcount : ∀ j, a.count j ≤ 10) :
    a.Separate := by
  refine ⟨hknown,?_⟩
  intro n _ _ k hends
  have hend : 0 < n%10^k := lt_of_lt_of_le (by positivity) hends.noZero
  have := hcount (n/10^k)
  omega

end Arguments

theorem under_dict (key : Text) (nested rest : List Entry) :
    under key (.mk (.str key) (.dict nested) :: rest) = nested ++ under key rest := by
  simp [under,Key.name]

theorem under_list (key : Text) (dicts : List (List Entry)) (rest : List Entry) :
    under key (.mk (.str key) (.list dicts) :: rest) = dicts.flatten ++ under key rest := by
  simp [under,Key.name]

theorem under_of_ne {key k : Text} (h : k ≠ key) (v : Value) (rest : List Entry) :
    under key (.mk (.str k) v :: rest) = under key rest := by
  cases v <;> simp [under,Key.name,h]

theorem under_nil (key : Text) : under key [] = [] := rfl

theorem definedDisks_eq (a : Arguments) (policyName : Text) (moveFactor : Bool) :
    definedDisks (a.addConfigMultiVolumePolicy policyName moveFactor) =
      a.disks.map fun d => .mk (.str d.1) (.dict d.2.entries) := by
  have hne : "policies".toList ≠ "disks".toList := by decide
  rw [definedDisks,Arguments.addConfigMultiVolumePolicy,under_dict,under_nil,List.append_nil,under_list,
    under_of_ne hne,under_nil,List.append_nil,← List.flatMap_def]
  exact List.flatMap_pure_eq_map ..

theorem definedVolumes_eq (a : Arguments) (policyName : Text) (moveFactor : Bool) :
    definedVolumes policyName (a.addConfigMultiVolumePolicy policyName moveFactor) = a.volumes.map fun v =>
      .mk (.str v.1) (.list (v.2.map fun disk => [.mk (.str "disk".toList) (.leaf (some disk))])) := by
  have hdisks : "disks".toList ≠ "policies".toList := by decide
  have hfactor : "move_factor".toList ≠ "volumes".toList := by decide
  rw [definedVolumes,Arguments.addConfigMultiVolumePolicy,under_dict,under_nil,List.append_nil,
    under_of_ne hdisks,under_dict,under_nil,List.append_nil,under_dict,under_nil,List.append_nil,under_dict]
  cases moveFactor with
  | false => exact List.append_nil _
  | true =>
    rw [if_pos rfl,under_of_ne hfactor]
    exact List.append_nil _

/-- The disks and the volumes are well defined exactly if their names are told apart, as they are with at
most ten disks in every volume; the dictionary that is passed on defines these disks and volumes. -/
theorem multiVolume_iff (a : Arguments) :
    (a.WellDefined ↔ a.Separate) ∧
      ((∀ p ∈ a.indices, a.Known p) → (∀ j, a.count j ≤ 10) → a.Separate) ∧ ∀ policyName moveFactor,
      (definedDisks (a.addConfigMultiVolumePolicy policyName moveFactor) =
        a.disks.map fun d => .mk (.str d.1) (.dict d.2.entries)) ∧
      definedVolumes policyName (a.addConfigMultiVolumePolicy policyName moveFactor) = a.volumes.map fun v =>
        .mk (.str v.1) (.list (v.2.map fun disk => [.mk (.str "disk".toList) (.leaf (some disk))])) :=
  ⟨⟨Arguments.separate_of_wellDefined,Arguments.wellDefined_of_separate⟩,
    Arguments.separate_of_count_le_ten,fun policyName moveFactor =>
      ⟨definedDisks_eq a policyName moveFactor,definedVolumes_eq a policyName moveFactor⟩⟩

/-- Twelve volumes of one local disk each, but eleven in the volume 1. -/
def twelveVolumes : Arguments where
  numberOfVolumes := 12
  numbersOfDisks := [1,11,1,1,1,1,1,1,1,1,1,1]
  disksTypes := [1,11,1,1,1,1,1,1,1,1,1,1].map fun n => List.replicate n "local".toList
  keys := List.replicate 12 (List.replicate 11 "key".toList)
  volumesInRange := by decide
  typesInRange := by decide
  keysInRange := by decide

theorem multiVolume_twelveVolumes : ¬ twelveVolumes.WellDefined :=
  Arguments.not_wellDefined_of_collision (p := (1,10)) (q := (11,0))
    (Arguments.mem_indices.2 (by decide)) (Arguments.mem_indices.2 (by decide)) (by decide) (by decide)

end ClickHouseRegression.MultiVolume
