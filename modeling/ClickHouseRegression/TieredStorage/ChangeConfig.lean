import ClickHouseRegression.Xml.Edit

/-! The in-place steps that edit `storage_configuration.xml`. Each step reads the file, mutates
the tree, indents it and writes it back. -/
namespace ClickHouseRegression.TieredStorage
open Xml Xml.Element

/-- `"\n" + level * (4 * " ")`. -/
def indentLine (level : ℕ) : Text := '\n' :: Text.times level (Text.times 4 [' '])

/-- The copy of `xml_indent` in this suite. -/
def xmlIndent (elem : Element) (level : ℕ) : Element :=
  elem.indent indentLine (fun n => indentLine n ++ "  ".toList) level

def storageConfiguration : Text := "storage_configuration".toList
def disks : Text := "disks".toList
def policies : Text := "policies".toList
def volumes : Text := "volumes".toList
def disk : Text := "disk".toList

/-- An element with a text and nothing else. -/
def textElement (name text : Text) : Element := (Element.new name).withText (some text)

/-- The keyword arguments of `adding_disk`, with `str` applied to the given ones. -/
structure DiskOptions where
  path : Text
  diskSpaceBytes : Option Text
  keepFreeSpaceBytes : Option Text
  keepFreeSpaceRatio : Option Text

def DiskOptions.params (d : DiskOptions) : List (Text × Option Text) :=
  [("disk_space_bytes".toList,d.diskSpaceBytes),
   ("keep_free_space_bytes".toList,d.keepFreeSpaceBytes),
   ("keep_free_space_ratio".toList,d.keepFreeSpaceRatio)]

/-- The children of the new disk: its path and the parameters that are not `None`. -/
def DiskOptions.children (d : DiskOptions) : List Element :=
  textElement "path".toList d.path ::
    d.params.filterMap fun p => p.2.map (textElement p.1)

def newDisk (name : Text) (d : DiskOptions) : Element :=
  (Element.new name).withChildren d.children

def newVolume (name : Text) (names : List Text) : Element :=
  (Element.new name).withChildren (names.map (textElement disk))

def newPolicy (name : Text) (vs : List (Text × List Text)) : Element :=
  (Element.new name).append
    ((Element.new volumes).withChildren (vs.map fun v => newVolume v.1 v.2))

inductive Step
  | addingDisk (name : Text) (options : DiskOptions)
  | removingDisk (name : Text)
  | addingPolicy (name : Text) (vs : List (Text × List Text))
  | removingPolicy (name : Text)
  | addingVolumeToPolicy (policy name : Text) (names : List Text)
  | removingVolume (policy name : Text)
  | addingDisksToVolume (policy volume : Text) (names : List Text)

/-- What a step does to the element at the end of its chain of `find` calls. -/
inductive Mutation
  | append (cs : List Element)
  | remove (name : Text)

def Mutation.apply : Mutation → Element → Option Element
  | append cs => extend cs
  | remove name => removeChild name

def Step.path : Step → List Text
  | addingDisk _ _ => [storageConfiguration,disks]
  | removingDisk _ => [storageConfiguration,disks]
  | addingPolicy _ _ => [storageConfiguration,policies]
  | removingPolicy _ => [storageConfiguration,policies]
  | addingVolumeToPolicy policy _ _ => [storageConfiguration,policies,policy,volumes]
  | removingVolume policy _ => [storageConfiguration,policies,policy,volumes]
  | addingDisksToVolume policy volume _ => [storageConfiguration,policies,policy,volumes,volume]

def Step.mutation : Step → Mutation
  | addingDisk name options => .append [newDisk name options]
  | removingDisk name => .remove name
  | addingPolicy name vs => .append [newPolicy name vs]
  | removingPolicy name => .remove name
  | addingVolumeToPolicy _ name names => .append [newVolume name names]
  | removingVolume _ name => .remove name
  | addingDisksToVolume _ _ names => .append (names.map (textElement disk))

/-- The mutation of the tree; `none` where a `find` gives `None` and the step raises. -/
def Step.edit (st : Step) : Element → Option Element := updatePath st.path st.mutation.apply

/-- A whole step on the tree last written; `reread` stands for serialising it, writing the file,
reading it and parsing it. -/
def Step.run (reread : Element → Element) (st : Step) (file : Element) : Option Element :=
  (st.edit (reread file)).map (xmlIndent · 0)

def runSteps (reread : Element → Element) : List Step → Element → Option Element
  | [],file => some file
  | st :: rest,file => (st.run reread file).bind (runSteps reread rest)

theorem indentLine_strip (level : ℕ) : (indentLine level).strip = [] :=
  Text.append_strip (show Text.strip ['\n'] = [] by decide)
    (Text.times_strip level (show (Text.times 4 [' ']).strip = [] by decide))

theorem xmlIndent_content (e : Element) (level : ℕ) : (xmlIndent e level).content = e.content := by
  refine content_indent ?_ ?_ level e
  · intro n
    rw [blank,indentLine_strip]
    rfl
  · intro n
    rw [blank,Text.append_strip (indentLine_strip n) (by decide)]
    rfl

def Mutation.content : Mutation → Mutation
  | append cs => append (cs.map Element.content)
  | remove name => remove name

theorem Mutation.apply_lifts (m : Mutation) : Lifts m.apply m.content.apply := by
  cases m with
  | append cs => exact extend_lifts cs
  | remove name => exact removeChild_lifts name

/-- A step acts on the content alone, if reading the file gives the content that was written. -/
theorem Step.run_content {reread : Element → Element} {file : Element}
    (h : (reread file).content = file.content) (st : Step) :
    (st.run reread file).map Element.content =
      updatePath st.path st.mutation.content.apply file.content := by
  have hl := updatePath_lifts st.mutation.apply_lifts st.path (reread file)
  rw [h] at hl
  rw [← hl,Step.run,Option.map_map]
  congr 1
  funext e
  exact xmlIndent_content e 0

end ClickHouseRegression.TieredStorage
