import ClickHouseRegression.Map.Ordered
import ClickHouseRegression.Helpers.XmlConfig
import ClickHouseRegression.Text.Substitute

/-! The steps that fill the placeholders of a disk configuration, one after the other. -/
namespace ClickHouseRegression.DiskConfiguration
open Helpers Xml Replace Substitute

/-- `xml_escape(value)`; the ampersand comes first. -/
def xmlEscape (value : Text) : Text :=
  replace "<".toList "&lt;".toList (replace ">".toList "&gt;".toList (replace "&".toList "&amp;".toList value))

/-- What takes the place of a placeholder. -/
def insertedValue (xmlSymbols : Bool) (value : Text) : Text := if xmlSymbols then xmlEscape value else value

/-- `for key, value in format.items(): content = content.replace(key, ...)`. -/
def formatContent (xmlSymbols : Bool) (format : OrderedMap Text Text) (content : Text) : Text :=
  format.entries.foldl (fun content e => replace e.1 (insertedValue xmlSymbols e.2) content) content

def formatConfig (xmlSymbols : Bool) (format : Option (OrderedMap Text Text)) (config : Config) : Config :=
  match format with
  | none => config
  | some format => { config with content := formatContent xmlSymbols format config.content }

section
variable (tostring : Element → Text)

/-- `create_xml_config_content(entries, config_file)` with its defaults. -/
def diskConfig (configFile uid : Text) (entries : List Entry) : Config :=
  createXmlConfigContent tostring uid entries configFile "/etc/clickhouse-server/config.d".toList
    "yandex".toList

variable (xmlSymbols : Bool) (format : Option (OrderedMap Text Text)) (uid : Text) (entries : List Entry)

/-- The file that `add_encrypted_disk_configuration` adds. -/
def addEncryptedDiskConfiguration : Config :=
  formatConfig xmlSymbols format (diskConfig tostring "encrypted_disk.xml".toList uid entries)

/-- The file that `add_invalid_encrypted_disk_configuration` adds, and the one that it recovers with. -/
def addInvalidEncryptedDiskConfiguration (recoverUid : Text) (recoverEntries : Option (List Entry)) :
    Config × Option Config :=
  (formatConfig xmlSymbols format (diskConfig tostring "encrypted_disk.xml".toList uid entries),
    recoverEntries.map fun recover =>
      formatConfig xmlSymbols format (diskConfig tostring "encrypted_disk.xml".toList recoverUid recover))

/-- The file that `add_disk_configuration` adds. -/
def addDiskConfiguration : Config :=
  formatConfig xmlSymbols format (diskConfig tostring "storage_conf.xml".toList uid entries)

end

/-- The entries with the values as they are inserted. -/
def insertedEntries (xmlSymbols : Bool) (format : OrderedMap Text Text) : List (Text × Text) :=
  format.entries.map fun e => (e.1,insertedValue xmlSymbols e.2)

/-- Every placeholder of the text gives way to its own value, at once. -/
def simultaneous (xmlSymbols : Bool) (format : OrderedMap Text Text) (content : Text) : Text :=
  substitute (insertedEntries xmlSymbols format) content

/-- The placeholders are not empty and do not overlap in the text. -/
structure Placeholders (format : OrderedMap Text Text) (content : Text) : Prop where
  nonempty : ∀ key ∈ format.keys, key ≠ []
  separate : Separate format.keys (pieces format.keys content)

/-- At its turn, each placeholder is found in no other places than those it has in the original text:
not in a value that was inserted, and not where such a value meets its neighbours. -/
def FoundInPlace (xmlSymbols : Bool) (format : OrderedMap Text Text) (content : Text) : Prop :=
  Undisturbed (pieces format.keys content) (insertedEntries xmlSymbols format) id

section
variable {xmlSymbols : Bool} {format : OrderedMap Text Text} {content : Text}

theorem insertedEntries_keys : (insertedEntries xmlSymbols format).map Prod.fst = format.keys := by
  rw [insertedEntries,List.map_map]
  rfl

theorem formatContent_eq_replaceAll :
    formatContent xmlSymbols format content = replaceAll (insertedEntries xmlSymbols format) content := by
  rw [formatContent,replaceAll,insertedEntries,List.foldl_map]

theorem formatContent_eq (hp : Placeholders format content) (h : FoundInPlace xmlSymbols format content) :
    formatContent xmlSymbols format content = simultaneous xmlSymbols format content := by
  rw [formatContent_eq_replaceAll]
  apply replaceAll_eq_substitute
  · rw [insertedEntries_keys]
    exact hp.nonempty
  · rw [insertedEntries_keys]
    exact format.nodup
  · rw [insertedEntries_keys]
    exact h

theorem simultaneous_perm (hp : Placeholders format content) {format' : OrderedMap Text Text}
    (h : format'.entries.Perm format.entries) :
    simultaneous xmlSymbols format' content = simultaneous xmlSymbols format content := by
  apply substitute_perm
  · rw [insertedEntries_keys]
    exact hp.nonempty
  · rw [insertedEntries_keys]
    exact format.nodup
  · rw [insertedEntries_keys]
    exact hp.separate
  · exact h.symm.map _

theorem Placeholders.perm (hp : Placeholders format content) {format' : OrderedMap Text Text}
    (h : format'.entries.Perm format.entries) : Placeholders format' content := by
  have hkeys : ∀ key, key ∈ format'.keys ↔ key ∈ format.keys := fun key => (h.map Prod.fst).mem_iff
  refine ⟨fun key hkey => hp.nonempty key ((hkeys key).1 hkey),?_⟩
  rw [pieces_congr hp.nonempty hkeys hp.separate]
  exact (separate_congr hkeys _).2 hp.separate

end

/-- Where every placeholder is found in its own places only, the loop is the simultaneous substitution,
in whatever order it takes the placeholders; so it is in the files of the three steps and in the file of the
recovery. -/
theorem formatConfig_simultaneous (xmlSymbols : Bool) (format : OrderedMap Text Text) (config : Config)
    (hp : Placeholders format config.content) (h : FoundInPlace xmlSymbols format config.content) :
    (formatConfig xmlSymbols (some format) config).content =
        simultaneous xmlSymbols format config.content ∧
      (∀ format' : OrderedMap Text Text, format'.entries.Perm format.entries →
        FoundInPlace xmlSymbols format' config.content →
        (formatConfig xmlSymbols (some format') config).content =
          (formatConfig xmlSymbols (some format) config).content) ∧
      ∀ tostring uid entries,
        (config = diskConfig tostring "encrypted_disk.xml".toList uid entries →
          (addEncryptedDiskConfiguration tostring xmlSymbols (some format) uid entries).content =
              simultaneous xmlSymbols format config.content ∧
            ∀ otherUid otherEntries recovery,
              (addInvalidEncryptedDiskConfiguration tostring xmlSymbols (some format) uid entries otherUid
                recovery).1.content = simultaneous xmlSymbols format config.content ∧
              (addInvalidEncryptedDiskConfiguration tostring xmlSymbols (some format) otherUid
                otherEntries uid (some entries)).2.map Config.content =
                  some (simultaneous xmlSymbols format config.content)) ∧
        (config = diskConfig tostring "storage_conf.xml".toList uid entries →
          (addDiskConfiguration tostring xmlSymbols (some format) uid entries).content =
            simultaneous xmlSymbols format config.content) := by
  have hcontent := formatContent_eq hp h
  refine ⟨hcontent,?_,?_⟩
  · intro format' hperm h'
    calc (formatConfig xmlSymbols (some format') config).content
        = simultaneous xmlSymbols format' config.content := formatContent_eq (hp.perm hperm) h'
      _ = simultaneous xmlSymbols format config.content := simultaneous_perm hp hperm
      _ = (formatConfig xmlSymbols (some format) config).content := hcontent.symm
  · intro tostring uid entries
    constructor
    · rintro rfl
      exact ⟨hcontent,fun _ _ _ => ⟨hcontent,congrArg some hcontent⟩⟩
    · rintro rfl
      exact hcontent

def keyConfig : Config where
  content := "<key>$key_value$</key>".toList
  path := "/etc/clickhouse-server/config.d/encrypted_disk.xml".toList
  name := "encrypted_disk.xml".toList
  uid := []
  preprocessedName := "config.xml".toList

/-- A key and a path. -/
def keyFormat (key : Text) : OrderedMap Text Text :=
  ⟨[("$key_value$".toList,key),("$path$".toList,"p".toList)],
    (by decide : (["$key_value$".toList,"$path$".toList] : List Text).Nodup)⟩

theorem formatConfig_simultaneous_plainKey :
    (formatConfig true (some (keyFormat "a<b".toList)) keyConfig).content =
      simultaneous true (keyFormat "a<b".toList) keyConfig.content :=
  (formatConfig_simultaneous true (keyFormat "a<b".toList) keyConfig
    ⟨by decide,by decide⟩ (by unfold FoundInPlace; decide)).1

/-- A key that is itself the placeholder of the path. -/
theorem formatConfig_placeholderKey :
    (formatConfig true (some (keyFormat "$path$".toList)) keyConfig).content ≠
      simultaneous true (keyFormat "$path$".toList) keyConfig.content := by
  decide

end ClickHouseRegression.DiskConfiguration
