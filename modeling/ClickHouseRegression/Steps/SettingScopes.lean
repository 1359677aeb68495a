import ClickHouseRegression.Helpers.Version
import ClickHouseRegression.Scope.Nesting

/-! The steps that add a setting to the list `default_query_settings` of the context and take it
out again in their `finally` block. The list is shared, and the setting is looked up by value. -/
namespace ClickHouseRegression.Steps
open Helpers Scope

inductive SettingValue
  | int (n : ℤ)
  | text (t : Text)
  deriving DecidableEq

abbrev Setting := Text × SettingValue

inductive SettingScope
  | allowExperimentalWindowFunctions
  | allowDistributedProductMode
  | allowExperimentalMapType
  | changeMaxSinglePartUploadSize (size : SettingValue)
  | allowExperimentalLightweightDelete
  deriving DecidableEq

def windowFunctionsName : Text := "allow_experimental_window_functions".toList

def distributedProductName : Text := "distributed_product_mode".toList

def mapTypeName : Text := "allow_experimental_map_type".toList

def uploadSizeName : Text := "s3_max_single_part_upload_size".toList

def lightweightDeleteName : Text := "allow_experimental_lightweight_delete".toList

/-- The setting that a step appends. -/
def SettingScope.setting : SettingScope → Setting
  | allowExperimentalWindowFunctions => (windowFunctionsName,.int 1)
  | allowDistributedProductMode => (distributedProductName,.text "allow".toList)
  | allowExperimentalMapType => (mapTypeName,.int 1)
  | changeMaxSinglePartUploadSize size => (uploadSizeName,size)
  | allowExperimentalLightweightDelete => (lightweightDeleteName,.int 1)

section
variable (numeric : Char → Bool) (server : Option Text)

/-- Only the step for lightweight deletes asks the server version; it does nothing if the answer
is no. -/
def SettingScope.active : SettingScope → Bool
  | allowExperimentalLightweightDelete =>
    checkClickhouseVersion numeric ">=22.3".toList server = some true
  | _ => true

def enterScope (scope : SettingScope) (settings : List Setting) : List Setting :=
  if scope.active numeric server then settings ++ [scope.setting] else settings

/-- `settings.pop(settings.index(setting))`, if there is such a setting. -/
def popSetting (setting : Setting) (settings : List Setting) : List Setting :=
  match settings.idxOf? setting with
  | none => settings
  | some i => settings.eraseIdx i

def exitScope (scope : SettingScope) (settings : List Setting) : List Setting :=
  if scope.active numeric server then popSetting scope.setting settings else settings

/-- The exits of a run of the steps, from the given list. -/
def scopeExits (settings : List Setting) (events : List (Event SettingScope)) :
    List (Exit SettingScope (List Setting)) :=
  exits (enterScope numeric server) (exitScope numeric server) ⟨settings,[]⟩ events

/-- The list inside the given open steps, innermost first. -/
def settingsInside (settings : List Setting) (scopes : List SettingScope) : List Setting :=
  settings ++ ((scopes.filter (·.active numeric server)).map SettingScope.setting).reverse

end

/-- Nothing but the setting itself follows its first occurrence in the list. -/
def LastOrAbsent (setting : Setting) (settings : List Setting) : Prop :=
  ∀ x ∈ settings.dropWhile fun x => decide (x ≠ setting), x = setting

theorem popSetting_eq_erase (setting : Setting) (settings : List Setting) :
    popSetting setting settings = settings.erase setting :=
  (settings.erase_eq_eraseIdx setting).symm

/-- Moving an element from the front to the back changes nothing only in a constant list. -/
theorem concat_eq_cons_iff (setting : Setting) (settings : List Setting) :
    settings ++ [setting] = setting :: settings ↔ ∀ x ∈ settings, x = setting := by
  constructor
  · intro h
    induction settings with
    | nil => exact fun x hx => absurd hx List.not_mem_nil
    | cons y settings ih =>
      obtain ⟨rfl,ht⟩ := List.cons.inj h
      exact List.forall_mem_cons.2 ⟨rfl,ih ht⟩
  · intro h
    obtain ⟨n,rfl⟩ : ∃ n, settings = List.replicate n setting :=
      ⟨settings.length,List.eq_replicate_of_mem h⟩
    rw [← List.replicate_succ,List.replicate_succ']

/-- Appending a setting and removing its first occurrence. -/
theorem pop_append_iff (setting : Setting) (settings : List Setting) :
    popSetting setting (settings ++ [setting]) = settings ↔ LastOrAbsent setting settings := by
  rw [popSetting_eq_erase]
  induction settings with
  | nil => simp [LastOrAbsent]
  | cons x settings ih =>
    rw [List.cons_append]
    by_cases hx : x = setting
    · subst hx
      rw [List.erase_cons_head,concat_eq_cons_iff,LastOrAbsent,List.dropWhile_cons_of_neg (by simp),
        List.forall_mem_cons]
      exact ⟨fun h => ⟨rfl,h⟩,fun h => h.2⟩
    · rw [List.erase_cons_tail (by simpa using hx),List.cons_inj_right,ih,LastOrAbsent,LastOrAbsent,
        List.dropWhile_cons_of_pos (by simpa using hx)]

section
variable (numeric : Char → Bool) (server : Option Text)

theorem nested_enterScope (settings : List Setting) (scopes : List SettingScope) :
    nested (enterScope numeric server) settings scopes =
      settingsInside numeric server settings scopes := by
  induction scopes with
  | nil => exact (List.append_nil settings).symm
  | cons scope scopes ih =>
    change enterScope numeric server scope (nested _ settings scopes) = _
    rw [ih,enterScope]
    by_cases h : scope.active numeric server = true
    · simp [h,settingsInside]
    · simp [h,settingsInside]

/-- One step gives back the list it found exactly if it is inactive or finds its setting last or
not at all. -/
theorem exit_enterScope_iff (scope : SettingScope) (settings : List Setting) :
    exitScope numeric server scope (enterScope numeric server scope settings) = settings ↔
      (scope.active numeric server = true → LastOrAbsent scope.setting settings) := by
  rw [exitScope,enterScope]
  by_cases h : scope.active numeric server = true
  · rw [if_pos h,if_pos h,pop_append_iff]
    exact ⟨fun hl _ => hl,fun hl => hl h⟩
  · rw [if_neg h,if_neg h]
    exact ⟨fun _ ha => absurd ha h,fun _ => rfl⟩

/-- The list after every exit of a run is the list at the matching entry if and only if every
closed step found its setting last or not at all among the settings open around it. -/
theorem settingScopes_neutral_iff (settings : List Setting)
    (events : List (Event SettingScope)) :
    (∀ x ∈ scopeExits numeric server settings events, x.after = x.entry) ↔
      ∀ c ∈ closes [] events, c.1.active numeric server = true →
        LastOrAbsent c.1.setting (settingsInside numeric server settings c.2) := by
  have h : (∀ x ∈ scopeExits numeric server settings events, x.after = x.entry) ↔
      ∀ c ∈ closes [] events, exitScope numeric server c.1 (enterScope numeric server c.1
        (nested (enterScope numeric server) settings c.2)) =
          nested (enterScope numeric server) settings c.2 := exits_neutral_iff settings [] events
  rw [h]
  simp only [nested_enterScope,exit_enterScope_iff]

end

/-- A second entry of the map type step inside the window function step takes out the first. -/
theorem settingScopes_reordered :
    ¬ ∀ x ∈ scopeExits Char.isDigit none [] [.enter .allowExperimentalMapType,
      .enter .allowExperimentalWindowFunctions,.enter .allowExperimentalMapType,.exit],
      x.after = x.entry := by
  decide +kernel

end ClickHouseRegression.Steps
