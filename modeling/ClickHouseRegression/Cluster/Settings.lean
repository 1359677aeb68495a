import ClickHouseRegression.Bash.Commands
import ClickHouseRegression.Cluster.BranchAgreement

/-! Which command receives the settings. The commands that bash makes of a call are compared with those
it makes of the same call without settings. -/
namespace ClickHouseRegression.Cluster
open Bash

/-- The arguments that settings stand for. -/
def settingWords (settings : List Setting) : List Text :=
  settings.flatMap fun s => ["--".toList ++ s.1,s.2]

def clientWords (secure : Bool) : List Text :=
  ["clickhouse".toList,"client".toList,"-n".toList] ++ if secure then ["-s".toList] else []

/-- The command runs `clickhouse client`, itself or in a container. -/
def IsClient (c : List Text) : Prop := ["clickhouse".toList,"client".toList] <:+: c

def Node.withoutSettings (n : Node) : Node := { n with defaultQuerySettings := [] }

def CommandOptions.withoutSettings (o : CommandOptions) : CommandOptions :=
  { o with settings := [], queryId := none }

def CheckOptions.withoutSettings (o : CheckOptions) : CheckOptions :=
  { o with settings := [], queryId := none }

/-- The commands of a shell call. -/
def Command.commands (node host inner : Shell) (c : Command) : Option (List (List Text)) :=
  lineCommands (if c.session.isSome then node else host) inner c.text

/-- The settings are the last arguments of the client, in their order, and every other command is the
one it is without them. Without settings nothing is asked. -/
def SettingsOnClient (settings : List Setting) (bare full : Option (List (List Text))) : Prop :=
  settings = [] ∨ ∃ before client after, IsClient client ∧ bare = some (before ++ client :: after) ∧
    full = some (before ++ (client ++ settingWords settings) :: after)

/-- After the text and a double quote, bash is out of the double quotes it was in. -/
def StaysQuoted (sh : Shell) (t : Text) : Prop :=
  ∃ acc w, ∀ rest, lex sh [] (.double []) 0 (t ++ '"' :: rest) = lex sh acc (.plain (.word w)) 0 rest

theorem staysQuoted_of_literal {t : Text} (h : DoubleLiteral t) (sh : Shell) : StaysQuoted sh t :=
  ⟨[],t.reverse ++ [],fun rest => lex_doubleLiteral sh [] [] h rest⟩

/-- Read outside quotes, the number of bytes does not disturb bash. -/
def ReadableBytes (o : CommandOptions) : Prop :=
  truncates o = true → Unquoted o.maxQueryOutputInBytes ∧
    (tokens emptyShell (o.maxQueryOutputInBytes ++ [')'])).isSome

/-- What the harness itself puts into double quotes on the host stands for itself there. -/
structure PlainHost (n : Node) (queryName : Text) : Prop where
  compose : ∃ directory file, DoubleLiteral directory ∧ DoubleLiteral file ∧
    n.dockerCompose = composeCommand directory file
  name : PlainWord n.name
  queryName : DoubleLiteral queryName

/-- The subshell of the file branch. -/
def scriptGuard (o : CommandOptions) : Text :=
  if truncates o || o.hashOutput || Text.truthy o.fileOutput then "(set -o pipefail && ".toList else []

/-- A call of `query` through a file. Its values lose their quotes. -/
structure FileSettings (n : Node) (o : CommandOptions) (queryName : Text) : Prop where
  harness : PlainHost n queryName
  settings : ∀ s ∈ querySettings n o.settings o.queryId, PlainWord (optionWord s) ∧ PlainWord s.2
  joined : joined (scriptGuard o ++ client o.secure).reverse (querySettings n o.settings o.queryId) = true
  bytes : ReadableBytes o
  output : truncates o = false → o.hashOutput = false → Unquoted (o.fileOutput.getD [])

/-- A call of `query` through the shell of the node. -/
structure ShortSettings (node : Shell) (n : Node) (sql : Text) (o : CommandOptions) : Prop where
  pipeCmd : o.pipeCmd = "echo -e".toList
  sql : StaysQuoted node sql
  settings : ∀ s ∈ querySettings n o.settings o.queryId, PlainWord (optionWord s) ∧ DoubleLiteral s.2
  bytes : ReadableBytes o

/-- There is no setting, or the branch that is taken reads every setting as it was given. -/
def QueryReads (node : Shell) (n : Node) (sql : Text) (o : CommandOptions) (queryName : Text) : Prop :=
  querySettings n o.settings o.queryId = [] ∨
    if usesFile sql o then FileSettings n o queryName else ShortSettings node n sql o

/-- A call of `hash_query` or `diff_query` whose last argument and settings bash reads as they were
given. -/
structure CheckReads (node host : Shell) (n : Node) (sql last : Text) (o : CheckOptions)
    (queryName : Text) : Prop where
  harness : PlainHost n queryName
  pipeCmd : o.pipeCmd = "echo -e".toList
  sql : sql.length ≤ 1024 → StaysQuoted node sql ∧ StaysQuoted host sql
  settings : ∀ s ∈ querySettings n o.settings o.queryId, PlainWord (optionWord s) ∧ DoubleLiteral s.2
  last : PlainWord last

section
variable (node host inner : Shell) (n : Node) (sql : Text)

def QueryGivesSettings (o : CommandOptions) (queryName : Text) : Prop :=
  SettingsOnClient (querySettings n o.settings o.queryId)
    ((queryCommand n.withoutSettings sql o.withoutSettings queryName).commands node host inner)
    ((queryCommand n sql o queryName).commands node host inner)

def HashQueryGivesSettings (hashUtility : Text) (o : CheckOptions) (queryName : Text) : Prop :=
  SettingsOnClient (querySettings n o.settings o.queryId)
    ((hashQueryCommand n.withoutSettings sql hashUtility o.withoutSettings queryName).commands
      node host inner)
    ((hashQueryCommand n sql hashUtility o queryName).commands node host inner)

def DiffQueryGivesSettings (expectedOutput : Text) (o : CheckOptions) (queryName : Text) : Prop :=
  SettingsOnClient (querySettings n o.settings o.queryId)
    ((diffQueryCommand n.withoutSettings sql expectedOutput o.withoutSettings queryName).commands
      node host inner)
    ((diffQueryCommand n sql expectedOutput o queryName).commands node host inner)

end

/-! ### Reading a command with settings -/

theorem splitScript_eq_none {before : List Text} {flag script : Text} (h : flag ≠ "-c".toList) :
    splitScript (before ++ [flag,script]) = none := by
  have hreverse : (before ++ [flag,script]).reverse = script :: flag :: before.reverse := by simp
  unfold splitScript
  rw [hreverse]
  cases before.reverse with
  | nil => rfl
  | cons program before => exact if_neg fun hp => h hp.2

/-- Arguments of the form of settings are no script. -/
theorem splitScript_settings {c : List Text} (h : splitScript c = none) (settings : List Setting) :
    splitScript (c ++ settingWords settings) = none := by
  rcases List.eq_nil_or_concat settings with rfl | ⟨settings,s,rfl⟩
  · rw [settingWords,List.flatMap_nil,List.append_nil]
    exact h
  · have hlast : c ++ settingWords (settings.concat s) =
        (c ++ settingWords settings) ++ ["--".toList ++ s.1,s.2] := by
      simp [settingWords]
    rw [hlast]
    exact splitScript_eq_none (by simp)

theorem splitScript_client (launcher : List Text) (secure : Bool) :
    splitScript (launcher ++ clientWords secure) = none := by
  cases secure with
  | false =>
    have hwords : launcher ++ clientWords false =
        (launcher ++ ["clickhouse".toList]) ++ ["client".toList,"-n".toList] := by
      simp [clientWords]
    rw [hwords]
    exact splitScript_eq_none (by decide)
  | true =>
    have hwords : launcher ++ clientWords true =
        (launcher ++ ["clickhouse".toList,"client".toList]) ++ ["-n".toList,"-s".toList] := by
      simp [clientWords]
    rw [hwords]
    exact splitScript_eq_none (by decide)

theorem isClient_clientWords (launcher : List Text) (secure : Bool) :
    IsClient (launcher ++ clientWords secure) := by
  refine ⟨launcher,["-n".toList] ++ if secure then ["-s".toList] else [],?_⟩
  simp [clientWords]

section
variable (sh : Shell)

theorem readSetting_tokens (settings : List Setting) (acc : List Token) (w : Text) :
    .word (settings.foldl readSetting (acc,w)).2.reverse :: (settings.foldl readSetting (acc,w)).1 =
      ((settingWords settings).map .word).reverse ++ .word w.reverse :: acc := by
  induction settings generalizing acc w with
  | nil => rfl
  | cons s settings ih =>
    rw [List.foldl_cons]
    refine (ih _ _).trans ?_
    simp [settingWords]

theorem clientRead_tokens (secure : Bool) (acc : List Token) :
    .word (clientRead secure acc).2.reverse :: (clientRead secure acc).1 =
      ((clientWords secure).map .word).reverse ++ acc := by
  cases secure <;> simp [clientRead,clientWords]

section
variable {settings : List Setting} (h : ∀ s ∈ settings, PlainWord (optionWord s) ∧ DoubleLiteral s.2)
include h

/-- A word, its settings and a blank. -/
theorem lex_options_blank (acc : List Token) (w rest : Text) :
    lex sh acc (.plain (.word w)) 0 (clientOptions settings ++ ' ' :: rest) =
      lex sh (((settingWords settings).map .word).reverse ++ .word w.reverse :: acc) (.plain .none) 0
        rest := by
  rw [lex_clientOptions sh h,← readSetting_tokens]
  rfl

/-- A word and its settings at the end of the line. -/
theorem lex_options_end (acc : List Token) (w : Text) :
    lex sh acc (.plain (.word w)) 0 (clientOptions settings) =
      some (acc.reverse ++ (w.reverse :: settingWords settings).map .word) := by
  have hread := lex_clientOptions sh h acc w []
  rw [List.append_nil] at hread
  rw [hread,lex,Current.flush,readSetting_tokens]
  simp

theorem lex_client_settings (acc : List Token) (secure : Bool) (rest : Text) :
    lex sh acc (.plain .none) 0 (client secure ++ (clientOptions settings ++ ' ' :: rest)) =
      lex sh (((clientWords secure ++ settingWords settings).map .word).reverse ++ acc) (.plain .none) 0
        rest := by
  rw [lex_client,lex_options_blank sh h,clientRead_tokens]
  simp

end

end

theorem settingWords_eq_nil_iff {settings : List Setting} : settingWords settings = [] ↔ settings = [] := by
  cases settings with
  | nil => exact iff_of_true rfl rfl
  | cons s settings => exact iff_of_false (List.cons_ne_nil _ _) (List.cons_ne_nil _ _)

/-- A line that ends with a command without a script. -/
theorem lineCommands_last {sh inner : Shell} {t o : Text} {G : List Token} {ws : List Text}
    (ht : tokens sh t = some (G ++ .op o :: ws.map .word)) (ho : redirects o = false)
    (hws : splitScript ws = none) :
    lineCommands sh inner t = some ((commands false G).flatMap (expandCommand inner) ++ [ws]) := by
  unfold lineCommands
  rw [ht,Option.map_some,commands_append_op ho,commands_word_list,List.flatMap_append,
    List.flatMap_singleton,expandCommand_eq_self hws]

/-- A command without a script after a pipe, and what follows it. -/
theorem lineCommands_middle {sh inner : Shell} {t : Text} {G l : List Token} {ws : List Text}
    {after : List (List Text)} (ht : tokens sh t = some (G ++ .op ['|'] :: (ws.map .word ++ l)))
    (hl : commands false l = [] :: after) (hws : splitScript ws = none) :
    lineCommands sh inner t = some ((commands false G).flatMap (expandCommand inner) ++
      ws :: after.flatMap (expandCommand inner)) := by
  unfold lineCommands
  rw [ht,Option.map_some,commands_append_op (by rfl),commands_words,hl,List.modifyHead_cons,
    List.append_nil,List.flatMap_append,List.flatMap_cons,expandCommand_eq_self hws]
  rfl

/-- The settings went to the last command, and that is not the client. -/
theorem not_settingsOnClient_of_last {settings : List Setting} (hne : settings ≠ [])
    {before : List (List Text)} {last : List Text} (hlast : ¬ IsClient last) :
    ¬ SettingsOnClient settings (some (before ++ [last]))
      (some (before ++ [last ++ settingWords settings])) := by
  rintro (hnil | ⟨front,client,after,hclient,hbare,hfull⟩)
  · exact hne hnil
  · replace hbare := Option.some.inj hbare
    replace hfull := Option.some.inj hfull
    rcases List.eq_nil_or_concat after with rfl | ⟨after,x,rfl⟩
    · obtain ⟨-,hx⟩ := List.append_inj' hbare rfl
      rw [← (List.cons.inj hx).1] at hclient
      exact hlast hclient
    · rw [List.concat_eq_append,← List.cons_append,← List.append_assoc] at hbare hfull
      obtain ⟨-,hx⟩ := List.append_inj' hbare rfl
      obtain ⟨-,hx'⟩ := List.append_inj' hfull rfl
      have hsame : last ++ settingWords settings = last :=
        (List.cons.inj hx').1.trans (List.cons.inj hx).1.symm
      exact hne (settingWords_eq_nil_iff.1 (List.append_right_eq_self.1 hsame))

/-! ### The branches of `query` -/

/-- What follows the client call in the file branch, after a blank. -/
def scriptTail (o : CommandOptions) : Text :=
  if truncates o then "2>&1 | head -c ".toList ++ (o.maxQueryOutputInBytes ++ [')'])
  else if o.hashOutput then "2>&1 | sha512sum)".toList
  else if Text.truthy o.fileOutput then "2>&1 > '".toList ++ (o.fileOutput.getD [] ++ ['\'',')'])
  else "2>&1".toList

/-- The same for the other branch. -/
def shortTail (o : CommandOptions) : Text := scriptTail { o with fileOutput := none }

theorem fileScript_eq_tail (n : Node) (o : CommandOptions) : fileScript n o = scriptGuard o ++
    (client o.secure ++ (clientOptions (querySettings n o.settings o.queryId) ++ ' ' :: scriptTail o)) := by
  unfold fileScript scriptGuard scriptTail
  split_ifs <;> simp_all [clientCall]

theorem routing_eq_tail (o : CommandOptions) : routing o = ' ' :: shortTail o := by
  have htrunc : truncates { o with fileOutput := none } = truncates o := rfl
  unfold routing shortTail scriptTail
  rw [htrunc]
  split_ifs <;> simp_all [Text.truthy]

theorem lex_single (sh : Shell) (acc : List Token) (w : Text) {t : Text} (h : '\'' ∉ t) (rest : Text) :
    lex sh acc (.single w) 0 (t ++ '\'' :: rest) = lex sh acc (.plain (.word (t.reverse ++ w))) 0 rest := by
  induction t generalizing w with
  | nil => rfl
  | cons c t ih =>
    rw [List.mem_cons,not_or] at h
    rw [List.cons_append,lex,if_neg (Ne.symm h.1),ih _ h.2]
    simp

/-- After the client come redirections of its output and other commands. -/
theorem scriptTail_reads {o : CommandOptions} (hbytes : ReadableBytes o)
    (houtput : truncates o = false → o.hashOutput = false → Unquoted (o.fileOutput.getD [])) :
    ∃ l after, (∀ sh, lex sh [] (.plain .none) 0 (scriptTail o) = some l) ∧
      commands false l = [] :: after := by
  unfold scriptTail
  split_ifs with htrunc hhash hfile
  · obtain ⟨hopen,hread⟩ := hbytes htrunc
    obtain ⟨l,hl⟩ := Option.isSome_iff_exists.1 hread
    have hstart : ∀ sh t, lex sh [] (.plain .none) 0 ("2>&1 | head -c ".toList ++ t) =
        lex sh [.word "-c".toList,.word "head".toList,.op "|".toList,.word "1".toList,.op "2>&".toList]
          (.plain .none) 0 t := by
      intro sh t
      simp only [String.reduceToList]
      rfl
    refine ⟨[.op "2>&".toList,.word "1".toList,.op "|".toList,.word "head".toList,.word "-c".toList] ++ l,
      commands false (.word "head".toList :: .word "-c".toList :: l),fun sh => ?_,?_⟩
    · rw [hstart,lex_acc,lex_shell sh emptyShell (hopen.append (unquoted_of_all (by rfl)))]
      exact congrArg (Option.map _) hl
    · rfl
  · refine ⟨[.op "2>&".toList,.word "1".toList,.op "|".toList,.word "sha512sum".toList,.op ")".toList],
      [["sha512sum".toList],[]],fun sh => ?_,?_⟩
    · simp only [String.reduceToList]
      rfl
    · rfl
  · have hopen := houtput (Bool.eq_false_iff.2 htrunc) (Bool.eq_false_iff.2 hhash)
    have hstart : ∀ sh t, lex sh [] (.plain .none) 0 ("2>&1 > '".toList ++ t) =
        lex sh [.op ">".toList,.word "1".toList,.op "2>&".toList] (.single []) 0 t := by
      intro sh t
      simp only [String.reduceToList]
      rfl
    refine ⟨[.op "2>&".toList,.word "1".toList,.op ">".toList,.word (o.fileOutput.getD []),
      .op ")".toList],[[]],fun sh => ?_,?_⟩
    · rw [hstart,lex_single sh _ _ fun hq => (openChar_cases (hopen _ hq)).2.2.2.2 rfl]
      simp [lex,isBlank,isOperator,isRedirection,Current.isNone,Current.letters,Current.beforeOp,
        Current.operator,Current.flush]
    · rfl
  · refine ⟨[.op "2>&".toList,.word "1".toList],[],fun sh => ?_,?_⟩
    · simp only [String.reduceToList]
      rfl
    · rfl

theorem shortTail_reads {o : CommandOptions} (hbytes : ReadableBytes o) :
    ∃ l after, (∀ sh, lex sh [] (.plain .none) 0 (shortTail o) = some l) ∧
      commands false l = [] :: after :=
  scriptTail_reads (o := { o with fileOutput := none }) hbytes fun _ _ _ hc => absurd hc List.not_mem_nil

/-- The short branch with some settings: they are at the end of the client's arguments. -/
theorem short_commands (inner : Shell) {node : Shell} {sql : Text} {o : CommandOptions}
    (hsql : StaysQuoted node sql) (hbytes : ReadableBytes o) :
    ∃ before after, ∀ settings : List Setting, (∀ s ∈ settings, PlainWord (optionWord s) ∧ DoubleLiteral s.2) →
      lineCommands node inner (guardText o ++ (echoPipe sql ++
          (client o.secure ++ (clientOptions settings ++ routing o)))) =
        some (before ++ (clientWords o.secure ++ settingWords settings) :: after) := by
  obtain ⟨acc,w,hread⟩ := hsql
  obtain ⟨l,after,hl,hafter⟩ := shortTail_reads hbytes
  refine ⟨_,_,fun settings hsettings => lineCommands_middle (G := guardOf o ++ (["echo".toList,
    "-e".toList].map .word ++ (acc.reverse ++ [.word w.reverse]))) ?_ hafter
    (splitScript_settings (splitScript_client [] o.secure) settings)⟩
  unfold tokens
  rw [routing_eq_tail,lex_guardText,lex_echoPipe_start,lex_acc node [_,_],hread,lex_pipe,
    lex_client_settings node hsettings,lex_acc node (_ ++ _),hl]
  simp

theorem unquoted_scriptGuard (o : CommandOptions) : Unquoted (scriptGuard o) := by
  unfold scriptGuard
  split_ifs
  · exact unquoted_of_all (by rfl)
  · exact unquoted_of_all (by rfl)

theorem scriptTail_doubleChars {o : CommandOptions} (hbytes : ReadableBytes o)
    (houtput : truncates o = false → o.hashOutput = false → Unquoted (o.fileOutput.getD [])) :
    ∀ c ∈ ' ' :: scriptTail o, doubleChar c = true := by
  have hall : ∀ {t : Text}, t.all doubleChar = true → ∀ c ∈ t, doubleChar c = true := List.all_eq_true.1
  refine List.forall_mem_cons.2 ⟨by decide,?_⟩
  unfold scriptTail
  split_ifs with htrunc hhash hfile
  · exact List.forall_mem_append.2 ⟨hall (by rfl),List.forall_mem_append.2
      ⟨(hbytes htrunc).1.doubleChars,hall (by rfl)⟩⟩
  · exact hall (by rfl)
  · have hopen := houtput (Bool.eq_false_iff.2 htrunc) (Bool.eq_false_iff.2 hhash)
    exact List.forall_mem_append.2 ⟨hall (by rfl),List.forall_mem_append.2
      ⟨hopen.doubleChars,hall (by rfl)⟩⟩
  · exact hall (by rfl)

/-- The commands before the client in the script. -/
theorem scriptGuard_commands (o : CommandOptions) : ∃ before, ∀ (sh : Shell) (t : Text) (l : List Token),
    lex sh [] (.plain .none) 0 t = some l →
      (tokens sh (scriptGuard o ++ t)).map (commands false) = some (before ++ commands false l) := by
  unfold scriptGuard tokens
  split_ifs
  · refine ⟨[[],["set".toList,"-o".toList,"pipefail".toList]],fun sh t l h => ?_⟩
    rw [lex_guard,h]
    rfl
  · refine ⟨[],fun sh t l h => ?_⟩
    rw [List.nil_append,h]
    rfl

/-- The file branch with some settings. -/
theorem file_commands (host inner : Shell) {n : Node} {o : CommandOptions} {queryName : Text}
    (hhost : PlainHost n queryName) (hbytes : ReadableBytes o)
    (houtput : truncates o = false → o.hashOutput = false → Unquoted (o.fileOutput.getD [])) :
    ∃ before after, ∀ settings : List Setting,
      (∀ s ∈ settings, PlainWord (optionWord s) ∧ PlainWord s.2) →
      joined (scriptGuard o ++ client o.secure).reverse settings = true →
      lineCommands host inner (fileExec n queryName ++ (scriptGuard o ++ (client o.secure ++
          (clientOptions settings ++ (' ' :: scriptTail o ++ ['"']))))) =
        some (before ++ (clientWords o.secure ++ settingWords settings) :: after) := by
  obtain ⟨directory,file,hdirectory,hfile,hcompose⟩ := hhost.compose
  obtain ⟨l,after,hl,hafter⟩ := scriptTail_reads hbytes houtput
  obtain ⟨guard,hguard⟩ := scriptGuard_commands o
  refine ⟨expandCommand inner ["cat".toList,queryName] ++
    (execWords directory file n.name ++ ["bash".toList,"-c".toList]) :: guard,after,
    fun settings hsettings hjoined => ?_⟩
  have hopen : ∀ s ∈ settings, Unquoted s.1 ∧ PlainWord s.2 := fun s hs =>
    ⟨fun c hc => (hsettings s hs).1.unquoted c (List.mem_append_right _ hc),(hsettings s hs).2⟩
  have hliteral : ∀ s ∈ settings, PlainWord (optionWord s) ∧ DoubleLiteral s.2 :=
    fun s hs => ⟨(hsettings s hs).1,(hsettings s hs).2.doubleLiteral⟩
  -- the script as `bash -c` reads it
  have hscript : (tokens inner (scriptGuard o ++ (client o.secure ++ (bareOptions settings ++
      ' ' :: scriptTail o)))).map (commands false) =
        some (guard ++ (clientWords o.secure ++ settingWords settings) :: after) := by
    have hread : lex inner [] (.plain .none) 0 (client o.secure ++ (bareOptions settings ++
        ' ' :: scriptTail o)) =
          some ((clientWords o.secure ++ settingWords settings).map .word ++ l) := by
      rw [lex_client,← lex_clientOptions_bare inner hopen (by rfl),← lex_client,
        lex_client_settings inner hliteral,lex_acc,hl]
      simp
    rw [hguard inner _ _ hread,commands_words,hafter,List.modifyHead_cons,List.append_nil]
  obtain ⟨script,htokens,hcommands⟩ := Option.map_eq_some_iff.1 hscript
  have hline : tokens host (fileExec n queryName ++ (scriptGuard o ++ (client o.secure ++
      (clientOptions settings ++ (' ' :: scriptTail o ++ ['"']))))) =
        some (["cat".toList,queryName].map .word ++ .op ['|'] ::
          (execWords directory file n.name ++ ["bash".toList,"-c".toList,scriptGuard o ++
            (client o.secure ++ (bareOptions settings ++ ' ' :: scriptTail o))]).map .word) := by
    unfold tokens
    rw [lex_fileExec host hcompose hdirectory hfile hhost.name hhost.queryName,
      lex_double_script host (fun s hs => (hopen s hs).1) hjoined (unquoted_scriptGuard o)
        (scriptTail_doubleChars hbytes houtput)]
    simp [lex,Current.flush,execTokens,composeTokens_eq]
  unfold lineCommands
  rw [hline,Option.map_some,commands_append_op (by rfl),commands_word_list,commands_word_list]
  rw [List.singleton_append,List.flatMap_cons,List.flatMap_singleton]
  have hexpand : expandCommand inner (execWords directory file n.name ++ ["bash".toList,"-c".toList,
      scriptGuard o ++ (client o.secure ++ (bareOptions settings ++ ' ' :: scriptTail o))]) =
        (execWords directory file n.name ++ ["bash".toList,"-c".toList]) ::
          (guard ++ (clientWords o.secure ++ settingWords settings) :: after) := by
    unfold expandCommand
    rw [splitScript_concat]
    simp only [htokens,hcommands]
  rw [hexpand]
  simp

/-! ### `hash_query` and `diff_query` -/

/-- Bash reads whole tokens of the text, whatever follows. -/
def Reads (sh : Shell) (t : Text) : Prop :=
  ∃ l, ∀ acc rest, lex sh acc (.plain .none) 0 (t ++ rest) = lex sh (l ++ acc) (.plain .none) 0 rest

section
variable {sh : Shell}

theorem Reads.append {a b : Text} (ha : Reads sh a) (hb : Reads sh b) : Reads sh (a ++ b) := by
  obtain ⟨l,hl⟩ := ha
  obtain ⟨m,hm⟩ := hb
  refine ⟨m ++ l,fun acc rest => ?_⟩
  rw [List.append_assoc,hl,hm,List.append_assoc]

theorem reads_pipefail : Reads sh "set -o pipefail && ".toList := by
  refine ⟨[.op "&&".toList,.word "pipefail".toList,.word "-o".toList,.word "set".toList],
    fun acc rest => ?_⟩
  simp only [String.reduceToList]
  rfl

theorem reads_echo {sql : Text} (h : StaysQuoted sh sql) : Reads sh (echoPipe sql) := by
  obtain ⟨l,w,hread⟩ := h
  refine ⟨.op ['|'] :: .word w.reverse :: (l ++ [.word "-e".toList,.word "echo".toList]),
    fun acc rest => ?_⟩
  rw [lex_echoPipe_start,lex_acc,hread,lex_pipe,lex_acc sh (.op ['|'] :: _),Option.map_map,
    lex_acc sh (_ ++ acc)]
  refine congrArg (Option.map · _) (funext fun m => ?_)
  simp

section
variable {n : Node} {queryName : Text} (h : PlainHost n queryName)
include h

theorem reads_cat : Reads sh ("cat \"".toList ++ (queryName ++ "\" | ".toList)) := by
  refine ⟨[.op ['|'],.word queryName,.word "cat".toList],fun acc rest => ?_⟩
  rw [List.append_assoc,List.append_assoc,lex_cat sh acc h.queryName]
  rfl

theorem reads_exec : Reads sh (n.dockerCompose ++ (" exec -T ".toList ++ (n.name ++ " ".toList))) := by
  obtain ⟨directory,file,hdirectory,hfile,hcompose⟩ := h.compose
  refine ⟨((execWords directory file n.name).map .word).reverse,fun acc rest => ?_⟩
  rw [← lex_exec sh acc hcompose hdirectory hfile h.name]
  simp

end

/-- The first argument of `diff` begins with a letter. -/
theorem reads_diff {t : Text} (h : Reads sh t) (hhead : t.head? = some 'c' ∨ t.head? = some 'e') :
    Reads sh ("diff <(".toList ++ t) := by
  obtain ⟨l,hl⟩ := h
  refine ⟨l ++ [.op "<(".toList,.word "diff".toList],fun acc rest => ?_⟩
  have hstart : lex sh acc (.plain .none) 0 ("diff <(".toList ++ (t ++ rest)) =
      lex sh (.op "<(".toList :: .word "diff".toList :: acc) (.plain .none) 0 (t ++ rest) := by
    cases t with
    | nil => simp at hhead
    | cons c t =>
      rcases hhead with hc | hc
      · cases hc
        simp only [String.reduceToList]
        rfl
      · cases hc
        simp only [String.reduceToList]
        rfl
  rw [List.append_assoc,hstart,hl]
  simp

/-- What stands between the client and the last command. -/
def Stage (sh : Shell) (t : Text) : Prop :=
  ∃ o, redirects o = false ∧ ∀ acc w rest, lex sh acc (.plain (.word w)) 0 (t ++ rest) =
    lex sh (.op o :: .word w.reverse :: acc) (.plain .none) 0 rest

theorem stage_pipe : Stage sh " | ".toList := by
  refine ⟨['|'],by rfl,fun acc w rest => ?_⟩
  simp only [String.reduceToList]
  rfl

theorem stage_paren : Stage sh ") ".toList := by
  refine ⟨[')'],by rfl,fun acc w rest => ?_⟩
  simp only [String.reduceToList]
  rfl

/-- The settings are the last arguments of the last command. -/
theorem check_commands (inner : Shell) {front stage last : Text} (hfront : Reads sh front)
    (hstage : Stage sh stage) (hlast : PlainWord last) (secure : Bool) :
    ∃ before, ∀ settings : List Setting, (∀ s ∈ settings, PlainWord (optionWord s) ∧ DoubleLiteral s.2) →
      lineCommands sh inner (front ++ (client secure ++ (stage ++ (last ++ clientOptions settings)))) =
        some (before ++ [last :: settingWords settings]) := by
  obtain ⟨l,hl⟩ := hfront
  obtain ⟨o,ho,hstage⟩ := hstage
  refine ⟨_,fun settings hsettings => lineCommands_last
    (G := l.reverse ++ (clientWords secure).map .word) ?_ ho ?_⟩
  · have hhead : (clientOptions settings).head?.any isRedirection = false := by
      rw [clientOptions_eq_flatten]
      cases settings with
      | nil => rfl
      | cons s settings => simp [settingArg_eq,isRedirection]
    unfold tokens
    rw [hl,lex_client,hstage,clientRead_tokens,lex_plainWord sh _ hlast hhead,
      lex_options_end sh hsettings]
    simp
  · rcases settings with _ | ⟨s,settings⟩
    · rfl
    · exact splitScript_settings (c := [last]) (by rfl) (s :: settings)

end

theorem plainWord_not_client (last : Text) : ¬ IsClient [last] := by
  intro h
  exact absurd h.length_le (by simp)

/-- So they are on the client only if there are none. -/
theorem settingsOnClient_check_iff {front stage last : Text} {sh inner : Shell} (hfront : Reads sh front)
    (hstage : Stage sh stage) (hlast : PlainWord last) (secure : Bool) {settings : List Setting}
    (hsettings : ∀ s ∈ settings, PlainWord (optionWord s) ∧ DoubleLiteral s.2) :
    SettingsOnClient settings
        (lineCommands sh inner (front ++ (client secure ++ (stage ++ (last ++ clientOptions [])))))
        (lineCommands sh inner (front ++ (client secure ++ (stage ++ (last ++ clientOptions settings))))) ↔
      settings = [] := by
  obtain ⟨before,hcommands⟩ := check_commands inner hfront hstage hlast secure
  rw [hcommands [] (by simp),hcommands settings hsettings]
  refine ⟨fun h => ?_,.inl⟩
  by_contra hne
  exact not_settingsOnClient_of_last hne (plainWord_not_client last) h

/-- Everything of `hash_query` before the client. -/
def hashQueryFront (n : Node) (sql queryName : Text) : Text :=
  "set -o pipefail && ".toList ++ if 1024 < sql.length then
      ("cat \"".toList ++ (queryName ++ "\" | ".toList)) ++
        (n.dockerCompose ++ (" exec -T ".toList ++ (n.name ++ " ".toList)))
    else echoPipe sql

/-- Everything of `diff_query` before the client. -/
def diffQueryFront (n : Node) (sql queryName : Text) : Text :=
  "diff <(".toList ++ ((if 1024 < sql.length then "cat \"".toList ++ (queryName ++ "\" | ".toList)
      else echoPipe sql) ++ (n.dockerCompose ++ (" exec -T ".toList ++ (n.name ++ " ".toList))))

section
variable (n : Node) {sql : Text} {o : CheckOptions} (queryName : Text)

theorem hashQueryCommand_text (hashUtility : Text) (hpipe : o.pipeCmd = "echo -e".toList) :
    (hashQueryCommand n sql hashUtility o queryName).text = hashQueryFront n sql queryName ++
      (client o.secure ++ (" | ".toList ++ (hashUtility ++
        clientOptions (querySettings n o.settings o.queryId)))) := by
  have hecho : "echo -e".toList ++ " \"".toList = "echo -e \"".toList := by decide
  unfold hashQueryCommand hashQueryFront echoPipe
  rw [hpipe,← hecho]
  split_ifs <;> simp

theorem diffQueryCommand_text (expectedOutput : Text) (hpipe : o.pipeCmd = "echo -e".toList) :
    (diffQueryCommand n sql expectedOutput o queryName).text = diffQueryFront n sql queryName ++
      (client o.secure ++ (") ".toList ++ (expectedOutput ++
        clientOptions (querySettings n o.settings o.queryId)))) := by
  have hecho : "echo -e".toList ++ " \"".toList = "echo -e \"".toList := by decide
  unfold diffQueryCommand diffQueryFront echoPipe
  rw [hpipe,← hecho]
  split_ifs <;> simp

end

section
variable {node host : Shell} {n : Node} {sql last : Text} {o : CheckOptions} {queryName : Text}
  (h : CheckReads node host n sql last o queryName)
include h

theorem hashQueryFront_reads :
    Reads (if 1024 < sql.length then host else node) (hashQueryFront n sql queryName) := by
  unfold hashQueryFront
  split_ifs with hlong
  · exact reads_pipefail.append ((reads_cat h.harness).append (reads_exec h.harness))
  · exact reads_pipefail.append (reads_echo (h.sql (by omega)).1)

theorem diffQueryFront_reads : Reads host (diffQueryFront n sql queryName) := by
  unfold diffQueryFront
  split_ifs with hlong
  · exact reads_diff ((reads_cat h.harness).append (reads_exec h.harness)) (.inl (by rfl))
  · exact reads_diff ((reads_echo (h.sql (by omega)).2).append (reads_exec h.harness)) (.inr (by rfl))

theorem hashQuery_settings_iff (inner : Shell) :
    HashQueryGivesSettings node host inner n sql last o queryName ↔
      querySettings n o.settings o.queryId = [] := by
  have hshell : ∀ n' o', (if (hashQueryCommand n' sql last o' queryName).session.isSome then node
      else host) = if 1024 < sql.length then host else node := by
    intro n' o'
    unfold hashQueryCommand
    split_ifs <;> simp_all
  unfold HashQueryGivesSettings Command.commands
  rw [hshell,hshell,hashQueryCommand_text n queryName last h.pipeCmd,
    hashQueryCommand_text n.withoutSettings queryName last (o := o.withoutSettings) h.pipeCmd]
  exact settingsOnClient_check_iff (hashQueryFront_reads h) stage_pipe h.last o.secure h.settings

theorem diffQuery_settings_iff (inner : Shell) :
    DiffQueryGivesSettings node host inner n sql last o queryName ↔
      querySettings n o.settings o.queryId = [] := by
  have hshell : ∀ n' o', (if (diffQueryCommand n' sql last o' queryName).session.isSome then node
      else host) = host := by
    intro n' o'
    unfold diffQueryCommand
    split_ifs <;> simp_all
  unfold DiffQueryGivesSettings Command.commands
  rw [hshell,hshell,diffQueryCommand_text n queryName last h.pipeCmd,
    diffQueryCommand_text n.withoutSettings queryName last (o := o.withoutSettings) h.pipeCmd]
  exact settingsOnClient_check_iff (diffQueryFront_reads h) stage_paren h.last o.secure h.settings

end

theorem query_settings {node : Shell} {n : Node} {sql : Text} {o : CommandOptions} {queryName : Text}
    (h : QueryReads node n sql o queryName) (host inner : Shell) :
    QueryGivesSettings node host inner n sql o queryName := by
  rcases h with hnil | h
  · exact .inl hnil
  have hbranch : usesFile sql o.withoutSettings = usesFile sql o := rfl
  unfold QueryGivesSettings queryCommand Command.commands
  rw [hbranch]
  by_cases hfile : usesFile sql o = true
  · rw [if_pos hfile] at h
    rw [if_pos hfile,if_pos hfile]
    obtain ⟨before,after,hcommands⟩ := file_commands host inner h.harness h.bytes h.output
    have htext : ∀ n' o', fileExec n' queryName = fileExec n queryName → scriptGuard o' = scriptGuard o →
        scriptTail o' = scriptTail o → o'.secure = o.secure →
        fileCommand n' o' queryName = fileExec n queryName ++ (scriptGuard o ++ (client o.secure ++
          (clientOptions (querySettings n' o'.settings o'.queryId) ++ (' ' :: scriptTail o ++ ['"'])))) := by
      intro n' o' hexec hguard htail hsecure
      have hquote : "\"".toList = ['"'] := by decide
      unfold fileCommand
      rw [fileScript_eq_tail,hexec,hguard,htail,hsecure,hquote]
      simp
    refine .inr ⟨before,clientWords o.secure,after,isClient_clientWords [] o.secure,?_,?_⟩
    · have hbare := hcommands [] (by simp) rfl
      rw [settingWords,List.flatMap_nil,List.append_nil] at hbare
      rw [← hbare]
      exact congrArg _ (htext n.withoutSettings o.withoutSettings rfl rfl rfl rfl)
    · rw [← hcommands _ h.settings h.joined]
      exact congrArg _ (htext n o rfl rfl rfl rfl)
  · rw [if_neg hfile] at h
    rw [if_neg hfile,if_neg hfile]
    obtain ⟨before,after,hcommands⟩ := short_commands inner h.sql h.bytes
    have htext : ∀ n' o', o'.pipeCmd = "echo -e".toList → guardText o' = guardText o →
        routing o' = routing o → o'.secure = o.secure →
        shortCommand n' sql o' = guardText o ++ (echoPipe sql ++ (client o.secure ++
          (clientOptions (querySettings n' o'.settings o'.queryId) ++ routing o))) := by
      intro n' o' hpipe hguard hrouting hsecure
      rw [shortCommand_eq n' sql hpipe,hguard,hrouting,clientCall,hsecure,List.append_assoc]
    refine .inr ⟨before,clientWords o.secure,after,isClient_clientWords [] o.secure,?_,?_⟩
    · have hbare := hcommands [] (by simp)
      rw [settingWords,List.flatMap_nil,List.append_nil] at hbare
      rw [← hbare]
      exact congrArg _ (htext n.withoutSettings o.withoutSettings h.pipeCmd rfl rfl rfl)
    · rw [← hcommands _ h.settings]
      exact congrArg _ (htext n o h.pipeCmd rfl rfl rfl)

/-- There is no setting at all. -/
def NoSettings (n : Node) (o : CheckOptions) : Prop :=
  o.settings = [] ∧ n.defaultQuerySettings = [] ∧ o.queryId = none

theorem querySettings_eq_nil_iff (n : Node) (o : CheckOptions) :
    querySettings n o.settings o.queryId = [] ↔ NoSettings n o := by
  unfold NoSettings
  cases o.queryId <;> simp [querySettings,queryIdSetting]

theorem clickhouse1_plainHost : PlainHost clickhouse1 "/tmp/query".toList :=
  ⟨⟨_,_,by decide +kernel,by decide +kernel,rfl⟩,by decide +kernel,by decide +kernel⟩

def maxThreads : Setting := ("max_threads".toList,"1".toList)

end ClickHouseRegression.Cluster
