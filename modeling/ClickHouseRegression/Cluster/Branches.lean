import ClickHouseRegression.Cluster.Commands
import ClickHouseRegression.Bash.Pipeline
import ClickHouseRegression.Bash.Unquoted

/-! What the command lines of the two branches of `ClickHouseNode.query` do: the text they hand to
`clickhouse client`, the client's own command line and where its output goes. -/
namespace ClickHouseRegression.Cluster
open Bash

/-- `set -o pipefail &&` inside a subshell. -/
def guardTokens : List Token :=
  [.op "(".toList,.word "set".toList,.word "-o".toList,.word "pipefail".toList,.op "&&".toList]

def splitGuard (l : List Token) : List Token × List Token :=
  if guardTokens <+: l then (guardTokens,l.drop guardTokens.length) else ([],l)

/-- The container, the standard input of the client, and the command line in the container
without the command that feeds the client. -/
structure Run where
  container : Text
  input : List Output
  command : List Token

/-- A command line `echo … | client …` in the shell of a node. -/
def nodeRun (node : Shell) (session text : Text) : Option Run := do
  let l ← tokens node text
  let (words,rest) ← pipeline (splitGuard l).2
  match words with
  | [] => none
  | program :: args =>
    if program = "echo".toList then some ⟨session,echo args,(splitGuard l).1 ++ rest⟩ else none

/-- The container and the script of `docker-compose … exec -T … bash -c …`. -/
def composeExec : List Token → Option (Text × Text)
  | [.word compose,.word ansi,.word never,.word project,.word _,.word file,.word _,.word exec,
      .word noTty,.word container,.word bash,.word c,.word script] =>
    if [compose,ansi,never,project,file,exec,noTty,bash,c] =
        ["docker-compose".toList,"--ansi".toList,"never".toList,"--project-directory".toList,
          "--file".toList,"exec".toList,"-T".toList,"bash".toList,"-c".toList] then
      some (container,script)
    else none
  | _ => none

/-- A command line `cat file | docker-compose … bash -c …` on the host. -/
def hostRun (host inner : Shell) (name content text : Text) : Option Run := do
  let l ← tokens host text
  let (words,rest) ← pipeline l
  if words = ["cat".toList,name] then
    let (container,script) ← composeExec rest
    let command ← tokens inner script
    some ⟨container,content.map .char,command⟩
  else none

theorem nodeRun_eq_some {node : Shell} {session text : Text} {r : Run} :
    nodeRun node session text = some r ↔ ∃ l args rest, tokens node text = some l ∧
      pipeline (splitGuard l).2 = some ("echo".toList :: args,rest) ∧
      r = ⟨session,echo args,(splitGuard l).1 ++ rest⟩ := by
  constructor
  · intro h
    obtain ⟨l,hl,h⟩ := Option.bind_eq_some_iff.1 h
    obtain ⟨⟨words,rest⟩,hp,h⟩ := Option.bind_eq_some_iff.1 h
    cases words with
    | nil => cases h
    | cons program args =>
      simp only at h
      split_ifs at h with hprogram
      cases h
      exact ⟨l,args,rest,hl,hprogram ▸ hp,rfl⟩
  · rintro ⟨l,args,rest,hl,hp,rfl⟩
    unfold nodeRun
    rw [hl]
    refine Option.bind_eq_some_iff.2 ⟨l,rfl,?_⟩
    rw [hp]
    exact Option.bind_eq_some_iff.2 ⟨_,rfl,if_pos rfl⟩

theorem hostRun_eq_some {host inner : Shell} {name content text : Text} {r : Run} :
    hostRun host inner name content text = some r ↔ ∃ l rest container script command,
      tokens host text = some l ∧ pipeline l = some (["cat".toList,name],rest) ∧
      composeExec rest = some (container,script) ∧ tokens inner script = some command ∧
      r = ⟨container,content.map .char,command⟩ := by
  constructor
  · intro h
    obtain ⟨l,hl,h⟩ := Option.bind_eq_some_iff.1 h
    obtain ⟨⟨words,rest⟩,hp,h⟩ := Option.bind_eq_some_iff.1 h
    simp only at h
    split_ifs at h with hwords
    obtain ⟨⟨container,script⟩,hc,h⟩ := Option.bind_eq_some_iff.1 h
    obtain ⟨command,hcommand,h⟩ := Option.bind_eq_some_iff.1 h
    cases h
    exact ⟨l,rest,container,script,command,hl,hwords ▸ hp,hc,hcommand,rfl⟩
  · rintro ⟨l,rest,container,script,command,hl,hp,hc,hcommand,rfl⟩
    refine Option.bind_eq_some_iff.2 ⟨l,hl,?_⟩
    refine Option.bind_eq_some_iff.2 ⟨_,hp,?_⟩
    simp only [if_true]
    refine Option.bind_eq_some_iff.2 ⟨_,hc,?_⟩
    exact Option.bind_eq_some_iff.2 ⟨_,hcommand,rfl⟩

/-- The run of a shell call; `inner` is the shell that `bash -c` starts. -/
def Command.run (node host inner : Shell) (c : Command) : Option Run :=
  match c.session,c.file with
  | some session,none => nodeRun node session c.text
  | none,some (name,content) => hostRun host inner name content c.text
  | _,_ => none

def fileBranch (n : Node) (sql : Text) (o : CommandOptions) (queryName : Text) : Command :=
  ⟨none,some (queryName,sql),fileCommand n o queryName⟩

def shortBranch (n : Node) (sql : Text) (o : CommandOptions) : Command :=
  ⟨some n.name,none,shortCommand n sql o⟩

theorem queryCommand_eq_branch (n : Node) (sql : Text) (o : CommandOptions) (queryName : Text) :
    queryCommand n sql o queryName =
      if usesFile sql o then fileBranch n sql o queryName else shortBranch n sql o := rfl

/-- Both calls feed the client the same statement, which `echo` ends with a newline, and run the
same command in the same container. -/
def Agree (node host inner : Shell) (short file : Command) : Prop :=
  ∃ r s, short.run node host inner = some r ∧ file.run node host inner = some s ∧
    r.container = s.container ∧ r.input = s.input ++ [.char '\n'] ∧ r.command = s.command

/-- `docker_compose` of the cluster, with the project directory and file. -/
def composeCommand (directory file : Text) : Text :=
  "docker-compose --ansi never --project-directory \"".toList ++ directory ++ "\" --file \"".toList ++
    file ++ "\"".toList

/-- The subshell around a pipeline whose output is processed. -/
def guardText (o : CommandOptions) : Text :=
  if truncates o || o.hashOutput then "(set -o pipefail && ".toList else []

/-- What follows the client call, without `file_output`. -/
def routing (o : CommandOptions) : Text :=
  if truncates o then " 2>&1 | head -c ".toList ++ o.maxQueryOutputInBytes ++ ")".toList
  else if o.hashOutput then " 2>&1 | sha512sum)".toList
  else " 2>&1".toList

/-- A setting without the quotes around its value. -/
def bareSetting (s : Setting) : Text := " --".toList ++ s.1 ++ " ".toList ++ s.2

theorem bareSetting_eq (s : Setting) : bareSetting s = " --".toList ++ (s.1 ++ ' ' :: s.2) := by
  show " --".toList ++ s.1 ++ " ".toList ++ s.2 = _
  simp

def bareOptions (settings : List Setting) : Text := (settings.map bareSetting).flatten

/-- The client call without the quotes around the values. -/
def bareCall (n : Node) (o : CommandOptions) : Text :=
  client o.secure ++ bareOptions (querySettings n o.settings o.queryId)

/-- The option of a setting, before its value. -/
def optionWord (s : Setting) : Text := "--".toList ++ s.1

/-- The values stand outside quotes in one word, after its letters so far in reverse, and bash leaves each
of them as it is. -/
def joined : Text → List Setting → Bool
  | _,[] => true
  | w,s :: settings =>
    let before := (" --".toList ++ s.1 ++ " ".toList).reverse ++ w
    wordChars before s.2 && joined (s.2.reverse ++ before) settings

/-- What stands in double quotes for itself does so, and the call of the client is the same with the
quotes around the values and without them, for bash to read; for the host the script is one word. -/
structure PlainCall (n : Node) (o : CommandOptions) (queryName : Text) : Prop where
  compose : ∃ directory file, DoubleLiteral directory ∧ DoubleLiteral file ∧
    n.dockerCompose = composeCommand directory file
  name : PlainWord n.name
  queryName : DoubleLiteral queryName
  settings : ∀ s ∈ querySettings n o.settings o.queryId, Unquoted s.1 ∧ PlainWord s.2
  joined : joined (guardText o ++ client o.secure).reverse (querySettings n o.settings o.queryId) = true
  bytes : truncates o = true → Unquoted o.maxQueryOutputInBytes
  readable : (tokens emptyShell (bareCall n o ++ routing o)).isSome

theorem shortCommand_eq (n : Node) (sql : Text) {o : CommandOptions} (h : o.pipeCmd = "echo -e".toList) :
    shortCommand n sql o = guardText o ++ (echoPipe sql ++ (clientCall n o ++ routing o)) := by
  have hecho : "echo -e".toList ++ " \"".toList = "echo -e \"".toList := by decide
  unfold shortCommand guardText routing echoPipe
  rw [h,← hecho]
  split_ifs <;> simp_all [List.append_assoc]

theorem fileScript_eq (n : Node) {o : CommandOptions}
    (h : truncates o = true ∨ o.hashOutput = true ∨ Text.truthy o.fileOutput = false) :
    fileScript n o = guardText o ++ (clientCall n o ++ routing o) := by
  unfold fileScript guardText routing
  split_ifs <;> simp_all [List.append_assoc]

/-- Reading one setting: the last word is complete, the name is the next and the value is being
read. -/
def readSetting (p : List Token × Text) (s : Setting) : List Token × Text :=
  (.word ("--".toList ++ s.1) :: .word p.2.reverse :: p.1,s.2.reverse)

section
variable (sh : Shell) (acc : List Token) (w rest : Text) {s : Setting}

theorem lex_settingArg (hname : PlainWord (optionWord s)) (hvalue : DoubleLiteral s.2) :
    lex sh acc (.plain (.word w)) 0 (settingArg s ++ rest) =
      lex sh (readSetting (acc,w) s).1 (.plain (.word (readSetting (acc,w) s).2)) 0 rest := by
  have htext : settingArg s ++ rest = " --".toList ++ (s.1 ++ ' ' :: '"' :: (s.2 ++ '"' :: rest)) := by
    simp [settingArg_eq]
  have hdash : ∀ t, lex sh acc (.plain (.word w)) 0 (" --".toList ++ t) =
      lex sh (.word w.reverse :: acc) (.plain (.word ['-','-'])) 0 t := by
    intro t
    simp only [String.reduceToList]
    rfl
  have hword : "--".toList ++ s.1 = (s.1.reverse ++ ['-','-']).reverse := by simp
  have hchars : wordChars ['-','-'] s.1 = true := hname.2
  rw [htext,hdash,lex_wordChars sh _ _ hchars]
  refine (lex_doubleLiteral sh (.word (s.1.reverse ++ ['-','-']).reverse :: .word w.reverse :: acc) []
    hvalue rest).trans ?_
  rw [List.append_nil,← hword]
  rfl

/-- Outside quotes a plain value is read alike with its quotes and without them. -/
theorem lex_settingArg_congr (hname : Unquoted s.1) (hvalue : PlainWord s.2) {rest' : Text}
    (hrest : ∀ acc w, lex sh acc (.plain (.word w)) 0 rest = lex sh acc (.plain (.word w)) 0 rest')
    (hhead : rest'.head?.any isRedirection = false) :
    lex sh acc (.plain (.word w)) 0 (settingArg s ++ rest) =
      lex sh acc (.plain (.word w)) 0 (bareSetting s ++ rest') := by
  have htext : settingArg s ++ rest = (" --".toList ++ s.1) ++ ' ' :: '"' :: (s.2 ++ '"' :: rest) := by
    simp [settingArg_eq]
  have hbare : bareSetting s ++ rest' = (" --".toList ++ s.1) ++ ' ' :: (s.2 ++ rest') := by
    simp [bareSetting_eq]
  have hopen : Unquoted (" --".toList ++ s.1) := (unquoted_of_all (by decide)).append hname
  rw [htext,hbare]
  refine lex_blank_congr sh hopen (fun acc => ?_) acc _
  rw [lex_plainWord sh acc hvalue hhead,← hrest]
  refine (lex_doubleLiteral sh acc [] hvalue.doubleLiteral rest).trans ?_
  rw [List.append_nil]

/-- Inside the script of `bash -c` the quotes of a setting are lost. -/
theorem lex_double_settingArg (hname : Unquoted s.1)
    (hvalue : wordChars ((" --".toList ++ s.1 ++ " ".toList).reverse ++ w) s.2 = true) :
    lex sh acc (.double w) 0 (settingArg s ++ rest) =
      lex sh acc (.double ((bareSetting s).reverse ++ w)) 0 rest := by
  have hdouble : ∀ c ∈ " --".toList ++ s.1 ++ " ".toList, doubleChar c = true :=
    (((unquoted_of_all (by decide)).append hname).append (unquoted_of_all (by decide))).doubleChars
  have htext : settingArg s ++ rest =
      (" --".toList ++ s.1 ++ " ".toList) ++ '"' :: (s.2 ++ '"' :: rest) := by
    simp [settingArg_eq]
  rw [htext,lex_doubleChars sh acc w hdouble]
  refine (lex_wordChars sh acc _ hvalue _).trans ?_
  have hbare : (bareSetting s).reverse ++ w =
      s.2.reverse ++ ((" --".toList ++ s.1 ++ " ".toList).reverse ++ w) := by
    simp [bareSetting_eq]
  rw [hbare]
  rfl

end

theorem bareOptions_head {settings : List Setting} {rest : Text}
    (hrest : rest.head?.any isRedirection = false) :
    (bareOptions settings ++ rest).head?.any isRedirection = false := by
  cases settings with
  | nil => exact hrest
  | cons s settings => simp [bareOptions,bareSetting_eq,isRedirection]

theorem lex_clientOptions (sh : Shell) {settings : List Setting}
    (hplain : ∀ s ∈ settings, PlainWord (optionWord s) ∧ DoubleLiteral s.2) (acc : List Token)
    (w rest : Text) :
    lex sh acc (.plain (.word w)) 0 (clientOptions settings ++ rest) =
      lex sh (settings.foldl readSetting (acc,w)).1
        (.plain (.word (settings.foldl readSetting (acc,w)).2)) 0 rest := by
  rw [clientOptions_eq_flatten]
  induction settings generalizing acc w with
  | nil => rfl
  | cons s settings ih =>
    obtain ⟨hname,hvalue⟩ := hplain s List.mem_cons_self
    rw [List.map_cons,List.flatten_cons,List.append_assoc,lex_settingArg sh acc w _ hname hvalue,
      ih fun s' hs' => hplain s' (List.mem_cons_of_mem s hs')]
    rfl

section
variable (sh : Shell) {settings : List Setting}
  (hplain : ∀ s ∈ settings, Unquoted s.1 ∧ PlainWord s.2)
include hplain

theorem lex_clientOptions_bare {rest : Text} (hrest : rest.head?.any isRedirection = false)
    (acc : List Token) (w : Text) :
    lex sh acc (.plain (.word w)) 0 (clientOptions settings ++ rest) =
      lex sh acc (.plain (.word w)) 0 (bareOptions settings ++ rest) := by
  rw [clientOptions_eq_flatten]
  induction settings generalizing acc w with
  | nil => rfl
  | cons s settings ih =>
    obtain ⟨hname,hvalue⟩ := hplain s List.mem_cons_self
    have htail := ih fun s' hs' => hplain s' (List.mem_cons_of_mem s hs')
    have hhead : (bareOptions settings ++ rest).head?.any isRedirection = false := bareOptions_head hrest
    unfold bareOptions at htail hhead ⊢
    rw [List.map_cons,List.flatten_cons,List.append_assoc,List.map_cons,List.flatten_cons,
      List.append_assoc]
    exact lex_settingArg_congr sh acc w _ hname hvalue htail hhead

theorem unquoted_bareOptions : Unquoted (bareOptions settings) := by
  unfold bareOptions
  induction settings with
  | nil => exact fun c hc => absurd hc List.not_mem_nil
  | cons s settings ih =>
    obtain ⟨hname,hvalue⟩ := hplain s List.mem_cons_self
    rw [List.map_cons,List.flatten_cons]
    exact ((((unquoted_of_all (by decide)).append hname).append (unquoted_of_all (by decide))).append
      hvalue.unquoted).append (ih fun s' hs' => hplain s' (List.mem_cons_of_mem s hs'))

end

theorem lex_double_clientOptions (sh : Shell) {settings : List Setting}
    (hnames : ∀ s ∈ settings, Unquoted s.1) (acc : List Token) {w : Text} (hjoined : joined w settings = true)
    (rest : Text) :
    lex sh acc (.double w) 0 (clientOptions settings ++ rest) =
      lex sh acc (.double ((bareOptions settings).reverse ++ w)) 0 rest := by
  rw [clientOptions_eq_flatten]
  unfold bareOptions
  induction settings generalizing w with
  | nil => rfl
  | cons s settings ih =>
    rw [joined,Bool.and_eq_true] at hjoined
    obtain ⟨hvalue,htail⟩ := hjoined
    have hbare : s.2.reverse ++ ((" --".toList ++ s.1 ++ " ".toList).reverse ++ w) =
        (bareSetting s).reverse ++ w := by
      simp [bareSetting_eq]
    rw [hbare] at htail
    rw [List.map_cons,List.flatten_cons,List.append_assoc,
      lex_double_settingArg sh acc w _ (hnames s List.mem_cons_self) hvalue,
      ih (fun s' hs' => hnames s' (List.mem_cons_of_mem s hs')) htail,List.map_cons,List.flatten_cons,
      List.reverse_append,List.append_assoc]

/-- The lexer after `clickhouse client -n`, perhaps with `-s`. -/
def clientRead (secure : Bool) (acc : List Token) : List Token × Text :=
  if secure then
    (.word "-n".toList :: .word "client".toList :: .word "clickhouse".toList :: acc,['s','-'])
  else (.word "client".toList :: .word "clickhouse".toList :: acc,['n','-'])

theorem lex_client (sh : Shell) (acc : List Token) (secure : Bool) (rest : Text) :
    lex sh acc (.plain .none) 0 (client secure ++ rest) =
      lex sh (clientRead secure acc).1 (.plain (.word (clientRead secure acc).2)) 0 rest := by
  have hclient : ∀ rest, lex sh acc (.plain .none) 0 ("clickhouse client -n".toList ++ rest) =
      lex sh (clientRead false acc).1 (.plain (.word (clientRead false acc).2)) 0 rest := by
    intro rest
    unfold clientRead
    rw [if_neg Bool.false_ne_true]
    simp only [String.reduceToList]
    rfl
  unfold client
  rw [List.append_assoc,hclient]
  cases secure with
  | false => rfl
  | true =>
    unfold clientRead
    rw [if_neg Bool.false_ne_true,if_pos rfl,if_pos rfl]
    simp only [String.reduceToList]
    rfl

end ClickHouseRegression.Cluster
