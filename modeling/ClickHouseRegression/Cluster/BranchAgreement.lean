import ClickHouseRegression.Cluster.Branches

/-! The two branches of `ClickHouseNode.query` agree exactly on statements that are literal for the
double quotes and for `echo -e`, and only without a `file_output` that the file branch obeys. -/
namespace ClickHouseRegression.Cluster
open Bash

/-- The tokens of the client call and of what follows it. -/
def callTokens (n : Node) (o : CommandOptions) : List Token :=
  (tokens emptyShell (bareCall n o ++ routing o)).getD []

def guardOf (o : CommandOptions) : List Token :=
  if truncates o || o.hashOutput then guardTokens else []

theorem unquoted_client (secure : Bool) : Unquoted (client secure) := by
  cases secure
  · exact unquoted_of_all (by rfl)
  · exact unquoted_of_all (by rfl)

theorem unquoted_routing {o : CommandOptions}
    (hbytes : truncates o = true → Unquoted o.maxQueryOutputInBytes) : Unquoted (routing o) := by
  unfold routing
  split_ifs with htrunc hhash
  · exact ((unquoted_of_all (by rfl)).append (hbytes htrunc)).append (unquoted_of_all (by rfl))
  · exact unquoted_of_all (by rfl)
  · exact unquoted_of_all (by rfl)

theorem routing_head (o : CommandOptions) : (routing o).head?.any isRedirection = false := by
  unfold routing
  split_ifs <;> simp [isRedirection]

section
variable {n : Node} {o : CommandOptions} {queryName : Text} (hplain : PlainCall n o queryName)
include hplain

theorem lex_bareCall (sh : Shell) :
    lex sh [] (.plain .none) 0 (bareCall n o ++ routing o) = some (callTokens n o) := by
  have hopen : Unquoted (bareCall n o ++ routing o) :=
    ((unquoted_client o.secure).append (unquoted_bareOptions hplain.settings)).append
      (unquoted_routing hplain.bytes)
  rw [lex_shell sh emptyShell hopen]
  obtain ⟨l,hl⟩ := Option.isSome_iff_exists.1 hplain.readable
  unfold callTokens
  rw [hl]
  exact hl

theorem lex_call (sh : Shell) :
    lex sh [] (.plain .none) 0 (clientCall n o ++ routing o) = some (callTokens n o) := by
  rw [← lex_bareCall hplain sh]
  unfold clientCall bareCall
  rw [List.append_assoc,lex_client,lex_clientOptions_bare sh hplain.settings (routing_head o),
    List.append_assoc,lex_client]

end

theorem lex_guard (sh : Shell) (rest : Text) :
    lex sh [] (.plain .none) 0 ("(set -o pipefail && ".toList ++ rest) =
      (lex sh [] (.plain .none) 0 rest).map (guardTokens ++ ·) := by
  have hguard : lex sh [] (.plain .none) 0 ("(set -o pipefail && ".toList ++ rest) =
      lex sh guardTokens.reverse (.plain .none) 0 rest := by
    unfold guardTokens
    simp only [String.reduceToList]
    rfl
  rw [hguard,lex_acc,List.reverse_reverse]

theorem lex_guardText (sh : Shell) (o : CommandOptions) (rest : Text) :
    lex sh [] (.plain .none) 0 (guardText o ++ rest) =
      (lex sh [] (.plain .none) 0 rest).map (guardOf o ++ ·) := by
  unfold guardText guardOf
  split_ifs
  · exact lex_guard sh rest
  · rw [List.nil_append]
    cases lex sh [] (.plain .none) 0 rest <;> rfl

theorem splitGuard_guardOf (o : CommandOptions) (w : Text) (l : List Token) :
    splitGuard (guardOf o ++ .word w :: l) = (guardOf o,.word w :: l) := by
  unfold splitGuard guardOf
  split_ifs with hguard hprefix hprefix
  · rw [List.drop_left]
  · exact absurd (List.prefix_append _ _) hprefix
  · exfalso
    obtain ⟨l',hl'⟩ := hprefix
    simp [guardTokens] at hl'
  · rfl

/-- The double-quoted script reaches `bash -c` without the quotes of the settings. -/
theorem lex_double_script (sh : Shell) {settings : List Setting} (hnames : ∀ s ∈ settings, Unquoted s.1)
    {guard routing : Text} {secure : Bool} (hjoined : joined (guard ++ client secure).reverse settings = true)
    (hguard : Unquoted guard) (hrouting : ∀ c ∈ routing, doubleChar c = true) (acc : List Token) :
    lex sh acc (.double []) 0
        (guard ++ (client secure ++ (clientOptions settings ++ (routing ++ ['"'])))) =
      lex sh acc (.plain (.word (guard ++ (client secure ++ (bareOptions settings ++ routing))).reverse))
        0 [] := by
  have hstart : (client secure).reverse ++ (guard.reverse ++ []) = (guard ++ client secure).reverse := by simp
  rw [lex_doubleChars sh acc _ hguard.doubleChars,
    lex_doubleChars sh acc _ (unquoted_client secure).doubleChars,hstart,
    lex_double_clientOptions sh hnames acc hjoined,lex_doubleChars sh acc _ hrouting]
  have hword : (guard ++ (client secure ++ (bareOptions settings ++ routing))).reverse =
      routing.reverse ++ ((bareOptions settings).reverse ++ (guard ++ client secure).reverse) := by
    simp
  rw [hword]
  rfl

theorem unquoted_guardText (o : CommandOptions) : Unquoted (guardText o) := by
  unfold guardText
  split_ifs
  · exact unquoted_of_all (by rfl)
  · exact unquoted_of_all (by rfl)

/-- The words of `docker-compose … exec -T …`. -/
def execWords (directory file name : Text) : List Text :=
  ["docker-compose".toList,"--ansi".toList,"never".toList,"--project-directory".toList,directory,
    "--file".toList,file,"exec".toList,"-T".toList,name]

/-- The tokens of the host's command line after the pipe, before the script. -/
def composeTokens (directory file name : Text) : List Token :=
  [.word "docker-compose".toList,.word "--ansi".toList,.word "never".toList,
    .word "--project-directory".toList,.word directory,.word "--file".toList,.word file,
    .word "exec".toList,.word "-T".toList,.word name,.word "bash".toList,.word "-c".toList]

theorem composeTokens_eq (directory file name : Text) : composeTokens directory file name =
    (execWords directory file name ++ ["bash".toList,"-c".toList]).map .word := rfl

theorem composeExec_composeTokens (directory file name script : Text) :
    composeExec (composeTokens directory file name ++ [.word script]) = some (name,script) := by
  simp [composeTokens,composeExec]

theorem eq_nil_of_composeExec {directory file name x : Text} {more : List Token} {p : Text × Text}
    (h : composeExec (composeTokens directory file name ++ .word x :: more) = some p) : more = [] := by
  cases more with
  | nil => rfl
  | cons t more => cases h

/-- All tokens of the host's command line before the script. -/
def execTokens (directory file name queryName : Text) : List Token :=
  ["cat".toList,queryName].map .word ++ .op ['|'] :: composeTokens directory file name

theorem pipeline_execTokens (directory file name queryName : Text) (l : List Token) :
    pipeline (execTokens directory file name queryName ++ l) =
      some (["cat".toList,queryName],composeTokens directory file name ++ l) := by
  unfold execTokens
  rw [List.append_assoc,List.cons_append]
  exact pipeline_words _ _

theorem lex_exec (sh : Shell) (acc : List Token) {n : Node} {directory file : Text}
    (hcompose : n.dockerCompose = composeCommand directory file) (hdirectory : DoubleLiteral directory)
    (hfile : DoubleLiteral file) (hname : PlainWord n.name) (rest : Text) :
    lex sh acc (.plain .none) 0 (n.dockerCompose ++ (" exec -T ".toList ++ (n.name ++ ' ' :: rest))) =
      lex sh (((execWords directory file n.name).map .word).reverse ++ acc) (.plain .none) 0 rest := by
  have htext : n.dockerCompose ++ (" exec -T ".toList ++ (n.name ++ ' ' :: rest)) =
      "docker-compose ".toList ++ ("--ansi never ".toList ++ ("--project-directory \"".toList ++
        (directory ++ '"' :: (" --file \"".toList ++ (file ++ '"' ::
          (" exec -T ".toList ++ (n.name ++ ' ' :: rest))))))) := by
    rw [hcompose]
    unfold composeCommand
    simp
  have hdocker : ∀ t, lex sh acc (.plain .none) 0 ("docker-compose ".toList ++ t) =
      lex sh (.word "docker-compose".toList :: acc) (.plain .none) 0 t := by
    intro t
    simp only [String.reduceToList]
    rfl
  have hansi : ∀ acc t, lex sh acc (.plain .none) 0 ("--ansi never ".toList ++ t) =
      lex sh (.word "never".toList :: .word "--ansi".toList :: acc) (.plain .none) 0 t := by
    intro acc t
    simp only [String.reduceToList]
    rfl
  have hproject : ∀ acc t, lex sh acc (.plain .none) 0 ("--project-directory \"".toList ++ t) =
      lex sh (.word "--project-directory".toList :: acc) (.double []) 0 t := by
    intro acc t
    simp only [String.reduceToList]
    rfl
  have hfileOption : ∀ acc w t, lex sh acc (.plain (.word w)) 0 (" --file \"".toList ++ t) =
      lex sh (.word "--file".toList :: .word w.reverse :: acc) (.double []) 0 t := by
    intro acc w t
    simp only [String.reduceToList]
    rfl
  have hexec : ∀ acc w t, lex sh acc (.plain (.word w)) 0 (" exec -T ".toList ++ t) =
      lex sh (.word "-T".toList :: .word "exec".toList :: .word w.reverse :: acc) (.plain .none) 0 t := by
    intro acc w t
    simp only [String.reduceToList]
    rfl
  have hblank : ∀ acc w, lex sh acc (.plain (.word w)) 0 (' ' :: rest) =
      lex sh (.word w.reverse :: acc) (.plain .none) 0 rest := fun _ _ => rfl
  rw [htext,hdocker,hansi,hproject,lex_doubleLiteral sh _ [] hdirectory,hfileOption,
    lex_doubleLiteral sh _ [] hfile,hexec,lex_plainWord sh _ hname (by simp [isRedirection]),hblank]
  simp [execWords]

theorem lex_cat (sh : Shell) (acc : List Token) {queryName : Text} (hquery : DoubleLiteral queryName)
    (rest : Text) :
    lex sh acc (.plain .none) 0 ("cat \"".toList ++ (queryName ++ ("\" | ".toList ++ rest))) =
      lex sh (.op ['|'] :: .word queryName :: .word "cat".toList :: acc) (.plain .none) 0 rest := by
  have hpipe : "\" | ".toList ++ rest = '"' :: ' ' :: '|' :: ' ' :: rest := by
    simp only [String.reduceToList]
    rfl
  have hcat : ∀ t, lex sh acc (.plain .none) 0 ("cat \"".toList ++ t) =
      lex sh (.word "cat".toList :: acc) (.double []) 0 t := by
    intro t
    simp only [String.reduceToList]
    rfl
  rw [hpipe,hcat,lex_doubleLiteral sh _ [] hquery,lex_pipe,List.append_nil,List.reverse_reverse]

theorem lex_fileExec (sh : Shell) {n : Node} {directory file queryName : Text}
    (hcompose : n.dockerCompose = composeCommand directory file) (hdirectory : DoubleLiteral directory)
    (hfile : DoubleLiteral file) (hname : PlainWord n.name) (hquery : DoubleLiteral queryName)
    (rest : Text) :
    lex sh [] (.plain .none) 0 (fileExec n queryName ++ rest) =
      lex sh (execTokens directory file n.name queryName).reverse (.double []) 0 rest := by
  have htext : fileExec n queryName ++ rest = "cat \"".toList ++ (queryName ++ ("\" | ".toList ++
      (n.dockerCompose ++ (" exec -T ".toList ++ (n.name ++ ' ' :: ("bash -c \"".toList ++ rest)))))) := by
    unfold fileExec
    simp
  have hbash : ∀ acc, lex sh acc (.plain .none) 0 ("bash -c \"".toList ++ rest) =
      lex sh (.word "-c".toList :: .word "bash".toList :: acc) (.double []) 0 rest := by
    intro acc
    simp only [String.reduceToList]
    rfl
  rw [htext,lex_cat sh _ hquery,lex_exec sh _ hcompose hdirectory hfile hname,hbash]
  simp [execTokens,composeTokens_eq]

/-- The branches route the output alike: `file_output` is unset, or overruled by another option. -/
def RoutesAlike (o : CommandOptions) : Prop :=
  truncates o = true ∨ o.hashOutput = true ∨ Text.truthy o.fileOutput = false

instance (o : CommandOptions) : Decidable (RoutesAlike o) := inferInstanceAs (Decidable (_ ∨ _ ∨ _))

/-- Text whose only quotes are pairs of double ones. -/
def Tame (t : Text) : Prop := (∀ c ∈ t, tameChar c = true) ∧ t.count '"' % 2 = 0

theorem Tame.append {a b : Text} (ha : Tame a) (hb : Tame b) : Tame (a ++ b) := by
  refine ⟨fun c hc => ?_,?_⟩
  · rcases List.mem_append.1 hc with hc | hc
    · exact ha.1 c hc
    · exact hb.1 c hc
  · have h1 := ha.2
    have h2 := hb.2
    rw [List.count_append]
    omega

theorem tame_of_all {t : Text} (h : t.all (fun c => tameChar c && c ≠ '"') = true) : Tame t := by
  rw [List.all_eq_true] at h
  refine ⟨fun c hc => (Bool.and_eq_true_iff.1 (h c hc)).1,?_⟩
  rw [List.count_eq_zero_of_not_mem fun hq => ?_]
  exact of_decide_eq_true (Bool.and_eq_true_iff.1 (h _ hq)).2 rfl

theorem Tame.of_unquoted {t : Text} (h : Unquoted t) : Tame t := by
  refine ⟨h.tameChars,?_⟩
  rw [h.count_quotes]

theorem Tame.quoted {t : Text} (h : Tame t) : Tame ('"' :: (t ++ ['"'])) := by
  refine ⟨fun c hc => ?_,?_⟩
  · simp only [List.mem_cons,List.mem_append,List.not_mem_nil,or_false] at hc
    rcases hc with rfl | hc | rfl
    · decide
    · exact h.1 c hc
    · decide
  · have h' := h.2
    rw [List.count_cons_self,List.count_append,List.count_singleton_self]
    omega

theorem tame_clientOptions {settings : List Setting}
    (h : ∀ s ∈ settings, Unquoted s.1 ∧ PlainWord s.2) : Tame (clientOptions settings) := by
  rw [clientOptions_eq_flatten]
  induction settings with
  | nil => exact ⟨by simp,rfl⟩
  | cons s settings ih =>
    obtain ⟨hname,hvalue⟩ := h s List.mem_cons_self
    rw [List.map_cons,List.flatten_cons]
    refine Tame.append ?_ (ih fun s' hs' => h s' (List.mem_cons_of_mem s hs'))
    have htext : settingArg s =
        " --".toList ++ s.1 ++ " ".toList ++ '"' :: (s.2 ++ ['"']) := by
      simp [settingArg_eq]
    rw [htext]
    exact (((tame_of_all (by rfl)).append (Tame.of_unquoted hname)).append
      (tame_of_all (by rfl))).append (Tame.of_unquoted hvalue.unquoted).quoted

section
variable {n : Node} {o : CommandOptions} {queryName : Text} (hplain : PlainCall n o queryName)
include hplain

theorem fileBranch_run (sql : Text) (hroute : RoutesAlike o) (node host inner : Shell) :
    (fileBranch n sql o queryName).run node host inner =
      some ⟨n.name,sql.map .char,guardOf o ++ callTokens n o⟩ := by
  obtain ⟨directory,file,hdirectory,hfile,hcompose⟩ := hplain.compose
  have htokens : tokens host (fileCommand n o queryName) = some (execTokens directory file n.name queryName ++
      [.word (guardText o ++ (bareCall n o ++ routing o))]) := by
    have htext : fileCommand n o queryName = fileExec n queryName ++ (guardText o ++ (client o.secure ++
        (clientOptions (querySettings n o.settings o.queryId) ++ (routing o ++ ['"'])))) := by
      have hquote : "\"".toList = ['"'] := by decide
      unfold fileCommand
      rw [fileScript_eq n hroute,hquote]
      simp [clientCall]
    have hbare : bareCall n o ++ routing o = client o.secure ++
        (bareOptions (querySettings n o.settings o.queryId) ++ routing o) := List.append_assoc _ _ _
    unfold tokens
    rw [htext,lex_fileExec host hcompose hdirectory hfile hplain.name hplain.queryName,
      lex_double_script host (fun s hs => (hplain.settings s hs).1) hplain.joined (unquoted_guardText o)
        (unquoted_routing hplain.bytes).doubleChars,hbare]
    simp [lex,Current.flush]
  have hscript : tokens inner (guardText o ++ (bareCall n o ++ routing o)) =
      some (guardOf o ++ callTokens n o) := by
    unfold tokens
    rw [lex_guardText,lex_bareCall hplain]
    rfl
  exact hostRun_eq_some.2 ⟨_,_,_,_,_,htokens,pipeline_execTokens _ _ _ _ _,
    composeExec_composeTokens _ _ _ _,hscript,rfl⟩

theorem lex_short (node : Shell) (sql : Text) (hpipe : o.pipeCmd = "echo -e".toList)
    (hsql : DoubleLiteral sql) :
    tokens node (shortCommand n sql o) = some (guardOf o ++ ([.word "echo".toList,.word "-e".toList,
      .word sql,.op ['|']] ++ callTokens n o)) := by
  unfold tokens
  rw [shortCommand_eq n sql hpipe,lex_guardText,lex_echoPipe node [] hsql,lex_acc,lex_call hplain]
  rfl

theorem shortBranch_run (sql : Text) (hpipe : o.pipeCmd = "echo -e".toList) (hsql : EchoLiteral sql)
    (node host inner : Shell) :
    (shortBranch n sql o).run node host inner =
      some ⟨n.name,(sql ++ ['\n']).map .char,guardOf o ++ callTokens n o⟩ := by
  obtain ⟨hdouble,hoption,hescape⟩ := hsql
  refine nodeRun_eq_some.2 ⟨_,["-e".toList,sql],callTokens n o,lex_short hplain node sql hpipe hdouble,?_,?_⟩
  · rw [List.cons_append,splitGuard_guardOf]
    exact pipeline_words ["echo".toList,"-e".toList,sql] _
  · rw [List.cons_append,splitGuard_guardOf,echo_of_literal hoption hescape]

theorem call_tame : (∀ c ∈ clientCall n o ++ routing o, tameChar c = true) ∧
    (clientCall n o ++ routing o).count '"' % 2 = 0 := by
  have htame : Tame (clientCall n o ++ routing o) :=
    ((Tame.of_unquoted (unquoted_client o.secure)).append (tame_clientOptions hplain.settings)).append
      (Tame.of_unquoted (unquoted_routing hplain.bytes))
  exact htame

theorem callTokens_head : ∃ more, callTokens n o = .word "clickhouse".toList :: more := by
  have hcall := lex_call hplain emptyShell
  unfold clientCall at hcall
  rw [List.append_assoc,lex_client,lex_acc] at hcall
  obtain ⟨l,-,hl⟩ := Option.map_eq_some_iff.1 hcall
  rw [← hl]
  unfold clientRead
  split_ifs
  · exact ⟨_,rfl⟩
  · exact ⟨_,rfl⟩

/-- A statement that both branches deliver in an empty shell is literal. -/
theorem echoLiteral_of_agree {sql : Text} (hpipe : o.pipeCmd = "echo -e".toList) {host inner : Shell}
    (h : Agree emptyShell host inner (shortBranch n sql o) (fileBranch n sql o queryName)) :
    EchoLiteral sql := by
  obtain ⟨r,s,hr,hs,-,hinput,-⟩ := h
  obtain ⟨_,_,_,_,_,_,_,_,_,rfl⟩ := hostRun_eq_some.1 hs
  obtain ⟨l,args,rest,hl,hp,rfl⟩ := nodeRun_eq_some.1 hr
  replace hl : lex emptyShell [] (.plain .none) 0 (shortCommand n sql o) = some l := hl
  rw [shortCommand_eq n sql hpipe,lex_guardText] at hl
  obtain ⟨l',hl',rfl⟩ := Option.map_eq_some_iff.1 hl
  -- the tokens begin with `echo`, so the guard is split off again
  obtain ⟨more,rfl⟩ : ∃ more, l' = .word "echo".toList :: more := by
    rw [lex_echoPipe_start,lex_acc] at hl'
    obtain ⟨l₂,-,rfl⟩ := Option.map_eq_some_iff.1 hl'
    exact ⟨_,rfl⟩
  rw [splitGuard_guardOf] at hp
  obtain ⟨htame,hquotes⟩ := call_tame hplain
  refine echoLiteral_of_pipeline htame hquotes hl' hp ?_
  rw [List.map_append]
  exact hinput

/-- With `file_output` the file branch starts with a subshell and the other branch with the
client. -/
theorem routesAlike_of_agree {sql : Text} (hpipe : o.pipeCmd = "echo -e".toList) (hsql : EchoLiteral sql)
    {node host inner : Shell}
    (h : Agree node host inner (shortBranch n sql o) (fileBranch n sql o queryName)) : RoutesAlike o := by
  by_contra hroute
  simp only [RoutesAlike,not_or,Bool.not_eq_true,Bool.not_eq_false] at hroute
  obtain ⟨htrunc,hhash,hfileOutput⟩ := hroute
  obtain ⟨r,s,hr,hs,-,-,hcommand⟩ := h
  rw [shortBranch_run hplain sql hpipe hsql] at hr
  cases hr
  obtain ⟨l,rest,container,script,command,hl,hp,hc,hscript,rfl⟩ := hostRun_eq_some.1 hs
  obtain ⟨directory,file,hdirectory,hfile,hcompose⟩ := hplain.compose
  have hguard : ∀ c ∈ "(set -o pipefail && ".toList, doubleChar c = true :=
    List.all_eq_true.1 (by rfl)
  obtain ⟨t,ht⟩ : ∃ t, fileCommand n o queryName =
      fileExec n queryName ++ ("(set -o pipefail && ".toList ++ t) := by
    refine ⟨clientCall n o ++ " 2>&1 > '".toList ++ o.fileOutput.getD [] ++ "')".toList ++ "\"".toList,?_⟩
    unfold fileCommand fileScript
    rw [htrunc,hhash,hfileOutput,if_neg Bool.false_ne_true,if_neg Bool.false_ne_true,if_pos rfl]
    simp only [List.append_assoc]
  replace hl : lex host [] (.plain .none) 0 (fileCommand n o queryName) = some l := hl
  rw [ht,lex_fileExec host hcompose hdirectory hfile hplain.name hplain.queryName,
    lex_doubleChars host _ _ hguard] at hl
  obtain ⟨x,more,rfl⟩ := lex_continues host rfl hl
  rw [List.reverse_reverse,pipeline_execTokens] at hp
  cases hp
  have hmore := eq_nil_of_composeExec hc
  rw [hmore,composeExec_composeTokens] at hc
  cases hc
  -- the script begins with the subshell, the client's command line does not
  rw [List.append_nil,List.reverse_reverse] at hscript
  replace hscript := (lex_guard inner x).symm.trans hscript
  obtain ⟨l',-,rfl⟩ := Option.map_eq_some_iff.1 hscript
  obtain ⟨more',hmore'⟩ := callTokens_head hplain
  have hnone : guardOf o = [] := by
    unfold guardOf
    rw [htrunc,hhash]
    rfl
  rw [hnone,hmore'] at hcommand
  simp [guardTokens] at hcommand

end

/-- A node of the harness. -/
def clickhouse1 : Node where
  dockerCompose := composeCommand "/my env".toList "/my env/docker-compose.yml".toList
  name := "clickhouse1".toList
  defaultQuerySettings := []

theorem clickhouse1_plainCall {o : CommandOptions} {queryName : Text}
    (hquery : DoubleLiteral queryName)
    (hsettings : ∀ s ∈ querySettings clickhouse1 o.settings o.queryId, Unquoted s.1 ∧ PlainWord s.2)
    (hjoined : joined (guardText o ++ client o.secure).reverse
      (querySettings clickhouse1 o.settings o.queryId) = true)
    (hbytes : truncates o = true → Unquoted o.maxQueryOutputInBytes)
    (hreadable : (tokens emptyShell (bareCall clickhouse1 o ++ routing o)).isSome) :
    PlainCall clickhouse1 o queryName :=
  ⟨⟨_,_,by decide +kernel,by decide +kernel,rfl⟩,by decide +kernel,hquery,hsettings,hjoined,hbytes,
    hreadable⟩

/-- Settings with values that are special at other places of a word only. -/
def commented : CommandOptions :=
  { settings := [("max_threads".toList,"1".toList),("log_comment".toList,"a#b=~{}".toList)] }

theorem commented_plainCall : PlainCall clickhouse1 commented "/tmp/query".toList := by
  refine clickhouse1_plainCall (by decide +kernel) ?_ (by decide +kernel) (fun h => absurd h (by decide))
    (by decide +kernel)
  refine List.forall_mem_cons.2 ⟨⟨unquoted_of_all (by rfl),by decide +kernel⟩,?_⟩
  refine List.forall_mem_cons.2 ⟨⟨unquoted_of_all (by rfl),by decide +kernel⟩,?_⟩
  exact fun s hs => absurd hs List.not_mem_nil

end ClickHouseRegression.Cluster
