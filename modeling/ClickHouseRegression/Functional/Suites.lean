import ClickHouseRegression.Text
import ClickHouseRegression.Text.Replace

/-! The stateless and the stateful suite of the functional tests: the names of the tests are read back
from the output of `ls`, and every scenario runs `clickhouse-test`. What `ls` prints is a parameter. -/
namespace ClickHouseRegression.Functional

/-- `{.expect,.py,.sh,.sql,.sql.j2}`. -/
inductive Ending where
  | expect | py | sh | sql | sqlJ2
  deriving DecidableEq

def Ending.text : Ending → Text
  | .expect => ".expect".toList
  | .py => ".py".toList
  | .sh => ".sh".toList
  | .sql => ".sql".toList
  | .sqlJ2 => ".sql.j2".toList

/-- A file that `*{.expect,.py,.sh,.sql,.sql.j2}` matches; a star matches no leading dot. -/
structure TestFile where
  name : Text
  noSlash : '/' ∉ name
  shown : name.head? ≠ some '.'
  ending : ∃ e : Ending, e.text <:+ name

/-- The endings for which a directory with these files has none. -/
def missing (files : List TestFile) : List Ending :=
  [.expect,.py,.sh,.sql,.sqlJ2].filter fun e => ∀ file ∈ files, ¬ e.text <:+ file.name

def statelessDir : Text := "/functional/queries/0_stateless/".toList

def statefulDir : Text := "/functional/queries/1_stateful/".toList

/-- What is relied on of the output of `ls --color=none {dir}*{.expect,.py,.sh,.sql,.sql.j2}` in a
directory with these files. The shell passes a pattern that matches nothing on to `ls`, which complains
of it and repeats it; of every file the path is printed. A terminal may get columns, quotes and other
spellings of strange names, but neither these nor the words of a complaint have a slash. -/
structure PrintsPaths (ls : Text → List TestFile → Text) : Prop where
  output : ∀ dir ∈ [statelessDir,statefulDir], ∀ files, ∃ (start : Text) (printed : List Text),
    ls dir files = start ++ (printed.map (dir ++ ·)).flatten ∧ '/' ∉ start ∧
      (∀ t ∈ printed, '/' ∉ t) ∧ printed.length = (missing files).length+files.length

/-- `output.replace("\n", "").split(dir)[1:]`. -/
def testNames (dir output : Text) : List Text :=
  (Replace.split dir (Replace.replace ['\n'] [] output)).drop 1

/-- `test.split('.')[0]`. -/
def reportName (test : Text) : Text := test.takeWhile (· ≠ '.')

/-- `/functional/clickhouse-test {test} --output /reports/{test.split('.')[0]} --shard --zookeeper`. -/
def command (test : Text) : Text :=
  "/functional/clickhouse-test ".toList ++ (test ++ (" --output /reports/".toList ++ (reportName test ++
    " --shard --zookeeper".toList)))

/-- A scenario and the command it ran, if the name `cmd` was bound. -/
structure Run where
  scenario : Text
  command : Option Text
  deriving DecidableEq

/-- The variable `cmd` and the scenarios so far. -/
structure Progress where
  cmd : Option Text
  runs : List Run

def runStateless (p : Progress) (test : Text) : Progress :=
  let cmd := some (command test)
  ⟨cmd,p.runs ++ [⟨test,cmd⟩]⟩

def runStateful (p : Progress) (test : Text) : Progress := ⟨p.cmd,p.runs ++ [⟨test,p.cmd⟩]⟩

/-- The scenarios of the first suite, and those of the second one. -/
def regression (statelessOutput statefulOutput : Text) : List Run × List Run :=
  let first := (testNames statelessDir statelessOutput).foldl runStateless ⟨none,[]⟩
  let second := (testNames statefulDir statefulOutput).foldl runStateful ⟨first.cmd,[]⟩
  (first.runs,second.runs)

theorem removeNewlines (t : Text) : Replace.replace ['\n'] [] t = t.filter (· ≠ '\n') := by
  have hsep : (['\n'] : Text) ≠ [] := by decide
  induction t with
  | nil => exact Replace.replace_nil hsep []
  | cons c t ih =>
    by_cases hc : c = '\n'
    · have hkey := Replace.replace_key hsep [] t
      rw [List.singleton_append,List.nil_append] at hkey
      rw [hc,hkey,ih,List.filter_cons_of_neg (by simp)]
    · have hpass := Replace.replace_passes (u := [c]) (t := t) hsep []
        (Replace.not_begins_of_notMem (by simpa using fun h => hc h.symm))
      rw [List.singleton_append,List.singleton_append] at hpass
      rw [hpass,ih,List.filter_cons_of_pos (by simpa using hc)]

section
variable {dir rest : Text}

/-- Texts without a slash are separated by the directory. -/
theorem split_printed (hdir : dir = '/' :: rest) {start : Text} {printed : List Text}
    (hstart : '/' ∉ start) (h : ∀ t ∈ printed, '/' ∉ t) :
    Replace.split dir (start ++ (printed.map (dir ++ ·)).flatten) = start :: printed := by
  have hne : dir ≠ [] := by
    rw [hdir]
    exact List.cons_ne_nil _ _
  have hpass : ¬ Replace.Begins dir start (printed.map (dir ++ ·)).flatten := by
    rw [hdir]
    exact Replace.not_begins_of_notMem hstart
  rw [Replace.split_passes hpass]
  induction printed generalizing start with
  | nil =>
    rw [List.map_nil,List.flatten_nil]
    change [start ++ []] = _
    rw [List.append_nil]
  | cons t printed ih =>
    have ht : '/' ∉ t := h t List.mem_cons_self
    have hpasst : ¬ Replace.Begins dir t (printed.map (dir ++ ·)).flatten := by
      rw [hdir]
      exact Replace.not_begins_of_notMem ht
    rw [List.map_cons,List.flatten_cons,List.append_assoc,Replace.split_key hne,
      Replace.split_passes hpasst,ih ht (fun u hu => h u (List.mem_cons_of_mem t hu)) hpasst,
      List.modifyHead_cons,List.append_nil]

/-- The names are what stands behind the paths of the directory, without newlines. -/
theorem testNames_printed (hdir : dir = '/' :: rest) (hline : '\n' ∉ dir) {start : Text}
    {printed : List Text} (hstart : '/' ∉ start) (h : ∀ t ∈ printed, '/' ∉ t) :
    testNames dir (start ++ (printed.map (dir ++ ·)).flatten) =
      printed.map (·.filter (· ≠ '\n')) := by
  have hdirFilter : dir.filter (· ≠ '\n') = dir := by
    rw [List.filter_eq_self]
    intro c hc
    exact decide_eq_true fun h => hline (h ▸ hc)
  have hprinted : (start ++ (printed.map (dir ++ ·)).flatten).filter (· ≠ '\n') =
      start.filter (· ≠ '\n') ++
        ((printed.map (·.filter (· ≠ '\n'))).map (dir ++ ·)).flatten := by
    rw [List.filter_append,List.filter_flatten,List.map_map,List.map_map]
    congr 2
    apply List.map_congr_left
    intro t _
    simp only [Function.comp_apply,List.filter_append,hdirFilter]
  rw [testNames,removeNewlines,hprinted,split_printed hdir]
  · rfl
  · exact fun hmem => hstart (List.mem_filter.1 hmem).1
  · intro u hu
    obtain ⟨t,ht,rfl⟩ := List.mem_map.1 hu
    exact fun hmem => h t ht (List.mem_filter.1 hmem).1

end

theorem foldl_runStateless (tests : List Text) (p : Progress) :
    tests.foldl runStateless p =
      ⟨(tests.getLast?.map command).or p.cmd,p.runs ++ tests.map fun t => ⟨t,some (command t)⟩⟩ := by
  induction tests generalizing p with
  | nil => simp
  | cons test tests ih =>
    rw [List.foldl_cons,ih,runStateless,List.map_cons]
    cases tests with
    | nil => simp
    | cons test' tests =>
      rw [List.getLast?_cons_cons,List.getLast?_eq_some_getLast (List.cons_ne_nil test' tests),
        List.append_assoc]
      rfl

theorem foldl_runStateful (tests : List Text) (p : Progress) :
    tests.foldl runStateful p = ⟨p.cmd,p.runs ++ tests.map fun t => ⟨t,p.cmd⟩⟩ := by
  induction tests generalizing p with
  | nil => simp
  | cons test tests ih => rw [List.foldl_cons,ih,runStateful,List.map_cons,List.append_assoc]; rfl

/-- The scenarios of the second suite run the command that the loop of the first one left behind. -/
theorem regression_eq (statelessOutput statefulOutput : Text) :
    regression statelessOutput statefulOutput =
      ((testNames statelessDir statelessOutput).map fun t => ⟨t,some (command t)⟩,
        (testNames statefulDir statefulOutput).map fun t =>
          ⟨t,(testNames statelessDir statelessOutput).getLast?.map command⟩) := by
  simp only [regression,foldl_runStateless,foldl_runStateful,Option.or_none,List.nil_append]

theorem reportName_length_le (a b : Text) : (reportName a).length ≤ (reportName (a ++ b)).length := by
  induction a with
  | nil => exact Nat.zero_le _
  | cons c a ih =>
    unfold reportName at ih ⊢
    rw [List.cons_append,List.takeWhile_cons,List.takeWhile_cons]
    split
    · exact Nat.succ_le_succ ih
    · exact le_rfl

theorem command_length : ∃ k, ∀ test, (command test).length = test.length+(reportName test).length+k := by
  refine ⟨"/functional/clickhouse-test ".toList.length+" --output /reports/".toList.length+
    " --shard --zookeeper".toList.length,?_⟩
  intro test
  change (_ ++ (test ++ (_ ++ (reportName test ++ _)))).length = _
  rw [List.length_append,List.length_append,List.length_append,List.length_append]
  ring

theorem command_injective : Function.Injective command := by
  obtain ⟨k,hk⟩ := command_length
  have hstart : ∀ a u : Text, command a = command (a ++ u) → u = [] := by
    intro a u h
    have hlength := congrArg List.length h
    have hreport := reportName_length_le a u
    rw [hk,hk,List.length_append] at hlength
    exact List.eq_nil_of_length_eq_zero (by omega)
  intro a b h
  have hbody := List.append_cancel_left h
  rcases List.append_eq_append_iff.1 hbody with ⟨u,hu,-⟩ | ⟨u,hu,-⟩
  · rw [hu] at h ⊢
    rw [hstart a u h,List.append_nil]
  · rw [hu] at h ⊢
    rw [hstart b u h.symm,List.append_nil]

section
variable (ls : Text → List TestFile → Text) (stateless stateful : List TestFile)

def scenarios : List Run × List Run := regression (ls statelessDir stateless) (ls statefulDir stateful)

/-- The names are those of the files, and every scenario runs the command of its own test. -/
structure RunsItsTests : Prop where
  statelessNames : testNames statelessDir (ls statelessDir stateless) = stateless.map (·.name)
  statefulNames : testNames statefulDir (ls statefulDir stateful) = stateful.map (·.name)
  statelessCommands : ∀ run ∈ (scenarios ls stateless stateful).1,
    run.command = some (command run.scenario)
  statefulCommands : ∀ run ∈ (scenarios ls stateless stateful).2,
    run.command = some (command run.scenario)

variable {ls stateless stateful}

/-- A complaint is read as one more name. -/
theorem PrintsPaths.length_testNames (hls : PrintsPaths ls) (files : List TestFile) :
    (testNames statefulDir (ls statefulDir files)).length = (missing files).length+files.length := by
  obtain ⟨start,printed,houtput,hstart,hprinted,hlength⟩ :=
    hls.output statefulDir (List.mem_cons_of_mem _ List.mem_cons_self) files
  have hdir : statefulDir = '/' :: statefulDir.drop 1 := rfl
  rw [houtput,testNames_printed hdir (by decide) hstart hprinted,List.length_map,hlength]

/-- The stateful scenarios that run their own tests are all for the last stateless test. -/
theorem statefulCommands_last (hnames : testNames statefulDir (ls statefulDir stateful) =
      stateful.map (·.name))
    (hcommands : ∀ run ∈ (scenarios ls stateless stateful).2,
      run.command = some (command run.scenario)) :
    ∀ file ∈ stateful,
      (testNames statelessDir (ls statelessDir stateless)).getLast? = some file.name := by
  rw [scenarios,regression_eq,hnames,List.forall_mem_map,List.forall_mem_map] at hcommands
  intro file hfile
  obtain ⟨last,hlast,hcommand⟩ := Option.map_eq_some_iff.1 (hcommands file hfile)
  rw [hlast,command_injective hcommand]

end

/-- Where no ending is missing there is a file for each of them. -/
theorem exists_file_of_missing_nil {files : List TestFile} (h : missing files = []) (e : Ending) :
    ∃ file ∈ files, e.text <:+ file.name := by
  by_contra hnone
  push Not at hnone
  have he : e ∈ missing files := by
    rw [missing,List.mem_filter,decide_eq_true_eq]
    exact ⟨by cases e <;> decide,hnone⟩
  rw [h] at he
  exact List.not_mem_nil he

/-- The two suites never run their tests: an ending without a file is read as a test of its own, and
files with different endings cannot all be the last stateless one. -/
theorem suites_never {ls : Text → List TestFile → Text} (hls : PrintsPaths ls)
    (stateless stateful : List TestFile) : ¬ RunsItsTests ls stateless stateful := by
  intro h
  have hmissing : missing stateful = [] := by
    have hlength := congrArg List.length h.statefulNames
    rw [hls.length_testNames,List.length_map] at hlength
    exact List.eq_nil_of_length_eq_zero (by omega)
  have hlast := statefulCommands_last h.statefulNames h.statefulCommands
  obtain ⟨a,ha,hexpect⟩ := exists_file_of_missing_nil hmissing .expect
  obtain ⟨b,hb,hpy⟩ := exists_file_of_missing_nil hmissing .py
  have hab : a.name = b.name := Option.some.inj ((hlast a ha).symm.trans (hlast b hb))
  rw [hab] at hexpect
  exact absurd (List.suffix_of_suffix_length_le hpy hexpect (by decide)) (by decide)

def complaintStart : Text := "ls: cannot access '".toList

def complaintEnd (e : Ending) : Text := '*' :: e.text ++ "': No such file or directory\n".toList

def complaint (dir : Text) (e : Ending) : Text := complaintStart ++ (dir ++ complaintEnd e)

/-- A terminal too narrow for two paths: every complaint and then every path on a line of its own. -/
def lsLines (dir : Text) (files : List TestFile) : Text :=
  ((missing files).map (complaint dir)).flatten ++
    (files.map fun file => dir ++ (file.name ++ ['\n'])).flatten

theorem complaintStart_plain : '/' ∉ complaintStart := by decide

theorem complaintEnd_plain (e : Ending) : '/' ∉ complaintEnd e := by
  cases e <;> decide

/-- What the complaints print before and after the directory, with the next complaint's beginning. -/
theorem exists_printed_complaints (dir : Text) (es : List Ending) (printed : List Text)
    (hprinted : ∀ t ∈ printed, '/' ∉ t) :
    ∃ (start : Text) (printed' : List Text),
      (es.map (complaint dir)).flatten ++ (printed.map (dir ++ ·)).flatten =
        start ++ (printed'.map (dir ++ ·)).flatten ∧ '/' ∉ start ∧ (∀ t ∈ printed', '/' ∉ t) ∧
          printed'.length = es.length+printed.length := by
  induction es with
  | nil => exact ⟨[],printed,rfl,List.not_mem_nil,hprinted,(Nat.zero_add _).symm⟩
  | cons e es ih =>
    obtain ⟨start,printed',heq,hstart,hprinted',hlength⟩ := ih
    refine ⟨complaintStart,(complaintEnd e ++ start) :: printed',?_,complaintStart_plain,?_,?_⟩
    · rw [List.map_cons,List.flatten_cons,List.append_assoc,heq,complaint]
      simp only [List.map_cons,List.flatten_cons,List.append_assoc]
    · refine List.forall_mem_cons.2 ⟨?_,hprinted'⟩
      rw [List.mem_append,not_or]
      exact ⟨complaintEnd_plain e,hstart⟩
    · rw [List.length_cons,List.length_cons,hlength]
      omega

theorem lsLines_printsPaths : PrintsPaths lsLines where
  output dir _ files := by
    have hpaths : (files.map fun file => dir ++ (file.name ++ ['\n'])).flatten =
        ((files.map fun file => file.name ++ ['\n']).map (dir ++ ·)).flatten := by
      rw [List.map_map]
      rfl
    have hplain : ∀ t ∈ files.map fun file => file.name ++ ['\n'], '/' ∉ t := by
      intro t ht
      obtain ⟨file,-,rfl⟩ := List.mem_map.1 ht
      rw [List.mem_append,not_or]
      exact ⟨file.noSlash,by decide⟩
    obtain ⟨start,printed,heq,hstart,hprinted,hlength⟩ :=
      exists_printed_complaints dir (missing files) _ hplain
    rw [List.length_map] at hlength
    exact ⟨start,printed,by rw [lsLines,hpaths,heq],hstart,hprinted,hlength⟩

/-- Two empty directories. -/
theorem suites_never_empty : PrintsPaths lsLines ∧ ¬ RunsItsTests lsLines [] [] :=
  ⟨lsLines_printsPaths,suites_never lsLines_printsPaths [] []⟩

theorem noSlash_ending (e : Ending) : '/' ∉ e.text := by
  cases e <;> decide

/-- A directory with one test for every ending. -/
def oneOfEach (stem : Char) (h : stem ≠ '/' ∧ stem ≠ '.') : List TestFile :=
  [.expect,.py,.sh,.sql,.sqlJ2].map fun e : Ending =>
    { name := stem :: e.text
      noSlash := fun hmem => (List.mem_cons.1 hmem).elim (fun hc => h.1 hc.symm) (noSlash_ending e)
      shown := fun hhead => h.2 (Option.some.inj hhead)
      ending := ⟨e,List.suffix_cons stem e.text⟩ }

/-- The first stateful scenario runs the last stateless test. -/
theorem suites_oneOfEach :
    let stateless := oneOfEach 'a' (by decide)
    let stateful := oneOfEach 'b' (by decide)
    (scenarios lsLines stateless stateful).2.head? =
        some ⟨"b.expect".toList,some (command "a.sql.j2".toList)⟩ ∧
      ¬ RunsItsTests lsLines stateless stateful := by
  have hhead : (scenarios lsLines (oneOfEach 'a' (by decide)) (oneOfEach 'b' (by decide))).2.head? =
      some ⟨"b.expect".toList,some (command "a.sql.j2".toList)⟩ := by decide +kernel
  refine ⟨hhead,?_⟩
  intro h
  have hcommand := h.statefulCommands _ (List.mem_of_mem_head? hhead)
  exact absurd (command_injective (Option.some.inj hcommand)) (by decide)

end ClickHouseRegression.Functional
