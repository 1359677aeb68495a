import ClickHouseRegression.Text.Decimal

/-! The part of a log that a test has written, cut out with `tail` and `head` between the sizes of the
log before and after the test. -/
namespace ClickHouseRegression.LogWindow
open Text

abbrev Bytes := List UInt8

/-- `tail -c +N`: bytes are counted from one. -/
def tail (n : ℕ) (file : Bytes) : Bytes := file.drop (n-1)

/-- `head -c N`; a negative count leaves out the end. -/
def head : ℤ → Bytes → Bytes
  | .ofNat n,input => input.take n
  | .negSucc n,input => input.take (input.length-(n+1))

/-- `tail -c +{start} {path} | head -c {count}`. -/
structure Window where
  start : Text
  path : Text
  count : ℤ
  deriving DecidableEq

def Window.command (w : Window) : Text :=
  "tail -c +".toList ++ w.start ++ " ".toList ++ w.path ++ " | head -c ".toList ++ str w.count

/-- The output when the file at the path has this content. -/
def Window.output (w : Window) (file : Bytes) : Option Bytes := do
  let n ← readNat w.start
  return head w.count (tail n file)

/-- `stat --format=%s {path}`. -/
def stat (path : Text) : Option Bytes → Text
  | none => "stat: cannot stat '".toList ++ (path ++ "': No such file or directory".toList)
  | some file => str file.length

/-- `cmd.output.split(" ")[0].strip()`. -/
def logsize (output : Text) : Text := strip (output.takeWhile (· ≠ ' '))

/-- A log that is missing has the size zero. -/
def startLogsize (path output : Text) : Text :=
  if output = stat path none then str 0 else logsize output

/-- `int(end_logsize) - int(start_logsize)` bytes from `start_logsize` on. -/
def between (path start stop : Text) : Option Window := do
  let e ← readNat stop
  let s ← readNat start
  return ⟨start,path,(e : ℤ)-s⟩

section
variable (path : Text)

def echoInto (message : Text) : Text :=
  "echo -e \"\\n-- ".toList ++ message ++ " --\\n\" >> ".toList ++ path

/-- The window that `instrument_clickhouse_server_log` dumps, from what `stat` printed before and after
the test. -/
def instrumentedWindow (before after : Text) : Option Window :=
  between path (startLogsize path before) (logsize after)

/-- The commands of `instrument_clickhouse_server_log` after the test. -/
def instrumentClickhouseServerLog (testName : Text) (alwaysDump debug passed terminating : Bool)
    (before after : Text) : Option (List Text) :=
  if terminating then some []
  else
    let finish := [echoInto path ("end: ".toList ++ testName),"stat --format=%s ".toList ++ path]
    if alwaysDump || (debug && !passed) then
      (instrumentedWindow path before after).map fun w => finish ++ [w.command]
    else some finish

end

def errLog : Text := "/var/log/clickhouse-server/clickhouse-server.err.log".toList

/-- The window in which `invalid_s3_storage_config` looks for the message. -/
def s3Window (before after : Text) : Option Window := between errLog (logsize before) (logsize after)

def invalidS3StorageConfig (message before after : Text) : Option Text :=
  (s3Window before after).map fun w => w.command ++ " | grep \"".toList ++ message ++ "\"".toList

/-- Every byte that was added repeats the last one before it. -/
def Repeats (before appended : Bytes) : Prop := ∀ b ∈ before.getLast?, ∀ a ∈ appended, a = b

theorem takeWhile_str (n : ℕ) : (str n).takeWhile (· ≠ ' ') = str n := by
  rw [List.takeWhile_eq_self_iff]
  intro c hc
  rw [decide_eq_true_eq]
  rintro rfl
  rcases str_chars n hc with h | h
  · exact absurd h (by decide)
  · exact absurd h (by decide)

theorem digit_not_space {c : Char} (h : c.isDigit = true) : isSpace c = false := by
  simp only [Char.isDigit,Bool.and_eq_true,decide_eq_true_eq] at h
  have hlow : 48 ≤ c.toNat := h.1
  have hhigh : c.toNat ≤ 57 := h.2
  simp only [isSpace,Bool.or_eq_false_iff,Bool.and_eq_false_iff,decide_eq_false_iff_not]
  omega

theorem logsize_str (n : ℕ) : logsize (str n) = str n := by
  have hplain : ∀ c ∈ str n, isSpace c = false := fun c hc =>
    digit_not_space (Nat.isDigit_of_mem_toDigits (by decide) le_rfl hc)
  have htrim : Trimmed (str n) :=
    ⟨fun c hc => hplain c (List.mem_of_mem_head? hc),fun c hc => hplain c (List.mem_of_mem_getLast? hc)⟩
  have hstrip := strip_eq (a := []) (b := []) (by simp [Blank]) htrim (by simp [Blank])
  rw [List.nil_append,List.append_nil] at hstrip
  rw [logsize,takeWhile_str,hstrip]

/-- The message of `stat` is not a number. -/
theorem str_ne_stat (path : Text) (n : ℕ) : str n ≠ stat path none := by
  intro h
  have hdigit : Char.isDigit 's' = true := by
    apply Nat.isDigit_of_mem_toDigits (b := 10) (n := n) (by decide) le_rfl
    have hmem : 's' ∈ stat path none := List.mem_append_left _ (by decide)
    rw [← h] at hmem
    exact hmem
  exact absurd hdigit (by decide)

theorem startLogsize_stat (path : Text) (before : Option Bytes) :
    startLogsize path (stat path before) = str (before.getD []).length := by
  cases before with
  | none => rw [startLogsize,if_pos rfl]; rfl
  | some file =>
    have hne : stat path (some file) ≠ stat path none := str_ne_stat path file.length
    rw [startLogsize,if_neg hne]
    exact logsize_str file.length

theorem between_str (path : Text) (before appended : Bytes) :
    between path (str before.length) (str (before ++ appended).length) =
      some ⟨str before.length,path,appended.length⟩ := by
  have hread : ∀ n : ℕ, readNat (str n) = some n := readNat_toDigits
  have hcount : ((before ++ appended).length : ℤ)-before.length = appended.length := by
    rw [List.length_append]
    omega
  simp only [between,hread,Option.bind_eq_bind,Option.bind_some,Option.pure_def,hcount]

/-- From a size to a later one: the window begins one byte early unless the first size is zero. -/
theorem window_output (path : Text) (before appended later : Bytes) :
    (Window.mk (str before.length) path appended.length).output (before ++ appended ++ later) =
      some (((before ++ appended ++ later).drop (before.length-1)).take appended.length) := by
  have hread : readNat (str before.length) = some before.length := readNat_toDigits before.length
  simp only [Window.output,hread,Option.bind_eq_bind,Option.bind_some,Option.pure_def]
  rfl

theorem take_cons_eq_self_iff (b : UInt8) (appended later : Bytes) :
    (b :: (appended ++ later)).take appended.length = appended ↔ ∀ a ∈ appended, a = b := by
  induction appended generalizing b with
  | nil => simp
  | cons a appended ih =>
    rw [List.length_cons,List.take_succ_cons,List.cons_append,List.cons_eq_cons,ih a,
      List.forall_mem_cons]
    constructor
    · rintro ⟨rfl,h⟩
      exact ⟨rfl,h⟩
    · rintro ⟨rfl,h⟩
      exact ⟨rfl,h⟩

theorem window_iff (before appended later : Bytes) :
    ((before ++ appended ++ later).drop (before.length-1)).take appended.length = appended ↔
      before = [] ∨ Repeats before appended := by
  rcases List.eq_nil_or_concat before with rfl | ⟨init,b,rfl⟩
  · simp
  · have hdrop : (init ++ [b] ++ appended ++ later).drop ((init ++ [b]).length-1) =
        b :: (appended ++ later) := by
      rw [List.length_append,List.length_singleton,Nat.add_sub_cancel,List.append_assoc,
        List.append_assoc,List.drop_left]
      rfl
    rw [List.concat_eq_append,hdrop,take_cons_eq_self_iff,Repeats,List.getLast?_concat]
    simp

theorem stat_after (path : Text) (before appended : Bytes) :
    logsize (stat path (some (before ++ appended))) = str (before ++ appended).length :=
  logsize_str (before ++ appended).length

theorem instrumentedWindow_stat (path : Text) (before : Option Bytes) (appended : Bytes) :
    instrumentedWindow path (stat path before) (stat path (some (before.getD [] ++ appended))) =
      some ⟨str (before.getD []).length,path,appended.length⟩ := by
  rw [instrumentedWindow,startLogsize_stat,stat_after,between_str]

theorem s3Window_stat (before appended : Bytes) :
    s3Window (stat errLog (some before)) (stat errLog (some (before ++ appended))) =
      some ⟨str before.length,errLog,appended.length⟩ := by
  have hstart : logsize (stat errLog (some before)) = str before.length := logsize_str before.length
  rw [s3Window,hstart,stat_after,between_str]

/-- The windows that both functions cut out hold exactly what was added to the log between the two sizes
when the log was empty or missing at first, or when each byte that was added repeats the last one before.
The log may grow further until the window is read. -/
theorem windows_iff (path testName message : Text) (alwaysDump debug passed : Bool) (before : Option Bytes)
    (errBefore appended later : Bytes) :
    (∃ w, instrumentedWindow path (stat path before) (stat path (some (before.getD [] ++ appended))) =
        some w ∧
      instrumentClickhouseServerLog path testName alwaysDump debug passed false (stat path before)
          (stat path (some (before.getD [] ++ appended))) =
        some ([echoInto path ("end: ".toList ++ testName),"stat --format=%s ".toList ++ path] ++
          if alwaysDump || (debug && !passed) then [w.command] else []) ∧
      (w.output (before.getD [] ++ appended ++ later) = some appended ↔
        before.getD [] = [] ∨ Repeats (before.getD []) appended)) ∧
    ∃ w, s3Window (stat errLog (some errBefore)) (stat errLog (some (errBefore ++ appended))) = some w ∧
      invalidS3StorageConfig message (stat errLog (some errBefore))
          (stat errLog (some (errBefore ++ appended))) =
        some (w.command ++ " | grep \"".toList ++ message ++ "\"".toList) ∧
      (w.output (errBefore ++ appended ++ later) = some appended ↔
        errBefore = [] ∨ Repeats errBefore appended) := by
  constructor
  · refine ⟨_,instrumentedWindow_stat path before appended,?_,?_⟩
    · rw [instrumentClickhouseServerLog,if_neg Bool.false_ne_true,instrumentedWindow_stat]
      dsimp only [Option.map_some]
      split_ifs
      · rfl
      · rw [List.append_nil]
    · rw [window_output,Option.some_inj,window_iff]
  · refine ⟨_,s3Window_stat errBefore appended,?_,?_⟩
    · rw [invalidS3StorageConfig,s3Window_stat,Option.map_some]
    · rw [window_output,Option.some_inj,window_iff]

def serverLog : Text := "/var/log/clickhouse-server/clickhouse-server.log".toList

/-- The log held `old` and a newline, the test added `new` and a newline: the dump is a newline and
`new`. -/
theorem windows_newLine :
    (instrumentedWindow serverLog (stat serverLog (some [111,108,100,10]))
      (stat serverLog (some [111,108,100,10,110,101,119,10]))).bind
        (·.output [111,108,100,10,110,101,119,10]) ≠ some [110,101,119,10] := by
  have hwindow := instrumentedWindow_stat serverLog (some [111,108,100,10]) [110,101,119,10]
  have houtput := window_output serverLog [111,108,100,10] [110,101,119,10] []
  simp only [List.append_nil,List.cons_append,List.nil_append,Option.getD_some] at houtput hwindow
  rw [hwindow,Option.bind_some,houtput]
  decide

end ClickHouseRegression.LogWindow
