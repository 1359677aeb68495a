import ClickHouseRegression.Text

/-! Command texts assembled by `ClickHouseNode.query`, `hash_query` and `diff_query`.
Every definition follows one f-string of `helpers/cluster.py`; the temporary file of the
file branch enters through its name. -/
namespace ClickHouseRegression.Cluster

/-- A `(name, value)` pair, both already rendered as text. -/
abbrev Setting := Text × Text

/-- What the command builders read of the node, its cluster and the test context.
A context without `default_query_settings` has the empty list. -/
structure Node where
  dockerCompose : Text
  name : Text
  defaultQuerySettings : List Setting
  deriving DecidableEq

/-- `if query_id is not None: query_settings += [("query_id", f"{query_id}")]`. -/
def queryIdSetting : Option Text → List Setting
  | none => []
  | some id => [("query_id".toList,id)]

/-- `settings + default_query_settings + query_id`, in this order. -/
def querySettings (n : Node) (settings : List Setting) (queryId : Option Text) : List Setting :=
  settings ++ n.defaultQuerySettings ++ queryIdSetting queryId

def client (secure : Bool) : Text :=
  "clickhouse client -n".toList ++ if secure then " -s".toList else []

theorem client_length (secure : Bool) :
    (client secure).length = (client false).length + if secure then 3 else 0 := by
  cases secure <;> decide

/-- One setting as it is written on the command line. -/
def settingArg (s : Setting) : Text :=
  " --".toList ++ s.1 ++ " \"".toList ++ s.2 ++ "\"".toList

theorem settingArg_eq (s : Setting) :
    settingArg s = " --".toList ++ (s.1 ++ ' ' :: '"' :: (s.2 ++ ['"'])) := by
  show " --".toList ++ s.1 ++ " \"".toList ++ s.2 ++ "\"".toList = _
  simp

/-- The loop `for setting in query_settings: client_options += ...`. -/
def clientOptions (settings : List Setting) : Text :=
  settings.foldl (fun options s => options ++ settingArg s) []

@[simp] theorem clientOptions_nil : clientOptions [] = [] := rfl

theorem foldl_settingArg (settings : List Setting) (t : Text) :
    settings.foldl (fun options s => options ++ settingArg s) t =
      t ++ (settings.map settingArg).flatten := by
  induction settings generalizing t with
  | nil => simp
  | cons s settings ih => simp [ih]

theorem clientOptions_eq_flatten (settings : List Setting) :
    clientOptions settings = (settings.map settingArg).flatten :=
  (foldl_settingArg settings []).trans (List.nil_append _)

theorem clientOptions_append (a b : List Setting) :
    clientOptions (a ++ b) = clientOptions a ++ clientOptions b := by
  simp [clientOptions_eq_flatten]

/-- A shell call made by an attempt: the session (`none` is the host), the temporary file
written before it with its content, and the command line. -/
structure Command where
  session : Option Text
  file : Option (Text × Text)
  text : Text
  deriving DecidableEq

/-- Options of `query` that decide which command is issued. -/
structure CommandOptions where
  settings : List Setting := []
  secure : Bool := false
  maxQueryOutputInBytes : Text := "-0".toList
  queryId : Option Text := none
  useFile : Bool := false
  hashOutput : Bool := false
  fileOutput : Option Text := none
  pipeCmd : Text := "echo -e".toList
  deriving DecidableEq

/-- The test `max_query_output_in_bytes != "-0"`. -/
def truncates (o : CommandOptions) : Bool := decide (o.maxQueryOutputInBytes ≠ "-0".toList)

/-- The test `len(sql) > 1024 or use_file`. -/
def usesFile (sql : Text) (o : CommandOptions) : Bool := decide (1024 < sql.length) || o.useFile

/-- `{client}{client_options}` of `query`. -/
def clientCall (n : Node) (o : CommandOptions) : Text :=
  client o.secure ++ clientOptions (querySettings n o.settings o.queryId)

/-- The text `query` hands to `bash -c` inside the container in the file branch. -/
def fileScript (n : Node) (o : CommandOptions) : Text :=
  if truncates o then
    "(set -o pipefail && ".toList ++ clientCall n o ++ " 2>&1 | head -c ".toList ++
      o.maxQueryOutputInBytes ++ ")".toList
  else if o.hashOutput then
    "(set -o pipefail && ".toList ++ clientCall n o ++ " 2>&1 | sha512sum)".toList
  else if Text.truthy o.fileOutput then
    "(set -o pipefail && ".toList ++ clientCall n o ++ " 2>&1 > '".toList ++
      o.fileOutput.getD [] ++ "')".toList
  else
    clientCall n o ++ " 2>&1".toList

/-- The part of the file branch before the script: the temporary file piped into the container. -/
def fileExec (n : Node) (queryName : Text) : Text :=
  "cat \"".toList ++ queryName ++ "\" | ".toList ++ n.dockerCompose ++ " exec -T ".toList ++
    n.name ++ " bash -c \"".toList

def fileCommand (n : Node) (o : CommandOptions) (queryName : Text) : Text :=
  fileExec n queryName ++ fileScript n o ++ "\"".toList

/-- The other branch of `query`; it has no case for `file_output`. -/
def shortCommand (n : Node) (sql : Text) (o : CommandOptions) : Text :=
  if truncates o then
    "(set -o pipefail && ".toList ++ o.pipeCmd ++ " \"".toList ++ sql ++ "\" | ".toList ++
      clientCall n o ++ " 2>&1 | head -c ".toList ++ o.maxQueryOutputInBytes ++ ")".toList
  else if o.hashOutput then
    "(set -o pipefail && ".toList ++ o.pipeCmd ++ " \"".toList ++ sql ++ "\" | ".toList ++
      clientCall n o ++ " 2>&1 | sha512sum)".toList
  else
    o.pipeCmd ++ " \"".toList ++ sql ++ "\" | ".toList ++ clientCall n o ++ " 2>&1".toList

/-- The command one attempt of `query` issues, `queryName` naming its temporary file. -/
def queryCommand (n : Node) (sql : Text) (o : CommandOptions) (queryName : Text) : Command :=
  if usesFile sql o then ⟨none,some (queryName,sql),fileCommand n o queryName⟩
  else ⟨some n.name,none,shortCommand n sql o⟩

/-- Options of `hash_query` and `diff_query`. -/
structure CheckOptions where
  settings : List Setting := []
  secure : Bool := false
  queryId : Option Text := none
  pipeCmd : Text := "echo -e".toList
  deriving DecidableEq

/-- `hash_query`: the settings are appended to the finished command. -/
def hashQueryCommand (n : Node) (sql hashUtility : Text) (o : CheckOptions) (queryName : Text) :
    Command :=
  let options := clientOptions (querySettings n o.settings o.queryId)
  if 1024 < sql.length then
    ⟨none,some (queryName,sql),
      "set -o pipefail && cat \"".toList ++ queryName ++ "\" | ".toList ++ n.dockerCompose ++
        " exec -T ".toList ++ n.name ++ " ".toList ++ client o.secure ++ " | ".toList ++
        hashUtility ++ options⟩
  else
    ⟨some n.name,none,
      "set -o pipefail && ".toList ++ o.pipeCmd ++ " \"".toList ++ sql ++ "\" | ".toList ++
        client o.secure ++ " | ".toList ++ hashUtility ++ options⟩

/-- `diff_query`: again the settings follow the finished command. -/
def diffQueryCommand (n : Node) (sql expectedOutput : Text) (o : CheckOptions)
    (queryName : Text) : Command :=
  let options := clientOptions (querySettings n o.settings o.queryId)
  if 1024 < sql.length then
    ⟨none,some (queryName,sql),
      "diff <(cat \"".toList ++ queryName ++ "\" | ".toList ++ n.dockerCompose ++
        " exec -T ".toList ++ n.name ++ " ".toList ++ client o.secure ++ ") ".toList ++
        expectedOutput ++ options⟩
  else
    ⟨none,none,
      "diff <(".toList ++ o.pipeCmd ++ " \"".toList ++ sql ++ "\" | ".toList ++
        n.dockerCompose ++ " exec -T ".toList ++ n.name ++ " ".toList ++ client o.secure ++
        ") ".toList ++ expectedOutput ++ options⟩

end ClickHouseRegression.Cluster
