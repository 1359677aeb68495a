import ClickHouseRegression.Helpers.XmlConfig

/-! The steps of the CA chain tests that create the certificate of a server, copy it with its key to the
node, add trusted authorities there, and close the permissions of the key at the end. -/
namespace ClickHouseRegression.SslServer
open Helpers

/-- What a step of the certificate tests does. -/
inductive NodeAction where
  | createDhParams (outfile : Text)
  | createRsaPrivateKey (outfile passphrase : Text)
  | createCertificateSigningRequest (outfile commonName key passphrase : Text)
  | signCertificate (outfile csr caCertificate caKey caPassphrase : Text)
  | createChainCertificate (outfile : Text) (certificates : List Text)
  | copy (srcPath destPath : Text)
  | validateCertificate (certificate caCertificate : Text)
  | addTrustedCaCertificate (certificate name : Text)
  | command (text : Text)
  deriving DecidableEq

/-- The arguments that both steps have, and where they work: the temporary directory of the context, a
new one, and the path that a step yields for its output file. -/
structure ServerCertificate where
  name : Text
  commonName : Text
  caKey : Text
  caCrt : Text
  trustedCas : Option (List Text) := none
  passphrase : Text := []
  caPassphrase : Text := []
  tmpdir : Option Text := none
  validate : Bool := true
  contextTmpdir : Text
  newTmpdir : Text
  yielded : Text → Text

namespace ServerCertificate
variable (c : ServerCertificate)

def commonPath : Text := pathJoin (c.tmpdir.getD c.newTmpdir) c.name

def file (ending : Text) : Text := c.commonPath ++ ending

def serverKey : Text := c.yielded (c.file ".key".toList)

def serverCrt : Text := c.yielded (c.file ".crt".toList)

def dhParams : Text := c.yielded (c.file ".dh".toList)

/-- Parameters, key, request and certificate. -/
def create : List NodeAction :=
  [.createDhParams (c.file ".dh".toList),
    .createRsaPrivateKey (c.file ".key".toList) c.passphrase,
    .createCertificateSigningRequest (c.file ".csr".toList) c.commonName c.serverKey c.passphrase,
    .signCertificate (c.file ".crt".toList) (c.yielded (c.file ".csr".toList)) c.caCrt c.caKey
      c.caPassphrase]

end ServerCertificate

/-- `/{name}{ending}`. -/
def nodePath (name ending : Text) : Text := '/' :: (name ++ ending)

/-- `"_".join(trusted_ca.split(os.path.sep)[-2:])`. -/
def trustedName (trustedCa : Text) : Text :=
  let parts := trustedCa.splitOn '/'
  List.intercalate "_".toList (parts.drop (parts.length-2))

/-- The variable `name` and what was done with it. -/
structure NameScope where
  name : Text
  actions : List NodeAction

/-- The body of the loop over the trusted authorities. -/
def addTrusted (s : NameScope) (trustedCa : Text) : NameScope :=
  let name := trustedName trustedCa
  ⟨name,s.actions ++ [.addTrustedCaCertificate trustedCa name]⟩

/-- `chmod 600 "{path}"`. -/
def closeFile (path : Text) : NodeAction :=
  .command ("chmod 600 \"".toList ++ (path ++ "\"".toList))

/-- From the trusted authorities on. -/
def finishWith (name : Text) (trustedCas : Option (List Text)) : List NodeAction :=
  let s : NameScope := match trustedCas with
    | none => ⟨name,[]⟩
    | some cas => cas.foldl addTrusted ⟨name,[]⟩
  s.actions ++ [closeFile (nodePath s.name ".key".toList)]

section
variable (c : ServerCertificate)

def copyWithChain (caChainCrt caRootCrt : Text) : List NodeAction :=
  let chain := pathJoin c.contextTmpdir (c.name ++ "_chain.crt".toList)
  [.createChainCertificate chain [c.serverCrt,caChainCrt],.copy chain (nodePath c.name "_chain.crt".toList),
    .copy c.serverKey (nodePath c.name ".key".toList),.copy c.dhParams (nodePath c.name ".dh".toList),
    .copy caRootCrt "/ca_root.crt".toList]

def copyWithoutChain (caChainCrt : Option Text) : List NodeAction :=
  [.copy c.serverCrt (nodePath c.name ".crt".toList),.copy c.serverKey (nodePath c.name ".key".toList),
    .copy c.dhParams (nodePath c.name ".dh".toList),.copy c.caCrt "/ca.crt".toList] ++
  match caChainCrt with
  | none => []
  | some crt => [.copy crt "/ca_chain.crt".toList]

def validateOn (certificate ca : Text) : List NodeAction :=
  if c.validate then [.validateCertificate certificate ca] else []

def createNodeServerCertificateWithChainAndDhParams (caChainCrt caRootCrt : Text) : List NodeAction :=
  (c.create ++ copyWithChain c caChainCrt caRootCrt ++
    validateOn c (nodePath c.name "_chain.crt".toList) "/ca_root.crt".toList) ++
    finishWith c.name c.trustedCas

def createNodeServerCertificateAndDhParams (caChainCrt : Option Text) : List NodeAction :=
  (c.create ++ copyWithoutChain c caChainCrt ++
    validateOn c (nodePath c.name ".crt".toList)
      (match caChainCrt with
        | none => "/ca.crt".toList
        | some _ => "/ca_chain.crt".toList)) ++
    finishWith c.name c.trustedCas

end

def NodeAction.isCommand : NodeAction → Bool
  | .command _ => true
  | _ => false

/-- The key was copied to a path, and the last of all actions, the only command, closes that file. -/
structure ClosesKey (c : ServerCertificate) (actions : List NodeAction) : Prop where
  copied : .copy c.serverKey (nodePath c.name ".key".toList) ∈ actions
  last : actions.getLast? = some (closeFile (nodePath c.name ".key".toList))
  only : ∀ a ∈ actions, a.isCommand = true → a = closeFile (nodePath c.name ".key".toList)

/-- There is no trusted authority, or the last of them happens to be named like the server. -/
def KeepsName (c : ServerCertificate) : Prop :=
  ∀ cas, c.trustedCas = some cas → ∀ ca, cas.getLast? = some ca → trustedName ca = c.name

theorem foldl_addTrusted (cas : List Text) (s : NameScope) :
    cas.foldl addTrusted s = ⟨(cas.getLast?.map trustedName).getD s.name,
      s.actions ++ cas.map fun ca => .addTrustedCaCertificate ca (trustedName ca)⟩ := by
  induction cas generalizing s with
  | nil => simp
  | cons ca cas ih =>
    rw [List.foldl_cons,ih,addTrusted]
    cases cas with
    | nil => simp
    | cons ca' cas =>
      rw [List.getLast?_cons_cons,List.getLast?_eq_some_getLast (List.cons_ne_nil ca' cas),List.append_assoc]
      rfl

/-- The name in the last command. -/
def lastName (name : Text) (trustedCas : Option (List Text)) : Text :=
  (trustedCas.bind fun cas => cas.getLast?.map trustedName).getD name

theorem finishWith_eq (name : Text) (trustedCas : Option (List Text)) :
    finishWith name trustedCas = (trustedCas.getD []).map (fun ca => .addTrustedCaCertificate ca (trustedName ca)) ++
      [closeFile (nodePath (lastName name trustedCas) ".key".toList)] := by
  cases trustedCas with
  | none => rfl
  | some cas =>
    rw [finishWith,foldl_addTrusted]
    rfl

theorem nodePath_inj {a b ending : Text} : nodePath a ending = nodePath b ending ↔ a = b := by
  rw [nodePath,nodePath,List.cons_inj_right,List.append_left_inj]

theorem closeFile_inj {p q : Text} : closeFile p = closeFile q ↔ p = q := by
  constructor
  · intro h
    exact List.append_cancel_right (List.append_cancel_left (NodeAction.command.inj h))
  · intro h
    rw [h]

theorem lastName_eq_iff (c : ServerCertificate) : lastName c.name c.trustedCas = c.name ↔ KeepsName c := by
  unfold lastName KeepsName
  cases hcas : c.trustedCas with
  | none => simp
  | some cas =>
    cases hlast : cas.getLast? with
    | none => simp [hlast]
    | some ca => simp [hlast]

/-- Whatever goes before, the last command is for the name that the loop has left. -/
theorem closesKey_iff (c : ServerCertificate) {first : List NodeAction}
    (hcopy : .copy c.serverKey (nodePath c.name ".key".toList) ∈ first)
    (hfirst : ∀ a ∈ first, a.isCommand = false) :
    ClosesKey c (first ++ finishWith c.name c.trustedCas) ↔ KeepsName c := by
  rw [← lastName_eq_iff,finishWith_eq,← List.append_assoc]
  constructor
  · intro h
    have hlast := h.last
    rw [List.getLast?_concat,Option.some_inj,closeFile_inj,nodePath_inj] at hlast
    exact hlast
  · intro h
    rw [h]
    refine ⟨List.mem_append_left _ (List.mem_append_left _ hcopy),List.getLast?_concat,?_⟩
    intro a ha hcommand
    rcases List.mem_append.1 ha with ha | ha
    · rcases List.mem_append.1 ha with ha | ha
      · rw [hfirst a ha] at hcommand
        cases hcommand
      · obtain ⟨ca,_,rfl⟩ := List.mem_map.1 ha
        cases hcommand
    · exact List.mem_singleton.1 ha

section
variable (c : ServerCertificate)

theorem create_noCommand : ∀ a ∈ c.create, a.isCommand = false :=
  fun a ha => by simpa using List.all_eq_true.1 (rfl : c.create.all (!·.isCommand) = true) a ha

theorem copyWithChain_noCommand (caChainCrt caRootCrt : Text) :
    ∀ a ∈ copyWithChain c caChainCrt caRootCrt, a.isCommand = false :=
  fun a ha => by
    simpa using List.all_eq_true.1
      (rfl : (copyWithChain c caChainCrt caRootCrt).all (!·.isCommand) = true) a ha

theorem copyWithoutChain_noCommand (caChainCrt : Option Text) :
    ∀ a ∈ copyWithoutChain c caChainCrt, a.isCommand = false := by
  have hall : (copyWithoutChain c caChainCrt).all (!·.isCommand) = true := by
    cases caChainCrt with
    | none => rfl
    | some crt => rfl
  intro a ha
  simpa using List.all_eq_true.1 hall a ha

theorem validateOn_noCommand (certificate ca : Text) :
    ∀ a ∈ validateOn c certificate ca, a.isCommand = false := by
  intro a ha
  unfold validateOn at ha
  split at ha
  · rw [List.mem_singleton.1 ha]
    rfl
  · cases ha

end

/-- Both steps close the key that they copied exactly when the loop leaves the name as it was. -/
theorem closesKey_both_iff (c : ServerCertificate) (caChainCrt caRootCrt : Text) (caChain : Option Text) :
    (ClosesKey c (createNodeServerCertificateWithChainAndDhParams c caChainCrt caRootCrt) ↔ KeepsName c) ∧
      (ClosesKey c (createNodeServerCertificateAndDhParams c caChain) ↔ KeepsName c) := by
  constructor
  · apply closesKey_iff
    · refine List.mem_append_left _ (List.mem_append_right _ ?_)
      exact List.mem_cons_of_mem _ (List.mem_cons_of_mem _ List.mem_cons_self)
    · intro a ha
      rcases List.mem_append.1 ha with ha | ha
      · rcases List.mem_append.1 ha with ha | ha
        · exact create_noCommand c a ha
        · exact copyWithChain_noCommand c caChainCrt caRootCrt a ha
      · exact validateOn_noCommand c _ _ a ha
  · apply closesKey_iff
    · refine List.mem_append_left _ (List.mem_append_right _ ?_)
      exact List.mem_append_left _ (List.mem_cons_of_mem _ List.mem_cons_self)
    · intro a ha
      rcases List.mem_append.1 ha with ha | ha
      · rcases List.mem_append.1 ha with ha | ha
        · exact create_noCommand c a ha
        · exact copyWithoutChain_noCommand c caChain a ha
      · exact validateOn_noCommand c _ _ a ha

/-- A server with one trusted authority. -/
def trustingServer : ServerCertificate where
  name := "clickhouse1".toList
  commonName := "clickhouse1".toList
  caKey := "/ca/ca.key".toList
  caCrt := "/ca/ca.crt".toList
  trustedCas := some ["/tmp/root/ca.crt".toList]
  contextTmpdir := "/tmp".toList
  newTmpdir := "/tmp/new".toList
  yielded := id

theorem closesKey_trustingServer :
    ¬ ClosesKey trustingServer (createNodeServerCertificateAndDhParams trustingServer none) := by
  intro h
  have hlast := h.last
  rw [createNodeServerCertificateAndDhParams,finishWith_eq,← List.append_assoc,List.getLast?_concat,
    Option.some_inj,closeFile_inj,nodePath_inj] at hlast
  exact absurd hlast (by decide)

end ClickHouseRegression.SslServer
