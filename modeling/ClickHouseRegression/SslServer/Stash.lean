import ClickHouseRegression.Text

/-! The steps of the ssl server suite that generate keys and certificates with `openssl`. A file is kept
in a stash under an identifier made from arguments of the step, and a later call with the same identifier
takes it from there. -/
namespace ClickHouseRegression.SslServer

/-- An argument of a step. -/
inductive Value where
  | str (t : Text)
  | int (n : ℤ)
  | none
  deriving DecidableEq

/-- The value in a formatted string. -/
def Value.text : Value → Text
  | .str t => t
  | .int n => ClickHouseRegression.str n
  | .none => "None".toList

def Value.truthy : Value → Bool
  | .str t => !t.isEmpty
  | .int n => n ≠ 0
  | .none => false

/-- An argument of `stashed.hash`. -/
inductive Arg where
  | value (v : Value)
  | builtinHash
  deriving DecidableEq

inductive Action where
  | expect (pattern : Text)
  | send (answer : Value)
  deriving DecidableEq

/-- How a file is generated: the command for an output file, and the dialogue with it, which may depend
on whether it asks for a pass phrase. -/
@[ext] structure Generation where
  command : Text → Text
  dialogue : Bool → List Action

structure RsaPrivateKey where
  passphrase : Value
  algorithm : Value := .str "aes256".toList
  length : Value := .int 2048

/-- The name in a certificate. -/
structure Subject where
  commonName : Value
  countryName : Value := .str "CA".toList
  stateOrProvince : Value := .str "ON".toList
  localityName : Value := .str "Ottawa".toList
  organizationName : Value := .str "Altinity".toList
  organizationUnitName : Value := .str "QA".toList
  emailAddress : Value := .str "qa@altinity.com".toList

structure CaCertificate where
  key : Value
  passphrase : Value
  subject : Subject
  type : Value := .str "x509".toList
  days : Value := .str "3650".toList
  hash : Value := .str "sha256".toList
  extensions : Value := .str "v3_ca".toList

structure SigningRequest where
  key : Value
  passphrase : Value
  subject : Subject
  hash : Value := .str "sha256".toList
  challengePassword : Value := .str []
  companyName : Value := .str "Altinity".toList

structure IntermediateCa where
  csr : Value
  caConfig : Value
  caPassphrase : Value
  type : Value := .str "ca".toList
  days : Value := .str "365".toList
  extensions : Value := .str "v3_intermediate_ca".toList

structure SignedCertificate where
  csr : Value
  caCertificate : Value
  caKey : Value
  caPassphrase : Value
  type : Value := .str "x509".toList
  hash : Value := .str "sha256".toList
  days : Value := .str "365".toList

structure DhParams where
  length : Value := .int 512

/-- A call of a step, without its output file. -/
inductive Call where
  | createRsaPrivateKey (p : RsaPrivateKey)
  | createCaCertificate (p : CaCertificate)
  | createCertificateSigningRequest (p : SigningRequest)
  | signIntermediateCaCertificate (p : IntermediateCa)
  | signCertificate (p : SignedCertificate)
  | createDhParams (p : DhParams)

/-- The option of the algorithm; without a pass phrase there is none. -/
def RsaPrivateKey.option (p : RsaPrivateKey) : Text :=
  if !p.passphrase.truthy then []
  else if p.algorithm.truthy then '-' :: p.algorithm.text ++ " ".toList else []

/-- The values in the order in which they are hashed, between the common name and the end. -/
def Subject.place (s : Subject) : List Value :=
  [s.countryName,s.stateOrProvince,s.localityName,s.organizationName,s.organizationUnitName,s.emailAddress]

/-- The arguments of `stashed.hash`. The step that signs an intermediate certificate has no parameter
`hash`, so that the name stands for the builtin function. -/
def Call.args : Call → List Arg
  | .createRsaPrivateKey p => [.str p.option,p.length,p.passphrase].map .value
  | .createCaCertificate p =>
    ([p.key,p.passphrase,p.subject.commonName,p.type,p.days,p.hash,p.extensions] ++ p.subject.place).map
      .value
  | .createCertificateSigningRequest p =>
    ([p.key,p.passphrase,p.subject.commonName,p.hash] ++ p.subject.place ++
      [p.challengePassword,p.companyName]).map .value
  | .signIntermediateCaCertificate p =>
    [.value p.csr,.value p.caConfig,.value p.caPassphrase,.value p.type,.builtinHash,.value p.days]
  | .signCertificate p =>
    [p.csr,p.caCertificate,p.caKey,p.caPassphrase,p.type,p.hash,p.days].map .value
  | .createDhParams p => [p.length].map .value

def enterPassphrase : Action := .expect "Enter pass phrase for.*?:".toList

/-- The answers from the country on, after its prompt. -/
def Subject.answers (s : Subject) : List Action :=
  [.send s.countryName,.expect "State or Province Name.*?:".toList,.send s.stateOrProvince,
    .expect "Locality Name.*?:".toList,.send s.localityName,
    .expect "Organization Name.*?:".toList,.send s.organizationName,
    .expect "Organizational Unit Name.*?:".toList,.send s.organizationUnitName,
    .expect "Common Name.*?:".toList,.send s.commonName,
    .expect "Email Address.*?:".toList,.send s.emailAddress]

def countryName : Action := .expect "Country Name.*?:".toList

/-- `openssl genrsa` with the option of the algorithm. -/
def genrsa (prompt option : Text) (length passphrase : Value) : Generation where
  command outfile := "openssl genrsa ".toList ++ option ++ "-out ".toList ++ outfile ++ " ".toList ++
    length.text
  dialogue asked :=
    .expect ("(Enter( PEM)? pass phrase( for)?.*?:)|(".toList ++ prompt ++ ")".toList) ::
      if asked then
        [.send passphrase,.expect "Verifying - Enter( PEM)? pass phrase( for)?.*?:".toList,.send passphrase]
      else []

def RsaPrivateKey.generation (prompt : Text) (p : RsaPrivateKey) : Generation :=
  genrsa prompt p.option p.length p.passphrase

def CaCertificate.generation (p : CaCertificate) : Generation where
  command outfile := "openssl req -new -".toList ++ p.type.text ++ " -days ".toList ++ p.days.text ++
    " -key ".toList ++ p.key.text ++ " -".toList ++ p.hash.text ++ " -extensions ".toList ++
    p.extensions.text ++ " -out ".toList ++ outfile
  dialogue _ := (if p.passphrase.truthy then [enterPassphrase,.send p.passphrase] else []) ++
    countryName :: p.subject.answers

def SigningRequest.generation (p : SigningRequest) : Generation where
  command outfile := "openssl req -".toList ++ p.hash.text ++ " -new -key ".toList ++ p.key.text ++
    " -out ".toList ++ outfile
  dialogue asked := .expect "(Enter pass phrase for.*?:)|(Country Name.*?:)".toList ::
    (if asked then [.send p.passphrase,countryName] else []) ++ p.subject.answers ++
    [.expect "A challenge password.*?:".toList,.send p.challengePassword,
      .expect "An optional company name.*?:".toList,.send p.companyName]

/-- `openssl ca` with the text of the extensions. -/
def signWith (p : IntermediateCa) (extensions : Text) : Generation where
  command outfile := ("openssl ".toList ++ p.type.text ++ " -config ".toList ++ p.caConfig.text ++
    " -extensions ".toList) ++ (extensions ++ (" -in ".toList ++ p.csr.text ++ " -out ".toList ++
    outfile ++ " -days ".toList ++ p.days.text ++ " -notext".toList))
  dialogue _ := (if p.caPassphrase.truthy then [enterPassphrase,.send p.caPassphrase] else []) ++
    [.expect "Sign the certificate\\?".toList,.send (.str "y".toList),
      .expect "certificate requests certified, commit\\?".toList,.send (.str "y".toList),
      .expect "Data Base Updated".toList]

def IntermediateCa.generation (p : IntermediateCa) : Generation := signWith p p.extensions.text

def SignedCertificate.generation (p : SignedCertificate) : Generation where
  command outfile :=
    if p.caCertificate ≠ .none then
      "openssl ".toList ++ p.type.text ++ " -".toList ++ p.hash.text ++ " -req -in ".toList ++ p.csr.text ++
        " -CA ".toList ++ p.caCertificate.text ++ " -CAkey ".toList ++ p.caKey.text ++
        " -CAcreateserial -out ".toList ++ outfile ++ " -days ".toList ++ p.days.text
    else
      "openssl ".toList ++ p.type.text ++ " -".toList ++ p.hash.text ++ " -req -in ".toList ++ p.csr.text ++
        " -signkey ".toList ++ p.caKey.text ++ " -out ".toList ++ outfile ++ " -days ".toList ++ p.days.text
  dialogue _ := if p.caPassphrase.truthy then [enterPassphrase,.send p.caPassphrase] else []

def DhParams.generation (p : DhParams) : Generation where
  command outfile := "openssl dhparam -out ".toList ++ outfile ++ " ".toList ++ p.length.text
  dialogue _ := []

/-- `prompt` is that of the shell. -/
def Call.generation (prompt : Text) : Call → Generation
  | .createRsaPrivateKey p => p.generation prompt
  | .createCaCertificate p => p.generation
  | .createCertificateSigningRequest p => p.generation
  | .signIntermediateCaCertificate p => p.generation
  | .signCertificate p => p.generation
  | .createDhParams p => p.generation

/-- The argument that has an influence on the command but not on the identifier. -/
def Call.unhashed : Call → Option Text
  | .signIntermediateCaCertificate p => some p.extensions.text
  | _ => Option.none

theorem RsaPrivateKey.generation_eq (prompt : Text) {p q : RsaPrivateKey}
    (h : (Call.createRsaPrivateKey p).args = (Call.createRsaPrivateKey q).args) :
    p.generation prompt = q.generation prompt := by
  simp only [Call.args,List.map_cons,List.map_nil,List.cons.injEq,Arg.value.injEq,Value.str.injEq,
    and_true] at h
  obtain ⟨hoption,hlength,hpassphrase⟩ := h
  rw [RsaPrivateKey.generation,RsaPrivateKey.generation,hoption,hlength,hpassphrase]

/-- All arguments of the step are hashed. -/
theorem CaCertificate.eq_of_args {p q : CaCertificate}
    (h : (Call.createCaCertificate p).args = (Call.createCaCertificate q).args) : p = q := by
  obtain ⟨key,passphrase,⟨commonName,_,_,_,_,_,_⟩,type,days,hash,extensions⟩ := p
  simp only [Call.args,Subject.place,List.cons_append,List.nil_append,List.map_cons,List.map_nil,
    List.cons.injEq,Arg.value.injEq,and_true] at h
  obtain ⟨rfl,rfl,rfl,rfl,rfl,rfl,rfl,rfl,rfl,rfl,rfl,rfl,rfl⟩ := h
  rfl

theorem SigningRequest.eq_of_args {p q : SigningRequest}
    (h : (Call.createCertificateSigningRequest p).args = (Call.createCertificateSigningRequest q).args) :
    p = q := by
  obtain ⟨key,passphrase,⟨commonName,_,_,_,_,_,_⟩,hash,challengePassword,companyName⟩ := p
  simp only [Call.args,Subject.place,List.cons_append,List.nil_append,List.map_cons,List.map_nil,
    List.cons.injEq,Arg.value.injEq,and_true] at h
  obtain ⟨rfl,rfl,rfl,rfl,rfl,rfl,rfl,rfl,rfl,rfl,rfl,rfl⟩ := h
  rfl

theorem SignedCertificate.eq_of_args {p q : SignedCertificate}
    (h : (Call.signCertificate p).args = (Call.signCertificate q).args) : p = q := by
  obtain ⟨csr,caCertificate,caKey,caPassphrase,type,hash,days⟩ := p
  simp only [Call.args,List.map_cons,List.map_nil,List.cons.injEq,Arg.value.injEq,and_true] at h
  obtain ⟨rfl,rfl,rfl,rfl,rfl,rfl,rfl⟩ := h
  rfl

theorem DhParams.eq_of_args {p q : DhParams}
    (h : (Call.createDhParams p).args = (Call.createDhParams q).args) : p = q := by
  obtain ⟨length⟩ := p
  simp only [Call.args,List.map_cons,List.map_nil,List.cons.injEq,Arg.value.injEq,and_true] at h
  obtain rfl := h
  rfl

theorem signWith_inj {p : IntermediateCa} {s t : Text} : signWith p s = signWith p t ↔ s = t := by
  constructor
  · intro h
    have hcommand := congrFun (congrArg Generation.command h) []
    exact List.append_cancel_right (List.append_cancel_left hcommand)
  · intro h
    rw [h]

/-- The extensions are a part of the command. -/
theorem IntermediateCa.generation_eq_iff {p q : IntermediateCa}
    (h : (Call.signIntermediateCaCertificate p).args = (Call.signIntermediateCaCertificate q).args) :
    p.generation = q.generation ↔ p.extensions.text = q.extensions.text := by
  obtain ⟨csr,caConfig,caPassphrase,type,days,extensions⟩ := p
  simp only [Call.args,List.cons.injEq,Arg.value.injEq,and_true,true_and] at h
  obtain ⟨rfl,rfl,rfl,rfl,rfl⟩ := h
  exact signWith_inj (p := q)

def Call.argCount : Call → ℕ
  | .createRsaPrivateKey _ => 3
  | .createCaCertificate _ => 13
  | .createCertificateSigningRequest _ => 12
  | .signIntermediateCaCertificate _ => 6
  | .signCertificate _ => 7
  | .createDhParams _ => 1

/-- The number of the arguments tells the steps apart. -/
theorem args_length (c : Call) : c.args.length = c.argCount := by
  cases c <;> rfl

theorem generation_eq_iff (prompt : Text) {c c' : Call} (h : c.args = c'.args) :
    c.generation prompt = c'.generation prompt ↔ c.unhashed = c'.unhashed := by
  have hcount : c.argCount = c'.argCount := by rw [← args_length,h,args_length]
  cases c <;> cases c' <;> simp only [Call.argCount,Nat.reduceEqDiff] at hcount
  case createRsaPrivateKey.createRsaPrivateKey p q =>
    exact iff_of_true (RsaPrivateKey.generation_eq prompt h) rfl
  case createCaCertificate.createCaCertificate p q =>
    exact iff_of_true (by rw [CaCertificate.eq_of_args h]) rfl
  case createCertificateSigningRequest.createCertificateSigningRequest p q =>
    exact iff_of_true (by rw [SigningRequest.eq_of_args h]) rfl
  case signIntermediateCaCertificate.signIntermediateCaCertificate p q =>
    exact (IntermediateCa.generation_eq_iff h).trans Option.some_inj.symm
  case signCertificate.signCertificate p q =>
    exact iff_of_true (by rw [SignedCertificate.eq_of_args h]) rfl
  case createDhParams.createDhParams p q =>
    exact iff_of_true (by rw [DhParams.eq_of_args h]) rfl

def Call.stashId {η : Type} (hash : List Arg → η) (c : Call) : η := hash c.args

theorem stash_iff {η : Type} (hash : List Arg → η) (hinj : Function.Injective hash) (prompt : Text)
    (c c' : Call) (h : c.stashId hash = c'.stashId hash) :
    c.generation prompt = c'.generation prompt ↔ c.unhashed = c'.unhashed :=
  generation_eq_iff prompt (hinj h)

/-- A key without a pass phrase. -/
def plainKey (algorithm : Text) : RsaPrivateKey where
  passphrase := .str []
  algorithm := .str algorithm

/-- Its algorithm is not used. -/
theorem plainKey_stashId (algorithm : Text) : (Call.createRsaPrivateKey (plainKey algorithm)).stashId id =
    [.value (.str []),.value (.int 2048),.value (.str [])] := rfl

theorem plainKey_unhashed (algorithm : Text) :
    (Call.createRsaPrivateKey (plainKey algorithm)).unhashed = Option.none := rfl

theorem stash_plainKey :
    (Call.createRsaPrivateKey (plainKey "aes256".toList)).generation [] =
      (Call.createRsaPrivateKey (plainKey "aes128".toList)).generation [] :=
  (stash_iff id Function.injective_id [] _ _ ((plainKey_stashId _).trans (plainKey_stashId _).symm)).2
    ((plainKey_unhashed _).trans (plainKey_unhashed _).symm)

/-- A request signed by one authority, with the extensions of the caller. -/
def signRequest (extensions : Text) : IntermediateCa where
  csr := .str "ca.csr".toList
  caConfig := .str "ca.cnf".toList
  caPassphrase := .str "secret".toList
  extensions := .str extensions

theorem stash_extensions :
    (Call.signIntermediateCaCertificate (signRequest "v3_intermediate_ca".toList)).stashId id =
        (Call.signIntermediateCaCertificate (signRequest "v3_ca".toList)).stashId id ∧
      (Call.signIntermediateCaCertificate (signRequest "v3_intermediate_ca".toList)).generation [] ≠
        (Call.signIntermediateCaCertificate (signRequest "v3_ca".toList)).generation [] := by
  refine ⟨rfl,?_⟩
  intro h
  have hargs : (Call.signIntermediateCaCertificate (signRequest "v3_intermediate_ca".toList)).args =
      (Call.signIntermediateCaCertificate (signRequest "v3_ca".toList)).args := rfl
  exact absurd ((generation_eq_iff [] hargs).1 h) (by decide)

end ClickHouseRegression.SslServer
