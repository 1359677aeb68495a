import ClickHouseRegression.Sql.Split
import ClickHouseRegression.Text.Lines

/-! The `alter` privileges that the RBAC tests grant for a number, as SQL text, and the checks they make for
the same number. The server reads the text that it is given; both sides agree. -/
namespace ClickHouseRegression.Rbac

structure Subprivilege where
  name : Text
  aliases : List Text
  nonempty : aliases ≠ []

/-- `subprivileges`, the i-th with the bit `1 << i`, with their `aliases`, and those of the super-privilege. -/
structure Family where
  subprivileges : List Subprivilege
  superAliases : List Text

/-- `aliases[name][grants % len(aliases[name])]`. -/
def Subprivilege.spelling (p : Subprivilege) (grants : ℕ) : Text :=
  p.aliases.get ⟨grants % p.aliases.length,Nat.mod_lt _ (List.length_pos_of_ne_nil p.nonempty)⟩

/-- `grants & (1 << i)`. -/
def hasBit (grants i : ℕ) : Bool := decide (grants &&& (1 <<< i) ≠ 0)

def noneAlias : Text := "NONE".toList

namespace Family

def permutationCount (f : Family) : ℕ := 1 <<< f.subprivileges.length

def chosen (f : Family) (grants : ℕ) : List Subprivilege :=
  (f.subprivileges.zipIdx.filter fun p => hasBit grants p.2).map Prod.fst

/-- Beyond the aliases of the super-privilege there is an `IndexError`. -/
def privilegeList (f : Family) (grants : ℕ) : Option (List Text) :=
  if grants ≥ f.permutationCount then f.superAliases[grants-f.permutationCount]?.map ([·])
  else if grants = 0 then some [noneAlias]
  else some ((f.chosen grants).map fun p => p.spelling grants)

def privileges (f : Family) (grants : ℕ) : Option Text :=
  (f.privilegeList grants).map (", ".toList.intercalate ·)

/-- All subprivileges are checked in place of the super-privilege. -/
def clamped (f : Family) (grants : ℕ) : ℕ :=
  if grants > f.permutationCount-1 then f.permutationCount-1 else grants

/-- The checks in their order, each with whether the privilege counts as granted. -/
def privilegeHandler (f : Family) (grants : ℕ) : List (Text × Bool) :=
  f.subprivileges.zipIdx.map fun p => (p.1.name,hasBit (f.clamped grants) p.2)

end Family

def alterColumn : Family where
  subprivileges := [⟨"ADD COLUMN".toList,["ALTER ADD COLUMN".toList,"ADD COLUMN".toList],by decide⟩,
    ⟨"CLEAR COLUMN".toList,["ALTER CLEAR COLUMN".toList,"CLEAR COLUMN".toList],by decide⟩,
    ⟨"MODIFY COLUMN".toList,["ALTER MODIFY COLUMN".toList,"MODIFY COLUMN".toList],by decide⟩,
    ⟨"RENAME COLUMN".toList,["ALTER RENAME COLUMN".toList,"RENAME COLUMN".toList],by decide⟩,
    ⟨"COMMENT COLUMN".toList,["ALTER COMMENT COLUMN".toList,"COMMENT COLUMN".toList],by decide⟩,
    ⟨"DROP COLUMN".toList,["ALTER DROP COLUMN".toList,"DROP COLUMN".toList],by decide⟩]
  superAliases := ["ALTER COLUMN".toList,"ALL".toList]

def alterIndex : Family where
  subprivileges := [⟨"ORDER BY".toList,["ALTER ORDER BY".toList,"ALTER MODIFY ORDER BY".toList,
      "MODIFY ORDER BY".toList],by decide⟩,
    ⟨"SAMPLE BY".toList,["ALTER SAMPLE BY".toList,"ALTER MODIFY SAMPLE BY".toList,
      "MODIFY SAMPLE BY".toList],by decide⟩,
    ⟨"ADD INDEX".toList,["ALTER ADD INDEX".toList,"ADD INDEX".toList],by decide⟩,
    ⟨"MATERIALIZE INDEX".toList,["ALTER MATERIALIZE INDEX".toList,"MATERIALIZE INDEX".toList],by decide⟩,
    ⟨"CLEAR INDEX".toList,["ALTER CLEAR INDEX".toList,"CLEAR INDEX".toList],by decide⟩,
    ⟨"DROP INDEX".toList,["ALTER DROP INDEX".toList,"DROP INDEX".toList],by decide⟩]
  superAliases := ["ALTER INDEX".toList,"INDEX".toList,"ALL".toList]

def alterConstraint : Family where
  subprivileges := [⟨"ADD CONSTRAINT".toList,["ALTER ADD CONSTRAINT".toList,"ADD CONSTRAINT".toList],by decide⟩,
    ⟨"DROP CONSTRAINT".toList,["ALTER DROP CONSTRAINT".toList,"DROP CONSTRAINT".toList],by decide⟩]
  superAliases := ["ALTER CONSTRAINT".toList,"CONSTRAINT".toList,"ALL".toList]

/-- The stress run of a family. -/
def Family.allPermutations (f : Family) : List ℕ := List.range (f.permutationCount+f.superAliases.length)

def singleBits (f : Family) : List ℕ := (List.range f.subprivileges.length).map fun index => 1 <<< index

def alterColumnPermutations (stress : Bool) : List ℕ :=
  if stress then alterColumn.allPermutations
  else singleBits alterColumn++[0,0b101010,alterColumn.permutationCount-1,alterColumn.permutationCount]

def alterIndexPermutations (stress mergeTree : Bool) : List ℕ :=
  if stress || mergeTree then alterIndex.allPermutations
  else singleBits alterIndex++[0,0b101010,alterIndex.permutationCount-1,alterIndex.permutationCount,
    alterIndex.permutationCount+1]

def alterConstraintPermutations : List ℕ := alterConstraint.allPermutations

/-- `on_columns`. -/
def onColumns (privileges columns : Text) : Text :=
  ", ".toList.intercalate ((privileges.splitOn ',').map fun privilege => privilege++ '(' :: columns++[')'])

/-! What a server takes from the text of a `GRANT`. -/

/-- The name and the columns of one element. -/
def grantElement (t : Text) : Text × Option Text :=
  let t := t.strip
  (t.takeWhile (· ≠ '('),if '(' ∈ t then some ((t.dropWhile (· ≠ '(')).tail.dropLast) else none)

def grantElements (t : Text) : Option (List (Text × Option Text)) := (Sql.pieces t).map (·.map grantElement)

/-- The text grants a privilege, on the table or on columns, when one of its elements does; what a name `covers`
is the server's matter. -/
def Granted (covers : Text → Text → Bool) (t privilege : Text) (columns : Option Text) : Prop :=
  ∃ elements, grantElements t = some elements ∧
    ∃ element ∈ elements, covers element.1 privilege = true ∧ element.2 = columns

/-- A row that the server answers `SHOW PRIVILEGES` with, but for the level. -/
structure PrivilegeRow where
  privilege : Text
  aliases : List Text
  parentGroup : Option Text

/-- A privilege with the groups that it is in. -/
def groupsOf (rows : List PrivilegeRow) : ℕ → Text → List Text
  | 0,_ => []
  | depth+1,privilege =>
    match rows.find? (fun row => row.privilege = privilege) with
    | none => []
    | some row => privilege :: match row.parentGroup with
      | none => []
      | some group => groupsOf rows depth group

/-- A name of a privilege or of a group covers what is in it. -/
def PrivilegeRow.covers (rows : List PrivilegeRow) (name privilege : Text) : Bool :=
  rows.any fun row => decide (name ∈ row.privilege :: row.aliases) &&
    decide (row.privilege ∈ groupsOf rows rows.length privilege)

/-- `01271_show_privileges.reference`: `ALTER TABLE` with the groups that the tests grant, what these are in, and
`NONE`. -/
def showPrivileges : List PrivilegeRow := [
  ⟨"ALTER UPDATE".toList,["UPDATE".toList],some "ALTER TABLE".toList⟩,
  ⟨"ALTER DELETE".toList,["DELETE".toList],some "ALTER TABLE".toList⟩,
  ⟨"ALTER ADD COLUMN".toList,["ADD COLUMN".toList],some "ALTER COLUMN".toList⟩,
  ⟨"ALTER MODIFY COLUMN".toList,["MODIFY COLUMN".toList],some "ALTER COLUMN".toList⟩,
  ⟨"ALTER DROP COLUMN".toList,["DROP COLUMN".toList],some "ALTER COLUMN".toList⟩,
  ⟨"ALTER COMMENT COLUMN".toList,["COMMENT COLUMN".toList],some "ALTER COLUMN".toList⟩,
  ⟨"ALTER CLEAR COLUMN".toList,["CLEAR COLUMN".toList],some "ALTER COLUMN".toList⟩,
  ⟨"ALTER RENAME COLUMN".toList,["RENAME COLUMN".toList],some "ALTER COLUMN".toList⟩,
  ⟨"ALTER MATERIALIZE COLUMN".toList,["MATERIALIZE COLUMN".toList],some "ALTER COLUMN".toList⟩,
  ⟨"ALTER COLUMN".toList,[],some "ALTER TABLE".toList⟩,
  ⟨"ALTER MODIFY COMMENT".toList,["MODIFY COMMENT".toList],some "ALTER TABLE".toList⟩,
  ⟨"ALTER ORDER BY".toList,["ALTER MODIFY ORDER BY".toList,"MODIFY ORDER BY".toList],some "ALTER INDEX".toList⟩,
  ⟨"ALTER SAMPLE BY".toList,["ALTER MODIFY SAMPLE BY".toList,"MODIFY SAMPLE BY".toList],some "ALTER INDEX".toList⟩,
  ⟨"ALTER ADD INDEX".toList,["ADD INDEX".toList],some "ALTER INDEX".toList⟩,
  ⟨"ALTER DROP INDEX".toList,["DROP INDEX".toList],some "ALTER INDEX".toList⟩,
  ⟨"ALTER MATERIALIZE INDEX".toList,["MATERIALIZE INDEX".toList],some "ALTER INDEX".toList⟩,
  ⟨"ALTER CLEAR INDEX".toList,["CLEAR INDEX".toList],some "ALTER INDEX".toList⟩,
  ⟨"ALTER INDEX".toList,["INDEX".toList],some "ALTER TABLE".toList⟩,
  ⟨"ALTER ADD CONSTRAINT".toList,["ADD CONSTRAINT".toList],some "ALTER CONSTRAINT".toList⟩,
  ⟨"ALTER DROP CONSTRAINT".toList,["DROP CONSTRAINT".toList],some "ALTER CONSTRAINT".toList⟩,
  ⟨"ALTER CONSTRAINT".toList,["CONSTRAINT".toList],some "ALTER TABLE".toList⟩,
  ⟨"ALTER TABLE".toList,[],some "ALTER".toList⟩,
  ⟨"ALTER".toList,[],some "ALL".toList⟩,
  ⟨"ALL".toList,["ALL PRIVILEGES".toList],none⟩,
  ⟨"NONE".toList,["USAGE".toList,"NO PRIVILEGES".toList],none⟩]

/-- The privilege that a check is about: that of `ALTER TABLE … ADD COLUMN` is `ALTER ADD COLUMN`. -/
def checkedPrivilege (check : Text) : Text := "ALTER ".toList++check

end ClickHouseRegression.Rbac
