import ClickHouseRegression.Text
import ClickHouseRegression.Steps.AddConfig

/-! `ldap_users`: users are added to the LDAP server one after the other and deleted in a `finally`
block. With the config files of the previous module this gives when cleaning up is complete. -/
namespace ClickHouseRegression.Steps
open Cleanup

/-- The arguments of `add_user_to_ldap`. -/
structure UserArgs where
  cn : Text
  userpassword : Text
  givenname : Option Text := none
  homedirectory : Option Text := none
  sn : Option Text := none
  uid : Option Text := none
  uidnumber : Option ℤ := none

/-- The user that `add_user_to_ldap` returns; its group and object classes are fixed. -/
structure LdapUser where
  dn : Text
  cn : Text
  givenname : Text
  homedirectory : Text
  sn : Text
  uid : Text
  uidnumber : ℤ
  userpassword : Text
  server : Text
  deriving DecidableEq

def ldapUser (server : Text) (args : UserArgs) : LdapUser where
  dn := "cn=".toList ++ args.cn ++ ",ou=users,dc=company,dc=com".toList
  cn := args.cn
  givenname := args.givenname.getD "John".toList
  homedirectory := args.homedirectory.getD "/home/users".toList
  sn := args.sn.getD "User".toList
  uid := args.uid.getD args.cn
  uidnumber := args.uidnumber.getD 2000
  userpassword := args.userpassword
  server := server

namespace LdapUser

/-- `f"{key}: {value}"`. -/
def line (key value : Text) : Text := key ++ ": ".toList ++ value

def ldif (u : LdapUser) : Text :=
  ['\n'].intercalate [line "dn".toList u.dn,line "cn".toList u.cn,
    line "gidnumber".toList (str 501),line "givenname".toList u.givenname,
    line "homedirectory".toList u.homedirectory,line "objectclass".toList "inetOrgPerson".toList,
    line "objectclass".toList "posixAccount".toList,line "objectclass".toList "top".toList,
    line "sn".toList u.sn,line "uid".toList u.uid,line "uidnumber".toList (str u.uidnumber),
    line "userpassword".toList u.userpassword]

/-- The options with which both commands log in. -/
def login : Text :=
  " -x -H ldap://localhost ".toList ++ "-D \"cn=admin,".toList ++ "dc=company,dc=com\"".toList ++
    " -w admin".toList

def addCommand (u : LdapUser) : Text :=
  "echo -e \"".toList ++ u.ldif ++ "\" | ldapadd".toList ++ login

def deleteCommand (u : LdapUser) : Text :=
  "ldapdelete".toList ++ login ++ " \"".toList ++ u.dn ++ "\"".toList

end LdapUser

/-- A command on the LDAP server with its exit code. -/
inductive LdapEvent
  | ldapadd (user : LdapUser) (exitcode : ℤ)
  | ldapdelete (user : LdapUser) (exitcode : ℤ)

namespace LdapEvent

def command : LdapEvent → Text
  | ldapadd user _ => user.addCommand
  | ldapdelete user _ => user.deleteCommand

/-- The user, if the command added it. -/
def added : LdapEvent → Option LdapUser
  | ldapadd user exitcode => if exitcode = 0 then some user else none
  | ldapdelete _ _ => none

/-- The user that the command is to delete. -/
def deleted : LdapEvent → Option LdapUser
  | ldapadd _ _ => none
  | ldapdelete user _ => some user

end LdapEvent

def addUserToLdap (server : Text) (exitcode : ℤ) (args : UserArgs) : Outcome LdapEvent :=
  ⟨[.ldapadd (ldapUser server args) exitcode],exitcode ≠ 0⟩

def deleteUserFromLdap (exitcode : ℤ) (user : LdapUser) : Outcome LdapEvent :=
  ⟨[.ldapdelete user exitcode],exitcode ≠ 0⟩

section
variable (server : Text) (addCode deleteCode : ℕ → ℤ) (bodyRaises : Bool) (users : List UserArgs)

def addUsers : Outcome LdapEvent := forEach (fun i => addUserToLdap server (addCode i)) users

/-- The variable `_users` when the `finally` block starts. -/
def addedUsers : List LdapUser := (addUsers server addCode users).events.filterMap LdapEvent.added

def deleteUsers (users : List LdapUser) : Outcome LdapEvent :=
  forEach (fun i => deleteUserFromLdap (deleteCode i)) users

def ldapUsers : Outcome LdapEvent :=
  ((addUsers server addCode users).andThen ⟨[],bodyRaises⟩).tryFinally
    (deleteUsers deleteCode (addedUsers server addCode users))

theorem addedUsers_length (i : ℕ) :
    i < (addedUsers server addCode users).length ↔
      i < users.length ∧ ∀ j ≤ i, addCode j = 0 := by
  have hadded : addedUsers server addCode users =
      (forEach (fun i args => ⟨if decide (addCode i ≠ 0) then [] else [ldapUser server args],
        decide (addCode i ≠ 0)⟩) users).events := by
    rw [addedUsers,addUsers,forEach_filterMap]
    congr 2
    funext i args
    by_cases h : addCode i = 0
    · simp [addUserToLdap,LdapEvent.added,h]
    · simp [addUserToLdap,LdapEvent.added,h]
  rw [hadded,forEach_passed_length (fun i => decide (addCode i ≠ 0)) (ldapUser server)]
  simp

theorem ldapUsers_added :
    (ldapUsers server addCode deleteCode bodyRaises users).events.filterMap LdapEvent.added =
      addedUsers server addCode users := by
  have hbody : ((addUsers server addCode users).andThen ⟨[],bodyRaises⟩).events =
      (addUsers server addCode users).events := by
    rw [Outcome.andThen]
    split
    · rfl
    · exact List.append_nil _
  have hdelete : (deleteUsers deleteCode (addedUsers server addCode users)).events.filterMap
      LdapEvent.added = [] := by
    rw [List.filterMap_eq_nil_iff]
    intro e he
    obtain ⟨i,u,-,hmem,-⟩ := (mem_forEach _ _ _).1 he
    rw [List.mem_singleton.1 hmem]
    rfl
  rw [ldapUsers,Outcome.tryFinally,List.filterMap_append,hbody,hdelete,List.append_nil]
  rfl

theorem ldapUsers_deleted :
    (ldapUsers server addCode deleteCode bodyRaises users).events.filterMap LdapEvent.deleted =
      (forEach (fun i u => ⟨[u],decide (deleteCode i ≠ 0)⟩)
        (addedUsers server addCode users)).events := by
  have hadd : ((addUsers server addCode users).andThen ⟨[],bodyRaises⟩).events.filterMap
      LdapEvent.deleted = [] := by
    rw [List.filterMap_eq_nil_iff]
    intro e he
    rcases (Outcome.mem_andThen _ _ _).1 he with he | he
    · obtain ⟨i,args,-,hmem,-⟩ := (mem_forEach _ _ _).1 he
      rw [List.mem_singleton.1 hmem]
      rfl
    · exact absurd he.2 List.not_mem_nil
  rw [ldapUsers,Outcome.tryFinally,List.filterMap_append,hadd,List.nil_append,deleteUsers,
    forEach_filterMap]
  rfl

/-- A delete is issued once for every added user and no other if and only if every delete but that
of the last added user succeeds. -/
theorem ldapUsers_deletes_iff :
    ((ldapUsers server addCode deleteCode bodyRaises users).events.filterMap
        LdapEvent.deleted).Perm
      ((ldapUsers server addCode deleteCode bodyRaises users).events.filterMap LdapEvent.added) ↔
      ∀ i, i+1 < users.length → (∀ j ≤ i+1, addCode j = 0) → deleteCode i = 0 := by
  rw [ldapUsers_added,ldapUsers_deleted]
  have hperm : ∀ us : List LdapUser,
      (forEach (fun i u => ⟨[u],decide (deleteCode i ≠ 0)⟩) us).events.Perm us ↔
        ∀ i, i+1 < us.length → deleteCode i = 0 := by
    intro us
    have hiff := forEach_single_iff (fun i => decide (deleteCode i ≠ 0)) us
    constructor
    · intro hp
      have heq := (forEach_single_isPrefix (fun i => decide (deleteCode i ≠ 0)) us).eq_of_length
        hp.length_eq
      simpa using hiff.1 heq
    · intro h
      rw [hiff.2 (by simpa using h)]
  rw [hperm]
  simp only [addedUsers_length,and_imp]

end

/-- Cleaning up is complete exactly if no removal that has others after it fails: for config files
the removal must arrive at `rm` for every node on which the file was written, and for users every
delete but the last must succeed. -/
theorem cleanup_complete_iff {ν : Type} [DecidableEq ν] (o : ConfigOptions)
    (setUp removal : Circumstances) (bodyRaises : Bool) (nodes : List ν) (server : Text)
    (addCode deleteCode : ℕ → ℤ) (users : List UserArgs) :
    ((∀ node, (node,.writeConfig) ∈ (addConfig o false setUp removal bodyRaises nodes).events →
        (node,.removeConfig) ∈ (addConfig o false setUp removal bodyRaises nodes).events) ↔
      ∀ node ∈ nodes, ArrivesFor (setUpActions o) setUp (beforeWrite o).length nodes node →
        ArrivesFor (removeActions o) removal tailActions.length nodes node) ∧
    (((ldapUsers server addCode deleteCode bodyRaises users).events.filterMap
          LdapEvent.deleted).Perm
        ((ldapUsers server addCode deleteCode bodyRaises users).events.filterMap
          LdapEvent.added) ↔
      ∀ i, i+1 < users.length → (∀ j ≤ i+1, addCode j = 0) → deleteCode i = 0) := by
  constructor
  · exact addConfig_removes_iff o setUp removal bodyRaises nodes
  · exact ldapUsers_deletes_iff server addCode deleteCode bodyRaises users

/-- No faults, and checks that succeed at the first poll. -/
def smooth : Circumstances := ⟨fun _ => 1,fun _ _ => .none⟩

/-- The assertion on the preprocessed config fails on the first node. -/
def assertionFails : Circumstances :=
  ⟨fun _ => 1,fun i j => if i = 0 ∧ j = 7 then .after else .none⟩

/-- After a failed assertion the second node keeps its config, and after a failed delete the
second user stays. -/
theorem cleanup_incomplete :
    ¬ (∀ node, (node,.writeConfig) ∈ (addConfig ⟨false,false,true⟩ false smooth assertionFails false
          [1,2]).events →
        (node,.removeConfig) ∈ (addConfig ⟨false,false,true⟩ false smooth assertionFails false
          [1,2]).events) ∧
      ¬ ((ldapUsers "openldap1".toList (fun _ => 0) (fun _ => 32) false
            [{ cn := "user1".toList, userpassword := [] },
              { cn := "user2".toList, userpassword := [] }]).events.filterMap
          LdapEvent.deleted).Perm
        ((ldapUsers "openldap1".toList (fun _ => 0) (fun _ => 32) false
            [{ cn := "user1".toList, userpassword := [] },
              { cn := "user2".toList, userpassword := [] }]).events.filterMap LdapEvent.added) := by
  constructor
  · intro h
    exact absurd (h 2 (by decide +kernel)) (by decide +kernel)
  · intro h
    exact absurd h.length_eq (by decide +kernel)

end ClickHouseRegression.Steps
