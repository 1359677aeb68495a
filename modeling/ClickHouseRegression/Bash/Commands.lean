import ClickHouseRegression.Bash.Lexer

/-! The commands of a command line and of the scripts it hands to `bash -c`. What stands before and
after a process substitution is listed apart from the commands in it. -/
namespace ClickHouseRegression.Bash

/-- The operator redirects to or from the next word; `<(` is a substitution. -/
def redirects (o : Text) : Bool := o.any isRedirection && o.getLast? ≠ some '('

/-- The words of each command. With the flag the next word is the target of a redirection. -/
def commands : Bool → List Token → List (List Text)
  | _,[] => [[]]
  | true,.word _ :: l => commands false l
  | false,.word w :: l => (commands false l).modifyHead (w :: ·)
  | _,.op o :: l => if redirects o then commands true l else [] :: commands false l

/-- A command that ends with `bash -c` and a script, before the script, and the script. -/
def splitScript (c : List Text) : Option (List Text × Text) :=
  match c.reverse with
  | script :: flag :: program :: before =>
    if program = "bash".toList ∧ flag = "-c".toList then
      some (before.reverse ++ [program,flag],script)
    else none
  | _ => none

/-- The command and those of its script. -/
def expandCommand (inner : Shell) (c : List Text) : List (List Text) :=
  match splitScript c with
  | none => [c]
  | some (before,script) =>
    match tokens inner script with
    | none => [c]
    | some l => before :: commands false l

/-- The commands of a line; `inner` is the shell that `bash -c` starts. -/
def lineCommands (sh inner : Shell) (t : Text) : Option (List (List Text)) :=
  (tokens sh t).map fun l => (commands false l).flatMap (expandCommand inner)

theorem commands_op (skip : Bool) (o : Text) (l : List Token) : commands skip (.op o :: l) =
    if redirects o then commands true l else [] :: commands false l := by
  cases skip
  · rfl
  · rfl

theorem commands_ne_nil (skip : Bool) (l : List Token) : commands skip l ≠ [] := by
  induction l generalizing skip with
  | nil => simp [commands]
  | cons t l ih =>
    cases t with
    | word w =>
      cases skip with
      | false =>
        obtain ⟨c,cs,hc⟩ := List.exists_cons_of_ne_nil (ih false)
        rw [commands,hc,List.modifyHead_cons]
        exact List.cons_ne_nil _ _
      | true =>
        rw [commands]
        exact ih false
    | op o =>
      rw [commands_op]
      split_ifs
      · exact ih true
      · exact List.cons_ne_nil _ _

theorem commands_words (ws : List Text) (l : List Token) :
    commands false (ws.map .word ++ l) = (commands false l).modifyHead (ws ++ ·) := by
  induction ws with
  | nil =>
    rw [List.map_nil,List.nil_append]
    exact (congrFun List.modifyHead_id _).symm
  | cons w ws ih =>
    rw [List.map_cons,List.cons_append,commands,ih,List.modifyHead_modifyHead]
    rfl

/-- An operator between commands. -/
theorem commands_append_op {o : Text} (h : redirects o = false) (skip : Bool) (l l' : List Token) :
    commands skip (l ++ .op o :: l') = commands skip l ++ commands false l' := by
  induction l generalizing skip with
  | nil =>
    rw [List.nil_append,commands_op,h,if_neg Bool.false_ne_true,commands]
    rfl
  | cons t l ih =>
    cases t with
    | word w =>
      cases skip with
      | false =>
        obtain ⟨c,cs,hc⟩ := List.exists_cons_of_ne_nil (commands_ne_nil false l)
        rw [List.cons_append,commands,commands,ih,hc,List.cons_append,List.modifyHead_cons,
          List.modifyHead_cons]
        rfl
      | true =>
        rw [List.cons_append,commands,commands]
        exact ih false
    | op o' =>
      rw [List.cons_append,commands_op,commands_op]
      split_ifs
      · exact ih true
      · rw [ih]
        rfl

theorem commands_word_list (ws : List Text) : commands false (ws.map .word) = [ws] := by
  have hwords := commands_words ws []
  rw [List.append_nil] at hwords
  rw [hwords,commands,List.modifyHead_cons,List.append_nil]

/-- A command without a script. -/
theorem expandCommand_eq_self {c : List Text} (h : splitScript c = none) (inner : Shell) :
    expandCommand inner c = [c] := by
  unfold expandCommand
  rw [h]

theorem splitScript_concat (before : List Text) (script : Text) :
    splitScript (before ++ ["bash".toList,"-c".toList,script]) =
      some (before ++ ["bash".toList,"-c".toList],script) := by
  unfold splitScript
  simp

end ClickHouseRegression.Bash
