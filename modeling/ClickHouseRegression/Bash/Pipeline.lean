import ClickHouseRegression.Bash.Quoting
import ClickHouseRegression.Bash.Echo

/-! A pipeline that starts with `echo -e "…"` hands the text in the quotes to its second command
exactly if the text is literal for the double quotes and for `echo`. -/
namespace ClickHouseRegression.Bash

/-- The words of the first command of a pipeline and the tokens after the pipe. -/
def pipeline : List Token → Option (List Text × List Token)
  | [] => none
  | .word w :: l => (pipeline l).map fun p => (w :: p.1,p.2)
  | .op o :: l => if o = ['|'] then some ([],l) else none

theorem pipeline_words (args : List Text) (rest : List Token) :
    pipeline (args.map .word ++ .op ['|'] :: rest) = some (args,rest) := by
  induction args with
  | nil => rfl
  | cons a args ih =>
    rw [List.map_cons,List.cons_append,pipeline,ih]
    rfl

theorem leading_of_pipeline {l : List Token} {args : List Text} {rest : List Token}
    (h : pipeline l = some (args,rest)) : leading l = argsWeight args := by
  induction l generalizing args with
  | nil => cases h
  | cons t l ih =>
    cases t with
    | word w =>
      obtain ⟨⟨args',rest'⟩,hp,heq⟩ := Option.map_eq_some_iff.1 h
      cases heq
      rw [leading,ih hp]
      simp [argsWeight]
    | op o =>
      rw [pipeline] at h
      split_ifs at h
      cases h
      rfl

/-- The text is the same for the double quotes and for `echo -e`. -/
def EchoLiteral (t : Text) : Prop :=
  DoubleLiteral t ∧ echoOption t = false ∧ echoLiteral t = true

instance (t : Text) : Decidable (EchoLiteral t) := inferInstanceAs (Decidable (_ ∧ _ ∧ _))

/-- The first command of such a pipeline, with the pipe. -/
def echoPipe (t : Text) : Text := "echo -e \"".toList ++ t ++ "\" | ".toList

theorem lex_echoPipe_start (sh : Shell) (acc : List Token) (t rest : Text) :
    lex sh acc (.plain .none) 0 (echoPipe t ++ rest) =
      lex sh (.word "-e".toList :: .word "echo".toList :: acc) (.double []) 0
        (t ++ '"' :: ' ' :: '|' :: ' ' :: rest) := by
  have hpipe : "\" | ".toList ++ rest = '"' :: ' ' :: '|' :: ' ' :: rest := by
    simp only [String.reduceToList]
    rfl
  unfold echoPipe
  rw [List.append_assoc,List.append_assoc,hpipe]
  simp only [String.reduceToList]
  rfl

theorem lex_pipe (sh : Shell) (acc : List Token) (w rest : Text) :
    lex sh acc (.plain (.word w)) 0 (' ' :: '|' :: ' ' :: rest) =
      lex sh (.op ['|'] :: .word w.reverse :: acc) (.plain .none) 0 rest := rfl

theorem lex_echoPipe (sh : Shell) (acc : List Token) {t : Text} (h : DoubleLiteral t) (rest : Text) :
    lex sh acc (.plain .none) 0 (echoPipe t ++ rest) =
      lex sh (.op ['|'] :: .word t :: .word "-e".toList :: .word "echo".toList :: acc)
        (.plain .none) 0 rest := by
  rw [lex_echoPipe_start,lex_doubleLiteral sh _ [] h,lex_pipe,List.append_nil,List.reverse_reverse]

theorem echo_length_le_weight {args : List Text} (h : args ≠ []) :
    (echo ("-e".toList :: args)).length ≤ argsWeight args := by
  have he : echoOption "-e".toList = true := by rfl
  have hle := echo_length_le ("-e".toList :: args)
  rw [List.dropWhile_cons_of_pos he] at hle
  have hdrop := argsWeight_dropWhile_le args echoOption
  by_cases hnil : args.dropWhile echoOption = []
  · rw [hnil] at hle
    have hjoin := intercalate_length h
    simp only [List.intercalate_nil,List.length_nil] at hle
    omega
  · have hjoin := intercalate_length hnil
    omega

theorem tame_pipe {rest : Text} (htame : ∀ c ∈ rest, tameChar c = true) :
    ∀ c ∈ ' ' :: '|' :: ' ' :: rest, tameChar c = true := by
  intro c hc
  simp only [List.mem_cons] at hc
  rcases hc with rfl | rfl | rfl | hc
  · decide
  · decide
  · decide
  · exact htame c hc

/-- Double quotes that are open at the pipe are not closed by an even number of quotes. -/
theorem double_not_closed {rest : Text} (htame : ∀ c ∈ rest, tameChar c = true)
    (hquotes : rest.count '"' % 2 = 0) (w : Text) :
    lex emptyShell [] (.double w) 0 (' ' :: '|' :: ' ' :: rest) = none := by
  by_contra hne
  have hodd := (lex_parity emptyShell (tame_pipe htame)).2 [] w hne
  simp only [List.count_cons_of_ne (by decide : ' ' ≠ '"'),List.count_cons_of_ne (by decide : '|' ≠ '"')]
    at hodd
  omega

theorem single_not_closed {rest : Text} (htame : ∀ c ∈ rest, tameChar c = true) (w : Text) :
    lex emptyShell [] (.single w) 0 ('"' :: ' ' :: '|' :: ' ' :: rest) = none := by
  refine lex_single_none emptyShell [] w fun c hc => ?_
  rcases List.mem_cons.1 hc with rfl | hc
  · decide
  · exact tame_pipe htame c hc

/-- In a shell where every expansion gives nothing, only literal text arrives. -/
theorem echoLiteral_of_pipeline {t rest : Text} (htame : ∀ c ∈ rest, tameChar c = true)
    (hquotes : rest.count '"' % 2 = 0) {l right : List Token} {args : List Text}
    (h : lex emptyShell [] (.plain .none) 0 (echoPipe t ++ rest) = some l)
    (hp : pipeline l = some ("echo".toList :: args,right))
    (hout : echo args = (t ++ ['\n']).map .char) : EchoLiteral t := by
  have hdouble := double_not_closed htame hquotes
  have hsingle := single_not_closed htame
  rw [lex_echoPipe_start,lex_acc] at h
  obtain ⟨l',hl',rfl⟩ := Option.map_eq_some_iff.1 h
  -- the words after `echo -e` come from the quoted text
  obtain ⟨args',rfl,hp'⟩ : ∃ args', args = "-e".toList :: args' ∧ pipeline l' = some (args',right) := by
    obtain ⟨p,hp1,heq⟩ := Option.map_eq_some_iff.1 hp
    obtain ⟨q,hq1,heq'⟩ := Option.map_eq_some_iff.1 hp1
    cases heq'
    cases heq
    exact ⟨_,rfl,hq1⟩
  obtain ⟨x,more,hcont⟩ := lex_continues emptyShell (w := []) rfl hl'
  obtain ⟨a,as,rfl⟩ : ∃ a as, args' = a :: as := by
    rw [hcont] at hp'
    obtain ⟨p,-,heq⟩ := Option.map_eq_some_iff.1 hp'
    cases heq
    exact ⟨_,_,rfl⟩
  have hlead := leading_of_pipeline hp'
  have hweight := echo_length_le_weight (List.cons_ne_nil a as)
  have hlen := congrArg List.length hout
  rw [List.length_map,List.length_append,List.length_singleton] at hlen
  have hliteral : DoubleLiteral t :=
    doubleLiteral_of_leading hdouble hsingle hl' (by rw [List.length_nil]; omega)
  have hmost := (leading_le hdouble hsingle t).1 _ _ hl'
  simp only [Mode.letters,List.length_nil] at hmost
  have hecho : argsWeight (a :: as) ≤ (echo ("-e".toList :: a :: as)).length := by omega
  obtain ⟨hoption,hescape⟩ := literal_of_echo_length hecho
  -- for literal text there is one word, the text
  obtain ⟨rfl,rfl⟩ : a = t ∧ as = [] := by
    rw [lex_doubleLiteral emptyShell [] [] hliteral,lex_pipe,List.append_nil,List.reverse_reverse,
      lex_acc] at hl'
    obtain ⟨l₂,-,rfl⟩ := Option.map_eq_some_iff.1 hl'
    have hone := (pipeline_words [t] l₂).symm.trans hp'
    cases hone
    exact ⟨rfl,rfl⟩
  rw [List.intercalate_singleton] at hescape
  exact ⟨hliteral,hoption,hescape⟩

end ClickHouseRegression.Bash
