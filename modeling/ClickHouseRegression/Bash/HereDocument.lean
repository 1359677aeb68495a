import ClickHouseRegression.Bash.Expansion

/-! Here-documents with an unquoted delimiter: bash drops every backslash followed by a newline,
takes the lines up to the first one equal to the delimiter, and expands them. -/
namespace ClickHouseRegression.Bash

/-- The characters that a backslash quotes in a here-document. -/
def hereDocEscaped (c : Char) : Bool := c = '$' || c = '`' || c = '\\'

/-- The text with each backslash-newline pair left out. -/
def joinLines : Text → Text
  | [] => []
  | [a] => [a]
  | a :: b :: rest =>
    if a = '\\' then if b = '\n' then joinLines rest else a :: b :: joinLines rest
    else a :: joinLines (b :: rest)

/-- The lines before the first one equal to the delimiter; `line` holds the part of the current
line already read. There is no result if the input ends before. -/
def document (delimiter : Text) : Text → Text → Option Text
  | _,[] => none
  | line,c :: rest =>
    if c = '\n' then
      if line = delimiter then some []
      else (document delimiter [] rest).map fun body => line ++ '\n' :: body
    else document delimiter (line ++ [c]) rest

/-- What a here-document stands for, given the input after the command line. -/
def hereDocument (sh : Shell) (delimiter input : Text) : Option Text :=
  (document delimiter [] (joinLines input)).map (expand hereDocEscaped sh)

theorem joinLines_length (t : Text) :
    (joinLines t).length ≤ t.length ∧ ((joinLines t).length = t.length → joinLines t = t) := by
  fun_induction joinLines t with
  | case1 => simp
  | case2 a => simp
  | case3 rest ih =>
    simp only [List.length_cons]
    constructor
    · omega
    · intro h
      omega
  | case4 b rest hb ih =>
    simp only [List.length_cons] at ih ⊢
    refine ⟨by omega,fun h => ?_⟩
    rw [ih.2 (by omega)]
  | case5 a b rest ha ih =>
    simp only [List.length_cons] at ih ⊢
    refine ⟨by omega,fun h => ?_⟩
    rw [ih.2 (by omega)]

theorem joinLines_of_isChain {t : Text}
    (h : t.IsChain fun a b => ¬ (a = '\\' ∧ b = '\n')) : joinLines t = t := by
  fun_induction joinLines t with
  | case1 => rfl
  | case2 a => rfl
  | case3 rest ih => exact absurd ⟨rfl,rfl⟩ (List.isChain_cons_cons.1 h).1
  | case4 b rest hb ih => rw [ih (List.isChain_cons_cons.1 h).2.tail]
  | case5 a b rest ha ih => rw [ih (List.isChain_cons_cons.1 h).2]

/-- A document is followed by the delimiter in the input. -/
theorem document_prefix {delimiter line input body : Text}
    (h : document delimiter line input = some body) :
    ∃ rest, line ++ input = body ++ delimiter ++ '\n' :: rest := by
  induction input generalizing line body with
  | nil => cases h
  | cons c input ih =>
    rw [document] at h
    split_ifs at h with hc hline
    · cases h
      exact ⟨input,by simp [hc,hline]⟩
    · obtain ⟨b,hb,rfl⟩ := Option.map_eq_some_iff.1 h
      obtain ⟨rest,hrest⟩ := ih hb
      rw [List.nil_append] at hrest
      exact ⟨rest,by simp [hc,hrest]⟩
    · obtain ⟨rest,hrest⟩ := ih h
      exact ⟨rest,by simpa using hrest⟩

theorem document_delimiter {delimiter : Text} (h : '\n' ∉ delimiter) (line : Text) (t : Text)
    (ht : line ++ t = delimiter) : document delimiter line (t ++ ['\n']) = some [] := by
  induction t generalizing line with
  | nil =>
    rw [List.append_nil] at ht
    simp [document,ht]
  | cons c t ih =>
    have hc : c ≠ '\n' := by
      rintro rfl
      exact h (ht ▸ by simp)
    rw [List.cons_append,document,if_neg hc]
    exact ih (line ++ [c]) (by simpa using ht)

/-- With the delimiter on a line of its own after the content, the whole content is the
document exactly if no line of it is the delimiter. -/
theorem document_eq_content_iff {delimiter : Text} (h : '\n' ∉ delimiter) {line : Text}
    (hline : '\n' ∉ line) (content : Text) :
    document delimiter line (content ++ '\n' :: (delimiter ++ ['\n'])) =
        some (line ++ content ++ ['\n']) ↔
      delimiter ∉ (line ++ content).splitOn '\n' := by
  have hend := document_delimiter h [] delimiter rfl
  induction content generalizing line with
  | nil =>
    rw [List.append_nil,List.splitOn_eq_singleton hline,List.nil_append,document,if_pos rfl,hend,
      List.mem_singleton]
    split_ifs with hl
    · simp [hl]
    · simpa using Ne.symm hl
  | cons c content ih =>
    by_cases hc : c = '\n'
    · subst hc
      have ihc := ih (by simp : '\n' ∉ ([] : Text))
      rw [List.nil_append] at ihc
      rw [List.splitOn_append_cons_self_of_not_mem hline,List.mem_cons,not_or,List.cons_append,
        document,if_pos rfl]
      split_ifs with hl
      · simp [hl]
      · rw [and_iff_right (Ne.symm hl)]
        refine Iff.trans ?_ ihc
        simp
    · have hline' : '\n' ∉ line ++ [c] := by simp [hline,Ne.symm hc]
      have ihc := ih hline'
      rw [List.cons_append,document,if_neg hc]
      simpa using ihc

/-- The input that a here-document command gives after its first line, with the newline that
ends the command. -/
def documentInput (content delimiter : Text) : Text := content ++ '\n' :: (delimiter ++ ['\n'])

/-- A here-document delivers its content, in every state of the shell, exactly if nothing in
the content is expanded or escaped and no line of it is the delimiter. -/
theorem hereDocument_delivers_iff {delimiter : Text} (hn : '\n' ∉ delimiter)
    (hb : '\\' ∉ delimiter) (content : Text) :
    (∀ sh, hereDocument sh delimiter (documentInput content delimiter) =
        some (content ++ ['\n'])) ↔
      Inert hereDocEscaped (content ++ ['\n']) ∧ delimiter ∉ content.splitOn '\n' := by
  have hiff := document_eq_content_iff hn (by simp : '\n' ∉ ([] : Text)) content
  rw [List.nil_append] at hiff
  constructor
  · intro hall
    obtain ⟨body,hbody,hexp⟩ := Option.map_eq_some_iff.1 (hall fun _ => ([],0))
    -- every stage can only lose characters, so all of them must be the identity
    have hshrink := expand_shrinks hereDocEscaped (fun _ => ([],0)) (fun _ => rfl) body
    have hjoin := joinLines_length (documentInput content delimiter)
    obtain ⟨rest,hrest⟩ := document_prefix hbody
    have hlen := congrArg List.length hrest
    have hlen' := congrArg List.length hexp
    simp only [documentInput,List.nil_append,List.length_append,List.length_cons,
      List.length_nil] at hlen hlen' hjoin
    have hsame : joinLines (documentInput content delimiter) = documentInput content delimiter :=
      hjoin.2 (by omega)
    have hbodyeq : body = content ++ ['\n'] := by
      rw [hsame,documentInput] at hrest
      have hp : body <+: content ++ ['\n'] := by
        have hall : body <+: content ++ '\n' :: (delimiter ++ ['\n']) :=
          ⟨delimiter ++ '\n' :: rest,by simpa using hrest.symm⟩
        have hcontent : content ++ ['\n'] <+: content ++ '\n' :: (delimiter ++ ['\n']) :=
          ⟨delimiter ++ ['\n'],by simp⟩
        refine List.prefix_of_prefix_length_le hall hcontent ?_
        simp only [List.length_append,List.length_singleton]
        omega
      exact hp.eq_of_length (by simp only [List.length_append,List.length_singleton]; omega)
    rw [hsame,hbodyeq] at hbody
    rw [hbodyeq] at hshrink hexp
    exact ⟨hshrink.2 (by rw [hexp]),hiff.1 hbody⟩
  · rintro ⟨hinert,hlines⟩ sh
    have hchain : (documentInput content delimiter).IsChain fun a b => ¬ (a = '\\' ∧ b = '\n') := by
      rw [documentInput,List.isChain_split]
      refine ⟨hinert.2.imp fun a b hs => ((special_eq_false_iff hereDocEscaped).1 hs).1,?_⟩
      rw [List.isChain_iff_forall_rel_of_append_cons_cons]
      rintro a b l₁ l₂ hl ⟨rfl,-⟩
      have hmem : '\\' ∈ '\n' :: (delimiter ++ ['\n']) := by
        rw [hl]
        simp
      simp [hb] at hmem
    rw [hereDocument,joinLines_of_isChain hchain,documentInput,hiff.2 hlines,Option.map_some,
      expand_of_inert _ _ hinert]

end ClickHouseRegression.Bash
