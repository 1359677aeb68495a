import ClickHouseRegression.Bash.HereDocument

/-! The steps that write a file on a node through a here-document: `add_config`,
`create_file_on_node` and `copy`. -/
namespace ClickHouseRegression.Helpers
open Bash

/-- A step that writes text to a file. -/
inductive FileWriter
  | addConfig
  | createFileOnNode
  | copy
  deriving DecidableEq

/-- The delimiter of the step's here-document, unquoted in the command; `copy` has `eof="EOF"`. -/
def FileWriter.delimiter : FileWriter → Text
  | addConfig => "HEREDOC".toList
  | createFileOnNode => "HEREDOC".toList
  | copy => "EOF".toList

/-- The lines of the command after its first, `cat <<HEREDOC > path` or `cat << EOF > path`. -/
def FileWriter.rest (w : FileWriter) (content : Text) : Text :=
  content ++ '\n' :: w.delimiter

/-- The text that `cat` gets from these lines and the newline that ends the command; none
if the document does not end. -/
def FileWriter.written (w : FileWriter) (sh : Shell) (content : Text) : Option Text :=
  hereDocument sh w.delimiter (w.rest content ++ ['\n'])

/-- The content has no backquote, no `$` that starts an expansion, no backslash before `$`, a
backquote, a backslash or the end of a line, and no line equal to the delimiter. -/
def FileWriter.Literal (w : FileWriter) (content : Text) : Prop :=
  Inert hereDocEscaped (content ++ ['\n']) ∧ w.delimiter ∉ content.splitOn '\n'

instance (w : FileWriter) (content : Text) : Decidable (w.Literal content) :=
  inferInstanceAs (Decidable (_ ∧ _))

theorem FileWriter.rest_eq (w : FileWriter) (content : Text) :
    w.rest content ++ ['\n'] = documentInput content w.delimiter := by
  simp [rest,documentInput]

/-- The file holds the content and a newline, in every state of the shell, exactly if the
content is literal. -/
theorem FileWriter.written_iff (w : FileWriter) (content : Text) :
    (∀ sh, w.written sh content = some (content ++ ['\n'])) ↔ w.Literal content := by
  unfold written Literal
  rw [rest_eq]
  refine hereDocument_delivers_iff ?_ ?_ content
  · cases w <;> decide
  · cases w <;> decide

/-- A shell without positional parameters: `$` and the digit after it give nothing. -/
def noParameters : Shell := fun _ => ([],1)

/-- A password in a configuration loses its `$1`. -/
theorem FileWriter.written_password :
    FileWriter.createFileOnNode.written noParameters "pa$1word".toList = some "paword\n".toList ∧
      ¬ ∀ sh, FileWriter.createFileOnNode.written sh "pa$1word".toList =
        some ("pa$1word".toList ++ ['\n']) := by
  have hw : FileWriter.createFileOnNode.written noParameters "pa$1word".toList =
      some "paword\n".toList := by
    have hdoc : document createFileOnNode.delimiter []
        (joinLines (createFileOnNode.rest "pa$1word".toList ++ ['\n'])) =
          some ['p','a','$','1','w','o','r','d','\n'] := by
      rfl
    rw [written,hereDocument,hdoc,Option.map_some]
    simp [expand,noParameters,startsExpansion]
  refine ⟨hw,fun h => ?_⟩
  have heq := (h noParameters).symm.trans hw
  exact absurd (Option.some.inj heq) (by decide)

end ClickHouseRegression.Helpers
