import HamlTemplate.Code.Scan

/-!
# Complete statements

A statement goes on with the next line while something is open in it or while it ends in an
operator or a word that wants another operand. Nothing else is looked at. A single bar at the
end is no operator: it ends a list of block parameters or marks a line of the template that
is joined with the next.
-/

namespace HamlTemplate

namespace Skeleton

/-- The endings that leave an operation, a conditional or a chain of calls unfinished. Longer
operators end in one of these. -/
private def openOperators : List Text :=
  [",", "\\", "&&", "||", "+", "-", "*", "/", "%", "=", "~", "<", ">", ".", "&", "^", " ?",
    " :"].map String.toList

/-- The words that leave an operation unfinished. -/
private def openWords : List Text := ["and", "or", "not"].map String.toList

/-- The skeleton ends in the middle of an operation. -/
def endsOpen (s : Skeleton) : Bool :=
  openOperators.any s.endsWith || openWords.any s.endsWithWord

end Skeleton

/-- A text is a complete statement when its scan leaves nothing open and does not end in the
middle of an operation. -/
def Text.isStatement (text : Text) : Bool :=
  text.scan.isBalanced && !text.scan.skeleton.trimEnd.endsOpen

end HamlTemplate
