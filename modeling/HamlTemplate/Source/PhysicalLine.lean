import HamlTemplate.Text

/-!
# Physical lines

A line ends at a line feed, at a carriage return, or at the pair of both. A terminator at the
very end of the source does not begin another line, and no other character separates lines.
-/

namespace HamlTemplate

namespace Text

/-- The physical lines of a source, without their terminators. -/
def physicalLines : Text → List Text
  | [] => []
  | '\r' :: '\n' :: rest => [] :: physicalLines rest
  | '\r' :: rest => [] :: physicalLines rest
  | '\n' :: rest => [] :: physicalLines rest
  | c :: rest =>
    match physicalLines rest with
    | [] => [[c]]
    | line :: lines => (c :: line) :: lines

@[simp] theorem physicalLines_nil : physicalLines [] = [] := rfl

@[simp] theorem physicalLines_lineFeed (rest : Text) :
    physicalLines ('\n' :: rest) = [] :: physicalLines rest := by
  simp [physicalLines]

@[simp] theorem physicalLines_pair (rest : Text) :
    physicalLines ('\r' :: '\n' :: rest) = [] :: physicalLines rest := by
  simp [physicalLines]

theorem physicalLines_return {rest : Text} (h : rest.head? ≠ some '\n') :
    physicalLines ('\r' :: rest) = [] :: physicalLines rest := by
  cases rest with
  | nil => simp [physicalLines]
  | cons c rest => simp_all [physicalLines]

theorem physicalLines_cons {c : Char} (hn : c ≠ '\n') (hr : c ≠ '\r') (rest : Text) :
    physicalLines (c :: rest) =
      match physicalLines rest with
      | [] => [[c]]
      | line :: lines => (c :: line) :: lines := by
  simp_all [physicalLines]

/-- A source has no lines only if it is empty. -/
theorem physicalLines_eq_nil_iff {source : Text} : physicalLines source = [] ↔ source = [] := by
  fun_cases physicalLines source <;> simp_all

def isIndentChar (c : Char) : Bool := c == ' ' || c == '\t'

def indentation (raw : Text) : Text := raw.takeWhile isIndentChar

def afterIndentation (raw : Text) : Text := raw.dropWhile isIndentChar

/-- What follows the indentation of a physical line, without trailing white space. -/
def lineContent (raw : Text) : Text := trimEnd raw.afterIndentation

@[simp] theorem indentation_append_afterIndentation (raw : Text) :
    raw.indentation ++ raw.afterIndentation = raw :=
  List.takeWhile_append_dropWhile

/-- The content of a line is piped when it ends in a bar that a space or a tab sets off. -/
def isPiped (content : Text) : Bool :=
  match content.reverse with
  | '|' :: c :: _ => isIndentChar c
  | _ => false

end Text

end HamlTemplate
