import HamlTemplate.Fault
import HamlTemplate.Filter.Registry
import HamlTemplate.Node.Basic
import HamlTemplate.Source.Line

/-!
# Filter blocks

Behind a line with the name of a filter, all lines that are deeper belong to its body, exactly
as written. When the block ends, the body without its common indentation is handed to the
filter. That a filter is not registered shows only then, so a body is always taken in whole.
-/

namespace HamlTemplate

open Unicode

/-- A filter block whose body is being collected. -/
structure FilterBlock where
  name : Text
  /-- The width of the line with the name. -/
  baseWidth : Nat
  /-- The number of the line with the name. -/
  line : Nat
  /-- The lines of the body with their indentation, last line first. -/
  body : List Text := []
  deriving DecidableEq, Repr

namespace FilterBlock

/-- The name of the filter that a text calls for: a colon and a word. -/
def name? : Text → Option Text
  | ':' :: name => if !name.isEmpty && name.all isWord then some name else none
  | _ => none

/-- The block that begins with a line of the given text, width and number. -/
def start (text : Text) (width line : Nat) : Except SourceError FilterBlock :=
  match name? text with
  | some name => .ok ⟨name, width, line, []⟩
  | none => .error ⟨.invalidFilterName text, line⟩

/-- Adds a line to the body. Blank lines lose their indentation. -/
def push (b : FilterBlock) (line : Line) : FilterBlock :=
  { b with body := (if line.isBlank then [] else line.indent ++ line.text) :: b.body }

/-- A line that is not blank ends the block unless it is deeper. -/
def endsAt (b : FilterBlock) (line : Line) : Bool :=
  !line.isBlank && line.width ≤ b.baseWidth

/-- The columns that all lines with content are indented by. -/
def commonIndent (lines : List Text) : Nat :=
  ((lines.filter (!·.isEmpty)).map fun line => line.indentation.length).min?.getD 0

/-- Joins the lines of a body, without their common indentation. -/
private def joinLines (lines : List Text) : Text :=
  List.intercalate ['\n'] (lines.map fun line => line.drop (commonIndent lines))

/-- The body as one text. Blank lines at its end are left out. -/
def bodyText (b : FilterBlock) : Text := joinLines (b.body.dropWhile Text.isBlank).reverse

def finish (b : FilterBlock) (registry : Registry) : Except SourceError Node :=
  match registry.compile? b.name b.bodyText with
  | some output => .ok (.leaf b.line (.filter b.name output))
  | none => .error ⟨.unknownFilter b.name, b.line⟩

end FilterBlock

end HamlTemplate
