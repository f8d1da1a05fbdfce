import HamlTemplate.Source.PhysicalLine

/-!
# Logical lines

A logical line is what the reader takes in at once: one physical line, or a run of piped ones
joined into one.
-/

namespace HamlTemplate

/-- A logical line of a template. -/
structure Line where
  /-- The indentation of the first physical line, exactly as written. -/
  indent : Text
  /-- The content behind the indentation. -/
  text : Text
  /-- The number of the first physical line, counted from one. -/
  number : Nat
  /-- How many physical lines the line covers. -/
  span : Nat := 1
  deriving DecidableEq, Repr

namespace Line

/-- The width of the indentation. A tab is one column wide. -/
def width (line : Line) : Nat := line.indent.length

def isBlank (line : Line) : Bool := line.text.isEmpty

def lastNumber (line : Line) : Nat := line.number + line.span - 1

theorem isBlank_eq_false_iff {line : Line} : line.isBlank = false ↔ line.text ≠ [] := by
  rw [Line.isBlank, Bool.eq_false_iff, ne_eq, List.isEmpty_iff]

end Line

end HamlTemplate
