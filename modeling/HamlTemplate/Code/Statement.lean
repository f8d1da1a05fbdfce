import HamlTemplate.Code.Completeness
import HamlTemplate.Source.Reading

/-!
# Statements of embedded code

A statement begins behind its mark and takes in further lines until it looks complete.
-/

namespace HamlTemplate

structure Statement where
  /-- The code, with line feeds between its lines. -/
  code : Text
  /-- The number of physical lines it covers, the one it begins on included. -/
  span : Nat
  deriving DecidableEq, Repr

namespace Reading

/-- Reads the statement that begins with the given code. -/
def statement (code : Text) : Reading Statement := do
  let read ← gather Text.isStatement Text.trimEnd .unterminatedCode code
  return ⟨read.text, read.span⟩

/-- Reads the statement behind a script mark. There has to be some code on the line of the mark. -/
def script (afterMark : Text) : Reading Text :=
  if Text.isBlank afterMark then fail .noCode
  else do return (← statement (Text.trim afterMark)).code

end Reading

end HamlTemplate
