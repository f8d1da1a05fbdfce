import HamlTemplate.Fault
import HamlTemplate.Source.Line

/-!
# Indentation

The tracker keeps the widths of the levels that are open and tells a handler when a line opens
a level or closes some. A line either has the width of an open level, and closes the deeper
ones, or opens a single level above the innermost one. Below a verbatim level lines are taken
as they are. The level of width zero is always open and is not kept.

All operations give the state they end in after a failure as well.
-/

namespace HamlTemplate

/-- An open level of indentation. -/
structure Level where
  width : Nat
  /-- Deeper lines are taken as they are. -/
  verbatim : Bool := false
  deriving DecidableEq, Repr

namespace Level

def innermostWidth : List Level → Nat
  | [] => 0
  | level :: _ => level.width

@[simp] theorem innermostWidth_nil : innermostWidth [] = 0 := rfl

@[simp] theorem innermostWidth_cons (level : Level) (outer : List Level) :
    innermostWidth (level :: outer) = level.width := rfl

end Level

inductive LineRole where
  /-- It has no content. -/
  | blank
  /-- It belongs to a verbatim level. -/
  | verbatim
  /-- It is content at a level that is open. -/
  | structural
  deriving DecidableEq, Repr

/-- What is told of the levels that a tracker opens and closes. -/
structure Handler (σ ε : Type) where
  /-- A line has opened a level. The answer says whether the level is verbatim. -/
  enter : Line → EStateM ε σ Bool
  /-- The innermost level has been closed. The line is given if it continues at the level that is
  now the innermost. -/
  leave : Option Line → EStateM ε σ Unit
  /-- What an error of indentation is to the handler. -/
  reject : SourceError → ε

/-- The open levels, and the character that the document is indented with. -/
structure Tracker where
  /-- The open levels, innermost first, without the one of width zero. -/
  levels : List Level := []
  /-- The first character that a line was indented with. -/
  indentChar? : Option Char := none
  deriving DecidableEq, Repr

namespace Tracker

variable {σ ε : Type}

def width (t : Tracker) : Nat := Level.innermostWidth t.levels

/-- The width beyond which lines are taken as they are: that of the level around a verbatim one. -/
def verbatimBase? (t : Tracker) : Option Nat :=
  match t.levels with
  | [] => none
  | level :: outer => if level.verbatim then some (Level.innermostWidth outer) else none

/-- The first indented line settles the document's indentation character. -/
def settle (t : Tracker) (line : Line) : Tracker :=
  { t with indentChar? := t.indentChar?.or line.indent.head? }

/-- The document's indentation character, if a line is indented with another one. -/
def mismatch? (t : Tracker) (line : Line) : Option Char :=
  t.indentChar?.filter fun c => !line.indent.all (· == c)

/-- Closes levels from the innermost one on, as long as they are to be closed, and tells the
handler of each. -/
def close (h : Handler σ ε) (indentChar? : Option Char) (closes : Level → Bool)
    (following : List Level → Option Line) :
    List Level → σ → EStateM.Result ε (Tracker × σ) Unit
  | [], s => .ok () (⟨[], indentChar?⟩, s)
  | level :: outer, s =>
    if closes level then
      match h.leave (following outer) s with
      | .ok () s => close h indentChar? closes following outer s
      | .error e s => .error e (⟨outer, indentChar?⟩, s)
    else .ok () (⟨level :: outer, indentChar?⟩, s)

/-- Opens a level for a line that is deeper than the innermost one. -/
def openLevel (h : Handler σ ε) (line : Line) : EStateM ε (Tracker × σ) LineRole := fun (t, s) =>
  match h.enter line s with
  | .ok verbatim s =>
    .ok (if verbatim then .verbatim else .structural)
      ({ t with levels := ⟨line.width, verbatim⟩ :: t.levels }, s)
  | .error e s => .error e ({ t with levels := ⟨line.width, false⟩ :: t.levels }, s)

/-- Closes the levels that are wider than a line. One of those left must have its width. -/
def closeWider (h : Handler σ ε) (line : Line) : EStateM ε (Tracker × σ) LineRole := fun (t, s) =>
  let closed := close h t.indentChar? (fun level => line.width < level.width)
    (fun outer => if Level.innermostWidth outer = line.width then some line else none) t.levels s
  match closed with
  | .ok () (t, s) =>
    if t.width = line.width then .ok .structural (t, s)
    else .error (h.reject ⟨.unmatchedIndentation line.width, line.number⟩) (t, s)
  | .error e state => .error e state

/-- Places a line that is neither blank nor verbatim. -/
def place (h : Handler σ ε) (line : Line) : EStateM ε (Tracker × σ) LineRole := fun (t, s) =>
  let t := t.settle line
  match t.mismatch? line with
  | some expected => .error (h.reject ⟨.mixedIndentation expected, line.number⟩) (t, s)
  | none =>
    if t.width < line.width then openLevel h line (t, s)
    else if line.width < t.width then closeWider h line (t, s)
    else .ok .structural (t, s)

/-- Processes one logical line. Blank lines and verbatim ones change nothing. -/
def process (h : Handler σ ε) (line : Line) : EStateM ε (Tracker × σ) LineRole := fun (t, s) =>
  if line.isBlank then .ok .blank (t, s)
  else if t.verbatimBase?.any (· < line.width) then .ok .verbatim (t, s)
  else place h line (t, s)

def finish (h : Handler σ ε) : EStateM ε (Tracker × σ) Unit := fun (t, s) =>
  close h t.indentChar? (fun _ => true) (fun _ => none) t.levels s

end Tracker

end HamlTemplate
