import HamlTemplate.Filter.Collector
import HamlTemplate.Outline
import HamlTemplate.Source.Reading

/-!
# States of a parse

A parse goes through the source with a cursor, follows the indentation with a tracker, builds an
outline and may be collecting a filter block. Each of its actions works on one of these parts,
and none of them goes back in the source.
-/

namespace HamlTemplate

/-- The state of a parse between two lines. -/
structure ParseState where
  cursor : Cursor
  tracker : Tracker := {}
  outline : Outline := {}
  collector : Collector := none

def ParseState.start (source : Text) : ParseState := { cursor := .start source }

/-- An action of a parse, which may fail. -/
abbrev Parsing := EStateM SourceError ParseState

namespace Parsing

variable {α : Type}

def reading (action : Reading α) : Parsing α := fun s =>
  match action s.cursor with
  | .ok a cursor => .ok a { s with cursor }
  | .error e cursor => .error e { s with cursor }

/-- Follows the indentation, which moves the outline along. -/
def following (action : EStateM SourceError (Tracker × Outline) α) : Parsing α := fun s =>
  match action (s.tracker, s.outline) with
  | .ok a (tracker, outline) => .ok a { s with tracker, outline }
  | .error e (tracker, outline) => .error e { s with tracker, outline }

def collecting (action : EStateM SourceError Collector α) : Parsing α := fun s =>
  match action s.collector with
  | .ok a collector => .ok a { s with collector }
  | .error e collector => .error e { s with collector }

def push (node : Node) : Parsing Unit :=
  modify fun s => { s with outline := s.outline.push node }

theorem forward_push (node : Node) : Forward ParseState.cursor (push node) := fun _ => .refl _

private theorem after_reading (action : Reading α) (s : ParseState) :
    Cursor.after ParseState.cursor (reading action) s = Cursor.after id action s.cursor := by
  unfold Cursor.after reading
  cases action s.cursor <;> rfl

theorem forward_reading {action : Reading α} (h : Forward id action) :
    Forward ParseState.cursor (reading action) := by
  intro s
  rw [after_reading]
  exact h s.cursor

theorem forward_following (action : EStateM SourceError (Tracker × Outline) α) :
    Forward ParseState.cursor (following action) := by
  intro s
  unfold Cursor.after following
  cases action (s.tracker, s.outline) <;> exact .refl _

theorem forward_collecting (action : EStateM SourceError Collector α) :
    Forward ParseState.cursor (collecting action) := by
  intro s
  unfold Cursor.after collecting
  cases action s.collector <;> exact .refl _

end Parsing

end HamlTemplate
