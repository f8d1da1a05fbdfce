import HamlTemplate.Parse.Line

/-!
# Parsing a template

A template is parsed line by line from its beginning. Every line that is taken in leaves fewer to
read, so the parse ends, and at the end of the source all that is still open is closed.
-/

namespace HamlTemplate

namespace ParseState

/-- The width beyond which the next line is taken as it is: that of the filter line or of the Haml
comment whose body it may belong to. -/
def bodyBase? (s : ParseState) : Option Nat :=
  s.collector.baseWidth? <|> s.tracker.verbatimBase? <|>
    if s.outline.lastNode?.any Node.isHamlComment then some s.tracker.width else none

/-- The next line, read as what it may belong to asks for, and the state behind it. -/
def takeLine? (s : ParseState) : Option (Line × ParseState) :=
  (s.cursor.takeWithin? s.bodyBase?).map fun (line, cursor) => (line, { s with cursor })

/-- Reads and takes in one line, if there is one. -/
def advance? (registry : Registry) (s : ParseState) :
    Option (EStateM.Result SourceError ParseState Unit) :=
  s.takeLine?.map fun (line, s) => Parsing.acceptLine registry line s

/-- The document that has been read, once the source is at its end. -/
def conclude (registry : Registry) (s : ParseState) : Except SourceError Document :=
  match Parsing.finish registry s with
  | .ok () s => .ok ⟨s.cursor.lineCount, s.outline.finished⟩
  | .error e _ => .error e

theorem takeLine?_eq_some {s after : ParseState} {line : Line}
    (h : s.takeLine? = some (line, after)) :
    s.cursor.takeWithin? s.bodyBase? = some (line, after.cursor) ∧
      after = { s with cursor := after.cursor } := by
  simp only [takeLine?, Option.map_eq_some_iff] at h
  obtain ⟨⟨_, _⟩, h, rfl, rfl⟩ := h
  exact ⟨h, rfl⟩

theorem length_pending_takeLine {s after : ParseState} {line : Line}
    (h : s.takeLine? = some (line, after)) :
    after.cursor.pending.length < s.cursor.pending.length := by
  obtain ⟨position, positive, bound, _⟩ := Cursor.takeWithin?_eq_some (takeLine?_eq_some h).1
  simp [position]
  omega

/-- Taking in a line leaves fewer lines to read. -/
theorem length_pending_advance {registry : Registry} {s after : ParseState}
    (h : s.advance? registry = some (.ok () after)) :
    after.cursor.pending.length < s.cursor.pending.length := by
  simp only [advance?, Option.map_eq_some_iff] at h
  obtain ⟨⟨line, behind⟩, taken, accepted⟩ := h
  have shorter := length_pending_takeLine taken
  have forward := (Parsing.forward_acceptLine registry line behind).length_le
  simp only [Cursor.after, accepted] at forward
  exact Nat.lt_of_le_of_lt forward shorter

def readAll (registry : Registry) (s : ParseState) : Except SourceError Document :=
  match _step : s.advance? registry with
  | none => s.conclude registry
  | some (.ok () after) => readAll registry after
  | some (.error e _) => .error e
termination_by s.cursor.pending.length
decreasing_by exact length_pending_advance _step

theorem readAll_of_advance_none {registry : Registry} {s : ParseState}
    (h : s.advance? registry = none) : s.readAll registry = s.conclude registry := by
  rw [readAll]
  split <;> simp_all

theorem readAll_of_advance_ok {registry : Registry} {s after : ParseState}
    (h : s.advance? registry = some (.ok () after)) :
    s.readAll registry = after.readAll registry := by
  rw [readAll]
  split <;> simp_all

theorem readAll_of_advance_error {registry : Registry} {s after : ParseState} {e : SourceError}
    (h : s.advance? registry = some (.error e after)) : s.readAll registry = .error e := by
  rw [readAll]
  split <;> simp_all

end ParseState

/-- Parses a source with the given filters. -/
def Document.parse (registry : Registry) (source : Text) : Except SourceError Document :=
  (ParseState.start source).readAll registry

end HamlTemplate
