import HamlTemplate.Fault
import HamlTemplate.Source.Cursor

/-!
# Reading on from a cursor

Some constructs go on over several physical lines: a statement until it is complete, an
attribute block until its brace is closed. Both gather further lines into one text and count
them.
-/

namespace HamlTemplate

/-- An action that may read lines and fail. After a failure the position is still known. -/
abbrev Reading := EStateM SourceError Cursor

namespace Reading

/-- Fails at the last line read. -/
def fail (fault : Fault) : Reading α := fun c => .error ⟨fault, c.consumed⟩ c

end Reading

/-- A text with the number of physical lines that it covers, the one it begins on included. -/
structure Gathered where
  text : Text
  span : Nat

def Gathered.add (gathered : Gathered) (line : Text) : Gathered :=
  ⟨gathered.text ++ '\n' :: line, gathered.span + 1⟩

namespace Cursor

/-- Adds lines to a text, each tidied and behind a line feed, until the text is as wanted. Gives
the text, if it ever is, and the position behind the lines that were added. -/
def gatherFrom (wanted : Text → Bool) (tidy : Text → Text) (lines : List Text) (consumed : Nat)
    (gathered : Gathered) : Option Gathered × Cursor :=
  if wanted gathered.text then (some gathered, ⟨lines, consumed⟩)
  else
    match lines with
    | [] => (none, ⟨[], consumed⟩)
    | raw :: rest => gatherFrom wanted tidy rest (consumed + 1) (gathered.add (tidy raw))

theorem gatherFrom_follows (wanted : Text → Bool) (tidy : Text → Text) (lines : List Text)
    (consumed : Nat) (gathered : Gathered) :
    (gatherFrom wanted tidy lines consumed gathered).2.Follows ⟨lines, consumed⟩ := by
  induction lines generalizing consumed gathered with
  | nil =>
    unfold gatherFrom
    split <;> exact .refl _
  | cons raw rest ih =>
    unfold gatherFrom
    split
    · exact .refl _
    · exact (ih _ _).trans ⟨1, by simp, rfl⟩

end Cursor

/-- Reads on until a text is as wanted, and fails with the given fault at the end of the source. -/
def Reading.gather (wanted : Text → Bool) (tidy : Text → Text) (fault : Fault) (text : Text) :
    Reading Gathered := fun c =>
  match Cursor.gatherFrom wanted tidy c.pending c.consumed ⟨text, 1⟩ with
  | (some gathered, c) => .ok gathered c
  | (none, c) => .error ⟨fault, c.consumed⟩ c

/-! ### One action after another -/

/-- Asking for an action and then for another one succeeds exactly if both do in turn. -/
theorem bind_eq_ok_iff {σ ε α β : Type} {action : EStateM ε σ α} {next : α → EStateM ε σ β}
    {s t : σ} {b : β} :
    (action >>= next) s = .ok b t ↔ ∃ a m, action s = .ok a m ∧ next a m = .ok b t := by
  simp only [Bind.bind, EStateM.bind]
  cases action s with
  | ok a m =>
    constructor
    · intro h
      exact ⟨a, m, rfl, h⟩
    · rintro ⟨_, _, same, h⟩
      cases same
      exact h
  | error => simp

/-- Asking for an action and then for another one fails exactly if the first fails or the second
does in turn. -/
theorem bind_eq_error_iff {σ ε α β : Type} {action : EStateM ε σ α} {next : α → EStateM ε σ β}
    {s t : σ} {e : ε} :
    (action >>= next) s = .error e t ↔
      action s = .error e t ∨ ∃ a m, action s = .ok a m ∧ next a m = .error e t := by
  simp only [Bind.bind, EStateM.bind]
  cases action s with
  | ok a m =>
    constructor
    · intro h
      exact .inr ⟨a, m, rfl, h⟩
    · rintro (same | ⟨_, _, same, h⟩)
      · cases same
      · cases same
        exact h
  | error => simp

/-! ### Reading forward

An action may work on more than a position. The functions below are told by a `view` how to see
the position in its state. -/

section Forward

variable {σ α β : Type} {view : σ → Cursor}

/-- The position that an action ends at, whether it succeeds or fails. -/
def Cursor.after (view : σ → Cursor) (action : EStateM SourceError σ α) (s : σ) : Cursor :=
  match action s with
  | .ok _ s => view s
  | .error _ s => view s

/-- An action reads forward when it ends at a position that follows the one it began at. -/
def Forward (view : σ → Cursor) (action : EStateM SourceError σ α) : Prop :=
  ∀ s, (Cursor.after view action s).Follows (view s)

theorem forward_pure (a : α) : Forward view (pure a) := fun _ => .refl _

theorem forward_get : Forward view get := fun _ => .refl _

theorem Cursor.after_bind (action : EStateM SourceError σ α) (next : α → EStateM SourceError σ β)
    (s : σ) :
    after view (action >>= next) s =
      match action s with
      | .ok a s => after view (next a) s
      | .error _ s => view s := by
  simp only [after, Bind.bind, EStateM.bind]
  cases action s <;> rfl

theorem Forward.bind {action : EStateM SourceError σ α} {next : α → EStateM SourceError σ β}
    (h : Forward view action) (h' : ∀ a, Forward view (next a)) :
    Forward view (action >>= next) := by
  intro s
  have first := h s
  rw [Cursor.after] at first
  rw [Cursor.after_bind]
  cases run : action s with
  | ok a t =>
    rw [run] at first
    exact (h' a t).trans first
  | error e t =>
    rw [run] at first
    exact first

end Forward

namespace Reading

theorem after_gather (wanted : Text → Bool) (tidy : Text → Text) (fault : Fault) (text : Text)
    (c : Cursor) :
    Cursor.after id (gather wanted tidy fault text) c =
      (Cursor.gatherFrom wanted tidy c.pending c.consumed ⟨text, 1⟩).2 := by
  unfold Cursor.after gather
  rcases Cursor.gatherFrom wanted tidy c.pending c.consumed ⟨text, 1⟩ with ⟨_ | _, _⟩ <;> rfl

theorem forward_gather (wanted : Text → Bool) (tidy : Text → Text) (fault : Fault) (text : Text) :
    Forward id (gather wanted tidy fault text) := by
  intro c
  rw [after_gather]
  exact Cursor.gatherFrom_follows wanted tidy c.pending c.consumed ⟨text, 1⟩

end Reading

end HamlTemplate
