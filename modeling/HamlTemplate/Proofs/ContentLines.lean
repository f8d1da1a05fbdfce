import HamlTemplate.Proofs.CommentBody

/-!
# Lines of content

A line is content when no filter block takes it in and its indentation gives it a place outside the
bodies of Haml comments. Whether a line is read as one of a body is decided before any of this is
known. Yet a line that turns out to be content has been read as a logical line, because it is no
deeper than the body that it could have belonged to.
-/

namespace HamlTemplate

/-- A line that is no deeper than the body it may belong to is read as a logical line. -/
theorem Cursor.takeWithin?_eq_takeLine? {c : Cursor} {raw : Text} {rest : List Text}
    {base? : Option Nat} (pending : c.pending = raw :: rest) (content : raw.afterIndentation ≠ [])
    (shallow : ∀ base ∈ base?, raw.indentation.length ≤ base) :
    c.takeWithin? base? = c.takeLine? := by
  cases base? with
  | none => rfl
  | some base =>
    have ended : ¬(raw.afterIndentation = [] ∨ base < raw.indentation.length) :=
      not_or.mpr ⟨content, Nat.not_lt.mpr (shallow base rfl)⟩
    rw [takeWithin?, takeBodyLine?]
    simp only [pending, if_neg ended]

namespace Parsing

variable {registry : Registry} {line : Line} {s m t : ParseState}

/-- A filter block lets a line pass if there is none, or if the line ends it. -/
theorem offerLine_eq_ok_of_none (offered : offerLine registry line s = .ok () m)
    (idle : m.collector = none) :
    s.collector = none ∧ m = s ∨
      ∃ block node, s.collector = some block ∧ s.outline.inHamlComment = false ∧
        block.endsAt line = true ∧ block.finish registry = .ok node ∧
        m = { s with collector := none, outline := s.outline.push node } := by
  have outcome := Parsing.offered registry line s
  rw [offered] at outcome
  cases outcome with
  | idle idle => exact .inl ⟨idle, rfl⟩
  | inside collecting => cases collecting.symm.trans idle
  | within => cases idle
  | output collecting outside ends finished =>
    exact .inr ⟨_, _, collecting, outside, ends, finished, rfl⟩

/-- A line that no filter block takes in is placed. -/
theorem acceptLine_of_offered (offered : offerLine registry line s = .ok () m)
    (idle : m.collector = none) : acceptLine registry line s = placeLine line m := by
  rw [acceptLine_eq, offered]
  simp only [idle, Option.isNone_none, if_true]

end Parsing

namespace ParseState

variable {registry : Registry} {line : Line} {s behind m : ParseState} {tracker : Tracker}
  {outline : Outline}

/-- The parse reads the line and dispatches it by its content: no filter block takes it in, and its
indentation gives it a place that is not in a body. What the content calls for may still fail. -/
def Dispatches (registry : Registry) (s : ParseState) (line : Line) : Prop :=
  ∃ behind m placed, s.takeLine? = some (line, behind) ∧
    Parsing.offerLine registry line behind = .ok () m ∧ m.collector = none ∧
    Parsing.following (Tracker.process Outline.handler line) m = .ok .structural placed

/-- A line of content has been read as a logical line. -/
theorem takeLine?_of_structural (taken : s.takeLine? = some (line, behind))
    (offered : Parsing.offerLine registry line behind = .ok () m) (idle : m.collector = none)
    (placed : Tracker.Placement line m.tracker m.outline .structural tracker outline) :
    s.cursor.takeLine? = some (line, behind.cursor) ∧ ∀ base ∈ s.bodyBase?, line.width ≤ base := by
  obtain ⟨read, moved⟩ := takeLine?_eq_some taken
  obtain ⟨admits, shallow⟩ := placed.shallow
  have narrow : ∀ base ∈ s.bodyBase?, line.width ≤ base := by
    intro base member
    obtain ⟨none, rfl⟩ | ⟨block, node, collecting, _, ends, _, rfl⟩ :=
      Parsing.offerLine_eq_ok_of_none offered idle
    · rw [moved] at none admits shallow
      refine width_le_of_mem_bodyBase? member ?_ admits.notBody shallow
      intro block collecting
      cases none.symm.trans collecting
    · rw [moved] at collecting
      have own : s.collector = some block := collecting
      rw [bodyBase?_of_collecting own] at member
      cases member
      simp only [FilterBlock.endsAt, Bool.and_eq_true, decide_eq_true_eq] at ends
      exact ends.2
  exact ⟨Cursor.takeLine?_of_takeWithin? read admits.content narrow, narrow⟩

end ParseState

end HamlTemplate
