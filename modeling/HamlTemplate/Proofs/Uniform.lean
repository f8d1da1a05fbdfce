import HamlTemplate.Proofs.Nesting
import HamlTemplate.Proofs.Tracking

/-!
# Documents indented with one character

As long as all lines are indented with one character, a tracker refuses none of them for the
character of its indentation, and whatever character that is makes no difference.
-/

namespace HamlTemplate

/-- The lines are indented with the character only. -/
def IndentedWith (c : Char) (lines : List Text) : Prop :=
  ∀ raw ∈ lines, ∀ d ∈ raw.indentation, d = c

instance (c : Char) (lines : List Text) : Decidable (IndentedWith c lines) :=
  decidable_of_iff (lines.all fun raw => raw.indentation.all (· == c)) (by simp [IndentedWith])

theorem IndentedWith.drop {c : Char} {lines : List Text} (h : IndentedWith c lines) (n : Nat) :
    IndentedWith c (lines.drop n) :=
  fun raw member => h raw (List.mem_of_mem_drop member)

namespace Tracker

variable {c c' : Char} {line line' : Line} {t t' : Tracker} {o after : Outline} {role : LineRole}

/-- Documents that have been indented with one character each so far. -/
def Uniform (c c' : Char) (first second : Option Char) : Prop :=
  (∀ d ∈ first, d = c) ∧ ∀ d ∈ second, d = c'

theorem alike_of_uniform {f : Nat → Nat} (blank : line'.isBlank = line.isBlank)
    (width : line'.width = f line.width) (indent : ∀ d ∈ line.indent, d = c)
    (indent' : ∀ d ∈ line'.indent, d = c') : line.Alike f (Uniform c c') line' where
  blank := blank
  width := width
  settles first second uniform :=
    ⟨(uniform_settle (t := ⟨[], first⟩) uniform.1 indent).1,
      (uniform_settle (t := ⟨[], second⟩) uniform.2 indent').1⟩
  mismatch t t' uniform := by
    rw [(uniform_settle uniform.1 indent).2, (uniform_settle uniform.2 indent').2]

/-- Placing a line that is indented with the character goes on that way. -/
theorem Placement.uniform (placed : Placement line t o role t' after)
    (indent : ∀ d ∈ line.indent, d = c) (before : ∀ d ∈ t.indentChar?, d = c) :
    ∀ d ∈ t'.indentChar?, d = c := by
  cases placed with
  | blank | body => exact before
  | deeper | level | shallower => exact (uniform_settle before indent).1

end Tracker

namespace ParseState

variable {registry : Registry} {source : Text} {s t : ParseState} {line : Line} {c : Char}

theorem uniform_of_taken (taken : Parsing.Taken line s t) (indent : ∀ d ∈ line.indent, d = c)
    (before : ∀ d ∈ s.tracker.indentChar?, d = c) : ∀ d ∈ t.tracker.indentChar?, d = c := by
  cases taken with
  | blank => exact before
  | verbatim placed | node placed | filter placed => exact placed.uniform indent before

/-- The lines that a position leaves are lines of the source. -/
theorem Reached.indentedWith (indented : IndentedWith c source.physicalLines)
    (reached : Reached registry source s) : IndentedWith c s.cursor.pending := by
  rw [reached.follows.pending_eq]
  exact indented.drop _

/-- A line is indented as its first physical line is. -/
theorem indent_of_takeWithin? {after position : Cursor} {base? : Option Nat}
    (indented : IndentedWith c position.pending)
    (taken : position.takeWithin? base? = some (line, after)) : ∀ d ∈ line.indent, d = c := by
  obtain ⟨raw, rest, pending, indent⟩ := Cursor.takeWithin?_indent taken
  rw [indent]
  exact indented raw (by rw [pending]; exact List.mem_cons_self)

/-- The tracker of a document that is indented with one character knows no other. -/
theorem Reached.uniform (indented : IndentedWith c source.physicalLines)
    (reached : Reached registry source s) : ∀ d ∈ s.tracker.indentChar?, d = c := by
  induction reached with
  | start => nofun
  | next earlier advanced ih =>
    obtain ⟨line, behind, taken, round⟩ := advance?_eq_ok_iff.mp advanced
    obtain ⟨read, moved⟩ := takeLine?_eq_some taken
    have indent := indent_of_takeWithin? (earlier.indentedWith indented) read
    rw [moved] at round
    cases round with
    | collected | passed => exact ih
    | closed _ _ _ _ taken => exact uniform_of_taken taken indent ih
    | taken _ taken => exact uniform_of_taken taken indent ih

end ParseState

end HamlTemplate
