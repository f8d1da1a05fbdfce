import HamlTemplate.Source.Line

/-!
# Reading positions

A cursor is a position between two physical lines of a source. Every way of reading takes
physical lines from the front of those that are pending and counts them, so the count is always
the number of the last line read.
-/

namespace HamlTemplate

structure Cursor where
  /-- The physical lines that are still to be read. -/
  pending : List Text
  /-- The number of physical lines that have been read. -/
  consumed : Nat := 0
  deriving DecidableEq, Repr

namespace Cursor

def start (source : Text) : Cursor := ⟨source.physicalLines, 0⟩

def atEnd (c : Cursor) : Bool := c.pending.isEmpty

def lineCount (c : Cursor) : Nat := c.consumed + c.pending.length

def skip (c : Cursor) (count : Nat) : Cursor := ⟨c.pending.drop count, c.consumed + count⟩

/-- Reads one physical line as it is. -/
def takePhysical? (c : Cursor) : Option (Text × Cursor) :=
  match c.pending with
  | [] => none
  | raw :: _ => some (raw, c.skip 1)

/-- The piped lines at the front of the given ones. -/
def pipedRun (lines : List Text) : List Text :=
  lines.takeWhile fun raw => Text.isPiped raw.lineContent

/-- Joins the contents of piped lines, each without its bar. -/
def joinPiped (run : List Text) : Text :=
  Text.trimEnd (run.flatMap fun raw => raw.lineContent.dropLast)

/-- Reads one logical line: a piped line together with all piped lines that follow it directly,
and any other line by itself. -/
def takeLine? (c : Cursor) : Option (Line × Cursor) :=
  match c.pending with
  | [] => none
  | raw :: _ =>
    match pipedRun c.pending with
    | [] => some (⟨raw.indentation, raw.lineContent, c.consumed + 1, 1⟩, c.skip 1)
    | run => some (⟨raw.indentation, joinPiped run, c.consumed + 1, run.length⟩, c.skip run.length)

/-- Reads one line of a verbatim body whose lines are deeper than `base`. A blank line and a
deeper one are taken exactly as written; any other line ends the body and is read as a logical
line. -/
def takeBodyLine? (c : Cursor) (base : Nat) : Option (Line × Cursor) :=
  match c.pending with
  | [] => none
  | raw :: _ =>
    if raw.afterIndentation = [] ∨ base < raw.indentation.length then
      some (⟨raw.indentation, raw.afterIndentation, c.consumed + 1, 1⟩, c.skip 1)
    else c.takeLine?

/-- Reads a line of a body deeper than `base`, if there is one, and else a logical line. -/
def takeWithin? (c : Cursor) : Option Nat → Option (Line × Cursor)
  | some base => c.takeBodyLine? base
  | none => c.takeLine?

@[simp] theorem skip_zero (c : Cursor) : c.skip 0 = c := rfl

@[simp] theorem skip_skip (c : Cursor) (m n : Nat) : (c.skip m).skip n = c.skip (m + n) := by
  simp [skip, Nat.add_assoc]

@[simp] theorem pending_skip (c : Cursor) (n : Nat) : (c.skip n).pending = c.pending.drop n := rfl

@[simp] theorem consumed_skip (c : Cursor) (n : Nat) : (c.skip n).consumed = c.consumed + n := rfl

theorem lineCount_skip (c : Cursor) {n : Nat} (h : n ≤ c.pending.length) :
    (c.skip n).lineCount = c.lineCount := by
  simp [lineCount]
  omega

private theorem length_pipedRun_le (lines : List Text) : (pipedRun lines).length ≤ lines.length :=
  (List.takeWhile_sublist _).length_le

/-- A logical line covers exactly the lines that reading it takes, beginning with the next one. -/
theorem takeLine?_eq_some {c after : Cursor} {line : Line}
    (h : c.takeLine? = some (line, after)) :
    after = c.skip line.span ∧ 1 ≤ line.span ∧ line.span ≤ c.pending.length ∧
      line.number = c.consumed + 1 := by
  unfold takeLine? at h
  have bound := length_pipedRun_le c.pending
  split at h
  · contradiction
  · split at h <;> obtain ⟨rfl, rfl⟩ := Prod.mk.inj (Option.some.inj h)
    · simp_all
    · simp_all [Nat.one_le_iff_ne_zero]

/-- A line of a body or a logical line covers exactly the lines that reading it takes. -/
theorem takeWithin?_eq_some {c after : Cursor} {base? : Option Nat} {line : Line}
    (h : c.takeWithin? base? = some (line, after)) :
    after = c.skip line.span ∧ 1 ≤ line.span ∧ line.span ≤ c.pending.length ∧
      line.number = c.consumed + 1 := by
  cases base? with
  | none => exact takeLine?_eq_some h
  | some base =>
    simp only [takeWithin?, takeBodyLine?] at h
    split at h
    · contradiction
    · split at h
      · obtain ⟨rfl, rfl⟩ := Prod.mk.inj (Option.some.inj h)
        simp_all
      · exact takeLine?_eq_some h

/-- A position that is reached from another by reading some of its pending lines. -/
def Follows (after before : Cursor) : Prop :=
  ∃ n, n ≤ before.pending.length ∧ after = before.skip n

namespace Follows

@[simp] theorem refl (c : Cursor) : c.Follows c := ⟨0, Nat.zero_le _, (skip_zero c).symm⟩

theorem trans {a b c : Cursor} (h : c.Follows b) (h' : b.Follows a) : c.Follows a := by
  obtain ⟨m, hm, rfl⟩ := h'
  obtain ⟨n, hn, rfl⟩ := h
  refine ⟨m + n, ?_, skip_skip a m n⟩
  simp at hn
  omega

theorem length_le {after before : Cursor} (h : after.Follows before) :
    after.pending.length ≤ before.pending.length := by
  obtain ⟨n, _, rfl⟩ := h
  simp

end Follows

end Cursor

end HamlTemplate
