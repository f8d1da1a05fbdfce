import HamlTemplate.Proofs.Round
import HamlTemplate.Proofs.Trimming
import Mathlib.Data.List.TakeWhile

/-!
# Runs of piped lines

Reading a source line by line cuts it into runs: a line that is not piped stands alone, and piped
lines are read together as far as they stand side by side. `logicalLines_of_source` says that each
run gives one line and each line is given by one run.
-/

namespace HamlTemplate

namespace Text

variable {raw content : Text}

theorem isPiped_iff :
    content.isPiped = true ↔ ∃ front c, content = front ++ [c, '|'] ∧ isIndentChar c = true := by
  constructor
  · intro h
    rw [isPiped] at h
    split at h
    · rename_i c back reversed
      refine ⟨back.reverse, c, ?_, h⟩
      rw [List.reverse_eq_iff.mp reversed]
      simp
    · cases h
  · rintro ⟨front, c, rfl, indents⟩
    simpa [isPiped] using indents

/-- Without its bar, the content of a piped line ends in the space or the tab before the bar. -/
theorem exists_dropLast_of_isPiped (h : content.isPiped = true) :
    ∃ front c, content = front ++ [c, '|'] ∧ content.dropLast = front ++ [c] ∧
      isIndentChar c = true := by
  obtain ⟨front, c, rfl, indents⟩ := isPiped_iff.mp h
  refine ⟨front, c, rfl, ?_, indents⟩
  rw [List.dropLast_append_of_ne_nil (List.cons_ne_nil _ _)]
  rfl

/-- A physical line is piped when it ends, but for white space, in a bar behind a space or a tab,
other than those that it is indented with. -/
def IsPipedLine (raw : Text) : Prop :=
  ∃ front c, raw.lineContent = front ++ [c, '|'] ∧ (c = ' ' ∨ c = '\t')

theorem isPipedLine_iff : raw.IsPipedLine ↔ raw.lineContent.isPiped = true := by
  rw [isPiped_iff]
  simp only [IsPipedLine, isIndentChar, Bool.or_eq_true, beq_iff_eq]

instance : DecidablePred IsPipedLine := fun _ => decidable_of_iff _ isPipedLine_iff.symm

/-- The content of a physical line, without the bar that it may be piped by. -/
def unpiped (raw : Text) : Text :=
  if raw.IsPipedLine then raw.lineContent.dropLast else raw.lineContent

theorem unpiped_of_isPipedLine (piped : raw.IsPipedLine) :
    raw.unpiped = raw.lineContent.dropLast := if_pos piped

theorem unpiped_of_not_isPipedLine (single : ¬raw.IsPipedLine) : raw.unpiped = raw.lineContent :=
  if_neg single

end Text

/-- Lines that are read together, with those before and behind them: one line that is not piped, or
as many piped lines as stand side by side. -/
inductive IsRun (before : List Text) : List Text → List Text → Prop
  | single {raw : Text} {after : List Text} (single : ¬raw.IsPipedLine) : IsRun before [raw] after
  | piped {run after : List Text} (some : run ≠ []) (piped : ∀ raw ∈ run, raw.IsPipedLine)
      (first : ∀ raw ∈ before.getLast?, ¬raw.IsPipedLine)
      (last : ∀ raw ∈ after.head?, ¬raw.IsPipedLine) : IsRun before run after

/-- The logical line that a run is read as. -/
def Line.ofRun (before run : List Text) : Line where
  indent := (run.head?.map Text.indentation).getD []
  text := Text.trimEnd (run.flatMap Text.unpiped)
  number := before.length + 1
  span := run.length

namespace IsRun

variable {before run after first rest inner : List Text}

theorem ne_nil (h : IsRun before run after) : run ≠ [] := by
  cases h with
  | single => exact List.cons_ne_nil _ _
  | piped some => exact some

/-- All lines of a run are piped if there are several. -/
private theorem isPipedLine_of_append (h : IsRun before (first ++ rest) after) (left : first ≠ [])
    (right : rest ≠ []) : (∀ raw ∈ first ++ rest, raw.IsPipedLine) ∧
      (∀ raw ∈ before.getLast?, ¬raw.IsPipedLine) ∧ ∀ raw ∈ after.head?, ¬raw.IsPipedLine := by
  generalize whole : first ++ rest = run at h
  cases h with
  | single =>
    have length := congrArg List.length whole
    have one := List.length_pos_iff.mpr left
    have other := List.length_pos_iff.mpr right
    rw [List.length_append, List.length_singleton] at length
    omega
  | piped _ piped first last => exact ⟨piped, first, last⟩

/-- A run does not go on in the lines behind it. -/
private theorem eq_nil_of_longer (h : IsRun before run (rest ++ after))
    (longer : IsRun before (run ++ rest) after) : rest = [] := by
  by_contra more
  obtain ⟨piped, _, _⟩ := longer.isPipedLine_of_append h.ne_nil more
  cases h with
  | single single => exact single (piped _ List.mem_cons_self)
  | piped _ _ _ last =>
    obtain ⟨raw, rest, rfl⟩ := List.exists_cons_of_ne_nil more
    exact last raw rfl (piped raw (List.mem_append_right _ List.mem_cons_self))

/-- Where a run begins, it is the only one. -/
theorem unique {run' after' : List Text} (h : IsRun before run after)
    (h' : IsRun before run' after') (same : run ++ after = run' ++ after') :
    run = run' ∧ after = after' := by
  obtain ⟨rest, rfl, rfl⟩ | ⟨rest, rfl, rfl⟩ := List.append_eq_append_iff.mp same
  · rw [h.eq_nil_of_longer h', List.append_nil]
    exact ⟨rfl, rfl⟩
  · rw [h'.eq_nil_of_longer h, List.append_nil]
    exact ⟨rfl, rfl⟩

/-- No run begins within another one. -/
private theorem eq_nil_of_within {inner run' after' : List Text}
    (h : IsRun before (first ++ inner) after)
    (h' : IsRun (before ++ first) run' after') (some : first ≠ [])
    (same : inner ++ after = run' ++ after') : inner = [] := by
  by_contra more
  obtain ⟨raw, inner, rfl⟩ := List.exists_cons_of_ne_nil more
  obtain ⟨piped, _, _⟩ := h.isPipedLine_of_append some more
  obtain ⟨raw', rest, rfl⟩ := List.exists_cons_of_ne_nil h'.ne_nil
  obtain ⟨rfl, _⟩ := List.cons.inj same
  cases h' with
  | single single => exact single (piped _ (List.mem_append_right _ List.mem_cons_self))
  | piped _ _ apart _ =>
    rw [List.getLast?_append_of_ne_nil _ some, List.getLast?_eq_some_getLast some] at apart
    exact apart _ rfl (piped _ (List.mem_append_left _ (List.getLast_mem some)))

/-- A run that begins no earlier than another one is that run, or lies behind it. -/
theorem same_or_behind {between run' after' : List Text} (h : IsRun before run after)
    (h' : IsRun (before ++ between) run' after')
    (same : run ++ after = between ++ (run' ++ after')) :
    between = [] ∧ run = run' ∨
      ∃ more, between = run ++ more ∧ after = more ++ (run' ++ after') := by
  obtain ⟨more, rfl, rfl⟩ | ⟨inner, rfl, behind⟩ := List.append_eq_append_iff.mp same
  · exact .inr ⟨more, rfl, rfl⟩
  · by_cases here : between = []
    · subst here
      rw [List.append_nil] at h'
      exact .inl ⟨rfl, (h.unique h' same).1⟩
    · obtain rfl := h.eq_nil_of_within h' here behind.symm
      exact .inr ⟨[], by simp, behind.symm⟩

/-- Of the last line of a run and the line behind it, one is not piped. -/
theorem apart (h : IsRun before run after) :
    ∀ raw ∈ (before ++ run).getLast?, ∀ next ∈ after.head?,
      ¬(raw.IsPipedLine ∧ next.IsPipedLine) := by
  rintro raw final next first ⟨piped, piped'⟩
  cases h with
  | single single =>
    rw [List.getLast?_concat] at final
    cases final
    exact single piped
  | piped _ _ _ last => exact last next first piped'

end IsRun

/-! ### Reading line by line -/

def Cursor.logicalLines (c : Cursor) : List Line :=
  match _read : c.takeLine? with
  | none => []
  | some (line, after) => line :: after.logicalLines
termination_by c.pending.length
decreasing_by
  obtain ⟨rfl, positive, bound, _⟩ := takeLine?_eq_some _read
  rw [pending_skip, List.length_drop]
  omega

namespace Cursor

variable {c after : Cursor} {line : Line} {before : List Text}

theorem logicalLines_of_none (ended : c.takeLine? = none) : c.logicalLines = [] := by
  rw [logicalLines]
  split <;> simp_all

theorem logicalLines_of_takeLine? (read : c.takeLine? = some (line, after)) :
    c.logicalLines = line :: after.logicalLines := by
  rw [logicalLines]
  split <;> simp_all

/-- A position behind some lines that is not within a run of piped lines. -/
structure Between (before : List Text) (c : Cursor) : Prop where
  consumed : c.consumed = before.length
  apart : ∀ raw ∈ before.getLast?, ∀ next ∈ c.pending.head?,
    ¬(raw.IsPipedLine ∧ next.IsPipedLine)

theorem between_start (source : Text) : (start source).Between [] := ⟨rfl, nofun⟩

/-- The piped lines at the front end where a line is not piped. -/
theorem exists_pipedRun (lines : List Text) :
    ∃ after, lines = pipedRun lines ++ after ∧ (∀ raw ∈ pipedRun lines, raw.IsPipedLine) ∧
      ∀ raw ∈ after.head?, ¬raw.IsPipedLine := by
  refine ⟨lines.dropWhile fun raw => Text.isPiped raw.lineContent,
    List.takeWhile_append_dropWhile.symm, fun raw member => ?_, fun raw first => ?_⟩
  · exact Text.isPipedLine_iff.mpr (List.mem_takeWhile_imp (p := fun raw : Text =>
      raw.lineContent.isPiped) member)
  · have stops := List.head?_dropWhile_not (fun raw : Text => raw.lineContent.isPiped) lines
    rw [first] at stops
    rw [Text.isPipedLine_iff, stops]
    exact Bool.false_ne_true

theorem joinPiped_eq {run : List Text} (piped : ∀ raw ∈ run, raw.IsPipedLine) :
    joinPiped run = Text.trimEnd (run.flatMap Text.unpiped) := by
  rw [joinPiped, List.flatMap_congr fun raw member => ?_]
  exact (Text.unpiped_of_isPipedLine (piped raw member)).symm

/-- Reading a logical line takes the run that is next. -/
theorem Between.takeLine? (h : c.Between before) (more : c.pending ≠ []) :
    ∃ run after, c.pending = run ++ after ∧ IsRun before run after ∧
      c.takeLine? = some (Line.ofRun before run, ⟨after, c.consumed + run.length⟩) := by
  obtain ⟨raw, rest, pending⟩ := List.exists_cons_of_ne_nil more
  rw [takeLine?_cons pending, skip, skip, pending]
  by_cases piped : raw.IsPipedLine
  · obtain ⟨after, split, run, last⟩ := exists_pipedRun rest
    have all : ∀ next ∈ raw :: pipedRun rest, next.IsPipedLine :=
      List.forall_mem_cons.mpr ⟨piped, run⟩
    have first : ∀ next ∈ before.getLast?, ¬next.IsPipedLine := by
      intro next final bar
      exact h.apart next final raw (by rw [pending]; rfl) ⟨bar, piped⟩
    have behind : (raw :: rest).drop ((pipedRun rest).length + 1) = after := by
      rw [List.drop_succ_cons]
      exact (congrArg (List.drop _) split).trans List.drop_left
    refine ⟨raw :: pipedRun rest, after, by rw [List.cons_append, ← split],
      .piped (List.cons_ne_nil _ _) all first last, ?_⟩
    rw [if_pos (Text.isPipedLine_iff.mp piped), joinPiped_eq all, behind, h.consumed]
    rfl
  · have text : Text.trimEnd ([raw].flatMap Text.unpiped) = raw.lineContent := by
      rw [List.flatMap_singleton, Text.unpiped_of_not_isPipedLine piped, Text.lineContent,
        Text.trimEnd_trimEnd]
    refine ⟨[raw], rest, rfl, .single piped, ?_⟩
    rw [if_neg (mt Text.isPipedLine_iff.mpr piped), Line.ofRun, text, h.consumed]
    rfl

/-- Behind a run the position is not within a run either. -/
theorem Between.behind {run rest : List Text} (h : c.Between before)
    (taken : IsRun before run rest) :
    Between (before ++ run) ⟨rest, c.consumed + run.length⟩ where
  consumed := by rw [List.length_append, h.consumed]
  apart := taken.apart

/-- The lines that are read from a position on are those of the runs behind it, in order and without
gaps. -/
theorem Between.logicalLines (h : c.Between before) :
    (c.logicalLines.flatMap fun line => List.range' line.number line.span) =
        List.range' (c.consumed + 1) c.pending.length ∧
      ∀ line, line ∈ c.logicalLines ↔
        ∃ between run after, c.pending = between ++ (run ++ after) ∧
          IsRun (before ++ between) run after ∧ line = Line.ofRun (before ++ between) run := by
  fun_induction Cursor.logicalLines c generalizing before with
  | case1 c ended =>
    rw [takeLine?_eq_none_iff.mp ended]
    refine ⟨rfl, fun line => ⟨nofun, ?_⟩⟩
    rintro ⟨between, run, after, split, run', _⟩
    simp [run'.ne_nil] at split
  | case2 c line behind read ih =>
    have more : c.pending ≠ [] := by
      intro ended
      rw [takeLine?_eq_none_iff.mpr ended] at read
      cases read
    obtain ⟨run, after, split, first, taken⟩ := h.takeLine? more
    cases read.symm.trans taken
    obtain ⟨numbers, lines⟩ := ih (h.behind first)
    constructor
    · rw [List.flatMap_cons, numbers, split, List.length_append, h.consumed, Nat.add_right_comm]
      exact List.range'_append_1
    · intro line
      rw [List.mem_cons, lines, split]
      constructor
      · rintro (rfl | ⟨between, run', after', rfl, next, rfl⟩)
        · exact ⟨[], run, after, rfl, by rwa [List.append_nil], by rw [List.append_nil]⟩
        · refine ⟨run ++ between, run', after', by rw [List.append_assoc], ?_, ?_⟩ <;>
            rw [← List.append_assoc]
          exact next
      · rintro ⟨between, run', after', same, next, rfl⟩
        obtain ⟨rfl, rfl⟩ | ⟨between, rfl, rfl⟩ := first.same_or_behind next same
        · rw [List.append_nil]
          exact .inl rfl
        · rw [← List.append_assoc] at next ⊢
          exact .inr ⟨between, run', after', rfl, next, rfl⟩

end Cursor

/-- Reading a source line by line cuts its physical lines into intervals, one behind the other from
the first line to the last, and the logical lines are those of the runs: the lines that are not
piped, each by itself, and the piped lines, as many as stand side by side. A logical line has the
number and the indentation of its first physical line, covers as many as the run has, and its text
is that of the run joined without the bars and trimmed at the end. -/
theorem logicalLines_of_source (source : Text) :
    ((Cursor.start source).logicalLines.flatMap fun line => List.range' line.number line.span) =
        List.range' 1 (Cursor.start source).lineCount ∧
      ∀ line, line ∈ (Cursor.start source).logicalLines ↔
        ∃ before run after, source.physicalLines = before ++ (run ++ after) ∧
          IsRun before run after ∧ line = Line.ofRun before run := by
  have read := (Cursor.between_start source).logicalLines
  rw [Cursor.lineCount]
  refine ⟨?_, read.2⟩
  rw [read.1, Cursor.start, Nat.zero_add, Nat.zero_add]

/-- A lone bar, a bar behind another character and a blank line all end a run. -/
example :
    (Cursor.start "  a |\n\tb \t|  \n|\nc ||\nd |\n\ne |".toList).logicalLines =
      [⟨"  ".toList, "a b".toList, 1, 2⟩, ⟨[], "|".toList, 3, 1⟩, ⟨[], "c ||".toList, 4, 1⟩,
        ⟨[], "d".toList, 5, 1⟩, ⟨[], [], 6, 1⟩, ⟨[], "e".toList, 7, 1⟩] := by
  decide +kernel

end HamlTemplate
