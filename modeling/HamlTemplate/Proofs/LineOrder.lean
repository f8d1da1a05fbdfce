import HamlTemplate.Proofs.Forest
import HamlTemplate.Proofs.Lockstep

/-!
# Every line is placed once and in order

Open blocks are taken out of their parents and put back when they are closed, and the node of a
filter block comes only when the block is over. All the same the nodes read so far, with those of
the open blocks and the filter block being collected, always stand for exactly the lines placed so
far, in order. `ParseState.placedLines` is that list of lines, read off the rounds of the parse.
-/

namespace HamlTemplate

namespace Outline

/-- The lines of the nodes of some open blocks, innermost block first, in document order. -/
def linesOfBlocks : List OpenBlock → List Nat
  | [] => []
  | block :: outer => linesOfBlocks outer ++ block.line :: Node.lines block.nested.reverse

def lines (o : Outline) : List Nat := Node.lines o.roots.reverse ++ linesOfBlocks o.openBlocks

variable {o : Outline}

@[simp] theorem lines_push (o : Outline) (node : Node) :
    (o.push node).lines = o.lines ++ Node.lines [node] := by
  obtain ⟨roots, _ | ⟨block, outer⟩⟩ := o <;>
    simp [lines, linesOfBlocks, push, withSiblings, siblings, Node.lines]

theorem lines_closed (o : Outline) (following : Option Line) :
    (o.closed following).lines = o.lines := by
  obtain ⟨roots, _ | ⟨block, outer⟩⟩ := o
  · rfl
  · have pushed := lines_push ⟨roots, outer⟩ (closeBlock block following)
    simp only [closeBlock, Node.lines_block] at pushed
    simp only [closed, closeBlock, pushed]
    simp [lines, linesOfBlocks]

theorem lines_opened {line : Nat} {head : Head} {nested elder : List Node}
    (last : o.siblings = .block line head nested :: elder) :
    (o.opened line head nested elder).lines = o.lines := by
  have before := lines_push (o.withSiblings elder) (.block line head nested)
  rw [push_withSiblings last, Node.lines_block] at before
  rw [before]
  simp [lines, opened, linesOfBlocks]

/-- Nodes that are moved are neither lost nor put into another order. -/
theorem Moves.lines_eq {after : Outline} (moves : o.Moves after) : after.lines = o.lines := by
  induction moves with
  | refl => rfl
  | closed _ _ ih => rw [ih, lines_closed]
  | opened _ last _ ih => rw [ih, lines_opened last]

/-- Once no block is open, the lines are those of the finished nodes. -/
theorem lines_of_heads_eq_nil (h : o.heads = []) : o.lines = Node.lines o.finished := by
  rw [lines, heads_eq_nil_iff.mp h]
  simp [linesOfBlocks, finished]

end Outline

namespace Tracker

variable {line : Line} {t t' : Tracker} {o after : Outline} {role : LineRole}

theorem Placement.content {role : LineRole} (placed : Placement line t o role t' after)
    (h : role ≠ .blank) : line.isBlank = false := by
  cases placed with
  | blank => exact absurd rfl h
  | body content => exact content
  | deeper admits | level admits | shallower admits => exact admits.content

end Tracker

namespace Parsing

/-- The given line, if the filter block that may be collected does not keep it to itself. -/
def handsOn? (registry : Registry) (line : Line) (s : ParseState) : Option Line :=
  match offerLine registry line s with
  | .ok () after => if after.collector.isNone then some line else none
  | .error .. => none

end Parsing

namespace ParseState

/-- The line that the next round places, if it places one. -/
def placed? (registry : Registry) (s : ParseState) : Option Line :=
  s.takeLine?.bind fun (line, behind) => Parsing.handsOn? registry line behind

/-- The lines that the rounds from a state on place, in the order of the rounds. -/
def placedLines (registry : Registry) (s : ParseState) : List Line :=
  match _step : s.advance? registry with
  | none => []
  | some (.ok () after) => (s.placed? registry).toList ++ placedLines registry after
  | some (.error ..) => (s.placed? registry).toList
termination_by s.cursor.pending.length
decreasing_by exact length_pending_advance _step

/-- The lines of all nodes begun so far, that of the filter block being collected included. -/
def lines (s : ParseState) : List Nat := s.outline.lines ++ s.collector.toList.map FilterBlock.line

end ParseState

/-- The numbers of those lines that have content. -/
def contentNumbers (lines : List Line) : List Nat :=
  (lines.filter fun line => !line.isBlank).map Line.number

@[simp] theorem contentNumbers_nil : contentNumbers [] = [] := rfl

@[simp] theorem contentNumbers_append (first second : List Line) :
    contentNumbers (first ++ second) = contentNumbers first ++ contentNumbers second := by
  simp [contentNumbers]

private theorem contentNumbers_of_blank {line : Line} (blank : line.isBlank = true) :
    contentNumbers [line] = [] := by
  simp [contentNumbers, blank]

private theorem contentNumbers_of_content {line : Line} (content : line.isBlank = false) :
    contentNumbers [line] = [line.number] := by
  simp [contentNumbers, content]

namespace Parsing

variable {registry : Registry} {line : Line} {s t : ParseState}

/-- A line that is taken stands in the outline or in the collector behind all others, unless it is
blank. -/
theorem Taken.lines_eq (taken : Taken line s t)
    (matched : Matched s.tracker.levels s.outline.heads) (idle : s.collector = none) :
    t.lines = s.lines ++ contentNumbers [line] := by
  cases taken with
  | blank blank => simp [contentNumbers_of_blank blank]
  | verbatim placed =>
    rw [contentNumbers_of_content (placed.content (by simp))]
    simp [ParseState.lines, idle, (placed.moves matched).lines_eq]
  | node placed content read =>
    obtain ⟨number, nested, _⟩ := Reading.node?_spec content read
    rw [contentNumbers_of_content (placed.content (by simp))]
    simp [ParseState.lines, idle, (placed.moves matched).lines_eq,
      Node.lines_of_nested_eq_nil nested, number]
  | filter placed _ started =>
    obtain ⟨_, number, _⟩ := FilterBlock.start_eq_ok started
    rw [contentNumbers_of_content (placed.content (by simp))]
    simp [ParseState.lines, idle, (placed.moves matched).lines_eq, number]

theorem handsOn?_of_idle (idle : s.collector = none) : handsOn? registry line s = some line := by
  simp [handsOn?, offerLine_of_idle idle, idle]

private theorem eq_of_handsOn? {handed : Line} (h : handsOn? registry line s = some handed) :
    handed = line := by
  rw [handsOn?] at h
  cases offered : offerLine registry line s with
  | ok _ after =>
    simp only [offered] at h
    by_cases idle : after.collector.isNone = true
    · simp only [idle, if_true] at h
      exact (Option.some.inj h).symm
    · simp [idle] at h
  | error => simp [offered] at h

/-- A round adds the line it places, and nothing else, behind all others. -/
theorem Round.lines_eq (round : Round registry line s t) (lockstep : s.Lockstep) :
    t.lines = s.lines ++ contentNumbers (handsOn? registry line s).toList := by
  cases round with
  | collected collecting outside within =>
    have kept : handsOn? registry line s = none := by
      simp [handsOn?, offerLine_of_within collecting outside within]
    simp [kept, ParseState.lines, collecting, FilterBlock.push]
  | passed collecting inside =>
    have kept : handsOn? registry line s = none := by
      simp [handsOn?, offerLine_of_inHamlComment inside, collecting]
    simp [kept]
  | closed collecting outside ends finished taken =>
    have handed : handsOn? registry line s = some line := by
      simp [handsOn?, offerLine_of_ends collecting outside ends, finished]
    obtain ⟨output, _, rfl⟩ := FilterBlock.finish_eq_ok finished
    rw [taken.lines_eq (lockstep.matched_push _) rfl, handed]
    simp [ParseState.lines, collecting]
  | taken idle taken =>
    rw [taken.lines_eq lockstep.matched idle, handsOn?_of_idle idle]
    rfl

end Parsing

/-- The last line that a logical line covers is the last that has been read. -/
theorem Cursor.lastNumber_of_takeWithin? {c after : Cursor} {base? : Option Nat} {line : Line}
    (h : c.takeWithin? base? = some (line, after)) :
    line.lastNumber = after.consumed := by
  obtain ⟨rfl, positive, _, number⟩ := takeWithin?_eq_some h
  rw [Line.lastNumber, number, consumed_skip]
  omega

namespace Cursor.Follows

variable {after before : Cursor}

theorem consumed_le (h : after.Follows before) : before.consumed ≤ after.consumed := by
  obtain ⟨n, _, rfl⟩ := h
  simp

theorem lineCount_eq (h : after.Follows before) : after.lineCount = before.lineCount := by
  obtain ⟨n, bound, rfl⟩ := h
  exact lineCount_skip before bound

end Cursor.Follows

namespace ParseState

variable {registry : Registry} {source : Text} {s t : ParseState} {d : Document}

theorem placedLines_of_advance_none (h : s.advance? registry = none) :
    s.placedLines registry = [] := by
  rw [placedLines]
  split <;> simp_all

theorem placedLines_of_advance_ok (h : s.advance? registry = some (.ok () t)) :
    s.placedLines registry = (s.placed? registry).toList ++ t.placedLines registry := by
  rw [placedLines]
  split <;> simp_all

/-- A parse that goes on adds the line that its round places. -/
theorem lines_advance (lockstep : s.Lockstep) (advanced : s.advance? registry = some (.ok () t)) :
    t.lines = s.lines ++ contentNumbers (s.placed? registry).toList := by
  obtain ⟨line, behind, taken, round⟩ := advance?_eq_ok_iff.mp advanced
  obtain ⟨_, moved⟩ := takeLine?_eq_some taken
  have kept : behind.lines = s.lines := by
    rw [moved]
    rfl
  simp [round.lines_eq (lockstep.takeLine? taken), kept, placed?, taken]

/-- Closing all that is open at the end of the source keeps all lines. -/
theorem lines_conclude (lockstep : s.Lockstep) (h : s.conclude registry = .ok d) :
    Node.lines d.roots = s.lines := by
  obtain ⟨o, finished, rfl⟩ := conclude_eq_ok h
  have none := (lockstep.matched_of_finished finished).heads_closedTimes
  rw [← Outline.lines_of_heads_eq_nil none, (Outline.moves_closedTimes _ o).lines_eq]
  cases finished with
  | idle idle => simp [lines, idle]
  | output collecting finished =>
    obtain ⟨output, _, rfl⟩ := FilterBlock.finish_eq_ok finished
    simp [lines, collecting]

/-- The document stands for the lines of the state that a parse goes on from, and then for those
that are placed from there on. -/
theorem lines_readAll (lockstep : s.Lockstep) (h : s.readAll registry = .ok d) :
    Node.lines d.roots = s.lines ++ contentNumbers (s.placedLines registry) := by
  fun_induction readAll registry s with
  | case1 s none =>
    rw [placedLines_of_advance_none none, lines_conclude lockstep h]
    simp
  | case2 s after advanced ih =>
    rw [ih (lockstep.advance? advanced) h, lines_advance lockstep advanced,
      placedLines_of_advance_ok advanced]
    simp
  | case3 => cases h

/-- A line is read behind all lines before it, and a round ends behind the line it has read. -/
theorem takeLine?_number {line : Line} {behind : ParseState}
    (h : s.takeLine? = some (line, behind)) :
    s.cursor.consumed < line.number ∧ line.number ≤ behind.cursor.consumed ∧
      line.number ≤ s.cursor.lineCount ∧ behind.cursor.Follows s.cursor := by
  obtain ⟨position, positive, bound, number⟩ := Cursor.takeWithin?_eq_some (takeLine?_eq_some h).1
  have consumed := congrArg Cursor.consumed position
  rw [Cursor.consumed_skip] at consumed
  refine ⟨by omega, by omega, ?_, line.span, bound, position⟩
  rw [Cursor.lineCount]
  omega

theorem mem_placed? {line : Line} (h : line ∈ s.placed? registry) :
    ∃ behind, s.takeLine? = some (line, behind) := by
  rw [placed?] at h
  obtain ⟨⟨read, behind⟩, taken, handed⟩ := Option.bind_eq_some_iff.mp h
  cases Parsing.eq_of_handsOn? handed
  exact ⟨behind, taken⟩

/-- A round ends behind the line that it has placed. -/
theorem advance?_cursor {line : Line} {behind : ParseState}
    (advanced : s.advance? registry = some (.ok () t)) (taken : s.takeLine? = some (line, behind)) :
    t.cursor.Follows behind.cursor := by
  simp only [advance?, taken, Option.map_some, Option.some.injEq] at advanced
  have forward := Parsing.forward_acceptLine registry line behind
  rwa [Cursor.after, advanced] at forward

/-- The lines placed from a state on are lines still to be read, in ascending order. -/
theorem placedLines_ascending (registry : Registry) (s : ParseState) :
    (s.placedLines registry).Pairwise (fun a b => a.number < b.number) ∧
      ∀ line ∈ s.placedLines registry,
        s.cursor.consumed < line.number ∧ line.number ≤ s.cursor.lineCount := by
  have first : ∀ s : ParseState, ∀ line ∈ (s.placed? registry).toList,
      s.cursor.consumed < line.number ∧ line.number ≤ s.cursor.lineCount := by
    intro s line member
    obtain ⟨behind, taken⟩ := mem_placed? (Option.mem_toList.mp member)
    obtain ⟨low, _, high, _⟩ := takeLine?_number taken
    exact ⟨low, high⟩
  fun_induction placedLines registry s with
  | case1 => simp
  | case2 s after advanced ih =>
    obtain ⟨ascending, bounds⟩ := ih
    have single : (s.placed? registry).toList.Pairwise (fun a b => a.number < b.number) := by
      cases s.placed? registry <;> simp
    constructor
    · refine List.pairwise_append.mpr ⟨single, ascending, ?_⟩
      intro line member later placed
      obtain ⟨behind, taken⟩ := mem_placed? (Option.mem_toList.mp member)
      have passed := (takeLine?_number taken).2.1
      have forward := (advance?_cursor advanced taken).consumed_le
      have low := (bounds later placed).1
      omega
    · intro line member
      obtain now | later := List.mem_append.mp member
      · exact first s line now
      · obtain ⟨line', behind, taken, _⟩ := advance?_eq_ok_iff.mp advanced
        have moved := (advance?_cursor advanced taken).trans (takeLine?_number taken).2.2.2
        obtain ⟨low, high⟩ := bounds line later
        have consumed := moved.consumed_le
        have count := moved.lineCount_eq
        omega
  | case3 s e after failed =>
    refine ⟨?_, first s⟩
    cases s.placed? registry <;> simp

/-- Every state of a parse is at a position in its source. -/
theorem Reached.follows (reached : Reached registry source s) :
    s.cursor.Follows (.start source) := by
  induction reached with
  | start => exact .refl _
  | next _ advanced ih =>
    obtain ⟨line, behind, taken, _⟩ := advance?_eq_ok_iff.mp advanced
    have moved := (advance?_cursor advanced taken).trans (takeLine?_number taken).2.2.2
    exact moved.trans ih

theorem lineCount_of_reached (reached : Reached registry source s) :
    s.cursor.lineCount = source.physicalLines.length := by
  rw [reached.follows.lineCount_eq]
  simp [Cursor.start, Cursor.lineCount]

end ParseState

namespace Document

variable {registry : Registry} {source : Text} {d : Document}

theorem lines_eq (h : Document.parse registry source = .ok d) :
    Node.lines d.roots = contentNumbers ((ParseState.start source).placedLines registry) :=
  ParseState.lines_readAll (.start source) h

theorem lines_ascending (h : Document.parse registry source = .ok d) :
    (Node.lines d.roots).Pairwise (· < ·) := by
  have ascending := (ParseState.placedLines_ascending registry (.start source)).1
  rw [lines_eq h, contentNumbers, List.pairwise_map]
  exact ascending.filter _

theorem lineCount_eq (h : Document.parse registry source = .ok d) :
    d.lineCount = source.physicalLines.length := by
  obtain ⟨last, reached, _, concluded⟩ := Document.exists_last_of_parse h
  obtain ⟨_, _, rfl⟩ := ParseState.conclude_eq_ok concluded
  exact ParseState.lineCount_of_reached reached

theorem lines_bounds (h : Document.parse registry source = .ok d) :
    ∀ n ∈ Node.lines d.roots, 1 ≤ n ∧ n ≤ d.lineCount := by
  intro n member
  rw [lines_eq h, contentNumbers] at member
  obtain ⟨line, placed, rfl⟩ := List.mem_map.mp member
  have bounds := (ParseState.placedLines_ascending registry (.start source)).2
  obtain ⟨low, high⟩ := bounds line (List.mem_filter.mp placed).1
  have started : ParseState.Reached registry source (.start source) := .start
  rw [ParseState.lineCount_of_reached started, ← lineCount_eq h] at high
  exact ⟨by omega, high⟩

end Document

/-- The nodes of a document, each before those nested in it, begin on exactly the lines with
content that the parse placed, in the same order. So their lines ascend strictly and lie within the
source. The content that an element has on its own line is on the line of the element. -/
theorem lines_of_parse {registry : Registry} {source : Text} {d : Document}
    (h : Document.parse registry source = .ok d) :
    Node.lines d.roots =
        contentNumbers ((ParseState.start source).placedLines registry) ∧
      (Node.lines d.roots).Pairwise (· < ·) ∧
      (∀ n ∈ Node.lines d.roots, 1 ≤ n ∧ n ≤ d.lineCount) ∧
      d.lineCount = source.physicalLines.length ∧
      ∀ node ∈ Node.preorderAll d.roots, ∀ child, node.inline? = some child →
        child.line = node.line :=
  ⟨Document.lines_eq h, Document.lines_ascending h, Document.lines_bounds h,
    Document.lineCount_eq h, fun _ _ _ inline => Node.line_of_inline? inline⟩

/-- A filter block counts by its first line, and a multi-line attribute block by its first too. -/
theorem lines_of_parse_blocks :
    ∃ d, Document.parse .builtins
        "%p\x7bx: 1,\n  y: 2\x7d\n  :plain\n    x\n\n  %b= z\n-#\n  z\n".toList = .ok d ∧
      Node.lines d.roots = [1, 3, 6, 7, 8] ∧ (Node.lines d.roots).Pairwise (· < ·) ∧
      ∀ n ∈ Node.lines d.roots, 1 ≤ n ∧ n ≤ d.lineCount := by
  have parsed : Document.parse .builtins
      "%p\x7bx: 1,\n  y: 2\x7d\n  :plain\n    x\n\n  %b= z\n-#\n  z\n".toList = .ok ⟨8, [
        .block 1 (.element { tag := ['p'], attributes? := some "x: 1,\ny: 2".toList }) [
          .leaf 3 (.filter "plain".toList (.static "x\n".toList)),
          .block 6 (.element { tag := ['b'], tail := .script ['z'] }) []],
        .block 7 .hamlComment [.leaf 8 (.text ['z'])]]⟩ := by
    decide +kernel
  have h := lines_of_parse parsed
  exact ⟨_, parsed, rfl, h.2.1, h.2.2.1⟩

end HamlTemplate
