import HamlTemplate.Proofs.PhysicalLines
import HamlTemplate.Proofs.PipedRuns
import HamlTemplate.Proofs.Siblings

/-!
# Bodies of filters

The body of a filter block is the stretch of lines behind the line of the filter that are blank or
deeper. While it is collected, each round takes one physical line of it as it is; a line that ends
the block is read by other rules, but is told by its indentation alone. This holds as long as spaces
and tabs are the only white space within lines: any other might be taken for content at the front
of a line and trimmed off at its end.
-/

namespace HamlTemplate

open Unicode

namespace Text

variable {raw text content : Text} {name : Text}

/-- The only white space in the text is such that lines are indented with. -/
def IsSpaced (text : Text) : Prop := ∀ c ∈ text, isWhiteSpace c = true → isIndentChar c = true

/-- A line with nothing to be seen is as good as an empty one. -/
def blanked (raw : Text) : Text := if raw.isBlank then [] else raw

/-- The line belongs to a body below a line of the given width. -/
def isBelow (width : Nat) (raw : Text) : Bool := raw.isBlank || width < raw.indentation.length

/-- The lines behind a line of a source, up to the first that has something to be seen and is no
deeper. -/
def bodyBelow (source : Text) (n : Nat) : List Text :=
  (source.physicalLines.drop n).takeWhile (isBelow (source.widthAt n))

/-- The text that a body is captured as: blank lines are empty and left out at the end, and the
other lines lose the columns that all of them are indented by. -/
def IsCapture (body : List Text) (text : Text) : Prop :=
  ∃ (kept : List Text) (trailing margin : Nat),
    body.map blanked = kept ++ List.replicate trailing [] ∧
    kept.getLast? ≠ some [] ∧
    (∀ line ∈ kept, line ≠ [] → margin ≤ line.indentation.length) ∧
    (kept ≠ [] → ∃ line ∈ kept, line ≠ [] ∧ line.indentation.length = margin) ∧
    text = List.intercalate ['\n'] (kept.map fun line => line.drop margin)

theorem blanked_eq_nil_of_isBlank (blank : raw.blanked.isBlank = true) : raw.blanked = [] := by
  rw [blanked] at blank ⊢
  split
  · rfl
  · rename_i visible
    rw [if_neg visible] at blank
    exact absurd blank visible

/-! ### Lines with spaces and tabs only -/

/-- The lines of a source are spaced if it has no other white space than spaces, tabs and line
terminators. -/
theorem isSpaced_of_mem_physicalLines {source : Text}
    (white : ∀ c ∈ source, isWhiteSpace c = true → c = ' ' ∨ c = '\t' ∨ c = '\n' ∨ c = '\r')
    (member : raw ∈ source.physicalLines) : raw.IsSpaced := by
  intro c inside isWhite
  obtain ⟨feed, ret⟩ := isUnbroken_of_mem_physicalLines member c inside
  have known := white c (mem_of_mem_physicalLines member inside) isWhite
  simp only [feed, ret, or_false] at known
  simpa [isIndentChar] using known

private theorem isBlank_of_afterIndentation_eq_nil (h : raw.afterIndentation = []) :
    raw.isBlank = true := by
  have indents := List.dropWhile_eq_nil_iff.mp h
  exact List.all_eq_true.mpr fun c member => isWhiteSpace_of_isIndentChar (indents c member)

/-- A line without content has nothing behind its indentation, if it is spaced. -/
theorem IsSpaced.afterIndentation_eq_nil_iff (spaced : raw.IsSpaced) :
    raw.afterIndentation = [] ↔ raw.isBlank = true := by
  refine ⟨isBlank_of_afterIndentation_eq_nil, ?_⟩
  intro blank
  refine List.dropWhile_eq_nil_iff.mpr fun c member => spaced c member ?_
  exact List.all_eq_true.mp blank c member

/-- Behind the indentation of a spaced line its content begins. -/
theorem IsSpaced.exists_visible (spaced : raw.IsSpaced) (content : raw.isBlank = false) :
    ∃ c rest, raw.afterIndentation = c :: rest ∧ isWhiteSpace c = false := by
  cases after : raw.afterIndentation with
  | nil =>
    rw [isBlank_of_afterIndentation_eq_nil after] at content
    cases content
  | cons c rest =>
    refine ⟨c, rest, rfl, ?_⟩
    have stops := List.head?_dropWhile_not isIndentChar raw
    rw [show raw.dropWhile isIndentChar = c :: rest from after, List.head?_cons] at stops
    have member : c ∈ raw := by
      apply (List.dropWhile_suffix isIndentChar).subset
      rw [show raw.dropWhile isIndentChar = c :: rest from after]
      exact List.mem_cons_self
    rw [Bool.eq_false_iff]
    intro white
    exact absurd (spaced c member white) (Bool.eq_false_iff.mp stops)

theorem lineContent_of_visible {c : Char} {rest : Text} (after : raw.afterIndentation = c :: rest)
    (visible : isWhiteSpace c = false) : raw.lineContent = c :: trimEnd rest := by
  rw [lineContent, after, trimEnd_cons visible]

private theorem isBlank_eq_false_of_isPiped (h : raw.lineContent.isPiped = true) :
    raw.isBlank = false := by
  rw [Bool.eq_false_iff]
  intro blank
  have empty : raw.lineContent = [] := by
    rw [lineContent, trimEnd_eq_nil_iff]
    refine List.all_eq_true.mpr fun c member => List.all_eq_true.mp blank c ?_
    exact (List.dropWhile_suffix isIndentChar).subset member
  rw [empty] at h
  cases h

/-- What a piped line is joined from begins with something visible, and ends in white space. -/
theorem IsSpaced.dropLast_lineContent (spaced : raw.IsSpaced)
    (piped : raw.lineContent.isPiped = true) :
    ∃ c middle d, raw.lineContent.dropLast = c :: (middle ++ [d]) ∧ isWhiteSpace c = false ∧
      isIndentChar d = true := by
  obtain ⟨c, rest, after, visible⟩ := spaced.exists_visible (isBlank_eq_false_of_isPiped piped)
  obtain ⟨front, d, content, indents⟩ := isPiped_iff.mp piped
  rw [lineContent_of_visible after visible] at content ⊢
  cases front with
  | nil =>
    obtain ⟨rfl, _⟩ := List.cons.inj content
    rw [isWhiteSpace_of_isIndentChar indents] at visible
    cases visible
  | cons e middle =>
    obtain ⟨rfl, same⟩ := List.cons.inj content
    refine ⟨c, middle, d, ?_, visible, indents⟩
    have split : c :: Text.trimEnd rest = (c :: (middle ++ [d])) ++ ['|'] := by simp [content]
    rw [split, List.dropLast_concat]

end Text

/-- The line of a filter has no white space in it. -/
theorem FilterBlock.isIndentChar_of_start {text : Text} {width number : Nat} {block : FilterBlock}
    (started : start text width number = .ok block) {d : Char} (member : d ∈ text) :
    Text.isIndentChar d = false := by
  obtain ⟨rfl, _, word⟩ := start_eq_ok_name started
  rw [Bool.eq_false_iff]
  intro indents
  have space : d = ' ' ∨ d = '\t' := by simpa [Text.isIndentChar] using indents
  obtain rfl | inside := List.mem_cons.mp member
  · obtain same | same := space <;> cases same
  · have known := word d inside
    obtain rfl | rfl := space <;> exact absurd known (by decide)

namespace Cursor

variable {c after : Cursor} {line : Line} {raw : Text} {rest : List Text} {base : Nat}
  {base? : Option Nat}

/-- A line with content is not blank when it is read, alone or joined with others. -/
private theorem isBlank_eq_false_of_takeLine? (pending : c.pending = raw :: rest)
    (spaced : raw.IsSpaced)
    (content : raw.isBlank = false) (taken : c.takeLine? = some (line, after)) :
    line.isBlank = false := by
  rw [Line.isBlank_eq_false_iff]
  rw [takeLine?_cons pending] at taken
  split at taken
  · rename_i piped
    cases taken
    obtain ⟨d, middle, e, joined, visible, _⟩ := spaced.dropLast_lineContent piped
    rw [joinPiped, List.flatMap_cons, joined, List.cons_append, Text.trimEnd_cons visible]
    exact List.cons_ne_nil _ _
  · cases taken
    obtain ⟨d, behind, split, visible⟩ := spaced.exists_visible content
    rw [Text.lineContent_of_visible split visible]
    exact List.cons_ne_nil _ _

/-- Between piped lines that are joined there is white space. -/
private theorem exists_isIndentChar_of_joinPiped {next : Text} (spaced : raw.IsSpaced)
    (piped : raw.lineContent.isPiped = true) (spaced' : next.IsSpaced)
    (piped' : next.lineContent.isPiped = true) (more : List Text) :
    ∃ d ∈ joinPiped (raw :: next :: more), Text.isIndentChar d = true := by
  obtain ⟨c, middle, d, first, _, indents⟩ := spaced.dropLast_lineContent piped
  obtain ⟨c', middle', d', second, visible, _⟩ := spaced'.dropLast_lineContent piped'
  refine ⟨d, ?_, indents⟩
  rw [joinPiped, List.flatMap_cons, List.flatMap_cons, first, second, Text.trimEnd_append,
    List.cons_append, Text.trimEnd_cons visible, if_neg (List.cons_ne_nil _ _)]
  simp

/-- The line of a filter stands alone: joined with others it would have white space in it. -/
theorem span_of_start (spaced : ∀ raw ∈ c.pending, raw.IsSpaced)
    (taken : c.takeWithin? base? = some (line, after)) {block : FilterBlock}
    (started : FilterBlock.start line.text line.width line.number = .ok block) : line.span = 1 := by
  have logical : c.takeLine? = some (line, after) → line.span = 1 := by
    intro taken
    cases pending : c.pending with
    | nil => simp [takeLine?, pending] at taken
    | cons raw rest =>
      rw [takeLine?_cons pending] at taken
      split at taken
      · rename_i piped
        cases taken
        cases run : pipedRun rest with
        | nil => rfl
        | cons next more =>
          -- The white space that ends the first line would be in the name of the filter.
          have follows : next ∈ pipedRun rest := by simp [run]
          have member : next ∈ rest := (List.takeWhile_sublist _).subset follows
          rw [pending] at spaced
          obtain ⟨d, inside, indents⟩ := exists_isIndentChar_of_joinPiped
            (spaced raw List.mem_cons_self) piped (spaced next (List.mem_cons_of_mem _ member))
            (List.mem_takeWhile_imp (p := fun raw : Text => raw.lineContent.isPiped) follows) more
          rw [run] at started
          rw [FilterBlock.isIndentChar_of_start started inside] at indents
          cases indents
      · cases taken
        rfl
  cases base? with
  | none => exact logical taken
  | some base =>
    simp only [takeWithin?, takeBodyLine?] at taken
    split at taken
    · cases taken
    · split at taken
      · cases taken
        rfl
      · exact logical taken

/-- A line of a body is taken as it is, and any other line ends the body when it is read. -/
theorem takeWithin?_of_spaced (pending : c.pending = raw :: rest) (spaced : raw.IsSpaced)
    (taken : c.takeWithin? (some base) = some (line, after)) :
    (raw.isBelow base = true ∧ after = c.skip 1 ∧ (line.isBlank = true ∨ base < line.width) ∧
        (if line.isBlank then [] else line.indent ++ line.text) = raw.blanked) ∨
      (raw.isBelow base = false ∧ line.isBlank = false ∧ line.width ≤ base) := by
  have blank : raw.isBlank = raw.afterIndentation.isEmpty := by
    rw [Bool.eq_iff_iff, ← spaced.afterIndentation_eq_nil_iff, List.isEmpty_iff]
  simp only [takeWithin?, takeBodyLine?, pending] at taken
  split at taken
  · rename_i inside
    cases taken
    refine .inl ⟨?_, rfl, ?_, ?_⟩
    · rw [Text.isBelow, blank, Bool.or_eq_true, List.isEmpty_iff, decide_eq_true_eq]
      exact inside
    · rw [Line.isBlank, List.isEmpty_iff]
      exact inside
    · rw [Line.isBlank, Text.blanked, blank, Text.indentation_append_afterIndentation]
  · rename_i outside
    obtain ⟨content, shallow⟩ := not_or.mp outside
    have visible : raw.isBlank = false := by simpa [blank] using content
    obtain ⟨_, _, same, indent⟩ := takeLine?_indent taken
    cases pending.symm.trans same
    refine .inr ⟨?_, isBlank_eq_false_of_takeLine? pending spaced visible taken, ?_⟩
    · rw [Text.isBelow, visible, Bool.false_or, decide_eq_false_iff_not]
      exact shallow
    · rw [Line.width, indent]
      exact Nat.le_of_not_lt shallow

end Cursor

namespace FilterBlock

variable {block : FilterBlock} {line : Line} {raw : Text} {rest : List Text} {c after : Cursor}

/-- What a filter block does with a line is told by the physical line that is next: it takes the
line as it is, or is over. -/
theorem endsAt_eq (pending : c.pending = raw :: rest) (spaced : raw.IsSpaced)
    (taken : c.takeWithin? (some block.baseWidth) = some (line, after)) :
    block.endsAt line = !raw.isBelow block.baseWidth ∧
      (block.endsAt line = false →
        after = c.skip 1 ∧ (block.push line).body = raw.blanked :: block.body) := by
  obtain ⟨below, position, inside, same⟩ | ⟨outside, content, shallow⟩ :=
    Cursor.takeWithin?_of_spaced pending spaced taken
  · refine ⟨?_, fun _ => ⟨position, ?_⟩⟩
    · rw [below, endsAt]
      obtain blank | deeper := inside
      · simp [blank]
      · simp [deeper]
    · rw [push, same]
  · have ends : block.endsAt line = true := by simp [endsAt, content, shallow]
    simp [ends, outside]

/-- The common indentation is that of one of the lines with content, and no such line has less. -/
theorem commonIndent_spec {lines : List Text} {line : Text} (member : line ∈ lines)
    (content : line ≠ []) :
    commonIndent lines ≤ line.indentation.length ∧
      ∃ least ∈ lines, least ≠ [] ∧ least.indentation.length = commonIndent lines := by
  have visible : line ∈ lines.filter (!·.isEmpty) := by simpa using ⟨member, content⟩
  have width : line.indentation.length ∈
      (lines.filter (!·.isEmpty)).map fun line => line.indentation.length :=
    List.mem_map_of_mem visible
  cases least : ((lines.filter (!·.isEmpty)).map fun line => line.indentation.length).min? with
  | none => simp [List.min?_eq_none_iff.mp least] at width
  | some n =>
    have same : commonIndent lines = n := by rw [commonIndent, least, Option.getD_some]
    obtain ⟨attained, lower⟩ := List.min?_eq_some_iff.mp least
    obtain ⟨first, inside, length⟩ := List.mem_map.mp attained
    rw [same]
    refine ⟨lower _ width, first, ?_, ?_, length⟩
    · exact List.mem_of_mem_filter inside
    · simpa using (List.mem_filter.mp inside).2

/-- The text that the lines of a body are put together to: lines with nothing to be seen are left
out at the end, and the others lose the columns that all of them with something in them are indented
by. -/
def IsBody (lines : List Text) (text : Text) : Prop :=
  ∃ (kept white : List Text) (margin : Nat),
    lines = kept ++ white ∧
    (∀ line ∈ white, line.isBlank = true) ∧ (∀ line ∈ kept.getLast?, line.isBlank = false) ∧
    (∀ line ∈ kept, line ≠ [] → margin ≤ line.indentation.length) ∧
    (kept ≠ [] → ∃ line ∈ kept, line ≠ [] ∧ line.indentation.length = margin) ∧
    text = List.intercalate ['\n'] (kept.map fun line => line.drop margin)

theorem isBody_bodyText (block : FilterBlock) : IsBody block.body.reverse block.bodyText := by
  have last : ∀ line ∈ (block.body.dropWhile Text.isBlank).reverse.getLast?,
      line.isBlank = false := by
    intro line final
    rw [List.getLast?_reverse] at final
    have stops := List.head?_dropWhile_not Text.isBlank block.body
    rw [final] at stops
    exact stops
  refine ⟨(block.body.dropWhile Text.isBlank).reverse, (block.body.takeWhile Text.isBlank).reverse,
    commonIndent (block.body.dropWhile Text.isBlank).reverse, ?_, ?_, last, ?_, ?_, rfl⟩
  · rw [← List.reverse_append, List.takeWhile_append_dropWhile]
  · intro line member
    exact List.mem_takeWhile_imp (List.mem_reverse.mp member)
  · intro line member content
    exact (commonIndent_spec member content).1
  · intro some
    refine (commonIndent_spec (List.getLast_mem some) ?_).2
    intro empty
    have visible := last _ (List.getLast?_eq_some_getLast some)
    rw [empty] at visible
    cases visible

/-- The text of a body is captured from the lines that have been taken in. -/
theorem isCapture_bodyText {lines : List Text}
    (body : block.body.reverse = lines.map Text.blanked) :
    Text.IsCapture lines block.bodyText := by
  obtain ⟨kept, white, margin, split, trailing, last, bound⟩ := block.isBody_bodyText
  rw [body] at split
  have empty : white = List.replicate white.length [] := by
    refine List.eq_replicate_of_mem fun line member => ?_
    have blank := trailing line member
    obtain ⟨raw, _, rfl⟩ :=
      List.mem_map.mp (split ▸ List.mem_append_right kept member : line ∈ lines.map Text.blanked)
    exact Text.blanked_eq_nil_of_isBlank blank
  refine ⟨kept, white.length, margin, by rw [← empty, split], ?_, bound⟩
  intro none
  cases last _ none

end FilterBlock

namespace ParseState

variable {registry : Registry} {source : Text} {line : Line} {s t behind : ParseState}
  {block : FilterBlock}

theorem bodyBase?_of_collecting (collecting : s.collector = some block) :
    s.bodyBase? = some block.baseWidth := by
  simp [bodyBase?, collecting, Collector.baseWidth?]

/-- A filter block has collected the lines between its own and the next to be read, and all of them
belong to its body. -/
structure Collects (source : Text) (cursor : Cursor) (block : FilterBlock) (lines : List Text) :
    Prop where
  split : source.physicalLines.drop block.line = lines ++ cursor.pending
  consumed : cursor.consumed = block.line + lines.length
  body : block.body.reverse = lines.map Text.blanked
  below : ∀ raw ∈ lines, raw.isBelow block.baseWidth = true

theorem Collects.push {lines : List Text} {cursor after : Cursor} {raw : Text} {rest : List Text}
    (h : Collects source cursor block lines) (pending : cursor.pending = raw :: rest)
    (spaced : raw.IsSpaced)
    (taken : cursor.takeWithin? (some block.baseWidth) = some (line, after))
    (within : block.endsAt line = false) :
    Collects source after (block.push line) (lines ++ [raw]) := by
  obtain ⟨ends, kept⟩ := FilterBlock.endsAt_eq pending spaced taken
  obtain ⟨rfl, body⟩ := kept within
  rw [within] at ends
  refine ⟨?_, ?_, ?_, ?_⟩
  · simp [FilterBlock.push, h.split, pending]
  · simp [FilterBlock.push, h.consumed]
    omega
  · simp [body, h.body]
  · show ∀ other ∈ lines ++ [raw], other.isBelow block.baseWidth = true
    rw [List.forall_mem_append]
    refine ⟨h.below, ?_⟩
    simpa using ends

/-- A filter block that a line has begun has collected nothing yet. -/
theorem collects_of_started (reached : Reached registry source s)
    (spaced : ∀ raw ∈ source.physicalLines, raw.IsSpaced)
    (read : s.takeLine? = some (line, behind))
    (started : FilterBlock.start line.text line.width line.number = .ok block) :
    Collects source behind.cursor block [] := by
  obtain ⟨_, number, empty⟩ := FilterBlock.start_eq_ok started
  have taken := (takeLine?_eq_some read).1
  obtain ⟨position, _, _, first⟩ := Cursor.takeWithin?_eq_some taken
  have pending : ∀ raw ∈ s.cursor.pending, raw.IsSpaced :=
    fun raw member => spaced raw (reached.follows.mem_physicalLines member)
  rw [Cursor.span_of_start pending taken started] at position
  have consumed : behind.cursor.consumed = block.line := by
    rw [position, number, first]
    rfl
  have follows := (takeLine?_number read).2.2.2.trans reached.follows
  refine ⟨?_, consumed, ?_, nofun⟩
  · rw [follows.pending_eq, consumed]
    rfl
  · rw [empty]
    rfl

/-- A filter block that is being collected has taken the lines behind its own as they are. -/
theorem exists_collects (reached : Reached registry source s)
    (spaced : ∀ raw ∈ source.physicalLines, raw.IsSpaced) (collecting : s.collector = some block) :
    ∃ lines, Collects source s.cursor block lines := by
  induction reached generalizing block with
  | start => cases collecting
  | @next s t reached advanced ih =>
    obtain ⟨line, behind, read, round⟩ := advance?_eq_ok_iff.mp advanced
    have taken := (takeLine?_eq_some read).1
    have same : behind.collector = s.collector := by rw [(takeLine?_eq_some read).2]
    have fresh : ∀ m, Parsing.Taken line m t → m.cursor = behind.cursor → m.collector = none →
        ∃ lines, Collects source t.cursor block lines := by
      intro m taken position idle
      obtain ⟨started, kept⟩ := taken.started idle collecting
      rw [kept, position]
      exact ⟨[], collects_of_started reached spaced read started⟩
    cases round with
    | collected kept _ within =>
      cases collecting
      rw [same] at kept
      obtain ⟨lines, collects⟩ := ih kept
      obtain ⟨raw, rest, pending, _⟩ := Cursor.takeWithin?_indent taken
      have member : raw ∈ s.cursor.pending := by simp [pending]
      have rawSpaced := spaced raw (reached.follows.mem_physicalLines member)
      rw [bodyBase?_of_collecting kept] at taken
      exact ⟨_, collects.push pending rawSpaced taken within⟩
    | passed kept inside =>
      -- A line is passed only in a Haml comment, where no block is being collected.
      have lockstep := (Lockstep.of_reached reached).takeLine? read
      rw [lockstep.outside_of_collecting kept] at inside
      cases inside
    | closed _ _ _ _ taken => exact fresh _ taken rfl rfl
    | taken idle taken => exact fresh _ taken rfl idle

/-- When a filter block is over, it has taken in its body. -/
theorem Collects.eq_bodyBelow {lines : List Text} (h : Collects source s.cursor block lines)
    (reached : Reached registry source s) (spaced : ∀ raw ∈ source.physicalLines, raw.IsSpaced)
    (collecting : s.collector = some block)
    (ended : ∀ line behind, s.takeLine? = some (line, behind) → block.endsAt line = true) :
    lines = source.bodyBelow block.line := by
  have width := (Arranged.of_reached reached).collecting block collecting
  rw [Text.bodyBelow, h.split, width]
  refine (Text.takeWhile_append h.below ?_).1.symm
  intro raw next
  cases pending : s.cursor.pending with
  | nil => simp [pending] at next
  | cons first rest =>
    rw [pending] at next
    cases next
    have rawSpaced := spaced raw (reached.follows.mem_physicalLines (by simp [pending]))
    cases read : s.cursor.takeWithin? (some block.baseWidth) with
    | none => simp [Cursor.takeWithin?_eq_none_iff.mp read] at pending
    | some taken =>
      have ends := (FilterBlock.endsAt_eq pending rawSpaced read).1
      rw [ended taken.1 { s with cursor := taken.2 }] at ends
      · simpa using ends.symm
      · rw [takeLine?, bodyBase?_of_collecting collecting, read]
        rfl

end ParseState

namespace Document

variable {registry : Registry} {source : Text} {d : Document}

/-- No node of a document lies among the lines that a filter block has taken in. -/
theorem outside_of_collects {s : ParseState} {block : FilterBlock} {lines : List Text}
    (h : parse registry source = .ok d) (reached : ParseState.Reached registry source s)
    (collecting : s.collector = some block)
    (collects : ParseState.Collects source s.cursor block lines) :
    ∀ n ∈ Node.lines d.roots, n ≤ block.line ∨ block.line + lines.length < n := by
  have ascending := lines_ascending h
  rw [reached.parse_eq] at h
  rw [ParseState.lines_readAll (.of_reached reached) h, ParseState.lines, collecting] at ascending ⊢
  intro n member
  obtain before | later := List.mem_append.mp member
  · obtain outline | own := List.mem_append.mp before
    · have earlier := (List.pairwise_append.mp (List.pairwise_append.mp ascending).1).2.2
      exact .inl (Nat.le_of_lt (earlier n outline block.line (by simp)))
    · exact .inl (Nat.le_of_eq (by simpa using own))
  · obtain ⟨line, placed, rfl⟩ := List.mem_map.mp later
    have bounds := (ParseState.placedLines_ascending registry s).2
    have behind := (bounds line (List.mem_filter.mp placed).1).1
    rw [collects.consumed] at behind
    exact .inr behind

theorem line_mem_lines {node : Node} (member : node ∈ d.nodes) :
    node.line ∈ Node.lines d.roots := by
  obtain own | ⟨outer, within, inline⟩ := Node.mem_nodes_iff.mp member
  · exact List.mem_map_of_mem own
  · rw [Node.line_of_inline? inline]
    exact List.mem_map_of_mem within

/-- A filter node has come of a filter block that was over. -/
theorem exists_finished {n : Nat} {name : Text} {output : Fragment}
    (h : parse registry source = .ok d) (member : .leaf n (.filter name output) ∈ d.nodes) :
    ∃ s block, ParseState.Reached registry source s ∧ s.collector = some block ∧
      (∀ line behind, s.takeLine? = some (line, behind) → block.endsAt line = true) ∧
      block.finish registry = .ok (.leaf n (.filter name output)) := by
  obtain own | ⟨outer, within, inline⟩ := Node.mem_nodes_iff.mp member
  · have begun := begun_of_parse h _ own
    rw [Node.bare] at begun
    cases begun with
    | content _ _ begins => exact absurd rfl begins.kind_ne_filter
    | filter reached collecting ended finished =>
      exact ⟨_, _, reached, collecting, ended, finished⟩
  · obtain ⟨code, same⟩ | ⟨content, same⟩ := Node.eq_of_inline? inline
    · cases same
    · cases same

end Document

/-- A filter block is captured exactly, if spaces, tabs and line terminators are the only white
space of the source. Its output is what the filter that is registered under its name makes of its
body: the lines behind its own up to the first that is not blank and no deeper, with blank ones
empty and left out at the end, without the columns that the others have in common, and with line
feeds between them. Nothing in the body is read in another way, so no node lies there. -/
theorem filter_of_parse {registry : Registry} {source : Text} {d : Document}
    (white : ∀ c ∈ source, isWhiteSpace c = true → c = ' ' ∨ c = '\t' ∨ c = '\n' ∨ c = '\r')
    (h : Document.parse registry source = .ok d) :
    ∀ n name output, .leaf n (.filter name output) ∈ d.nodes →
      (∃ filter text, registry.lookup? name = some filter ∧
        Text.IsCapture (source.bodyBelow n) text ∧ output = filter text) ∧
      ∀ node ∈ d.nodes, node.line ≤ n ∨ n + (source.bodyBelow n).length < node.line := by
  have spaced : ∀ raw ∈ source.physicalLines, raw.IsSpaced :=
    fun _ => Text.isSpaced_of_mem_physicalLines white
  intro n name output member
  obtain ⟨s, block, reached, collecting, ended, finished⟩ := Document.exists_finished h member
  obtain ⟨lines, collects⟩ := ParseState.exists_collects reached spaced collecting
  obtain ⟨output, compiled, same⟩ := FilterBlock.finish_eq_ok finished
  cases same
  obtain ⟨filter, known, rfl⟩ := Option.map_eq_some_iff.mp compiled
  have body := collects.eq_bodyBelow reached spaced collecting ended
  rw [← body]
  refine ⟨⟨filter, _, known, FilterBlock.isCapture_bodyText collects.body, rfl⟩, ?_⟩
  intro node inside
  exact Document.outside_of_collects h reached collecting collects _
    (Document.line_mem_lines inside)

/-- A body that begins with a blank line, holds a bar, a tag and tabs, and ends in a blank line. -/
theorem filter_of_parse_plain :
    ∃ d, Document.parse .builtins
        "%p\n  :plain\n\n      a |\n    %b \n\t\t\t\tc\n   \n  %q\n".toList = .ok d ∧
      .leaf 2 (.filter "plain".toList (.static "\n  a |\n%b \nc\n".toList)) ∈ d.nodes ∧
      (∃ filter text, Registry.builtins.lookup? "plain".toList = some filter ∧
        Text.IsCapture ["".toList, "      a |".toList, "    %b ".toList, "\t\t\t\tc".toList,
          "   ".toList] text ∧ .static "\n  a |\n%b \nc\n".toList = filter text) ∧
      ∀ node ∈ d.nodes, node.line ≤ 2 ∨ 7 < node.line := by
  have parsed : Document.parse .builtins
      "%p\n  :plain\n\n      a |\n    %b \n\t\t\t\tc\n   \n  %q\n".toList = .ok ⟨8, [
        .block 1 (.element { tag := ['p'] }) [
          .leaf 2 (.filter "plain".toList (.static "\n  a |\n%b \nc\n".toList)),
          .block 8 (.element { tag := ['q'] }) []]]⟩ := by
    decide +kernel
  have white : ("%p\n  :plain\n\n      a |\n    %b \n\t\t\t\tc\n   \n  %q\n".toList.all fun c =>
      !isWhiteSpace c || c == ' ' || c == '\t' || c == '\n' || c == '\r') = true := by
    decide +kernel
  have member : Node.leaf 2 (.filter "plain".toList (.static "\n  a |\n%b \nc\n".toList)) ∈
      Document.nodes ⟨8, [
        .block 1 (.element { tag := ['p'] }) [
          .leaf 2 (.filter "plain".toList (.static "\n  a |\n%b \nc\n".toList)),
          .block 8 (.element { tag := ['q'] }) []]]⟩ := .tail _ (.head _)
  have captured := filter_of_parse
    (fun c inside => by
      simpa [or_assoc, or_iff_not_imp_left] using List.all_eq_true.mp white c inside)
    parsed 2 _ _ member
  exact ⟨_, parsed, member, captured⟩

end HamlTemplate
