import HamlTemplate.Proofs.Continuation
import HamlTemplate.Proofs.Gathering
import HamlTemplate.Proofs.Uniform
import Mathlib.Data.List.ModifyLast

/-!
# Sources put together

A source that begins at the margin is parsed behind another one as it is by itself. Its first line
closes all that the other source has left open, as the end of that source would, and from there on
the parse runs in parallel with that of the second source alone. All that the first source sees of
the second is whether its first line goes on with the last block.
-/

namespace HamlTemplate

namespace Cursor

variable {n : Nat} {c after : Cursor} {line : Line}

/-- The position with that many more lines before it. -/
def later (n : Nat) (c : Cursor) : Cursor := ⟨c.pending, c.consumed + n⟩

theorem consumed_later (n : Nat) (c : Cursor) : (c.later n).consumed = c.consumed + n := rfl

private theorem skip_later (n k : Nat) (c : Cursor) : (c.later n).skip k = (c.skip k).later n := by
  simp only [skip, later, Nat.add_right_comm]

theorem takeLine?_later (n : Nat) (c : Cursor) :
    (c.later n).takeLine? = c.takeLine?.map fun (line, after) => (line.shift n, after.later n) := by
  have number : c.consumed + n + 1 = c.consumed + 1 + n := Nat.add_right_comm ..
  simp only [takeLine?, skip_later]
  simp only [later, number]
  split
  · rfl
  · split <;> rfl

theorem takeWithin?_later (n : Nat) (base? : Option Nat) (c : Cursor) :
    (c.later n).takeWithin? base? =
      (c.takeWithin? base?).map fun (line, after) => (line.shift n, after.later n) := by
  cases base? with
  | none => exact takeLine?_later n c
  | some base =>
    have number : c.consumed + n + 1 = c.consumed + 1 + n := Nat.add_right_comm ..
    simp only [takeWithin?, takeBodyLine?, skip_later, takeLine?_later]
    simp only [later, number]
    split
    · rfl
    · split <;> rfl

/-- A line with content at the margin belongs to no body. -/
theorem takeWithin?_margin (begins : c.takeLine? = some (line, after))
    (content : line.isBlank = false) (margin : line.width = 0) (base? : Option Nat) :
    c.takeWithin? base? = some (line, after) := by
  cases base? with
  | none => exact begins
  | some base =>
    obtain ⟨raw, rest, pending, indent⟩ := takeLine?_indent begins
    have outside : ¬(raw.afterIndentation = [] ∨ base < raw.indentation.length) := by
      rintro (empty | deep)
      · have blank : raw.lineContent = [] := by rw [Text.lineContent, empty, Text.trimEnd_nil]
        have single : pipedRun (raw :: rest) = [] := by simp [pipedRun, blank, Text.isPiped]
        simp only [takeLine?, pending, single, blank, Option.some.injEq, Prod.mk.injEq] at begins
        rw [← begins.1] at content
        cases content
      · rw [← indent] at deep
        rw [Line.width] at margin
        omega
    simp only [takeWithin?, takeBodyLine?, pending]
    rw [if_neg outside, begins]

theorem gatherFrom_later (wanted : Text → Bool) (tidy : Text → Text) (lines : List Text)
    (consumed n : Nat) (gathered : Gathered) :
    gatherFrom wanted tidy lines (consumed + n) gathered =
      ((gatherFrom wanted tidy lines consumed gathered).1,
        (gatherFrom wanted tidy lines consumed gathered).2.later n) := by
  have same : ∀ raw, tidy (id raw) = tidy raw := fun _ => rfl
  have moved : gatherFrom wanted tidy (lines.map id) (consumed + n) gathered = _ :=
    gatherFrom_map same lines consumed n gathered
  rwa [List.map_id, List.map_id] at moved

/-- Positions run in parallel with those that have that many more lines before them, if what is
asked of them stays as they move on and the lines read from them are alike to a tracker. -/
theorem parallelRuns_of_kept {P : Cursor → Prop} {I : Option Char → Option Char → Prop} (n : Nat)
    (kept : ∀ c k, P c → P (c.skip k))
    (alike : ∀ c base? line after, P c → c.takeWithin? base? = some (line, after) →
      line.Alike id I (line.shift n)) :
    ParallelRuns (fun c c' => c' = c.later n ∧ P c) I (fun e => some (e.shift n)) n where
  consumed := by
    rintro c _ ⟨rfl, _⟩
    rfl
  answers _ := .inr rfl
  gather := by
    rintro wanted tidy fault _ text c _ ⟨rfl, holds⟩
    have position := gatherFrom_follows wanted tidy c.pending c.consumed ⟨text, 1⟩
    simp only [Reading.gather, later, gatherFrom_later]
    cases gathered : gatherFrom wanted tidy c.pending c.consumed ⟨text, 1⟩ with
    | mk gathered? after =>
      rw [gathered] at position
      cases gathered? with
      | none => exact .error rfl
      | some whole =>
        obtain ⟨k, _, rfl⟩ : after.Follows c := position
        exact .ok ⟨rfl, kept c k holds⟩
  takes := by
    rintro c _ base? line after ⟨rfl, holds⟩ taken
    have same := alike c base? line after holds taken
    obtain ⟨rfl, _⟩ := takeWithin?_eq_some taken
    refine ⟨same, _, ?_, rfl, kept c line.span holds⟩
    rw [takeWithin?_later, taken]
    rfl

/-- The second position is the first one with that many more lines before it, and the lines behind
it are indented with spaces. -/
def Later (n : Nat) (c c' : Cursor) : Prop := c' = c.later n ∧ IndentedWith ' ' c.pending

/-- Positions in documents that are indented with spaces run in parallel whatever number of lines
is before them. -/
theorem parallelRuns_later (n : Nat) :
    ParallelRuns (Later n) (Tracker.Uniform ' ' ' ') (fun e => some (e.shift n)) n := by
  refine parallelRuns_of_kept n (fun c k spaced => spaced.drop k) ?_
  intro c base? line after spaced taken
  have indent := ParseState.indent_of_takeWithin? spaced taken
  exact Tracker.alike_of_uniform rfl rfl indent indent

end Cursor

/-- The node, with its flag set if it is a script with a block. -/
def Node.resumed (midBlock : Bool) : Node → Node
  | block line head (child :: nested) =>
    block line (head.withMidBlock midBlock) (child :: nested)
  | node => node

theorem Node.resumed_of_nested_eq_nil {node : Node} (h : node.nested = []) (midBlock : Bool) :
    node.resumed midBlock = node := by
  cases node with
  | leaf line l => rfl
  | block line head nested =>
    cases nested with
    | nil => rfl
    | cons child nested => cases h

theorem Outline.closeBlock_resumed {block : OpenBlock} (filled : block.nested ≠ []) (line : Line) :
    (closeBlock block none).resumed line.text.continuesBlock = closeBlock block (some line) := by
  unfold closeBlock
  cases nested : block.nested.reverse with
  | nil => exact absurd (List.reverse_eq_nil_iff.mp nested) filled
  | cons child rest => simp [Node.resumed, Head.withMidBlock_withMidBlock]

/-- The last finished node outside all blocks, with its flag set. -/
def Outline.resumed (midBlock : Bool) (o : Outline) : Outline :=
  { o with roots := o.roots.modifyHead (Node.resumed midBlock) }

namespace Tracker

variable {line : Line} {t : Tracker} {o : Outline}

/-- A line at the margin closes all levels, as the end of the source does. Only the outermost block
sees the line. -/
theorem closes_margin (margin : line.width = 0) {level : Level} {outer : List Level}
    (ascending : Level.Ascending (level :: outer)) (count : o.heads.length = outer.length + 1)
    (filled : o.siblings ≠ []) :
    Closes line (level :: outer) o []
      ((o.closedTimes (outer.length + 1)).resumed line.text.continuesBlock) := by
  -- Levels are closed from the inside, so it is the base case that closes the block of the root.
  induction outer generalizing level o with
  | nil =>
    have wider : line.width < level.width := by
      rw [margin]
      exact ascending.1
    obtain ⟨roots, _ | ⟨block, _ | ⟨_, _⟩⟩⟩ := o
    · cases count
    · have last : following line [] = some line := if_pos margin.symm
      have closed : Outline.resumed line.text.continuesBlock
          (Outline.closedTimes 1 ⟨roots, [block]⟩) = Outline.closed ⟨roots, [block]⟩ (some line) :=
        congrArg (Outline.mk · []) (congrArg (· :: roots) (Outline.closeBlock_resumed filled line))
      refine .close wider ?_
      rw [last, List.length_nil, closed]
      exact .done margin.symm
    · cases count
  | cons next outer ih =>
    have inner := ascending.1
    have wide := ascending.2.1
    rw [Level.innermostWidth_cons] at inner
    have inside : following line (next :: outer) = none :=
      if_neg (by rw [Level.innermostWidth_cons]; omega)
    refine .close (by omega) ?_
    rw [inside, List.length_cons, Outline.closedTimes]
    refine ih ascending.2 ?_ ?_
    · rw [Outline.heads_closed, List.length_tail, count, List.length_cons, Nat.add_sub_cancel]
    · obtain ⟨roots, _ | ⟨block, blocks⟩⟩ := o
      · cases count
      · simp [Outline.closed]

/-- A line at the margin finds everything closed. -/
theorem placement_margin (content : line.isBlank = false) (margin : line.width = 0)
    (matched : Matched t.levels o.heads) (filled : o.openBlocks ≠ [] → o.siblings ≠ [])
    (fresh : ∀ node ∈ o.siblings.head?, node.nested = []) :
    Placement line t o .structural { t.settle line with levels := [] }
      ((o.closedTimes t.levels.length).resumed line.text.continuesBlock) := by
  have indent : line.indent = [] := List.length_eq_zero_iff.mp margin
  have admits : t.Admits line := by
    refine ⟨content, ?_, ?_⟩
    · simp [takesVerbatim, margin]
    · simp [mismatch?, indent]
  have count := matched.length_eq
  obtain ⟨_ | ⟨level, outer⟩, c?⟩ := t
  · obtain ⟨roots, _ | ⟨block, blocks⟩⟩ := o
    · have same : Outline.resumed line.text.continuesBlock (Outline.closedTimes 0 ⟨roots, []⟩) =
          ⟨roots, []⟩ := by
        cases roots with
        | nil => rfl
        | cons node roots =>
          have last := Node.resumed_of_nested_eq_nil (fresh node rfl) line.text.continuesBlock
          exact congrArg (Outline.mk · []) (congrArg (· :: roots) last)
      rw [List.length_nil, same]
      exact .level admits margin.symm
    · cases count
  · have opened : o.openBlocks ≠ [] := by
      intro empty
      rw [Outline.heads_eq_nil_iff.mpr empty] at count
      cases count
    have wide := matched.ascending.1
    refine .shallower admits ?_ (closes_margin margin matched.ascending count.symm (filled opened))
    rw [width, Level.innermostWidth_cons]
    omega

end Tracker

private theorem List.reverse_modifyHead {α : Type} (f : α → α) (list : List α) :
    (list.modifyHead f).reverse = list.reverse.modifyLast f := by
  cases list with
  | nil => rfl
  | cons a list => rw [List.modifyHead_cons, List.reverse_cons, List.reverse_cons,
      List.modifyLast_concat]

namespace Parsing

variable {registry : Registry} {line : Line} {s : ParseState} {tracker : Tracker}
  {outline : Outline}

theorem placeLine_of_structural
    (placed : Tracker.Placement line s.tracker s.outline .structural tracker outline) :
    placeLine line s =
      add line.width line.number (Content.ofText line.text) { s with tracker, outline } := by
  simp only [placeLine, Bind.bind, EStateM.bind, following, Tracker.process_of_placement placed]

/-- A line at the margin ends a filter block before it is placed. -/
theorem acceptLine_margin {o : Outline} (lockstep : s.Lockstep) (content : line.isBlank = false)
    (margin : line.width = 0)
    (finished : s.Finished registry o) :
    ParseState.Lockstep ⟨s.cursor, s.tracker, o, none⟩ ∧
      acceptLine registry line s = placeLine line ⟨s.cursor, s.tracker, o, none⟩ := by
  cases finished with
  | idle idle =>
    have same : (⟨s.cursor, s.tracker, s.outline, none⟩ : ParseState) = s := by rw [← idle]
    rw [same, acceptLine_eq, offerLine_of_idle idle]
    simp [lockstep, idle]
  | @output block _ collecting finished =>
    have outside := lockstep.outside_of_collecting collecting
    have ends : block.endsAt line = true := by simp [FilterBlock.endsAt, content, margin]
    rw [acceptLine_eq, offerLine_of_ends collecting outside ends, finished]
    obtain ⟨output, _, rfl⟩ := FilterBlock.finish_eq_ok finished
    exact ⟨.push s.cursor rfl lockstep.matched, rfl⟩

end Parsing

namespace ParseState

variable {registry : Registry} {n : Nat} {before : List Node} {s t : ParseState}
  {K : Cursor → Cursor → Prop} {I : Option Char → Option Char → Prop}

/-- A line at the margin finds the outline that the source would end with if it ended there, but
that the last block sees the line. -/
theorem advance?_margin {c after : Cursor} {line : Line} {roots : List Node} {count : Nat}
    (lockstep : s.Lockstep) (concluded : s.conclude registry = .ok ⟨count, roots⟩)
    (begins : c.takeLine? = some (line, after)) (content : line.isBlank = false)
    (margin : line.width = 0) :
    ∃ before : List Node,
      before.reverse = roots.modifyLast (Node.resumed line.text.continuesBlock) ∧
      ({ s with cursor := c } : ParseState).advance? registry =
        some (Parsing.add 0 line.number (Content.ofText line.text)
          ⟨after, { s.tracker.settle line with levels := [] }, ⟨before, []⟩, none⟩) := by
  obtain ⟨o, finished, same⟩ := conclude_eq_ok concluded
  have finished : ({ s with cursor := after } : ParseState).Finished registry o := by
    cases finished with
    | idle idle => exact .idle idle
    | output collecting finished => exact .output collecting finished
  obtain ⟨lockstep', accepted⟩ :=
    Parsing.acceptLine_margin (lockstep.moved after) content margin finished
  have placed := Tracker.placement_margin content margin lockstep'.matched (lockstep'.filled rfl)
    (lockstep'.fresh rfl)
  have none := Outline.heads_eq_nil_iff.mp lockstep'.matched.heads_closedTimes
  cases same
  refine ⟨_, List.reverse_modifyHead _ _, ?_⟩
  rw [advance?, takeLine?, Cursor.takeWithin?_margin begins content margin]
  simp only [Option.map_some, accepted]
  rw [Parsing.placeLine_of_structural placed, margin, Outline.resumed, none]

/-- The end of the source is the same behind other nodes. -/
theorem Renumbered.conclude_eq {f : Nat → Nat} (renumbered : s.Renumbered K I f n before t) :
    t.conclude registry =
      match s.conclude registry with
      | .ok d => .ok ⟨t.cursor.lineCount, before.reverse ++ d.roots.map (Node.renumber f)⟩
      | .error e => .error (e.shift n) := by
  have levels := renumbered.tracker.levels
  have collector := renumbered.collector
  rw [Level.stretch_id, List.map_id] at levels
  cases collecting : s.collector with
  | none =>
    rw [collecting] at collector
    rw [conclude_of_idle collecting, conclude_of_idle collector, levels, renumbered.outline,
      Outline.closedTimes_renumber, Outline.finished_renumber]
  | some block =>
    rw [collecting] at collector
    rw [conclude_of_collecting collecting, conclude_of_collecting collector, levels,
      FilterBlock.finish_shift (renumbered.begun block collecting), renumbered.outline]
    cases block.finish registry with
    | ok node =>
      simp only [Outline.push_renumber, Outline.closedTimes_renumber, Outline.finished_renumber]
    | error e => rfl

end ParseState

namespace ParseState

variable {registry : Registry} {n : Nat} {before : List Node} {s t : ParseState}

theorem anchored_of_add {width number : Nat} {content : Content}
    (added : Parsing.add width number content s = .ok () t) : t.Anchored before := by
  obtain ⟨_, node, _, _, _, rfl⟩ | ⟨_, _, _, _, rfl⟩ := Parsing.add_eq_ok_iff.mp added
  · exact fun _ => Outline.anchored_push before _ node
  · intro idle
    cases idle

/-- Once the first line of a source has been placed behind other nodes, all that follows is parsed
as it is without them. -/
theorem readAll_behind {second : Text} {joined : ParseState} {number : Nat} {content : Content}
    (advanced : (start second).advance? registry = some (Parsing.add 0 number content s))
    (advanced' : joined.advance? registry = some (Parsing.add 0 (number + n) content t))
    (shifted : Shifted (Cursor.Later n) (Tracker.Uniform ' ' ' ') n before s t) :
    joined.readAll registry =
      match Document.parse registry second with
      | .ok d => .ok ⟨n + d.lineCount, before.reverse ++ d.roots.map (Node.shift n)⟩
      | .error e => .error (e.shift n) := by
  have parallel := Cursor.parallelRuns_later n
  have added : Agree (Renumbered (Cursor.Later n) (Tracker.Uniform ' ' ' ') (· + n) n before)
      (fun e => some (e.shift n)) (Parsing.add 0 number content s)
      (Parsing.add 0 (number + n) content t) :=
    Parsing.add_agree parallel.toParallel 0 number content rfl
      (renumbered_iff_shifted.mpr shifted)
  rw [Document.parse]
  cases result : Parsing.add 0 number content s with
  | ok u s₁ =>
    rw [result] at added advanced
    obtain ⟨t₁, result', renumbered⟩ := added.of_ok
    rw [result'] at advanced'
    rw [readAll_of_advance_ok advanced, readAll_of_advance_ok advanced']
    obtain ⟨e, failed, waived | same⟩ | ⟨last, last', _, _, atEnd, renumbered, ended, onward⟩ :=
      readAll_renumbered parallel (fun _ _ _ _ _ => rfl) (.next .start advanced)
        (anchored_of_add result) renumbered
    · cases waived
    · rw [failed, same]
    · have position := renumbered.cursor.1
      have atEnd' : last'.cursor.pending = [] := by
        rw [position]
        exact atEnd
      rw [ended, onward, readAll_of_advance_none (advance?_eq_none_iff.mpr atEnd'),
        renumbered.conclude_eq, Node.shift_eq_renumber]
      cases concluded : last.conclude registry with
      | error e => rfl
      | ok d =>
        obtain ⟨_, _, rfl⟩ := conclude_eq_ok concluded
        simp [position, Cursor.later, Cursor.lineCount, atEnd, Nat.add_comm]
  | error e s₁ =>
    rw [result] at added advanced
    obtain ⟨t₁, result'⟩ := added.of_error rfl
    rw [result'] at advanced'
    rw [readAll_of_advance_error advanced, readAll_of_advance_error advanced']

end ParseState

/-- The parse of a source that goes on behind another one comes to the end of that one. -/
theorem Document.exists_end {registry : Registry} {first : Text} {d : Document}
    (ends : first.EndsLine) (parsed : Document.parse registry first = .ok d)
    (unpiped : ∀ raw ∈ first.physicalLines.getLast?, raw.lineContent.isPiped = false)
    (second : Text) :
    ∃ last : ParseState, ParseState.Reached registry first last ∧
      last.conclude registry = .ok d ∧
      Document.parse registry (first ++ second) =
        ({ last with cursor := (Cursor.start second).later d.lineCount } : ParseState).readAll
          registry := by
  have shifted : ParseState.Shifted (Cursor.Extends second.physicalLines) Eq 0 []
      (.start first) (.start (first ++ second)) :=
    ⟨Cursor.extends_start ends unpiped second, ⟨rfl, rfl⟩, rfl, rfl⟩
  obtain ⟨e, failed, _⟩ | ⟨last, last', reached, _, atEnd, shifted, ended, onward⟩ :=
    ParseState.readAll_parallel (Cursor.parallelRuns_extends second.physicalLines) .start
      (fun _ _ => rfl) shifted
  · cases parsed.symm.trans failed
  · have concluded := ended.symm.trans parsed
    refine ⟨last, reached, concluded, onward.trans ?_⟩
    have position : last'.cursor = (Cursor.start second).later d.lineCount := by
      have count : d.lineCount = last.cursor.consumed := by
        obtain ⟨_, _, rfl⟩ := ParseState.conclude_eq_ok concluded
        simp [Cursor.lineCount, atEnd]
      have pending := shifted.cursor.pending
      have consumed := shifted.cursor.consumed
      rw [atEnd, List.nil_append] at pending
      rw [Cursor.later, Cursor.start, ← pending, count, Nat.zero_add, ← consumed]
    rw [shifted.eq_of_zero, position]

/-- Parsing is compositional: a source that begins at the margin can be parsed by itself, and what
comes of it is put behind what comes of the source before it. The lines are shifted by the lines of
that source, errors included, and the only thing that changes before them is the flag of the last
root, if it is a script with a block: it says whether the line that follows goes on with that
block. -/
theorem parse_append {registry : Registry} {first second : Text} {d : Document} {line : Line}
    {after : Cursor} (ends : first.EndsLine) (parsed : Document.parse registry first = .ok d)
    (unpiped : ∀ raw ∈ first.physicalLines.getLast?, raw.lineContent.isPiped = false)
    (spaced : IndentedWith ' ' (first.physicalLines ++ second.physicalLines))
    (begins : (Cursor.start second).takeLine? = some (line, after))
    (content : line.isBlank = false) (margin : line.width = 0) :
    Document.parse registry (first ++ second) =
      match Document.parse registry second with
      | .ok e =>
        .ok ⟨d.lineCount + e.lineCount,
          d.roots.modifyLast (Node.resumed line.text.continuesBlock) ++
            e.roots.map (Node.shift d.lineCount)⟩
      | .error e => .error (e.shift d.lineCount) := by
  obtain ⟨last, reached, concluded, onward⟩ := Document.exists_end ends parsed unpiped second
  have inFirst : IndentedWith ' ' first.physicalLines :=
    fun raw member => spaced raw (List.mem_append_left _ member)
  have inSecond : IndentedWith ' ' second.physicalLines :=
    fun raw member => spaced raw (List.mem_append_right _ member)
  have begins' : ((Cursor.start second).later d.lineCount).takeLine? =
      some (line.shift d.lineCount, after.later d.lineCount) := by
    rw [Cursor.takeLine?_later, begins]
    rfl
  have read : (Cursor.start second).takeWithin? none = some (line, after) := begins
  have indent := ParseState.indent_of_takeWithin? inSecond read
  have atOnce : (ParseState.start second).conclude registry = .ok ⟨_, []⟩ :=
    ParseState.conclude_of_idle rfl
  obtain ⟨before, roots, advanced'⟩ := ParseState.advance?_margin (.of_reached reached) concluded
    begins' content margin
  obtain ⟨empty, none, advanced⟩ := ParseState.advance?_margin (.start second) atOnce begins
    content margin
  obtain rfl : empty = [] := List.reverse_eq_nil_iff.mp none
  have shifted : ParseState.Shifted (Cursor.Later d.lineCount) (Tracker.Uniform ' ' ' ')
      d.lineCount before
      ⟨after, { Tracker.settle {} line with levels := [] }, ⟨[], []⟩, .none⟩
      ⟨after.later d.lineCount, { last.tracker.settle (line.shift d.lineCount) with levels := [] },
        ⟨before, []⟩, .none⟩ := by
    refine ⟨⟨rfl, ?_⟩, ⟨rfl, ?_, ?_⟩, rfl, rfl⟩
    · rw [(Cursor.takeLine?_eq_some begins).1]
      exact inSecond.drop line.span
    · exact (Tracker.uniform_settle (t := {}) nofun indent).1
    · exact (Tracker.uniform_settle (reached.uniform inFirst) indent).1
  rw [onward, ParseState.readAll_behind advanced advanced' shifted, roots, Line.text_shift]

/-- A filter block is open where the first source ends, inside a script that the first line of the
second one goes on with. -/
theorem parse_append_else :
    Document.parse .builtins
        ("- if x\n  a\n  :plain\n    b\n".toList ++ "- else\n  c\n".toList) = .ok ⟨6, [
      .block 1 (.silentScript "if x".toList true) [
        .leaf 2 (.text ['a']),
        .leaf 3 (.filter "plain".toList (.static "b\n".toList))],
      .block 5 (.silentScript "else".toList false) [.leaf 6 (.text ['c'])]]⟩ := by
  have parsed : Document.parse .builtins "- if x\n  a\n  :plain\n    b\n".toList = .ok ⟨4, [
      .block 1 (.silentScript "if x".toList false) [
        .leaf 2 (.text ['a']),
        .leaf 3 (.filter "plain".toList (.static "b\n".toList))]]⟩ := by
    decide +kernel
  have behind : Document.parse .builtins "- else\n  c\n".toList = .ok ⟨2, [
      .block 1 (.silentScript "else".toList false) [.leaf 2 (.text ['c'])]]⟩ := by
    decide +kernel
  have begins : (Cursor.start "- else\n  c\n".toList).takeLine? =
      some (⟨[], "- else".toList, 1, 1⟩, ⟨["  c".toList], 1⟩) := by
    decide +kernel
  have joined :=
    parse_append (by decide) parsed (by decide +kernel) (by decide +kernel) begins rfl rfl
  rw [behind] at joined
  rw [joined]
  decide +kernel

end HamlTemplate
