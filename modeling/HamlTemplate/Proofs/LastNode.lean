import HamlTemplate.Proofs.CommentBody
import HamlTemplate.Proofs.Concatenation
import HamlTemplate.Proofs.IllegalNesting

/-!
# Lines behind the last node

When a source goes on with a line that is deeper than its last node, that node is the one to nest
the line in. At the end of the source it is the last one at the innermost level, whatever blocks are
open there, and the innermost level has its width. So the line is refused exactly if the node cannot
hold any. In a Haml comment it may happen that only the first part of a piped line is taken. Even
then nothing is refused up to the end of that line.
-/

namespace HamlTemplate

/-! ### The last node of an outline -/

namespace Node

variable {node x : Node} {nodes : List Node}

theorem mem_preorderAll_iff : x ∈ preorderAll nodes ↔ ∃ node ∈ nodes, x ∈ preorder node := by
  induction nodes with
  | nil => simp
  | cons node nodes ih => simp [ih]

/-- The last node of a forest is within its last tree. -/
private theorem getLast?_preorderAll_concat (nodes : List Node) (node : Node) :
    (preorderAll (nodes ++ [node])).getLast? = (preorder node).getLast? := by
  rw [preorderAll_append, preorderAll_cons, preorderAll_nil, List.append_nil, preorder_eq node]
  exact List.getLast?_append_of_ne_nil _ (List.cons_ne_nil _ _)

private theorem getLast?_preorder_block (line : Nat) (head : Head) (nested : List Node)
    (node : Node) :
    (preorder (block line head (nested ++ [node]))).getLast? = (preorder node).getLast? := by
  have some : preorderAll (nested ++ [node]) ≠ [] := by
    rw [preorderAll_append, preorderAll_cons, preorder_eq node]
    simp
  rw [preorder, ← List.singleton_append, List.getLast?_append_of_ne_nil _ some,
    getLast?_preorderAll_concat]

theorem preorder_of_nested_eq_nil (h : node.nested = []) : preorder node = [node] := by
  rw [preorder_eq, h, preorderAll_nil]

end Node

namespace Outline

open Node

variable {o : Outline} {node x : Node} {elder : List Node}

/-- Closing the innermost block keeps the last node the last one. -/
theorem siblings_closed (last : o.siblings = node :: elder) (following : Option Line) :
    ∃ node' elder', (o.closed following).siblings = node' :: elder' ∧
      (preorder node').getLast? = (preorder node).getLast? := by
  obtain ⟨roots, _ | ⟨block, outer⟩⟩ := o
  · exact ⟨node, elder, last, rfl⟩
  · have nested : block.nested = node :: elder := last
    refine ⟨_, _, siblings_push ⟨roots, outer⟩ (closeBlock block following), ?_⟩
    rw [closeBlock, nested, List.reverse_cons, getLast?_preorder_block]

theorem siblings_closedTimes (last : o.siblings = node :: elder) (times : Nat) :
    ∃ node' elder', (o.closedTimes times).siblings = node' :: elder' ∧
      (preorder node').getLast? = (preorder node).getLast? := by
  induction times generalizing o node elder with
  | zero => exact ⟨node, elder, last, rfl⟩
  | succ times ih =>
    obtain ⟨first, rest, last', same⟩ := siblings_closed last none
    obtain ⟨node', elder', last'', same'⟩ := ih last'
    exact ⟨node', elder', last'', same'.trans same⟩

/-- Once all blocks are closed, the siblings are the roots. -/
theorem finished_of_heads_eq_nil (h : o.heads = []) : o.finished = o.siblings.reverse := by
  rw [finished, siblings, heads_eq_nil_iff.mp h]

/-- No node at the innermost level is lost when that level is closed. -/
theorem exists_sibling_closed (within : ∃ node ∈ o.siblings, x ∈ preorder node)
    (following : Option Line) : ∃ node ∈ (o.closed following).siblings, x ∈ preorder node := by
  obtain ⟨roots, _ | ⟨block, outer⟩⟩ := o
  · exact within
  · refine ⟨closeBlock block following, ?_, ?_⟩
    · exact (siblings_push ⟨roots, outer⟩ _).symm ▸ List.mem_cons_self
    · obtain ⟨node, member, below⟩ := within
      rw [preorder_eq]
      refine List.mem_cons_of_mem _ (mem_preorderAll_iff.mpr ⟨node, ?_, below⟩)
      exact List.mem_reverse.mpr member

theorem exists_sibling_closedTimes (within : ∃ node ∈ o.siblings, x ∈ preorder node)
    (times : Nat) : ∃ node ∈ (o.closedTimes times).siblings, x ∈ preorder node := by
  induction times generalizing o with
  | zero => exact within
  | succ times ih => exact ih (exists_sibling_closed within none)

end Outline

namespace ParseState

open Node

variable {registry : Registry} {source : Text} {s : ParseState} {d : Document} {x : Node}

/-- The comment that is open at the end of a source is a node of the document, with all that is in
it. -/
theorem exists_comment_of_inside {o : Outline} (inside : o.inHamlComment = true)
    (sibling : x ∈ o.siblings) (times : Nat) :
    ∃ comment, (∃ node ∈ (o.closedTimes (times + 1)).siblings, comment ∈ preorder node) ∧
      comment.isHamlComment = true ∧ x ∈ comment.nested := by
  obtain ⟨roots, _ | ⟨block, outer⟩⟩ := o
  · cases inside
  · have comment : block.head = .hamlComment := eq_of_beq inside
    refine ⟨Outline.closeBlock block none, ?_, ?_, List.mem_reverse.mpr sibling⟩
    · refine Outline.exists_sibling_closedTimes ⟨Outline.closeBlock block none, ?_, ?_⟩ times
      · exact (Outline.siblings_push ⟨roots, outer⟩ _).symm ▸ List.mem_cons_self
      · rw [preorder_eq]
        exact List.mem_cons_self
    · rw [Outline.closeBlock, comment]
      rfl

/-- The last node of a document that is neither a filter nor text of a Haml comment is the last one
at the innermost level where the source ends. -/
theorem siblings_of_conclude (lockstep : s.Lockstep) (concluded : s.conclude registry = .ok d)
    (last : (preorderAll d.roots).getLast? = some x) (plain : x.kind ≠ .filter)
    (outside : ∀ outer ∈ preorderAll d.roots, outer.isHamlComment = true → x ∉ outer.nested) :
    s.collector = none ∧ s.outline.inHamlComment = false ∧
      ∃ elder, s.outline.siblings = x :: elder := by
  obtain ⟨o, finished, rfl⟩ := conclude_eq_ok concluded
  have matched := lockstep.matched_of_finished finished
  have roots := Outline.finished_of_heads_eq_nil matched.heads_closedTimes
  simp only [roots] at last outside
  have youngest : ∀ node elder, o.siblings = node :: elder → node.nested = [] → x = node := by
    intro node elder siblings empty
    obtain ⟨node', elder', closed, same⟩ :=
      Outline.siblings_closedTimes siblings s.tracker.levels.length
    rw [closed, List.reverse_cons, getLast?_preorderAll_concat, same,
      preorder_of_nested_eq_nil empty, List.getLast?_singleton] at last
    exact (Option.some.inj last).symm
  have count := matched.length_eq
  cases finished with
  | idle idle =>
    cases siblings : s.outline.siblings with
    | nil =>
      -- An open block has something in it, so there is none, and the document would be empty.
      have closed : s.outline.openBlocks = [] := by
        by_contra opened
        exact lockstep.filled idle opened siblings
      rw [Outline.heads_eq_nil_iff.mpr closed, List.length_nil] at count
      rw [count, Outline.closedTimes, siblings] at last
      cases last
    | cons node elder =>
      obtain rfl := youngest node elder siblings
        (lockstep.fresh idle node (by rw [siblings]; rfl))
      refine ⟨idle, Bool.eq_false_iff.mpr fun inside => ?_, elder, rfl⟩
      have sibling : x ∈ s.outline.siblings := siblings ▸ List.mem_cons_self
      obtain ⟨times, positive⟩ : ∃ times, s.tracker.levels.length = times + 1 := by
        rw [Outline.inHamlComment_eq] at inside
        cases heads : s.outline.heads with
        | nil =>
          rw [heads] at inside
          cases inside
        | cons head outer => exact ⟨outer.length, by rw [count, heads, List.length_cons]⟩
      obtain ⟨comment, within, isComment, nested⟩ := exists_comment_of_inside inside sibling times
      rw [positive] at outside
      obtain ⟨root, member, below⟩ := within
      exact outside comment
        (mem_preorderAll_iff.mpr ⟨root, List.mem_reverse.mpr member, below⟩) isComment nested
  | output _ finished =>
    obtain ⟨output, _, rfl⟩ := FilterBlock.finish_eq_ok finished
    have same := youngest _ _ (Outline.siblings_push _ _) rfl
    rw [same] at plain
    exact absurd rfl plain

end ParseState

/-! ### Lines that are not refused -/

/-- A logical line ends with its first physical line, or where the logical line ends that begins
with the second one. -/
theorem Cursor.takeLine?_skip_one {c after : Cursor} {line : Line}
    (begins : c.takeLine? = some (line, after)) :
    after = c.skip 1 ∨ ∃ line', (c.skip 1).takeLine? = some (line', after) := by
  obtain ⟨raw, rest, pending, _⟩ := takeLine?_indent begins
  rw [takeLine?_cons pending] at begins
  split at begins
  · cases begins
    cases rest with
    | nil => exact .inl rfl
    | cons next more =>
      have behind : (c.skip 1).pending = next :: more := by
        rw [pending_skip, pending, List.drop_one, List.tail_cons]
      by_cases piped : next.lineContent.isPiped = true
      · have run : pipedRun (next :: more) = next :: pipedRun more :=
          List.takeWhile_cons_of_pos piped
        have read := takeLine?_cons behind
        rw [if_pos piped, skip_skip, Nat.add_comm 1] at read
        rw [run]
        exact .inr ⟨_, read⟩
      · have run : pipedRun (next :: more) = [] := List.takeWhile_cons_of_neg piped
        rw [run]
        exact .inl rfl
  · cases begins
    exact .inl rfl

namespace ParseState

variable {registry : Registry} {line : Line} {s t behind : ParseState} {e : SourceError}
  {base : Nat}

/-- If the next line is not refused for its nesting, a parse that fails for that goes on behind
it. -/
theorem exists_advance_of_not_refuses (lockstep : s.Lockstep)
    (taken : s.takeLine? = some (line, behind))
    (admitted : ¬Tracker.Refuses line s.tracker s.outline e)
    (failed : s.readAll registry = .error e) (site : e.fault.site = .lastLine) :
    ∃ after, s.advance? registry = some (.ok () after) ∧ after.readAll registry = .error e := by
  cases advanced : s.advance? registry with
  | none =>
    rw [advance?, taken] at advanced
    cases advanced
  | some result =>
    cases result with
    | ok u after =>
      rw [readAll_of_advance_ok advanced] at failed
      exact ⟨after, rfl, failed⟩
    | error e' after =>
      rw [readAll_of_advance_error advanced] at failed
      cases failed
      rw [advance?, taken] at advanced
      have refused : Parsing.acceptLine registry line behind = .error e after :=
        Option.some.inj advanced
      have refuses := (Parsing.refuses_of_acceptLine (lockstep.takeLine? taken) refused site).2
      rw [(takeLine?_eq_some taken).2] at refuses
      exact absurd refuses admitted

/-- Then the error is behind that line. -/
theorem consumed_lt_of_not_refuses (lockstep : s.Lockstep)
    (taken : s.takeLine? = some (line, behind))
    (admitted : ¬Tracker.Refuses line s.tracker s.outline e)
    (failed : s.readAll registry = .error e) (site : e.fault.site = .lastLine) :
    behind.cursor.consumed < e.line := by
  obtain ⟨after, advanced, failed⟩ :=
    exists_advance_of_not_refuses lockstep taken admitted failed site
  obtain ⟨block, _, rfl⟩ | later := line_of_readAll_eq_error failed
  · cases site
  · exact Nat.lt_of_le_of_lt (advance?_cursor advanced taken).consumed_le later

/-- The next line goes on with the body of a Haml comment if it is deeper than the given width, or
else ends it. -/
structure InBody (base : Nat) (s : ParseState) : Prop where
  lockstep : s.Lockstep
  idle : s.collector = none
  base : s.bodyBase? = some base

namespace InBody

/-- The body has begun, or the last line was that of the comment. -/
theorem cases (h : s.InBody base) :
    s.tracker.verbatimBase? = some base ∨
      s.tracker.verbatimBase? = none ∧ s.outline.lastNode?.any Node.isHamlComment = true ∧
        s.tracker.width = base := by
  have body := h.base
  simp only [bodyBase?, h.idle, Collector.baseWidth?, Option.map_none] at body
  cases verbatim : s.tracker.verbatimBase? with
  | some width =>
    rw [verbatim] at body
    exact .inl body
  | none =>
    rw [verbatim] at body
    by_cases comment : s.outline.lastNode?.any Node.isHamlComment = true
    · rw [if_pos comment] at body
      exact .inr ⟨rfl, comment, Option.some.inj body⟩
    · rw [if_neg comment] at body
      cases body

theorem base_le_width (h : s.InBody base) : base ≤ s.tracker.width := by
  obtain verbatim | ⟨_, _, width⟩ := h.cases
  · have ascending := h.lockstep.matched.ascending
    rw [Tracker.verbatimBase?] at verbatim
    cases levels : s.tracker.levels with
    | nil => simp [levels] at verbatim
    | cons level outer =>
      rw [levels] at ascending
      have wider := ascending.1
      simp only [levels] at verbatim
      split at verbatim
      · cases verbatim
        rw [Tracker.width, levels, Level.innermostWidth_cons]
        omega
      · cases verbatim
  · exact width.ge

/-- A line of the body is not refused, and neither is one that ends the body. -/
theorem not_refuses (h : s.InBody base) : ¬Tracker.Refuses line s.tracker s.outline e := by
  intro refuses
  obtain verbatim | ⟨_, comment, _⟩ := h.cases
  · have inside : s.tracker.takesVerbatim line = true := by
      have deeper := Nat.lt_of_le_of_lt h.base_le_width refuses.deeper
      simp [Tracker.takesVerbatim, verbatim, deeper]
    rw [refuses.admits.notBody] at inside
    cases inside
  · have fault := refuses.fault
    rw [Outline.nestingFault?] at fault
    cases last : s.outline.lastNode? with
    | none => simp [last] at comment
    | some node =>
      rw [last] at fault comment
      cases node with
      | leaf number l => cases comment
      | block number head nested =>
        rw [Option.any_some, Node.isHamlComment_block] at comment
        rw [eq_of_beq comment] at fault
        cases fault

/-- Behind a line of the body the body goes on. -/
theorem taken {c : Cursor} (h : s.InBody base) (taken : Parsing.Taken line { s with cursor := c } t)
    (body : line.isBlank = true ∨ base < line.width) : t.InBody base ∧ t.cursor = c := by
  have lockstep := Lockstep.taken taken h.idle (h.lockstep.moved c)
  -- Content that is deeper than the base has no place outside the body.
  have verbatim : ∀ role tracker outline,
      Tracker.Placement line s.tracker s.outline role tracker outline → role ≠ .blank →
        role = .verbatim ∧ tracker.verbatimBase? = some base := by
    intro role tracker outline placed content
    have deeper := body.resolve_left (by simp [placed.content content])
    obtain inside | ⟨outside, comment, width⟩ := h.cases
    · have takes : s.tracker.takesVerbatim line = true := by
        simp [Tracker.takesVerbatim, inside, deeper]
      cases placed with
      | blank => exact absurd rfl content
      | body => exact ⟨rfl, inside⟩
      | deeper admits | level admits | shallower admits =>
        rw [admits.notBody] at takes
        cases takes
    · cases placed with
      | blank => exact absurd rfl content
      | body _ inside => simp [Tracker.takesVerbatim, outside] at inside
      | @deeper number head nested elder _ _ last =>
        rw [Outline.lastNode?, last, List.head?_cons, Option.any_some,
          Node.isHamlComment_block] at comment
        rw [comment, ← width]
        exact ⟨rfl, rfl⟩
      | level admits same => omega
      | shallower admits shallower => omega
  cases taken with
  | blank => exact ⟨⟨lockstep, h.idle, h.base⟩, rfl⟩
  | verbatim placed =>
    have onward := (verbatim _ _ _ placed (by simp)).2
    exact ⟨⟨lockstep, h.idle, by simp [bodyBase?, h.idle, Collector.baseWidth?, onward]⟩, rfl⟩
  | node placed | filter placed => cases (verbatim _ _ _ placed (by simp)).1

theorem advance? (h : s.InBody base) (read : s.takeLine? = some (line, behind))
    (advanced : s.advance? registry = some (.ok () t))
    (body : line.isBlank = true ∨ base < line.width) :
    t.InBody base ∧ t.cursor = behind.cursor := by
  obtain ⟨line', behind', read', round⟩ := advance?_eq_ok_iff.mp advanced
  cases read.symm.trans read'
  have moved := (takeLine?_eq_some read).2
  have idle : behind.collector = none := by
    rw [moved]
    exact h.idle
  cases round with
  | collected collecting | passed collecting | closed collecting =>
    cases idle.symm.trans collecting
  | taken _ taken =>
    rw [moved] at taken
    exact h.taken taken body

/-- Nothing is refused for its nesting up to the end of the logical line that begins at the next
physical one, even if the body takes that line apart. -/
theorem consumed_lt {after : Cursor} (h : s.InBody base)
    (begins : s.cursor.takeLine? = some (line, after))
    (failed : s.readAll registry = .error e) (site : e.fault.site = .lastLine) :
    after.consumed < e.line := by
  -- The induction is on the lines left to read. Each line of the body is one of them.
  induction left : s.cursor.pending.length using Nat.strong_induction_on generalizing s line with
  | _ n ih =>
    obtain ⟨raw, rest, pending, _⟩ := Cursor.takeLine?_indent begins
    by_cases deeper : raw.afterIndentation = [] ∨ base < raw.indentation.length
    · have read : s.cursor.takeWithin? s.bodyBase? =
          some (⟨raw.indentation, raw.afterIndentation, s.cursor.consumed + 1, 1⟩,
            s.cursor.skip 1) := by
        simp only [h.base, Cursor.takeWithin?, Cursor.takeBodyLine?, pending, if_pos deeper]
      have body : s.takeLine? =
          some (⟨raw.indentation, raw.afterIndentation, s.cursor.consumed + 1, 1⟩,
            { s with cursor := s.cursor.skip 1 }) := by
        rw [takeLine?, read]
        rfl
      obtain rfl | ⟨line', begins'⟩ := Cursor.takeLine?_skip_one begins
      · exact consumed_lt_of_not_refuses h.lockstep body h.not_refuses failed site
      · obtain ⟨t, advanced, failed⟩ :=
          exists_advance_of_not_refuses h.lockstep body h.not_refuses failed site
        obtain ⟨onward, position⟩ :=
          h.advance? body advanced (by simpa [Line.isBlank, Line.width] using deeper)
        have position : t.cursor = s.cursor.skip 1 := position
        rw [← position] at begins'
        refine ih _ ?_ onward begins' failed rfl
        rw [position, Cursor.pending_skip, List.length_drop]
        rw [pending, List.length_cons] at left ⊢
        omega
    · have read : s.cursor.takeWithin? s.bodyBase? = some (line, after) := by
        simp only [h.base, Cursor.takeWithin?, Cursor.takeBodyLine?, pending, if_neg deeper]
        exact begins
      have body : s.takeLine? = some (line, { s with cursor := after }) := by
        rw [takeLine?, read]
        rfl
      exact consumed_lt_of_not_refuses h.lockstep body h.not_refuses failed site

end InBody

end ParseState

/-! ### Going on behind the last node -/

/-- The node cannot hold any line: it is a leaf, an element that closes itself, or one with content
on its own line. -/
def Node.isBarren : Node → Bool
  | leaf .. => true
  | block _ (.element e) _ => decide (e.tail ≠ .empty)
  | block .. => false

theorem Node.isBarren_eq (node : Node) : node.isBarren = node.nestingFault?.isSome := by
  cases node with
  | leaf line l => rfl
  | block line head nested =>
    cases head with
    | element e =>
      simp only [isBarren, nestingFault?, Head.nestingFault?]
      cases e.tail <;> rfl
    | _ => rfl

theorem Node.isBarren_of_isHamlComment {node : Node} (comment : node.isHamlComment = true) :
    node.isBarren = false := by
  cases node with
  | leaf line l => cases comment
  | block line head nested =>
    rw [isHamlComment_block] at comment
    rw [eq_of_beq comment]
    rfl

namespace ParseState

variable {registry : Registry} {s : ParseState} {x : Node} {line : Line} {after : Cursor}

theorem takeLine?_of_between (lockstep : s.Lockstep) (idle : s.collector = none)
    (noComment : s.outline.inHamlComment = false) (last : s.outline.lastNode? = some x)
    (plain : x.isHamlComment = false) (read : s.cursor.takeLine? = some (line, after)) :
    s.takeLine? = some (line, { s with cursor := after }) := by
  have base : s.bodyBase? = none :=
    bodyBase?_of_between lockstep idle noComment (by rw [last, Option.any_some, plain])
  rw [takeLine?, base]
  exact congrArg (Option.map _) read

/-- A deeper line behind a barren node is refused before anything else is done with it. -/
theorem readAll_of_barren {c : Char} (lockstep : s.Lockstep) (idle : s.collector = none)
    (noComment : s.outline.inHamlComment = false) (last : s.outline.lastNode? = some x)
    (barren : x.isBarren = true) (uniform : ∀ d ∈ s.tracker.indentChar?, d = c)
    (read : s.cursor.takeLine? = some (line, after)) (content : line.isBlank = false)
    (indent : ∀ d ∈ line.indent, d = c) (deeper : s.tracker.width < line.width) :
    ∃ e, s.readAll registry = .error e ∧ e.fault.isIllegalNesting = true ∧
      e.line = line.lastNumber := by
  have plain : x.isHamlComment = false := by
    refine Bool.eq_false_iff.mpr fun comment => ?_
    rw [Node.isBarren_of_isHamlComment comment] at barren
    cases barren
  obtain ⟨fault, refused⟩ : ∃ fault, x.nestingFault? = some fault :=
    Option.isSome_iff_exists.mp (x.isBarren_eq ▸ barren)
  have notBody : s.tracker.takesVerbatim line = false := by
    rw [Tracker.takesVerbatim, Tracker.verbatimBase?_of_outside lockstep.matched noComment]
    rfl
  have refuses : Tracker.Refuses line s.tracker s.outline ⟨fault, line.lastNumber⟩ :=
    ⟨⟨content, notBody, (Tracker.uniform_settle uniform indent).2⟩, deeper,
      by rw [Outline.nestingFault?, last]; exact refused, rfl⟩
  have taken := takeLine?_of_between lockstep idle noComment last plain read
  have stopped : ∃ t, Parsing.acceptLine registry line { s with cursor := after } =
      .error ⟨fault, line.lastNumber⟩ t :=
    Parsing.acceptLine_of_refuses idle refuses
  obtain ⟨t, stopped⟩ := stopped
  have failed : s.advance? registry = some (.error ⟨fault, line.lastNumber⟩ t) := by
    rw [advance?, taken]
    exact congrArg some stopped
  exact ⟨_, readAll_of_advance_error failed, Node.isIllegalNesting_of_nestingFault? refused, rfl⟩

/-- Behind any other node nothing is refused for its nesting up to the end of the next line. -/
theorem consumed_lt_of_not_barren {e : SourceError} (lockstep : s.Lockstep)
    (idle : s.collector = none) (noComment : s.outline.inHamlComment = false)
    (last : s.outline.lastNode? = some x) (fertile : x.isBarren = false)
    (read : s.cursor.takeLine? = some (line, after)) (failed : s.readAll registry = .error e)
    (site : e.fault.site = .lastLine) : after.consumed < e.line := by
  cases comment : x.isHamlComment with
  | true =>
    have verbatim := Tracker.verbatimBase?_of_outside lockstep.matched noComment
    have base : s.bodyBase? = some s.tracker.width := by
      simp [bodyBase?, idle, Collector.baseWidth?, verbatim, last, comment]
    exact InBody.consumed_lt ⟨lockstep, idle, base⟩ read failed site
  | false =>
    have taken := takeLine?_of_between lockstep idle noComment last comment read
    refine consumed_lt_of_not_refuses lockstep taken (fun refuses => ?_) failed site
    have fault := refuses.fault
    rw [Outline.nestingFault?, last] at fault
    have barren := x.isBarren_eq.trans (congrArg Option.isSome fault)
    rw [fertile] at barren
    cases barren

end ParseState

/-- A source goes on with a line that is deeper than its last node. If that node is barren, the
parse fails where that line ends, because of its nesting and whatever follows it. If not, nothing is
refused for its nesting there. -/
theorem nesting_behind_last {registry : Registry} {first second : Text} {d : Document} {x : Node}
    {line : Line} {after : Cursor} (ends : first.EndsLine)
    (parsed : Document.parse registry first = .ok d)
    (unpiped : ∀ raw ∈ first.physicalLines.getLast?, raw.lineContent.isPiped = false)
    (last : (Node.preorderAll d.roots).getLast? = some x) (plain : x.kind ≠ .filter)
    (outside : ∀ outer ∈ Node.preorderAll d.roots, outer.isHamlComment = true → x ∉ outer.nested)
    (spaced : IndentedWith ' ' first.physicalLines)
    (begins : (Cursor.start second).takeLine? = some (line, after))
    (content : line.isBlank = false) (indent : ∀ c ∈ line.indent, c = ' ')
    (deeper : first.widthAt x.line < line.width) :
    (x.isBarren = true →
      ∃ e, Document.parse registry (first ++ second) = .error e ∧
        "Illegal nesting".toList <+: e.fault.message.toList ∧ e.line = d.lineCount + line.span) ∧
    (x.isBarren = false →
      ∀ e, Document.parse registry (first ++ second) = .error e →
        "Illegal nesting".toList <+: e.fault.message.toList →
          e.line ≠ d.lineCount + line.span) := by
  obtain ⟨s, reached, concluded, onward⟩ := Document.exists_end ends parsed unpiped second
  have lockstep := ParseState.Lockstep.of_reached reached
  obtain ⟨idle, noComment, elder, siblings⟩ :=
    ParseState.siblings_of_conclude lockstep concluded last plain outside
  have lastNode : s.outline.lastNode? = some x := by rw [Outline.lastNode?, siblings]; rfl
  have width : first.widthAt x.line = s.tracker.width := by
    have aligned := (ParseState.Arranged.of_reached reached).aligns.siblings noComment
    exact (aligned x (siblings ▸ List.mem_cons_self)).1
  have read : ((Cursor.start second).later d.lineCount).takeLine? =
      some (line.shift d.lineCount, after.later d.lineCount) := by
    rw [Cursor.takeLine?_later, begins]
    rfl
  obtain ⟨position, positive, _, number⟩ := Cursor.takeLine?_eq_some begins
  have number : line.number = 1 := number
  have consumed : (after.later d.lineCount).consumed = d.lineCount + line.span := by
    have start : (Cursor.start second).consumed = 0 := rfl
    rw [Cursor.consumed_later, position, Cursor.consumed_skip]
    omega
  have moved := lockstep.moved ((Cursor.start second).later d.lineCount)
  have uniform : ∀ c ∈ s.tracker.indentChar?, c = ' ' := reached.uniform spaced
  constructor
  · intro barren
    obtain ⟨e, failed, illegal, atLine⟩ := ParseState.readAll_of_barren moved idle noComment
      lastNode barren uniform read content indent (width ▸ deeper)
    refine ⟨e, onward.trans failed, Fault.message_begins_iff.mpr illegal, ?_⟩
    rw [atLine, Line.lastNumber_shift _ number.ge, Line.lastNumber, number]
    omega
  · intro fertile e failed message
    have site := Fault.site_of_isIllegalNesting (Fault.message_begins_iff.mp message)
    have behind := ParseState.consumed_lt_of_not_barren moved idle noComment lastNode fertile read
      (onward.symm.trans failed) site
    omega

/-- A line that spans two physical ones is refused in the text of an element, and is nothing to
refuse in the element without that text. -/
theorem nesting_behind_last_piped :
    (∃ e, Document.parse .builtins ("%p\n  a\n".toList ++ "    b |\n   c |\n".toList) = .error e ∧
      "Illegal nesting".toList <+: e.fault.message.toList ∧ e.line = 4) ∧
    ∀ e, Document.parse .builtins ("%p\n".toList ++ "    b |\n   c |\n".toList) = .error e →
      "Illegal nesting".toList <+: e.fault.message.toList → e.line ≠ 3 := by
  have begins : (Cursor.start "    b |\n   c |\n".toList).takeLine? =
      some (⟨"    ".toList, "b c".toList, 1, 2⟩, ⟨[], 2⟩) := by
    decide +kernel
  constructor
  · have parsed : Document.parse .builtins "%p\n  a\n".toList = .ok ⟨2, [
        .block 1 (.element { tag := ['p'] }) [.leaf 2 (.text ['a'])]]⟩ := by
      decide +kernel
    exact (nesting_behind_last (by decide) parsed (by decide +kernel) rfl (by decide)
      (by decide +kernel) (by decide +kernel) begins rfl (by simp) (by decide +kernel)).1 rfl
  · have parsed : Document.parse .builtins "%p\n".toList =
        .ok ⟨1, [.block 1 (.element { tag := ['p'] }) []]⟩ := by
      decide +kernel
    exact (nesting_behind_last (by decide) parsed (by decide +kernel) rfl (by decide)
      (by decide +kernel) (by decide +kernel) begins rfl (by simp) (by decide +kernel)).2 rfl

end HamlTemplate
