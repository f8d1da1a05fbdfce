import HamlTemplate.Proofs.Ready

/-!
# Parsing undoes printing

The lines of a printed forest are read in the order they were printed in. By induction on the
forest, reading the lines of a node leads from a state that is ready for them to one that is ready
for the lines behind them, and adds the node as it is printed.
-/

namespace HamlTemplate

/-- The parse reads that many physical lines, and a line of the depth may follow. -/
def Reads (registry : Registry) (k depth : Nat) (s : ParseState) (count : Nat)
    (p : Bool → Outline) : Prop :=
  ∃ t, s.readAll registry = t.readAll registry ∧ t.cursor = s.cursor.skip count ∧ After k depth p t

namespace Reads

variable {registry : Registry} {k depth count more : Nat} {s t : ParseState}
  {p q : Bool → Outline}

theorem zero (h : After k depth p s) : Reads registry k depth s 0 p :=
  ⟨s, rfl, (Cursor.skip_zero s.cursor).symm, h⟩

/-- Lines are read one after another. -/
theorem prepend {r : Nat} (advanced : s.advance? registry = some (.ok () t))
    (cursor : t.cursor = s.cursor.skip 1) (h : Reads registry k r t count p) :
    Reads registry k r s (count + 1) p := by
  obtain ⟨u, same, position, after⟩ := h
  refine ⟨u, (ParseState.readAll_of_advance_ok advanced).trans same, ?_, after⟩
  rw [position, cursor, Cursor.skip_skip, Nat.add_comm]

/-- When what is deeper has been read, a line of the depth around it may follow. -/
theorem close (h : Reads registry k (depth + 1) s count p) :
    Reads registry k depth s count (p false).closedAs := by
  obtain ⟨t, same, position, after⟩ := h
  exact ⟨t, same, position, after.idle, after.spaced, .close after.offers⟩

end Reads

namespace Node

private theorem arranged_nil (number : Nat) (continued : Bool) (line : Nat) (head : Head) :
    arranged number continued (block line head []) =
      .block number (head.withMidBlock false) [] := by
  simp [arranged, arrangedAll]

private theorem arranged_cons (number : Nat) (continued : Bool) (line : Nat) (head : Head)
    (child : Node)
    (more : List Node) :
    arranged number continued (block line head (child :: more)) =
      .block number (head.withMidBlock continued)
        (arrangedAll (number + 1) false (child :: more)) := by
  simp [arranged]

/-- The lines of a Haml comment are read as its body. -/
theorem reads_comment {registry : Registry} {k depth : Nat} (positive : 1 ≤ k) {o : Outline}
    {s : ParseState} {body : List Node} {rest : List Text} (nonempty : body ≠ [])
    (lines : ∀ child ∈ body, child.IsCommentLine) (h : InComment k depth o s)
    (pending : s.cursor.pending =
      (body.map fun child => child.content.indented (k * (depth + 1))) ++ rest) :
    Reads registry k depth s body.length
      (o.pushAll (arrangedAll (s.cursor.consumed + 1) false body)).closedAs := by
  induction body generalizing o s with
  | nil => exact absurd rfl nonempty
  | cons child body ih =>
    obtain ⟨first, others⟩ := List.forall_mem_cons.mp lines
    obtain ⟨line, text, rfl, content, visible, -⟩ := first.eq_leaf
    obtain ⟨t, advanced, cursor, outline, inside, after⟩ :=
      h.advance positive content visible pending
    apply Reads.prepend advanced cursor
    rw [outline] at inside after
    cases body with
    | nil => exact .zero after
    | cons next body =>
      have behind := ih (List.cons_ne_nil next body) others inside
        (by rw [cursor, Cursor.pending_skip, pending]; rfl)
      rw [cursor, Cursor.consumed_skip, Outline.pushAll_push] at behind
      exact behind

/-- Wherever the lines of some nodes of a depth stand, they are read as these nodes. -/
def ReadBack (registry : Registry) (k depth : Nat) (nodes : List Node) : Prop :=
  nodes ≠ [] → ∀ (p : Bool → Outline) (s : ParseState) (rest : List Text), Ready k depth p s →
    s.cursor.pending = printedAll k depth nodes ++ rest →
      Reads registry k depth s (preorderAll nodes).length fun flag =>
        (p (nodes.head?.any continuesBlock)).pushAll
          (arrangedAll (s.cursor.consumed + 1) flag nodes)

/-- A node that has been read is followed by the nodes after it. -/
theorem reads_cons {registry : Registry} {k depth : Nat} (positive : 1 ≤ k) {s : ParseState}
    {o : Outline} {node : Node} {nodes : List Node} {rest : List Text}
    (h : Reads registry k depth s (preorder node).length
      fun flag => o.push (arranged (s.cursor.consumed + 1) flag node))
    (behind : ReadBack registry k depth nodes)
    (pending : s.cursor.pending.drop (preorder node).length = printedAll k depth nodes ++ rest) :
    Reads registry k depth s (preorderAll (node :: nodes)).length
      fun flag => o.pushAll (arrangedAll (s.cursor.consumed + 1) flag (node :: nodes)) := by
  cases nodes with
  | nil =>
    rw [preorderAll_cons, preorderAll_nil, List.append_nil]
    exact h
  | cons next nodes =>
    obtain ⟨t, same, cursor, after⟩ := h
    have left : t.cursor.pending = printedAll k depth (next :: nodes) ++ rest := by
      rw [cursor, Cursor.pending_skip, pending]
    obtain ⟨u, same', cursor', after'⟩ :=
      behind (List.cons_ne_nil next nodes) _ t rest (after.ready positive) left
    refine ⟨u, same.trans same', ?_, ?_⟩
    · rw [cursor', cursor, Cursor.skip_skip, preorderAll_cons node, List.length_append]
    · have number : t.cursor.consumed + 1 =
          s.cursor.consumed + 1 + (preorder node).length := by
        rw [cursor, Cursor.consumed_skip]
        omega
      simp only [number, Outline.pushAll_push] at after'
      exact after'

/-- A block that has just been read, with nothing nested in it so far. -/
theorem advance_head {registry : Registry} {k depth : Nat} {s : ParseState} {p : Bool → Outline}
    {head : Head} {rest : List Text} (printable : head.Printable)
    (unpiped : head.printed.trimEnd.isPiped = false) (ready : Ready k depth p s)
    (pending : s.cursor.pending = head.printed.indented (k * depth) :: rest) (line : Nat)
    (nested : List Node) :
    ∃ t, s.advance? registry = some (.ok () t) ∧ t.cursor = s.cursor.skip 1 ∧
      t.tracker.levels = Level.upTo k depth ∧
      t.outline = (p (block line head nested).continuesBlock).push
        (.block (s.cursor.consumed + 1) (head.withMidBlock false) []) ∧
      After k depth (fun _ => t.outline) t := by
  obtain ⟨action, content, read⟩ := Reading.node?_head printable (s.cursor.consumed + 1)
  rw [← continuesBlock_block printable line nested]
  exact ready.advance head.beginsVisible_printed unpiped pending content read

/-- A block is read with what is nested in it, if that is read one level deeper. -/
theorem reads_block {registry : Registry} {k depth : Nat} (positive : 1 ≤ k) {s : ParseState}
    {p : Bool → Outline} {line : Nat} {head : Head} {nested : List Node} {rest : List Text}
    (h : (block line head nested).Printable) (ready : Ready k depth p s)
    (pending : s.cursor.pending = printed k depth (block line head nested) ++ rest)
    (inner : (∀ child ∈ nested, child.Printable) → ReadBack registry k (depth + 1) nested) :
    Reads registry k depth s (preorder (block line head nested)).length fun flag =>
      (p (block line head nested).continuesBlock).push
        (arranged (s.cursor.consumed + 1) flag (block line head nested)) := by
  cases h with
  | hamlComment lines =>
    rw [printed_hamlComment, List.cons_append] at pending
    obtain ⟨t, advanced, cursor, levels, outline, after⟩ :=
      advance_head (show Head.hamlComment.Printable from trivial) rfl ready pending line nested
    apply Reads.prepend advanced cursor
    cases nested with
    | nil =>
      simp only [arranged_nil]
      exact .zero (outline ▸ after)
    | cons child body =>
      have left : t.cursor.pending =
          ((child :: body).map fun child => child.content.indented (k * (depth + 1))) ++ rest := by
        rw [cursor, Cursor.pending_skip, pending]
        rfl
      have inside := InComment.of_last positive after levels (outline ▸ Outline.siblings_push _ _)
      have read : Reads registry k depth t _ _ :=
        reads_comment positive (List.cons_ne_nil child body) lines inside left
      rw [Outline.closedAs_pushAll_opened (by exact outline), cursor, Cursor.consumed_skip,
        ← length_preorderAll_of_isCommentLine lines] at read
      simpa only [arranged_cons] using read
  | block plain printable fits nestable children =>
    rw [printed_block plain, List.cons_append] at pending
    obtain ⟨t, advanced, cursor, levels, outline, after⟩ :=
      advance_head printable fits.unpiped ready pending line nested
    apply Reads.prepend advanced cursor
    cases nested with
    | nil =>
      simp only [arranged_nil]
      exact .zero (outline ▸ after)
    | cons child more =>
      have nonempty := List.cons_ne_nil child more
      have left : t.cursor.pending = printedAll k (depth + 1) (child :: more) ++ rest := by
        rw [cursor, Cursor.pending_skip, pending]
        rfl
      have deeper := ready_nested positive after levels (outline ▸ Outline.siblings_push _ _)
        (Head.withMidBlock_ne_hamlComment plain false)
        (by rw [Head.nestingFault?_withMidBlock]; exact nestable nonempty)
      have read := (inner children nonempty _ t rest deeper left).close
      rw [Outline.closedAs_pushAll_opened outline, cursor, Cursor.consumed_skip] at read
      simpa only [arranged_cons, Head.withMidBlock_withMidBlock] using read

/-- The lines of a forest are read as the forest, arranged as it is printed. -/
theorem readBack {registry : Registry} {k depth : Nat} (positive : 1 ≤ k) {forest : List Node}
    (printable : ∀ node ∈ forest, node.Printable) : ReadBack registry k depth forest := by
  induction forest using forest_induction generalizing depth with
  | nil =>
    intro nonempty
    exact absurd rfl nonempty
  | leaf line l nodes ih =>
    intro _ p s rest ready pending
    obtain ⟨first, others⟩ := List.forall_mem_cons.mp printable
    obtain ⟨own, fits⟩ := printable_leaf_iff.mp first
    rw [printedAll, printed, List.singleton_append, List.cons_append] at pending
    obtain ⟨action, content, read⟩ := Reading.node?_leaf own (s.cursor.consumed + 1)
    obtain ⟨t, advanced, cursor, -, outline, after⟩ :=
      ready.advance l.beginsVisible_printed fits.unpiped pending content read
    rw [outline, continuesBlock_leaf own line] at after
    have left : s.cursor.pending.drop (preorder (leaf line l)).length =
        printedAll k depth nodes ++ rest := by
      rw [pending]
      rfl
    exact reads_cons positive (.prepend advanced cursor (.zero after)) (ih others) left
  | block line head nested nodes inner outer =>
    intro _ p s rest ready pending
    obtain ⟨first, others⟩ := List.forall_mem_cons.mp printable
    have length : (printed k depth (block line head nested)).length =
        (preorder (block line head nested)).length := by
      simpa [printedAll] using length_printedAll k depth (List.forall_mem_singleton.mpr first)
    rw [printedAll, List.append_assoc] at pending
    have left : s.cursor.pending.drop (preorder (block line head nested)).length =
        printedAll k depth nodes ++ rest := by
      rw [pending, ← length, List.drop_left]
    exact reads_cons positive (reads_block positive first ready pending inner) (outer others) left

end Node

/-- At the end of the source all that is still open is closed. -/
theorem After.conclude {registry : Registry} {k : Nat} {p : Bool → Outline} {s : ParseState}
    (h : After k 0 p s) :
    s.conclude registry = .ok ⟨s.cursor.lineCount, (p false).finished⟩ := by
  rw [ParseState.conclude_of_idle h.idle, h.offers.closedTimes_eq]
  rfl

/-- Parsing a printed forest gives the forest, arranged as it is printed. -/
theorem parse_print (registry : Registry) {k : Nat} (positive : 1 ≤ k) {forest : List Node}
    (printable : ∀ node ∈ forest, node.Printable) :
    Document.parse registry (Node.print k forest) =
      .ok ⟨(Node.preorderAll forest).length, Node.arrangedAll 1 false forest⟩ := by
  have start : After k 0 (fun _ => {}) (ParseState.start (Node.print k forest)) :=
    ⟨rfl, nofun, .here⟩
  have pending : (ParseState.start (Node.print k forest)).cursor.pending =
      Node.printedAll k 0 forest ++ [] := by
    rw [List.append_nil]
    exact Node.physicalLines_print k printable
  have read : Reads registry k 0 (ParseState.start (Node.print k forest))
      (Node.preorderAll forest).length fun flag =>
        Outline.pushAll {} (Node.arrangedAll 1 flag forest) := by
    cases forest with
    | nil => exact .zero start
    | cons node nodes =>
      exact Node.readBack positive printable (List.cons_ne_nil node nodes) _ _ []
        (start.ready positive) pending
  obtain ⟨last, same, cursor, after⟩ := read
  have atEnd : last.cursor.pending = [] := by
    rw [cursor, Cursor.pending_skip, pending, List.append_nil,
      ← Node.length_printedAll k 0 printable, List.drop_length]
  have lineCount : last.cursor.lineCount = (Node.preorderAll forest).length := by
    rw [Cursor.lineCount, atEnd, cursor, Cursor.consumed_skip]
    simp [ParseState.start, Cursor.start]
  rw [Document.parse, same,
    ParseState.readAll_of_advance_none (ParseState.advance?_eq_none_iff.mpr atEnd), after.conclude,
    lineCount]
  simp [Outline.finished, Outline.pushAll, Outline.withSiblings, Outline.siblings]

/-- A list with a conditional, a comment whose line would be piped elsewhere, and an element that
holds nothing. -/
theorem parse_print_conditional :
    Document.parse .builtins (Node.print 2
        [.block 0 (.element
            ⟨"ul".toList, ["a".toList], [], some "id: 1".toList, true, false, .empty⟩)
          [.block 0 (.script "if x".toList false) [.leaf 0 (.text "yes".toList)],
            .block 0 (.silentScript "else".toList false) [.leaf 0 (.text "- no".toList)]],
          .block 0 .hamlComment [.leaf 0 (.text "old |".toList)],
          .block 0 (.element ⟨"br".toList, [], [], none, false, false, .selfClosing⟩) []]) =
      .ok ⟨8,
        [.block 1 (.element
            ⟨"ul".toList, ["a".toList], [], some "id: 1".toList, true, false, .empty⟩)
          [.block 2 (.script "if x".toList true) [.leaf 3 (.text "yes".toList)],
            .block 4 (.silentScript "else".toList false) [.leaf 5 (.text "- no".toList)]],
          .block 6 .hamlComment [.leaf 7 (.text "old |".toList)],
          .block 8 (.element ⟨"br".toList, [], [], none, false, false, .selfClosing⟩) []]⟩ :=
  parse_print .builtins (by decide) (by decide +kernel)

example : Node.print 2 [.block 0 (.script "if x".toList false) [.leaf 0 (.text "yes".toList)],
    .block 0 .hamlComment [.leaf 0 (.text "old |".toList)]] =
      "= if x\n  \\yes\n-#\n  old |\n".toList := by
  decide

end HamlTemplate
