import HamlTemplate.Proofs.LineOrder

/-!
# Nesting follows the widths

Where a node is nested is decided by the widths of the lines alone: its parent is the last earlier
node of the structure that lies on a line of smaller width. A parse finds it with a stack of levels
and a stack of open blocks. What the stacks keep is that siblings lie on lines of one width and
below a narrower line; the rest is a fact about forests whose lines ascend in document order.
-/

namespace HamlTemplate

/-- The number of spaces and tabs that a physical line of a source begins with. Lines are counted
from one. -/
def Text.widthAt (source : Text) (n : Nat) : Nat :=
  (source.physicalLines[n - 1]?.map fun raw => raw.indentation.length).getD 0

namespace Node

/-- The parts of a node, those of its parts and so on lie on lines of one width each, and deeper
than the node itself. -/
inductive Laid (w : Nat → Nat) : Node → Prop
  | intro {node : Node} (inner : Nat) (deeper : w node.line < inner)
      (width : ∀ part ∈ node.parts, w part.line = inner) (laid : ∀ part ∈ node.parts, Laid w part) :
      Laid w node

def Aligned (w : Nat → Nat) (width : Nat) (nodes : List Node) : Prop :=
  ∀ node ∈ nodes, w node.line = width ∧ node.Laid w

/-- Of the given nodes, the last one that is on an earlier and narrower line than another node. -/
structure IsNearestShallower (w : Nat → Nat) (nodes : List Node) (y x : Node) : Prop where
  earlier : y.line < x.line
  shallower : w y.line < w x.line
  nearest : ∀ z ∈ nodes, z.line < x.line → w z.line < w x.line → z.line ≤ y.line

variable {w : Nat → Nat} {width : Nat} {nodes : List Node}

theorem laid_of_parts_eq_nil {node : Node} (h : node.parts = []) : node.Laid w :=
  .intro (w node.line + 1) (Nat.lt_succ_self _) (by simp [h]) (by simp [h])

theorem laid_of_nested_eq_nil {node : Node} (h : node.nested = []) : node.Laid w := by
  apply laid_of_parts_eq_nil
  cases node with
  | leaf line l => rfl
  | block line head nested =>
    rw [Node.nested] at h
    simp [parts, h]

theorem Aligned.reverse (h : Aligned w width nodes) : Aligned w width nodes.reverse :=
  fun node member => h node (List.mem_reverse.mp member)

/-- All nodes of the structure of an aligned forest are as deep as its first nodes or deeper, and
are laid out. -/
theorem Aligned.structural (h : Aligned w width nodes) :
    ∀ node ∈ structuralAll nodes, width ≤ w node.line ∧ node.Laid w := by
  induction nodes using walk_structural.induction generalizing width with
  | nil =>
    intro node member
    cases member
  | cons first rest inner outer =>
    intro node member
    obtain ⟨⟨width_eq, laid⟩, others⟩ := List.forall_mem_cons.mp h
    obtain rfl | below | later := walk_structural.mem_cons.mp member
    · exact ⟨Nat.le_of_eq width_eq.symm, laid⟩
    · obtain ⟨innerWidth, deeper, widths, laids⟩ := laid
      obtain ⟨bound, laid⟩ := inner (fun n m => ⟨widths n m, laids n m⟩) node below
      exact ⟨by omega, laid⟩
    · exact outer others node later

/-- In a forest that is laid out and whose lines ascend, a part of a node has that node as the last
one on an earlier and narrower line. -/
theorem isNearestShallower_of_mem_parts {x y : Node} (aligned : Aligned w width nodes)
    (ascending : (structuralAll nodes).Pairwise (fun a b => a.line < b.line))
    (hy : y ∈ structuralAll nodes) (hx : x ∈ y.parts) :
    IsNearestShallower w (structuralAll nodes) y x := by
  obtain ⟨before, after, split⟩ := walk_structural.isInfix hy
  rw [List.append_assoc, List.cons_append] at split
  obtain ⟨inner, deeper, widths, laids⟩ := (aligned.structural y hy).2
  have below : Aligned w inner y.parts := fun n m => ⟨widths n m, laids n m⟩
  have x_width : w x.line = inner := widths x hx
  have x_mem : x ∈ structuralAll y.parts := walk_structural.subset hx
  rw [← split, List.pairwise_append] at ascending
  obtain ⟨_, rest, outside⟩ := ascending
  obtain ⟨first, rest⟩ := List.pairwise_cons.mp rest
  have earlier := first x (List.mem_append_left _ x_mem)
  refine ⟨earlier, by omega, ?_⟩
  intro z hz z_earlier z_shallower
  rw [← split] at hz
  obtain hz | hz := List.mem_append.mp hz
  · exact Nat.le_of_lt (outside z hz y (by simp))
  · obtain rfl | hz := List.mem_cons.mp hz
    · exact Nat.le_refl _
    · obtain hz | hz := List.mem_append.mp hz
      · have bound := (below.structural z hz).1
        omega
      · have later := (List.pairwise_append.mp rest).2.2 x x_mem z hz
        omega

/-- Nodes of a forest whose lines ascend are the same if they are on the same line. -/
theorem eq_of_line_eq {x y : Node} (ascending : nodes.Pairwise (fun a b => a.line < b.line))
    (hx : x ∈ nodes) (hy : y ∈ nodes) (same : x.line = y.line) : x = y := by
  induction ascending with
  | nil => cases hx
  | cons first _ ih =>
    obtain rfl | x_later := List.mem_cons.mp hx
    · obtain rfl | y_later := List.mem_cons.mp hy
      · rfl
      · have := first y y_later
        omega
    · obtain rfl | y_later := List.mem_cons.mp hy
      · have := first x x_later
        omega
      · exact ih x_later y_later

/-- The first nodes of an aligned forest are those with no earlier node on a narrower line. -/
theorem Aligned.mem_iff {x : Node} (aligned : Aligned w width nodes)
    (ascending : (structuralAll nodes).Pairwise (fun a b => a.line < b.line))
    (hx : x ∈ structuralAll nodes) :
    x ∈ nodes ↔ ∀ y ∈ structuralAll nodes, y.line < x.line → w x.line ≤ w y.line := by
  constructor
  · intro first y hy _
    rw [(aligned x first).1]
    exact (aligned.structural y hy).1
  · intro shallowest
    obtain first | ⟨parent, hp, part⟩ := walk_structural.mem_or_exists_above hx
    · exact first
    · have above := isNearestShallower_of_mem_parts aligned ascending hp part
      have bound := shallowest parent hp above.earlier
      have shallower := above.shallower
      omega

/-- The parts of a node of an aligned forest are those that have it as the last node on an earlier
and narrower line. -/
theorem Aligned.mem_parts_iff {x y : Node} (aligned : Aligned w width nodes)
    (ascending : (structuralAll nodes).Pairwise (fun a b => a.line < b.line))
    (hx : x ∈ structuralAll nodes) (hy : y ∈ structuralAll nodes) :
    x ∈ y.parts ↔ IsNearestShallower w (structuralAll nodes) y x := by
  constructor
  · exact isNearestShallower_of_mem_parts aligned ascending hy
  · intro above
    obtain first | ⟨parent, hp, part⟩ := walk_structural.mem_or_exists_above hx
    · have shallower := above.shallower
      have bound := (aligned.structural y hy).1
      rw [(aligned x first).1] at shallower
      omega
    · have nearest := isNearestShallower_of_mem_parts aligned ascending hp part
      have low := nearest.nearest y hy above.earlier above.shallower
      have high := above.nearest parent hp nearest.earlier nearest.shallower
      cases eq_of_line_eq ascending hy hp (Nat.le_antisymm low high)
      exact part

end Node

/-- The nodes nested in each open block lie on lines of the width of its level, and the block lies
on a line of the width of the level around. The lines of a Haml comment may lie anywhere. -/
def Stacked (w : Nat → Nat) : List Level → List OpenBlock → Prop
  | [], [] => True
  | level :: outer, block :: blocks =>
    w block.line = Level.innermostWidth outer ∧
      (block.head ≠ .hamlComment → Node.Aligned w level.width block.nested) ∧
      Stacked w outer blocks
  | _, _ => False

/-- All nodes of an outline are laid out, those of the open blocks by the levels. -/
structure Aligns (w : Nat → Nat) (levels : List Level) (o : Outline) : Prop where
  roots : Node.Aligned w 0 o.roots
  blocks : Stacked w levels o.openBlocks

namespace Aligns

open Node

variable {w : Nat → Nat} {levels left : List Level} {o after : Outline} {line : Line}

/-- Outside Haml comments the siblings of the next node lie on lines of the innermost width. -/
theorem siblings (h : Aligns w levels o) (outside : o.inHamlComment = false) :
    Aligned w (Level.innermostWidth levels) o.siblings := by
  obtain ⟨roots, _ | ⟨block, outer⟩⟩ := o
  · cases levels with
    | nil => exact h.roots
    | cons => exact h.blocks.elim
  · cases levels with
    | nil => exact h.blocks.elim
    | cons level levels =>
      exact h.blocks.2.1 (by simpa [Outline.inHamlComment] using outside)

theorem withSiblings {nodes : List Node} (h : Aligns w levels o)
    (aligned : o.inHamlComment = false → Aligned w (Level.innermostWidth levels) nodes) :
    Aligns w levels (o.withSiblings nodes) := by
  obtain ⟨roots, _ | ⟨block, outer⟩⟩ := o
  · cases levels with
    | nil => exact ⟨aligned rfl, h.blocks⟩
    | cons => exact h.blocks.elim
  · cases levels with
    | nil => exact h.blocks.elim
    | cons level levels =>
      refine ⟨h.roots, h.blocks.1, ?_, h.blocks.2.2⟩
      intro outside
      exact aligned (by simpa [Outline.inHamlComment] using outside)

/-- A node may be added on a line of the innermost width, and in a Haml comment on any line. -/
theorem push {node : Node} (h : Aligns w levels o)
    (placed : o.inHamlComment = false →
      w node.line = Level.innermostWidth levels ∧ node.Laid w) : Aligns w levels (o.push node) := by
  refine h.withSiblings fun outside => ?_
  intro n member
  obtain rfl | elder := List.mem_cons.mp member
  · exact placed outside
  · exact h.siblings outside n elder

/-- Opening the last node for a deeper line, when it has nothing nested in it. -/
theorem opened {number : Nat} {head : Head} {elder : List Node} {level : Level}
    (h : Aligns w levels o) (outside : o.inHamlComment = false)
    (last : o.siblings = .block number head [] :: elder) :
    Aligns w (level :: levels) (o.opened number head [] elder) := by
  have siblings := h.siblings outside
  rw [last] at siblings
  have others : Aligns w levels (o.withSiblings elder) :=
    h.withSiblings fun _ n member => siblings n (List.mem_cons_of_mem _ member)
  refine ⟨others.roots, (siblings _ (List.mem_cons_self ..)).1, ?_, others.blocks⟩
  intro _ n member
  cases member

theorem laid_closeBlock {level : Level} {outer : List Level} {block : OpenBlock}
    {blocks : List OpenBlock} (following : Option Line)
    (stacked : Stacked w (level :: outer) (block :: blocks))
    (wider : Level.innermostWidth outer < level.width) :
    (Outline.closeBlock block following).Laid w := by
  obtain ⟨number, nested, _⟩ := stacked
  have same : ∀ midBlock, (block.head.withMidBlock midBlock == .hamlComment) =
      (block.head == .hamlComment) := by
    intro midBlock
    cases block.head <;> rfl
  cases comment : block.head == .hamlComment with
  | true =>
    apply laid_of_parts_eq_nil
    simp [Outline.closeBlock, parts, same, comment]
  | false =>
    have parts_eq : (Outline.closeBlock block following).parts = block.nested.reverse := by
      simp [Outline.closeBlock, parts, same, comment]
    have aligned := (nested (by simpa using comment)).reverse
    refine .intro level.width ?_ ?_ ?_
    · show w block.line < level.width
      omega
    · rw [parts_eq]
      exact fun n member => (aligned n member).1
    · rw [parts_eq]
      exact fun n member => (aligned n member).2

theorem closed {level : Level} {outer : List Level} (h : Aligns w (level :: outer) o)
    (wider : Level.innermostWidth outer < level.width) (following : Option Line) :
    Aligns w outer (o.closed following) := by
  obtain ⟨roots, _ | ⟨block, blocks⟩⟩ := o
  · exact h.blocks.elim
  · have inner : Aligns w outer ⟨roots, blocks⟩ := ⟨h.roots, h.blocks.2.2⟩
    exact inner.push fun _ => ⟨h.blocks.1, laid_closeBlock following h.blocks wider⟩

theorem closes (closes : Tracker.Closes line levels o left after)
    (ascending : Level.Ascending levels) (h : Aligns w levels o) : Aligns w left after := by
  have kept := closes.preserves (P := fun levels o => Level.Ascending levels ∧ Aligns w levels o)
    (fun following h => ⟨h.1.2, h.2.closed h.1.1 following⟩) ⟨ascending, h⟩
  exact kept.2

theorem closedTimes (ascending : Level.Ascending levels) (h : Aligns w levels o) :
    Aligns w [] (o.closedTimes levels.length) := by
  have kept := Tracker.preserves_closedTimes
    (P := fun levels o => Level.Ascending levels ∧ Aligns w levels o)
    (fun h => ⟨h.1.2, h.2.closed h.1.1 none⟩) ⟨ascending, h⟩
  exact kept.2

end Aligns

namespace Tracker

open Node

variable {w : Nat → Nat} {line : Line} {t t' : Tracker} {o after : Outline} {role : LineRole}

theorem inHamlComment_of_takesVerbatim (inside : t.takesVerbatim line = true)
    (matched : Matched t.levels o.heads) : o.inHamlComment = true := by
  rw [matched.inHamlComment_eq]
  obtain ⟨_ | ⟨level, outer⟩, c?⟩ := t
  · cases inside
  · cases verbatim : level.verbatim with
    | false => simp [takesVerbatim, verbatimBase?, verbatim] at inside
    | true => exact verbatim

/-- A line that is taken as it is stands in a Haml comment. -/
theorem Placement.inHamlComment (placed : Placement line t o .verbatim t' after)
    (matched : Matched t.levels o.heads) : after.inHamlComment = true := by
  generalize role : LineRole.verbatim = role at placed
  cases placed with
  | blank | level | shallower => cases role
  | body _ inside => exact inHamlComment_of_takesVerbatim inside matched
  | @deeper number head nested elder =>
    cases comment : head == .hamlComment with
    | true => exact comment
    | false => simp [comment] at role

theorem Placement.aligns (placed : Placement line t o role t' after)
    (matched : Matched t.levels o.heads) (fresh : ∀ node ∈ o.siblings.head?, node.nested = [])
    (h : Aligns w t.levels o) : Aligns w t'.levels after := by
  cases placed with
  | blank | body | level => exact h
  | @deeper number head nested elder admits deeper last nestable =>
    have plain := admits.innermostPlain matched.ascending (Nat.le_of_lt deeper)
    have empty : nested = [] := fresh (.block number head nested) (by simp [last])
    subst empty
    exact h.opened (plain.outside matched) last
  | shallower _ _ closes => exact h.closes closes matched.ascending

end Tracker

namespace Cursor

variable {c after : Cursor} {line : Line}

theorem takeLine?_indent (h : c.takeLine? = some (line, after)) :
    ∃ raw rest, c.pending = raw :: rest ∧ line.indent = raw.indentation := by
  rw [takeLine?] at h
  split at h
  · cases h
  · rename_i raw rest pending
    refine ⟨raw, rest, pending, ?_⟩
    split at h <;> cases h <;> rfl

/-- The indentation of a line is that of its first physical line. -/
theorem takeWithin?_indent {base? : Option Nat} (h : c.takeWithin? base? = some (line, after)) :
    ∃ raw rest, c.pending = raw :: rest ∧ line.indent = raw.indentation := by
  cases base? with
  | none => exact takeLine?_indent h
  | some base =>
    simp only [takeWithin?, takeBodyLine?] at h
    split at h
    · cases h
    · rename_i raw rest pending
      split at h
      · cases h
        exact ⟨raw, rest, pending, rfl⟩
      · exact takeLine?_indent h

/-- A position in a source leaves the lines behind it to be read. -/
theorem Follows.pending_eq {source : Text} (h : c.Follows (start source)) :
    c.pending = source.physicalLines.drop c.consumed := by
  obtain ⟨n, _, rfl⟩ := h
  simp [start]

/-- The number of a logical line that is read in a source tells the position it is read at. -/
theorem Follows.start_skip {source : Text} (h : c.Follows (start source))
    (read : c.takeLine? = some (line, after)) : (start source).skip (line.number - 1) = c := by
  obtain ⟨_, _, _, number⟩ := takeLine?_eq_some read
  obtain ⟨n, _, same⟩ := h
  rw [number, same]
  simp [start]

/-- A line read in a source has the width of the physical line it begins on. -/
theorem Follows.widthAt_number {source : Text} {base? : Option Nat} (h : c.Follows (start source))
    (taken : c.takeWithin? base? = some (line, after)) :
    source.widthAt line.number = line.width := by
  obtain ⟨raw, rest, pending, indent⟩ := takeWithin?_indent taken
  obtain ⟨_, _, _, number⟩ := takeWithin?_eq_some taken
  have first : source.physicalLines[c.consumed]? = some raw := by
    rw [← List.head?_drop, ← h.pending_eq, pending]
    rfl
  simp [Text.widthAt, number, first, Line.width, indent]

end Cursor

namespace ParseState

open Node

variable {registry : Registry} {source : Text} {w : Nat → Nat} {line : Line} {s t : ParseState}
variable {d : Document}

/-- The nodes read so far are laid out by the widths of their lines, and the filter block being
collected goes on at the width of its line. -/
structure Arranged (w : Nat → Nat) (s : ParseState) : Prop where
  aligns : Aligns w s.tracker.levels s.outline
  collecting : ∀ block, s.collector = some block → w block.line = block.baseWidth

namespace Arranged

theorem taken (taken : Parsing.Taken line s t) (idle : s.collector = none)
    (number : w line.number = line.width) (lockstep : s.Lockstep) (h : s.Arranged w) :
    t.Arranged w := by
  have matched := lockstep.matched
  have fresh := lockstep.fresh idle
  cases taken with
  | blank => exact h
  | verbatim placed =>
    have comment := placed.inHamlComment matched
    refine ⟨(placed.aligns matched fresh h.aligns).push ?_, ?_⟩
    · intro outside
      simp [comment] at outside
    · intro block collecting
      rw [idle] at collecting
      cases collecting
  | node placed content read =>
    obtain ⟨width, _⟩ := placed.structural matched
    obtain ⟨line_eq, empty, _⟩ := Reading.node?_spec content read
    refine ⟨(placed.aligns matched fresh h.aligns).push fun _ => ⟨?_, ?_⟩, ?_⟩
    · rw [line_eq, number, ← width]
      rfl
    · exact laid_of_nested_eq_nil empty
    · intro block collecting
      rw [idle] at collecting
      cases collecting
  | filter placed _ started =>
    obtain ⟨base, line_eq, _⟩ := FilterBlock.start_eq_ok started
    refine ⟨placed.aligns matched fresh h.aligns, ?_⟩
    rintro _ ⟨⟩
    rw [base, line_eq, number]

/-- The node of a filter block lies at the innermost level, where the block was begun. -/
theorem push_output {block : FilterBlock} {node : Node} (collecting : s.collector = some block)
    (finished : block.finish registry = .ok node) (lockstep : s.Lockstep) (h : s.Arranged w) :
    Aligns w s.tracker.levels (s.outline.push node) := by
  obtain ⟨output, _, rfl⟩ := FilterBlock.finish_eq_ok finished
  obtain ⟨base, _⟩ := lockstep.collecting block collecting
  refine h.aligns.push fun _ => ⟨?_, laid_of_parts_eq_nil rfl⟩
  exact (h.collecting block collecting).trans base

theorem round (round : Parsing.Round registry line s t) (number : w line.number = line.width)
    (lockstep : s.Lockstep) (h : s.Arranged w) : t.Arranged w := by
  cases round with
  | collected collecting =>
    refine ⟨h.aligns, ?_⟩
    rintro _ ⟨⟩
    have kept := h.collecting _ collecting
    exact kept
  | passed => exact h
  | closed collecting _ _ finished taken =>
    have pushed := h.push_output collecting finished lockstep
    have idle : Arranged w { s with collector := none, outline := s.outline.push _ } :=
      ⟨pushed, by intro block collecting; cases collecting⟩
    obtain ⟨output, _, rfl⟩ := FilterBlock.finish_eq_ok finished
    exact idle.taken taken rfl number (.push s.cursor rfl lockstep.matched)
  | taken idle taken => exact h.taken taken idle number lockstep

theorem of_reached (reached : Reached registry source s) : s.Arranged source.widthAt := by
  induction reached with
  | start =>
    refine ⟨⟨?_, trivial⟩, ?_⟩
    · intro node member
      cases member
    · intro block collecting
      cases collecting
  | @next s t reached advanced ih =>
    obtain ⟨line, behind, taken, round⟩ := advance?_eq_ok_iff.mp advanced
    obtain ⟨read, moved⟩ := takeLine?_eq_some taken
    have number := reached.follows.widthAt_number read
    have kept : behind.Arranged source.widthAt := by
      rw [moved]
      exact ⟨ih.aligns, ih.collecting⟩
    exact kept.round round number ((Lockstep.of_reached reached).takeLine? taken)

end Arranged

/-- The roots of a document lie on lines without indentation, and all of it is laid out. -/
theorem aligned_conclude (lockstep : s.Lockstep) (h : s.Arranged w)
    (concluded : s.conclude registry = .ok d) : Aligned w 0 d.roots := by
  obtain ⟨o, finished, rfl⟩ := conclude_eq_ok concluded
  have aligns : Aligns w s.tracker.levels o := by
    cases finished with
    | idle => exact h.aligns
    | output collecting finished => exact h.push_output collecting finished lockstep
  exact (aligns.closedTimes lockstep.matched.ascending).roots.reverse

end ParseState

/-- A node of the structure is a root exactly if no earlier node of the structure is on a narrower
line, and else it is nested in the last such node. So the nodes nested in a node of the structure
are on lines of one width, and so are the roots. The lines of a Haml comment, which are its text,
are no part of the structure, and neither is the content of an element's own line. -/
theorem nesting_of_parse {registry : Registry} {source : Text} {d : Document}
    (h : Document.parse registry source = .ok d) :
    (∀ x ∈ Node.structuralAll d.roots,
      (x ∈ d.roots ↔ ∀ y ∈ Node.structuralAll d.roots, y.line < x.line →
        source.widthAt x.line ≤ source.widthAt y.line)) ∧
    (∀ x ∈ Node.structuralAll d.roots, ∀ y ∈ Node.structuralAll d.roots,
      (x ∈ y.parts ↔
        Node.IsNearestShallower source.widthAt (Node.structuralAll d.roots) y x)) ∧
    (∀ x ∈ d.roots, ∀ y ∈ d.roots, source.widthAt x.line = source.widthAt y.line) ∧
    ∀ parent ∈ Node.structuralAll d.roots, ∀ x ∈ parent.parts, ∀ y ∈ parent.parts,
      source.widthAt x.line = source.widthAt y.line := by
  obtain ⟨last, reached, _, concluded⟩ := Document.exists_last_of_parse h
  have aligned := ParseState.aligned_conclude (.of_reached reached) (.of_reached reached) concluded
  have ascending : (Node.structuralAll d.roots).Pairwise (fun a b => a.line < b.line) :=
    (List.pairwise_map.mp (Document.lines_ascending h)).sublist
      (Node.structuralAll_sublist d.roots)
  refine ⟨?_, ?_, ?_, ?_⟩
  · intro x hx
    exact aligned.mem_iff ascending hx
  · intro x hx y hy
    exact aligned.mem_parts_iff ascending hx hy
  · intro x hx y hy
    rw [(aligned x hx).1, (aligned y hy).1]
  · intro parent hp x hx y hy
    obtain ⟨inner, _, widths, _⟩ := (aligned.structural parent hp).2
    rw [widths x hx, widths y hy]

/-- The fourth line is less deep than the one before it and goes back to the second one's level, so
its comment is nested in the element of the first line, which is the last one before it that is less
deep. The last line, which is text of a Haml comment, is no part of the structure. -/
theorem nesting_of_parse_dedent :
    ∃ d parent, Document.parse .builtins "%p\n  / a\n      = b\n  / c\n-#\n d\n".toList = .ok d ∧
      (Node.structuralAll d.roots).map Node.line = [1, 2, 3, 4, 5] ∧
      parent ∈ Node.structuralAll d.roots ∧ parent.line = 1 ∧
      .block 4 (.comment ['c']) [] ∈ parent.parts ∧
      Node.IsNearestShallower (Text.widthAt "%p\n  / a\n      = b\n  / c\n-#\n d\n".toList)
        (Node.structuralAll d.roots) parent (.block 4 (.comment ['c']) []) ∧
      ∀ x ∈ Node.structuralAll d.roots, ∀ y ∈ Node.structuralAll d.roots,
        (x ∈ y.parts ↔ Node.IsNearestShallower
          (Text.widthAt "%p\n  / a\n      = b\n  / c\n-#\n d\n".toList)
          (Node.structuralAll d.roots) y x) := by
  have parsed : Document.parse .builtins
      "%p\n  / a\n      = b\n  / c\n-#\n d\n".toList = .ok ⟨6, [
        .block 1 (.element { tag := ['p'] }) [
          .block 2 (.comment ['a']) [.block 3 (.script ['b'] false) []],
          .block 4 (.comment ['c']) []],
        .block 5 .hamlComment [.leaf 6 (.text ['d'])]]⟩ := by
    decide +kernel
  have nested := (nesting_of_parse parsed).2.1
  have comment : Node.block 4 (.comment ['c']) [] ∈
      Node.parts (.block 1 (.element { tag := ['p'] }) [
        .block 2 (.comment ['a']) [.block 3 (.script ['b'] false) []],
        .block 4 (.comment ['c']) []]) := .tail _ (.head _)
  have nearest := (nested (.block 4 (.comment ['c']) []) (.tail _ (.tail _ (.tail _ (.head _))))
    _ (.head _)).mp comment
  exact ⟨_, _, parsed, rfl, .head _, rfl, comment, nearest, nested⟩

end HamlTemplate
