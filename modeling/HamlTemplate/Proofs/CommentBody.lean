import HamlTemplate.Proofs.FilterBody

/-!
# Bodies of Haml comments

The body of a Haml comment is the stretch of lines behind it that are blank or deeper. The first of
them is read as it is because the comment is the last node, the later ones because they are inside
it. Either way, what the comment holds and what is still to come of its body are together the whole
body, from the line of the comment on to the line that ends it. As for filters, spaces and tabs have
to be the only white space within lines.
-/

namespace HamlTemplate

open Unicode

/-- The lines that have something to be seen as plain texts, behind their indentation. The first
line has the given number. -/
def Node.texts (first : Nat) (lines : List Text) : List Node :=
  (lines.zipIdx first).filterMap fun (raw, number) =>
    if raw.isBlank then none else some (.leaf number (.text raw.afterIndentation))

/-- The number of the last physical line of the logical line that begins at the given one. -/
def Text.lastLineAt (source : Text) (n : Nat) : Nat :=
  (((Cursor.start source).skip (n - 1)).takeLine?.map fun (line, _) => line.lastNumber).getD n

/-- The body of a Haml comment on the given line: the lines behind its logical line, up to the first
that has something to be seen and is no deeper. -/
def Text.commentBody (source : Text) (n : Nat) : List Node :=
  Node.texts (source.lastLineAt n + 1)
    ((source.physicalLines.drop (source.lastLineAt n)).takeWhile
      (Text.isBelow (source.widthAt n)))

@[simp] theorem Node.texts_nil (first : Nat) : texts first [] = [] := rfl

theorem Node.texts_cons_of_isBlank {raw : Text} (blank : raw.isBlank = true) (first : Nat)
    (rest : List Text) : texts first (raw :: rest) = texts (first + 1) rest := by
  simp [texts, List.zipIdx_cons, blank]

theorem Node.texts_cons {raw : Text} (content : raw.isBlank = false) (first : Nat)
    (rest : List Text) :
    texts first (raw :: rest) =
      .leaf first (.text raw.afterIndentation) :: texts (first + 1) rest := by
  simp [texts, List.zipIdx_cons, content]

namespace Cursor

variable {c after : Cursor} {line : Line} {raw : Text} {rest : List Text} {base : Nat}

/-- What is still to come of a body that is deeper than the given width. -/
def bodyAhead (c : Cursor) (base : Nat) : List Node :=
  Node.texts (c.consumed + 1) (c.pending.takeWhile (Text.isBelow base))

theorem bodyAhead_of_isBelow (pending : c.pending = raw :: rest) (below : raw.isBelow base = true) :
    c.bodyAhead base =
      (if raw.isBlank then [] else [.leaf (c.consumed + 1) (.text raw.afterIndentation)]) ++
        (c.skip 1).bodyAhead base := by
  have tail : (c.skip 1).bodyAhead base =
      Node.texts (c.consumed + 2) (rest.takeWhile (Text.isBelow base)) := by
    simp [bodyAhead, pending]
  rw [bodyAhead, pending, List.takeWhile_cons_of_pos below, tail]
  by_cases blank : raw.isBlank = true
  · rw [Node.texts_cons_of_isBlank blank, if_pos blank, List.nil_append]
  · rw [Node.texts_cons (Bool.eq_false_iff.mpr blank), if_neg blank, List.singleton_append]

theorem bodyAhead_eq_nil (ends : ∀ raw ∈ c.pending.head?, raw.isBelow base = false) :
    c.bodyAhead base = [] := by
  cases pending : c.pending with
  | nil => simp [bodyAhead, pending]
  | cons raw rest =>
    have outside := ends raw (by simp [pending])
    simp [bodyAhead, pending, outside]

/-- A line of a body is read exactly as written. -/
theorem takeBodyLine?_of_isBelow (pending : c.pending = raw :: rest) (spaced : raw.IsSpaced)
    (below : raw.isBelow base = true) :
    c.takeBodyLine? base =
      some (⟨raw.indentation, raw.afterIndentation, c.consumed + 1, 1⟩, c.skip 1) := by
  have inside : raw.afterIndentation = [] ∨ base < raw.indentation.length := by
    rw [spaced.afterIndentation_eq_nil_iff]
    simpa [Text.isBelow] using below
  simp only [takeBodyLine?, pending, inside, if_true]

/-- While a body is being read, a line takes its part of what is still to come, or ends it. -/
theorem bodyAhead_of_takeWithin? (spaced : ∀ raw ∈ c.pending, raw.IsSpaced)
    (taken : c.takeWithin? (some base) = some (line, after)) :
    (line.isBlank = true → c.bodyAhead base = after.bodyAhead base) ∧
      (line.isBlank = false → base < line.width →
        c.bodyAhead base = .leaf line.number (.text line.text) :: after.bodyAhead base) ∧
      (line.isBlank = false → line.width ≤ base → c.bodyAhead base = []) := by
  obtain ⟨raw, rest, pending, _⟩ := takeWithin?_indent taken
  have rawSpaced := spaced raw (by simp [pending])
  by_cases below : raw.isBelow base = true
  · have split := bodyAhead_of_isBelow pending below
    rw [takeWithin?, takeBodyLine?_of_isBelow pending rawSpaced below] at taken
    cases taken
    have blank : raw.isBlank = raw.afterIndentation.isEmpty := by
      rw [Bool.eq_iff_iff, ← rawSpaced.afterIndentation_eq_nil_iff, List.isEmpty_iff]
    rw [Text.isBelow, blank, Bool.or_eq_true, decide_eq_true_eq] at below
    rw [blank] at split
    simp only [Line.isBlank, Line.width]
    refine ⟨fun empty => ?_, fun content _ => ?_, fun content shallow => ?_⟩
    · rw [split, if_pos empty, List.nil_append]
    · rw [split, if_neg (by simp [content]), List.singleton_append]
    · have deeper := below.resolve_left (by simp [content])
      omega
  · rw [Bool.not_eq_true] at below
    have ended : c.bodyAhead base = [] := bodyAhead_eq_nil (by simpa [pending] using below)
    obtain ⟨inside, _⟩ | ⟨_, content, shallow⟩ := takeWithin?_of_spaced pending rawSpaced taken
    · rw [below] at inside
      cases inside
    · refine ⟨fun blank => ?_, fun _ deeper => absurd shallow (Nat.not_le.mpr deeper),
        fun _ _ => ended⟩
      rw [content] at blank
      cases blank

end Cursor

theorem Node.isHamlComment_block (line : Nat) (head : Head) (nested : List Node) :
    (block line head nested).isHamlComment = (head == .hamlComment) := by
  cases head <;> rfl

/-- If the node is a Haml comment, its whole body is nested in it. -/
def Node.Whole (body : Nat → List Node) (node : Node) : Prop :=
  node.isHamlComment = true → node.nested = body node.line

theorem Node.whole_of_not_comment {body : Nat → List Node} {node : Node}
    (plain : node.isHamlComment = false) : node.Whole body := by
  intro comment
  rw [plain] at comment
  cases comment

theorem Node.all_whole_leaf {body : Nat → List Node} (line : Nat) (l : Leaf) :
    Node.All (Node.Whole body) [.leaf line l] :=
  all_leaf.mpr (whole_of_not_comment rfl)

structure OpenBlock.Whole (body : Nat → List Node) (block : OpenBlock) : Prop where
  nested : Node.All (Node.Whole body) block.nested
  comment : block.head = .hamlComment → block.nested.reverse = body block.line

namespace Outline

variable {body : Nat → List Node} {o after : Outline} {levels left : List Level} {line : Line}

structure Whole (body : Nat → List Node) (o : Outline) : Prop where
  roots : Node.All (Node.Whole body) o.roots
  blocks : ∀ block ∈ o.openBlocks, block.Whole body

namespace Whole

theorem siblings (h : o.Whole body) : Node.All (Node.Whole body) o.siblings := by
  obtain ⟨roots, _ | ⟨block, outer⟩⟩ := o
  · exact h.roots
  · exact (h.blocks block List.mem_cons_self).nested

/-- Outside Haml comments the siblings of the next node may be other whole nodes. -/
theorem withSiblings {nodes : List Node} (h : o.Whole body) (outside : o.inHamlComment = false)
    (whole : Node.All (Node.Whole body) nodes) : (o.withSiblings nodes).Whole body := by
  obtain ⟨roots, _ | ⟨block, outer⟩⟩ := o
  · exact ⟨whole, h.blocks⟩
  · obtain ⟨_, others⟩ := List.forall_mem_cons.mp h.blocks
    refine ⟨h.roots, List.forall_mem_cons.mpr ⟨⟨whole, fun comment => ?_⟩, others⟩⟩
    have plain : block.head ≠ .hamlComment := by simpa [Outline.inHamlComment] using outside
    exact absurd comment plain

theorem push {node : Node} (h : o.Whole body) (outside : o.inHamlComment = false)
    (whole : Node.All (Node.Whole body) [node]) : (o.push node).Whole body :=
  h.withSiblings outside ((Node.all_cons node _).mpr ⟨whole, h.siblings⟩)

/-- The last node is opened, if it is no Haml comment. -/
theorem opened {number : Nat} {head : Head} {nested elder : List Node} (h : o.Whole body)
    (outside : o.inHamlComment = false) (last : o.siblings = .block number head nested :: elder)
    (plain : head ≠ .hamlComment) : (o.opened number head nested elder).Whole body := by
  have split := h.siblings
  rw [last, Node.all_cons, Node.all_block] at split
  have kept := h.withSiblings outside split.2
  have own : OpenBlock.Whole body ⟨number, head, nested.reverse⟩ :=
    ⟨Node.all_reverse.mpr split.1.2, fun comment => absurd comment plain⟩
  exact ⟨kept.roots, List.forall_mem_cons.mpr ⟨own, kept.blocks⟩⟩

theorem closeBlock {block : OpenBlock} (h : block.Whole body) (following : Option Line) :
    Node.All (Node.Whole body) [Outline.closeBlock block following] := by
  rw [Outline.closeBlock, Node.all_block]
  refine ⟨?_, Node.all_reverse.mpr h.nested⟩
  cases head : block.head with
  | hamlComment =>
    intro _
    exact h.comment head
  | comment | element | script | silentScript => exact Node.whole_of_not_comment rfl

theorem closed {level : Level} (h : o.Whole body) (matched : Matched (level :: levels) o.heads)
    (following : Option Line) : (o.closed following).Whole body := by
  obtain ⟨roots, _ | ⟨block, outer⟩⟩ := o
  · cases matched.verbatim
  · obtain ⟨own, others⟩ := List.forall_mem_cons.mp h.blocks
    have around : Whole body ⟨roots, outer⟩ := ⟨h.roots, others⟩
    exact around.push matched.outside_around (closeBlock own following)

theorem closes (closes : Tracker.Closes line levels o left after)
    (matched : Matched levels o.heads) (h : o.Whole body) : after.Whole body := by
  have kept := closes.preserves (P := fun levels o => Matched levels o.heads ∧ o.Whole body)
    (fun following h => ⟨h.1.closed following, h.2.closed h.1 following⟩) ⟨matched, h⟩
  exact kept.2

theorem closedTimes (matched : Matched levels o.heads) (h : o.Whole body) :
    (o.closedTimes levels.length).Whole body := by
  have kept := Tracker.preserves_closedTimes
    (P := fun levels o => Matched levels o.heads ∧ o.Whole body)
    (fun h => ⟨h.1.closed none, h.2.closed h.1 none⟩) ⟨matched, h⟩
  exact kept.2

end Whole

/-- The node that has been added last is opened. -/
private theorem opened_push (o : Outline) (line number : Nat) (own head : Head)
    (inner nested : List Node) :
    (o.push (.block line own inner)).opened number head nested o.siblings =
      { o with openBlocks := ⟨number, head, nested.reverse⟩ :: o.openBlocks } := by
  simp only [opened, push, withSiblings_withSiblings, withSiblings_siblings]

end Outline

namespace Tracker

variable {body : Nat → List Node} {line : Line} {t t' : Tracker} {o after : Outline}

/-- No Haml comment is left without a part of its body by a line of content. -/
theorem Placement.whole (placed : Placement line t o .structural t' after)
    (matched : Matched t.levels o.heads) (h : o.Whole body) : after.Whole body := by
  generalize role : LineRole.structural = role at placed
  cases placed with
  | blank | body => cases role
  | deeper admits deeper last =>
    split at role
    · cases role
    · rename_i plain
      have innermost := admits.innermostPlain matched.ascending (Nat.le_of_lt deeper)
      exact h.opened (innermost.outside matched) last (by simpa using plain)
  | level => exact h
  | shallower _ _ closes => exact h.closes closes matched

theorem verbatimBase?_of_outside (matched : Matched t.levels o.heads)
    (outside : o.inHamlComment = false) : t.verbatimBase? = none := by
  rw [matched.inHamlComment_eq] at outside
  obtain ⟨_ | ⟨level, levels⟩, c?⟩ := t
  · rfl
  · have plain : level.verbatim = false := outside
    simp [verbatimBase?, plain]

/-- A line of content is not deeper than a Haml comment just before it. -/
theorem Placement.shallow (placed : Placement line t o .structural t' after) :
    t.Admits line ∧ (o.lastNode?.any Node.isHamlComment = true → line.width ≤ t.width) := by
  generalize role : LineRole.structural = role at placed
  cases placed with
  | blank | body => cases role
  | deeper admits _ last =>
    refine ⟨admits, fun comment => ?_⟩
    split at role
    · cases role
    · rename_i plain
      rw [Outline.lastNode?, last, List.head?_cons, Option.any_some,
        Node.isHamlComment_block] at comment
      exact absurd comment plain
  | level admits same => exact ⟨admits, fun _ => same.ge⟩
  | shallower admits shallower => exact ⟨admits, fun _ => Nat.le_of_lt shallower⟩

/-- A line that is taken as it is stands in a Haml comment, or is deeper than one just before it. -/
theorem Placement.verbatim_cases (placed : Placement line t o .verbatim t' after) :
    line.isBlank = false ∧
      (t.takesVerbatim line = true ∧ after = o ∨
        t.Admits line ∧ t.width < line.width ∧ ∃ number nested elder,
          o.siblings = .block number .hamlComment nested :: elder ∧
            after = o.opened number .hamlComment nested elder) := by
  generalize role : LineRole.verbatim = role at placed
  cases placed with
  | blank | level | shallower => cases role
  | body content inside => exact ⟨content, .inl ⟨inside, rfl⟩⟩
  | @deeper number head nested elder admits deeper last =>
    split at role
    · rename_i comment
      obtain rfl : head = .hamlComment := eq_of_beq comment
      exact ⟨admits.content, .inr ⟨admits, deeper, number, nested, elder, last, rfl⟩⟩
    · cases role

end Tracker

namespace ParseState

variable {registry : Registry} {source : Text} {c : Cursor} {line : Line} {s t : ParseState}
  {collector : Collector} {o : Outline}

/-- All Haml comments are whole, but for one that is still being read: what it holds and what is
still to come of its body, from the given position on, are its body. -/
inductive Captures (source : Text) (c : Cursor) : Collector → Outline → Prop
  /-- No Haml comment is being read. -/
  | between {collector : Collector} {o : Outline} (whole : o.Whole source.commentBody)
      (outside : o.inHamlComment = false)
      (plain : collector = none → o.lastNode?.any Node.isHamlComment = false) :
      Captures source c collector o
  /-- The last line has begun a Haml comment. -/
  | begun {o : Outline} {n : Nat} (whole : o.Whole source.commentBody)
      (outside : o.inHamlComment = false)
      (ahead : c.bodyAhead (source.widthAt n) = source.commentBody n) :
      Captures source c none (o.push (.block n .hamlComment []))
  /-- The last line is in the body of a Haml comment. -/
  | inside {roots nested : List Node} {outer : List OpenBlock} {n : Nat}
      (whole : Outline.Whole source.commentBody ⟨roots, outer⟩)
      (texts : Node.All (Node.Whole source.commentBody) nested)
      (ahead : nested.reverse ++ c.bodyAhead (source.widthAt n) = source.commentBody n) :
      Captures source c none ⟨roots, ⟨n, .hamlComment, nested⟩ :: outer⟩

theorem Captures.of_collecting {block : FilterBlock} (h : Captures source c (some block) o) :
    o.Whole source.commentBody ∧ o.inHamlComment = false := by
  cases h with
  | between whole outside => exact ⟨whole, outside⟩

/-- At the end of the source nothing is missing. -/
theorem Captures.whole (h : Captures source c collector o) (ended : c.pending = []) :
    o.Whole source.commentBody := by
  have nothing : ∀ width, c.bodyAhead width = [] := fun _ =>
    Cursor.bodyAhead_eq_nil (by simp [ended])
  cases h with
  | between whole => exact whole
  | begun whole outside ahead =>
    refine whole.push outside (Node.all_block.mpr ⟨fun _ => ?_, nofun⟩)
    rw [nothing] at ahead
    exact ahead
  | inside whole texts ahead =>
    rw [nothing, List.append_nil] at ahead
    exact ⟨whole.roots, List.forall_mem_cons.mpr ⟨⟨texts, fun _ => ahead⟩, whole.blocks⟩⟩

/-- Behind the line of a Haml comment its body begins. -/
theorem bodyAhead_of_takeLine? {after : Cursor} (follows : c.Follows (.start source))
    (read : c.takeLine? = some (line, after)) :
    after.bodyAhead (source.widthAt line.number) = source.commentBody line.number := by
  obtain ⟨position, positive, bound, number⟩ := Cursor.takeLine?_eq_some read
  have moved : after.Follows (.start source) := .trans ⟨line.span, bound, position⟩ follows
  have last : source.lastLineAt line.number = after.consumed := by
    simp only [Text.lastLineAt, follows.start_skip read, read, Option.map_some, Option.getD_some,
      position, Cursor.consumed_skip, Line.lastNumber]
    omega
  rw [Cursor.bodyAhead, Text.commentBody, moved.pending_eq, last]

/-- Just behind the line of a Haml comment, its body is read below the width of that line. -/
private theorem bodyBase?_of_begun (lockstep : s.Lockstep) (arranged : s.Arranged source.widthAt)
    (idle : s.collector = none) {n : Nat} (outline : s.outline = o.push (.block n .hamlComment []))
    (outside : o.inHamlComment = false) :
    s.bodyBase? = some (source.widthAt n) ∧ s.tracker.width = source.widthAt n := by
  have plain : s.outline.inHamlComment = false := by
    rw [outline, Outline.inHamlComment_push, outside]
  have verbatim := Tracker.verbatimBase?_of_outside lockstep.matched plain
  have aligned := arranged.aligns.siblings plain
  rw [outline, Outline.siblings_push] at aligned
  have width : source.widthAt n = s.tracker.width := (aligned _ List.mem_cons_self).1
  refine ⟨?_, width.symm⟩
  simp [bodyBase?, idle, Collector.baseWidth?, verbatim, outline, Node.isHamlComment, width]

/-- So it is inside the Haml comment. -/
private theorem bodyBase?_of_inside (lockstep : s.Lockstep) (arranged : s.Arranged source.widthAt)
    (idle : s.collector = none) {roots nested : List Node} {outer : List OpenBlock} {n : Nat}
    (outline : s.outline = ⟨roots, ⟨n, .hamlComment, nested⟩ :: outer⟩) :
    s.bodyBase? = some (source.widthAt n) ∧ s.tracker.verbatimBase? = some (source.widthAt n) := by
  have blocks := arranged.aligns.blocks
  have inside := lockstep.matched.inHamlComment_eq
  rw [outline] at blocks inside
  have verbatim : s.tracker.verbatimBase? = some (source.widthAt n) := by
    rw [Tracker.verbatimBase?]
    cases levels : s.tracker.levels with
    | nil =>
      rw [levels] at blocks
      exact blocks.elim
    | cons level levels' =>
      rw [levels] at blocks inside
      have own : level.verbatim = true := inside.symm
      simp only [own, if_true, blocks.1]
  exact ⟨by simp [bodyBase?, idle, Collector.baseWidth?, verbatim], verbatim⟩

theorem bodyBase?_of_between (lockstep : s.Lockstep) (idle : s.collector = none)
    (outside : s.outline.inHamlComment = false)
    (plain : s.outline.lastNode?.any Node.isHamlComment = false) : s.bodyBase? = none := by
  have verbatim := Tracker.verbatimBase?_of_outside lockstep.matched outside
  simp [bodyBase?, idle, Collector.baseWidth?, verbatim, plain]

/-- A line of content begins what it begins, and it is read as a logical line. -/
theorem Captures.node {m : ParseState} {tracker : Tracker} {outline : Outline}
    {action : Reading Node} {node : Node} {cursor : Cursor} (follows : c.Follows (.start source))
    (read : c.takeLine? = some (line, m.cursor))
    (placed : Tracker.Placement line m.tracker m.outline .structural tracker outline)
    (matched : Matched m.tracker.levels m.outline.heads)
    (whole : m.outline.Whole source.commentBody)
    (content : Reading.node? line.number (Content.ofText line.text) = some action)
    (made : action m.cursor = .ok node cursor) :
    Captures source cursor none (outline.push node) := by
  have whole := placed.whole matched whole
  have outside := (placed.structural matched).2.outside (placed.matched matched)
  obtain ⟨_, empty, _⟩ := Reading.node?_spec content made
  have plain : node.isHamlComment = false → Captures source cursor none (outline.push node) := by
    intro plain
    have added : Node.All (Node.Whole source.commentBody) [node] :=
      (Node.all_of_nested_eq_nil empty).mpr (Node.whole_of_not_comment plain)
    refine .between (whole.push outside added) ?_ fun _ => ?_
    · rw [Outline.inHamlComment_push, outside]
    · rw [Outline.lastNode?_push, Option.any_some, plain]
  have begins := Reading.begins_of_node? content made
  generalize Content.ofText line.text = content at begins
  cases begins with
  | hamlComment => exact .begun whole outside (bodyAhead_of_takeLine? follows read)
  | element | doctype | comment | script | silentScript | plain => exact plain rfl

/-- What becomes of Haml comments when a line is taken that no filter block takes: it is blank, or
it is part of a body, or it is content, and then no body is being read any more. -/
theorem Captures.taken {m : ParseState} (taken : Parsing.Taken line m t) (idle : m.collector = none)
    (lockstep : m.Lockstep) (follows : c.Follows (.start source))
    (blank : line.isBlank = true → Captures source m.cursor none m.outline)
    (verbatim : ∀ tracker outline,
      Tracker.Placement line m.tracker m.outline .verbatim tracker outline →
        Captures source m.cursor none (outline.push (.leaf line.number (.text line.text))))
    (structural : ∀ tracker outline,
      Tracker.Placement line m.tracker m.outline .structural tracker outline →
        m.outline.Whole source.commentBody ∧ c.takeLine? = some (line, m.cursor)) :
    Captures source t.cursor t.collector t.outline := by
  have matched := lockstep.matched
  cases taken with
  | blank empty =>
    rw [idle]
    exact blank empty
  | verbatim placed =>
    rw [idle]
    exact verbatim _ _ placed
  | node placed content made =>
    obtain ⟨whole, read⟩ := structural _ _ placed
    rw [idle]
    exact .node follows read placed matched whole content made
  | filter placed =>
    have whole := (structural _ _ placed).1
    have outside := (placed.structural matched).2.outside (placed.matched matched)
    exact .between (placed.whole matched whole) outside nofun

/-- A line that is read outside Haml comments leaves them all whole, and may begin another one. -/
theorem Captures.taken_between {m : ParseState} (taken : Parsing.Taken line m t)
    (idle : m.collector = none) (lockstep : m.Lockstep) (follows : c.Follows (.start source))
    (whole : m.outline.Whole source.commentBody) (outside : m.outline.inHamlComment = false)
    (plain : m.outline.lastNode?.any Node.isHamlComment = false)
    (read : line.isBlank = false → c.takeLine? = some (line, m.cursor)) :
    Captures source t.cursor t.collector t.outline := by
  refine .taken taken idle lockstep follows (fun _ => .between whole outside fun _ => plain) ?_ ?_
  · intro tracker outline placed
    obtain ⟨_, ⟨inside, _⟩ | ⟨_, _, number, nested, elder, last, _⟩⟩ := placed.verbatim_cases
    · rw [Tracker.inHamlComment_of_takesVerbatim inside lockstep.matched] at outside
      cases outside
    · simp [Outline.lastNode?, last, Node.isHamlComment] at plain
  · intro tracker outline placed
    exact ⟨whole, read (placed.content (by simp))⟩

section

variable {after : Cursor} {n : Nat} (taken : Parsing.Taken line { s with cursor := after } t)
  (read : s.cursor.takeWithin? s.bodyBase? = some (line, after))
  (spaced : ∀ raw ∈ s.cursor.pending, raw.IsSpaced) (follows : s.cursor.Follows (.start source))
  (idle : s.collector = none) (lockstep : s.Lockstep) (arranged : s.Arranged source.widthAt)
include taken read spaced follows idle lockstep arranged

/-- The line behind that of a Haml comment is in its body, or the body is empty. -/
theorem Captures.taken_begun (outline : s.outline = o.push (.block n .hamlComment []))
    (whole : o.Whole source.commentBody) (outside : o.inHamlComment = false)
    (ahead : s.cursor.bodyAhead (source.widthAt n) = source.commentBody n) :
    Captures source t.cursor t.collector t.outline := by
  obtain ⟨base, width⟩ := bodyBase?_of_begun lockstep arranged idle outline outside
  have body := read
  rw [base] at body
  obtain ⟨atBlank, atDeeper, atEnd⟩ := Cursor.bodyAhead_of_takeWithin? spaced body
  refine .taken taken idle (lockstep.moved after) follows (fun blank => ?_) ?_ ?_
  · show Captures source after none s.outline
    rw [outline]
    exact .begun whole outside ((atBlank blank).symm.trans ahead)
  · intro tracker opened placed
    obtain ⟨content, ⟨inside, _⟩ | ⟨_, deeper, number, nested, elder, last, rfl⟩⟩ :=
      placed.verbatim_cases
    · have within := Tracker.inHamlComment_of_takesVerbatim inside lockstep.matched
      rw [outline, Outline.inHamlComment_push, outside] at within
      cases within
    · simp only [outline, Outline.siblings_push, List.cons.injEq, Node.block.injEq] at last
      obtain ⟨⟨rfl, _, rfl⟩, rfl⟩ := last
      simp only [outline, Outline.opened_push]
      have next := atDeeper content (by rw [← width]; exact deeper)
      exact .inside whole (Node.all_whole_leaf _ _) (next.symm.trans ahead)
  · intro tracker placedOutline placed
    obtain ⟨admits, shallow⟩ := placed.shallow
    have narrow : line.width ≤ source.widthAt n := by
      rw [← width]
      exact shallow (by simp [outline, Node.isHamlComment])
    have empty := (atEnd admits.content narrow).symm.trans ahead
    constructor
    · show s.outline.Whole source.commentBody
      rw [outline]
      exact whole.push outside (Node.all_block.mpr ⟨fun _ => empty, nofun⟩)
    · apply Cursor.takeLine?_of_takeWithin? read admits.content
      rw [base]
      rintro _ ⟨⟩
      exact narrow

/-- A line behind one in the body of a Haml comment is in the body as well, or ends it. -/
theorem Captures.taken_inside {roots nested : List Node} {outer : List OpenBlock}
    (outline : s.outline = ⟨roots, ⟨n, .hamlComment, nested⟩ :: outer⟩)
    (whole : Outline.Whole source.commentBody ⟨roots, outer⟩)
    (texts : Node.All (Node.Whole source.commentBody) nested)
    (ahead : nested.reverse ++ s.cursor.bodyAhead (source.widthAt n) = source.commentBody n) :
    Captures source t.cursor t.collector t.outline := by
  obtain ⟨base, verbatim⟩ := bodyBase?_of_inside lockstep arranged idle outline
  have body := read
  rw [base] at body
  obtain ⟨atBlank, atDeeper, atEnd⟩ := Cursor.bodyAhead_of_takeWithin? spaced body
  refine .taken taken idle (lockstep.moved after) follows (fun blank => ?_) ?_ ?_
  · show Captures source after none s.outline
    rw [outline]
    rw [atBlank blank] at ahead
    exact .inside whole texts ahead
  · intro tracker opened placed
    obtain ⟨content, ⟨inside, rfl⟩ | ⟨admits, deeper, _⟩⟩ := placed.verbatim_cases
    · have deeper : source.widthAt n < line.width := by
        simpa [Tracker.takesVerbatim, verbatim] using inside
      rw [atDeeper content deeper, ← List.singleton_append, ← List.append_assoc] at ahead
      simp only [outline]
      refine .inside whole ((Node.all_cons _ _).mpr ⟨Node.all_whole_leaf _ _, texts⟩) ?_
      rw [List.reverse_cons]
      exact ahead
    · have innermost := admits.innermostPlain lockstep.matched.ascending (Nat.le_of_lt deeper)
      have outside := innermost.outside lockstep.matched
      rw [outline] at outside
      cases outside
  · intro tracker placedOutline placed
    obtain ⟨admits, _⟩ := placed.shallow
    have narrow : line.width ≤ source.widthAt n := by
      simpa [Tracker.takesVerbatim, verbatim] using admits.notBody
    rw [atEnd admits.content narrow, List.append_nil] at ahead
    constructor
    · show s.outline.Whole source.commentBody
      rw [outline]
      exact ⟨whole.roots, List.forall_mem_cons.mpr ⟨⟨texts, fun _ => ahead⟩, whole.blocks⟩⟩
    · apply Cursor.takeLine?_of_takeWithin? read admits.content
      rw [base]
      rintro _ ⟨⟩
      exact narrow

end

/-- In every state of a parse Haml comments are whole, or what they lack is still to be read. -/
theorem captures_of_reached (reached : Reached registry source s)
    (spaced : ∀ raw ∈ source.physicalLines, raw.IsSpaced) :
    Captures source s.cursor s.collector s.outline := by
  induction reached with
  | start => exact .between ⟨nofun, nofun⟩ rfl fun _ => rfl
  | @next s t reached advanced ih =>
    obtain ⟨line, behind, taken, round⟩ := advance?_eq_ok_iff.mp advanced
    obtain ⟨read, moved⟩ := takeLine?_eq_some taken
    have lockstep := Lockstep.of_reached reached
    have arranged := Arranged.of_reached reached
    have follows := reached.follows
    have pending : ∀ raw ∈ s.cursor.pending, raw.IsSpaced :=
      fun raw member => spaced raw (follows.mem_physicalLines member)
    generalize behind.cursor = after at read moved
    subst moved
    cases round with
    | @collected block collecting =>
      have kept : s.collector = some block := collecting
      rw [kept] at ih
      exact .between ih.of_collecting.1 ih.of_collecting.2 nofun
    | @passed block collecting inside =>
      have kept : s.collector = some block := collecting
      have outside := lockstep.outside_of_collecting kept
      cases inside.symm.trans outside
    | @closed block _ _ collecting outside ends finished taken =>
      have kept : s.collector = some block := collecting
      rw [kept] at ih
      obtain ⟨output, _, rfl⟩ := FilterBlock.finish_eq_ok finished
      have pushed : (s.outline.push (.leaf block.line (.filter block.name output))).Whole
          source.commentBody := ih.of_collecting.1.push outside (Node.all_whole_leaf _ _)
      refine .taken_between taken rfl (.push after rfl lockstep.matched) follows pushed ?_ ?_ ?_
      · rw [Outline.inHamlComment_push]
        exact outside
      · rw [Outline.lastNode?_push]
        rfl
      · intro content
        apply Cursor.takeLine?_of_takeWithin? read content
        rw [bodyBase?_of_collecting kept]
        rintro _ ⟨⟩
        simp only [FilterBlock.endsAt, Bool.and_eq_true, decide_eq_true_eq] at ends
        exact ends.2
    | taken idle taken =>
      have none : s.collector = none := idle
      rw [none] at ih
      generalize outline : s.outline = o at ih
      cases ih with
      | between whole outside plain =>
        rw [← outline] at whole outside plain
        refine .taken_between taken idle (lockstep.moved after) follows whole outside (plain rfl) ?_
        intro _
        rw [bodyBase?_of_between lockstep none outside (plain rfl)] at read
        exact read
      | begun whole outside ahead =>
        exact .taken_begun taken read pending follows none lockstep arranged outline whole outside
          ahead
      | inside whole texts ahead =>
        exact .taken_inside taken read pending follows none lockstep arranged outline whole texts
          ahead

end ParseState

theorem Document.whole_of_parse {registry : Registry} {source : Text} {d : Document}
    (spaced : ∀ raw ∈ source.physicalLines, raw.IsSpaced)
    (h : Document.parse registry source = .ok d) :
    Node.All (Node.Whole source.commentBody) d.roots := by
  obtain ⟨last, reached, ended, concluded⟩ := Document.exists_last_of_parse h
  have lockstep := ParseState.Lockstep.of_reached reached
  have captures := ParseState.captures_of_reached reached spaced
  obtain ⟨o, finished, rfl⟩ := ParseState.conclude_eq_ok concluded
  have matched := lockstep.matched_of_finished finished
  have kept : o.Whole source.commentBody := by
    cases finished with
    | idle => exact captures.whole ended
    | output collecting finished =>
      obtain ⟨output, _, rfl⟩ := FilterBlock.finish_eq_ok finished
      have outside := lockstep.outside_of_collecting collecting
      exact (captures.whole ended).push outside (Node.all_whole_leaf _ _)
  exact Node.all_reverse.mpr (kept.closedTimes matched).roots

/-- The body of a Haml comment is captured exactly, if spaces, tabs and line terminators are the
only white space of the source. Its children are one plain text for each line of its body that has
something to be seen, in order: the physical line on that line, without the spaces and tabs it
begins with. Lines are neither joined nor trimmed. -/
theorem comment_of_parse {registry : Registry} {source : Text} {d : Document}
    (white : ∀ c ∈ source, isWhiteSpace c = true → c = ' ' ∨ c = '\t' ∨ c = '\n' ∨ c = '\r')
    (h : Document.parse registry source = .ok d) :
    ∀ node ∈ d.nodes, node.isHamlComment = true →
      node.children? = some (source.commentBody node.line) := by
  have whole := Document.whole_of_parse (fun _ => Text.isSpaced_of_mem_physicalLines white) h
  intro node member comment
  obtain own | ⟨outer, _, inline⟩ := Node.mem_nodes_iff.mp member
  · have nested := whole node own comment
    cases node with
    | leaf => cases comment
    | block line head inner =>
      obtain rfl : head = .hamlComment := by
        rw [Node.isHamlComment_block] at comment
        exact eq_of_beq comment
      exact congrArg some nested
  · obtain ⟨code, rfl⟩ | ⟨content, rfl⟩ := Node.eq_of_inline? inline
    · cases comment
    · cases comment

/-- The line of this comment is piped, and its body begins behind a blank line. A bar, white space
at the end of a line and a line that is less deep than the one before it are left as they are. -/
theorem comment_of_parse_piped :
    ∃ d, Document.parse .builtins
        "%p\n  -# a |\n     b |\n\n      x |\n    y  \n\n\t\t\tz\n  %q\n".toList = .ok d ∧
      .block 2 .hamlComment [.leaf 5 (.text "x |".toList), .leaf 6 (.text "y  ".toList),
        .leaf 8 (.text "z".toList)] ∈ d.nodes ∧
      Text.commentBody
          "%p\n  -# a |\n     b |\n\n      x |\n    y  \n\n\t\t\tz\n  %q\n".toList 2 =
        [.leaf 5 (.text "x |".toList), .leaf 6 (.text "y  ".toList),
          .leaf 8 (.text "z".toList)] := by
  have parsed : Document.parse .builtins
      "%p\n  -# a |\n     b |\n\n      x |\n    y  \n\n\t\t\tz\n  %q\n".toList = .ok ⟨9, [
        .block 1 (.element { tag := ['p'] }) [
          .block 2 .hamlComment [.leaf 5 (.text "x |".toList), .leaf 6 (.text "y  ".toList),
            .leaf 8 (.text "z".toList)],
          .block 9 (.element { tag := ['q'] }) []]]⟩ := by
    decide +kernel
  have white : ("%p\n  -# a |\n     b |\n\n      x |\n    y  \n\n\t\t\tz\n  %q\n".toList.all
      fun c => !isWhiteSpace c || c == ' ' || c == '\t' || c == '\n' || c == '\r') = true := by
    decide +kernel
  have captured := comment_of_parse
    (fun c inside => by
      simpa [or_assoc, or_iff_not_imp_left] using List.all_eq_true.mp white c inside)
    parsed _ (.tail _ (.head _)) rfl
  exact ⟨_, parsed, .tail _ (.head _), (Option.some.inj captured).symm⟩

end HamlTemplate
