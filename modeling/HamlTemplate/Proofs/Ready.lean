import HamlTemplate.Proofs.ReadBack

/-!
# Ready for a line

Before a line of some depth the parse may be anywhere below that depth: the line closes first what
is deeper, and the block that it closes last is told whether the line goes on with it. `Offers` says
what the line finds once that is done, `Ready` that a printed line of the depth may be read now, and
`After` that one has been read with all that is nested in it. The body of a Haml comment is read by
rules of its own.
-/

namespace HamlTemplate

open Tracker

/-- The levels that are open around a line of some depth, with `k` columns for each. -/
def Level.upTo (k : Nat) : Nat → List Level
  | 0 => []
  | depth + 1 => ⟨k * (depth + 1), false⟩ :: upTo k depth

namespace Level

@[simp] theorem innermostWidth_upTo (k depth : Nat) :
    innermostWidth (upTo k depth) = k * depth := by
  cases depth <;> rfl

@[simp] theorem length_upTo (k depth : Nat) : (upTo k depth).length = depth := by
  induction depth with
  | zero => rfl
  | succ depth ih => rw [upTo, List.length_cons, ih]

private theorem lt_deeper {k : Nat} (positive : 1 ≤ k) (depth : Nat) :
    k * depth < k * (depth + 1) :=
  Nat.mul_lt_mul_of_pos_left (Nat.lt_succ_self depth) positive

end Level

theorem Tracker.verbatimBase?_of_levels {t : Tracker} {k depth : Nat}
    (h : t.levels = Level.upTo k depth) : t.verbatimBase? = none := by
  rw [verbatimBase?, h]
  cases depth <;> rfl

namespace Outline

variable {o : Outline} {line : Line} {node : Node} {nodes : List Node}

def pushAll (o : Outline) (nodes : List Node) : Outline :=
  o.withSiblings (nodes.reverse ++ o.siblings)

/-- The outline after its innermost block has been closed with the given flag. -/
def closedAs (o : Outline) (midBlock : Bool) : Outline :=
  match o.openBlocks with
  | [] => o
  | block :: outer =>
    { o with openBlocks := outer }.push
      (.block block.line (block.head.withMidBlock midBlock) block.nested.reverse)

@[simp] theorem pushAll_push (o : Outline) (node : Node) (nodes : List Node) :
    (o.push node).pushAll nodes = o.pushAll (node :: nodes) := by
  simp [pushAll, push]

theorem closed_eq_closedAs (o : Outline) (following : Option Line) :
    o.closed following = o.closedAs (following.any fun line => line.text.continuesBlock) := rfl

/-- A block is closed with the flag only by a line at the level around it. -/
theorem closed_following (o : Outline) (line : Line) (outer : List Level) :
    o.closed (following line outer) =
      o.closedAs (decide (line.width = Level.innermostWidth outer) &&
        line.text.continuesBlock) := by
  rw [closed_eq_closedAs, following]
  by_cases same : Level.innermostWidth outer = line.width
  · simp [same]
  · simp [same, Ne.symm same]

/-- A block that has just been added is opened, filled and closed again. -/
theorem closedAs_pushAll_opened {number : Nat} {head : Head} {after : Outline}
    (h : after = o.push (.block number head [])) (nodes : List Node) :
    ((after.opened number head [] o.siblings).pushAll nodes).closedAs =
      fun midBlock => o.push (.block number (head.withMidBlock midBlock) nodes) := by
  subst h
  funext midBlock
  obtain ⟨roots, _ | ⟨block, outer⟩⟩ := o <;>
  simp [opened, pushAll, closedAs, push, siblings, withSiblings]

end Outline

/-- A line of the width of the innermost level closes nothing. -/
theorem Tracker.Closes.eq_of_width_eq {line : Line} {levels left : List Level} {o after : Outline}
    (h : Closes line levels o left after) (same : Level.innermostWidth levels = line.width) :
    left = levels ∧ after = o := by
  cases h with
  | done => exact ⟨rfl, rfl⟩
  | close wider => exact absurd same (Nat.ne_of_gt wider)

/-- What a line of some depth finds once it has closed what is deeper: the outline, in view of
whether the line goes on with the block before it. -/
inductive Offers (k : Nat) : Nat → (Bool → Outline) → List Level → Outline → Prop
  /-- Nothing deeper is open. -/
  | here {depth : Nat} {o : Outline} : Offers k depth (fun _ => o) (Level.upTo k depth) o
  /-- A Haml comment is open. -/
  | comment {depth : Nat} {o : Outline} :
      Offers k depth o.closedAs (⟨k * (depth + 1), true⟩ :: Level.upTo k depth) o
  /-- What a deeper line would find is closed as well, with no such line to follow it. -/
  | close {depth : Nat} {p : Bool → Outline} {levels : List Level} {o : Outline}
      (inner : Offers k (depth + 1) p levels o) : Offers k depth (p false).closedAs levels o

namespace Offers

variable {k depth : Nat} {p : Bool → Outline} {levels left : List Level} {o after : Outline}
  {line : Line}

theorem width_le (h : Offers k depth p levels o) : k * depth ≤ Level.innermostWidth levels := by
  induction h with
  | here => rw [Level.innermostWidth_upTo]
  | comment => exact Nat.mul_le_mul_left k (Nat.le_succ _)
  | close _ ih => exact Nat.le_trans (Nat.mul_le_mul_left k (Nat.le_succ _)) ih

/-- A verbatim body that is open is at least as deep as the line. -/
theorem le_verbatimBase (h : Offers k depth p levels o) (c? : Option Char) :
    ∀ base ∈ (Tracker.mk levels c?).verbatimBase?, k * depth ≤ base := by
  induction h with
  | here =>
    rw [Tracker.verbatimBase?_of_levels rfl]
    rintro base ⟨⟩
  | comment =>
    rintro base ⟨⟩
    rw [Level.innermostWidth_upTo]
  | close _ ih =>
    intro base member
    exact Nat.le_trans (Nat.mul_le_mul_left k (Nat.le_succ _)) (ih base member)

/-- A line that is no deeper closes everything below the depth first. -/
theorem closes (positive : 1 ≤ k) (h : Offers k depth p levels o) (shallow : line.width ≤ k * depth)
    (rest : Closes line (Level.upTo k depth)
      (p (decide (line.width = k * depth) && line.text.continuesBlock)) left after) :
    Closes line levels o left after := by
  induction h with
  | here => exact rest
  | @comment depth o =>
    apply Closes.close (Nat.lt_of_le_of_lt shallow (Level.lt_deeper positive depth))
    rwa [Outline.closed_following, Level.innermostWidth_upTo]
  | @close depth p levels o _ ih =>
    have wider := Nat.lt_of_le_of_lt shallow (Level.lt_deeper positive depth)
    apply ih (Nat.le_of_lt wider)
    rw [decide_eq_false (Nat.ne_of_lt wider), Bool.false_and]
    apply Closes.close wider
    rwa [Outline.closed_following, Level.innermostWidth_upTo]

/-- At the end of the source everything below the depth is closed first. -/
theorem closedTimes_eq (h : Offers k depth p levels o) :
    o.closedTimes levels.length = (p false).closedTimes depth := by
  induction h with
  | here => rw [Level.length_upTo]
  | comment =>
    rw [List.length_cons, Level.length_upTo, Outline.closedTimes]
    rfl
  | close _ ih =>
    rw [ih, Outline.closedTimes]
    rfl

/-- A line of the depth is placed next to what it is offered. -/
theorem placement {t : Tracker} (positive : 1 ≤ k) (h : Offers k depth p t.levels o)
    (admits : t.Admits line) (width : line.width = k * depth) :
    Placement line t o .structural { t.settle line with levels := Level.upTo k depth }
      (p line.text.continuesBlock) := by
  have closes : Closes line t.levels o (Level.upTo k depth) (p line.text.continuesBlock) := by
    refine h.closes positive (Nat.le_of_eq width) ?_
    rw [decide_eq_true width, Bool.true_and]
    exact .done (by rw [Level.innermostWidth_upTo, width])
  obtain same | shallower := Nat.eq_or_lt_of_le (width ▸ h.width_le)
  · obtain ⟨levels, outline⟩ := closes.eq_of_width_eq same.symm
    rw [levels, outline]
    exact .level admits same.symm
  · exact .shallower admits shallower closes

end Offers

/-! ### Reading a line -/

namespace Text

variable {text : Text}

/-- The indentation of a printed line is what it has been indented by. -/
private theorem indentation_indented (visible : ∀ c ∈ text.head?, isIndentChar c = false)
    (width : Nat) :
    (text.indented width).indentation = List.replicate width ' ' ∧
      (text.indented width).afterIndentation = text := by
  have spaces : ∀ c ∈ List.replicate width ' ', isIndentChar c = true := by
    intro c member
    rw [List.eq_of_mem_replicate member]
    rfl
  exact takeWhile_append spaces visible

def BeginsVisible (text : Text) : Prop :=
  ∃ c rest, text = c :: rest ∧ Unicode.isWhiteSpace c = false

theorem BeginsVisible.ne_nil (h : text.BeginsVisible) : text ≠ [] := by
  obtain ⟨c, rest, rfl, -⟩ := h
  exact List.cons_ne_nil c rest

theorem BeginsVisible.head? (h : text.BeginsVisible) :
    ∀ c ∈ text.head?, isIndentChar c = false := by
  obtain ⟨c, rest, rfl, visible⟩ := h
  rintro d ⟨⟩
  rw [Bool.eq_false_iff]
  intro indents
  rw [isWhiteSpace_of_isIndentChar indents] at visible
  cases visible

theorem BeginsVisible.trimEnd_ne_nil (h : text.BeginsVisible) : text.trimEnd ≠ [] := by
  obtain ⟨c, rest, rfl, visible⟩ := h
  rw [trimEnd_cons visible]
  exact List.cons_ne_nil _ _

end Text

theorem Leaf.beginsVisible_printed (l : Leaf) : l.printed.BeginsVisible := by
  cases l with
  | doctype content => exact ⟨'!', _, rfl, by decide⟩
  | text content => exact ⟨'\\', _, rfl, by decide⟩
  | filter name output => exact ⟨':', _, rfl, by decide⟩

theorem Head.beginsVisible_printed (head : Head) : head.printed.BeginsVisible := by
  cases head with
  | comment text => exact ⟨'/', _, rfl, by decide⟩
  | hamlComment => exact ⟨'-', _, rfl, by decide⟩
  | element e => exact ⟨'%', _, rfl, by decide⟩
  | script code flag => exact ⟨'=', _, rfl, by decide⟩
  | silentScript code flag => exact ⟨'-', _, rfl, by decide⟩

/-- A physical line that is indented with spaces and read by itself. -/
def Line.spaced (width : Nat) (text : Text) (number : Nat) : Line :=
  { indent := List.replicate width ' ', text, number }

@[simp] theorem Line.width_spaced (width : Nat) (text : Text) (number : Nat) :
    (spaced width text number).width = width :=
  List.length_replicate

/-- A line that is neither piped nor below the body that it may belong to is read by itself. -/
theorem Cursor.takeWithin?_of_unpiped {c : Cursor} {base? : Option Nat} {raw : Text}
    {rest : List Text} (pending : c.pending = raw :: rest)
    (unpiped : raw.lineContent.isPiped = false) (content : raw.afterIndentation ≠ [])
    (shallow : ∀ base ∈ base?, raw.indentation.length ≤ base) :
    c.takeWithin? base? =
      some (⟨raw.indentation, raw.lineContent, c.consumed + 1, 1⟩, c.skip 1) := by
  have single : c.takeLine? =
      some (⟨raw.indentation, raw.lineContent, c.consumed + 1, 1⟩, c.skip 1) := by
    simp [takeLine?, pending, pipedRun, unpiped]
  cases base? with
  | none => exact single
  | some base =>
    have outside : ¬(raw.afterIndentation = [] ∨ base < raw.indentation.length) := by
      rintro (empty | deep)
      · exact content empty
      · exact Nat.not_lt.mpr (shallow base rfl) deep
    simp only [takeWithin?, takeBodyLine?, pending, if_neg outside]
    exact single

/-- The parse may read a line of some depth now: no filter block takes it, no verbatim body does,
and it is placed at that depth. -/
structure Ready (k depth : Nat) (p : Bool → Outline) (s : ParseState) : Prop where
  idle : s.collector = none
  spaced : ∀ c ∈ s.tracker.indentChar?, c = ' '
  outside : ∀ base ∈ s.bodyBase?, k * depth ≤ base
  placed : ∀ line : Line, line.width = k * depth → s.tracker.Admits line →
    Placement line s.tracker s.outline .structural
      { s.tracker.settle line with levels := Level.upTo k depth } (p line.text.continuesBlock)

/-- A line of some depth has been read, and what is deeper may still be open. -/
structure After (k depth : Nat) (p : Bool → Outline) (s : ParseState) : Prop where
  idle : s.collector = none
  spaced : ∀ c ∈ s.tracker.indentChar?, c = ' '
  offers : Offers k depth p s.tracker.levels s.outline

/-- A document that is indented with spaces goes on that way. -/
theorem Tracker.spaced_settle {t : Tracker} (spaced : ∀ c ∈ t.indentChar?, c = ' ') (line : Line)
    {width : Nat} (indent : line.indent = List.replicate width ' ') :
    (∀ c ∈ (t.settle line).indentChar?, c = ' ') ∧ (t.settle line).mismatch? line = none := by
  refine uniform_settle spaced ?_
  rw [indent]
  exact fun c member => List.eq_of_mem_replicate member

namespace Ready

variable {registry : Registry} {k depth : Nat} {p : Bool → Outline} {s : ParseState} {line : Line}

theorem admits (h : Ready k depth p s) (indent : line.indent = List.replicate (k * depth) ' ')
    (content : line.text ≠ []) : s.tracker.Admits line where
  content := Line.isBlank_eq_false_iff.mpr content
  notBody := by
    rw [takesVerbatim, Bool.eq_false_iff]
    intro inside
    obtain ⟨base, verbatim, deep⟩ := (Option.any_eq_true _ _).mp inside
    have member : base ∈ s.bodyBase? := by
      simp [ParseState.bodyBase?, h.idle, Collector.baseWidth?, verbatim]
    have shallow := h.outside base member
    simp only [Line.width, indent, List.length_replicate, decide_eq_true_eq] at deep
    omega
  uniform := (spaced_settle h.spaced line indent).2

/-- A printed line of the depth is read by itself. -/
theorem takeLine? (h : Ready k depth p s) {text : Text} {rest : List Text}
    (visible : text.BeginsVisible) (unpiped : text.trimEnd.isPiped = false)
    (pending : s.cursor.pending = text.indented (k * depth) :: rest) :
    s.takeLine? = some (.spaced (k * depth) text.trimEnd (s.cursor.consumed + 1),
      { s with cursor := s.cursor.skip 1 }) := by
  obtain ⟨indentation, afterIndentation⟩ := Text.indentation_indented visible.head? (k * depth)
  have lineContent : (text.indented (k * depth)).lineContent = text.trimEnd := by
    rw [Text.lineContent, afterIndentation]
  have shallow : ∀ base ∈ s.bodyBase?, (text.indented (k * depth)).indentation.length ≤ base := by
    rw [indentation, List.length_replicate]
    exact h.outside
  rw [ParseState.takeLine?, Cursor.takeWithin?_of_unpiped pending (by rwa [lineContent])
    (by rw [afterIndentation]; exact visible.ne_nil) shallow, indentation, lineContent]
  rfl

/-- A printed line of the depth is read as the node it was printed from. -/
theorem advance (h : Ready k depth p s) {text : Text} {rest : List Text} {node : Node}
    {action : Reading Node} (visible : text.BeginsVisible) (unpiped : text.trimEnd.isPiped = false)
    (pending : s.cursor.pending = text.indented (k * depth) :: rest)
    (content : Reading.node? (s.cursor.consumed + 1) (Content.ofText text.trimEnd) = some action)
    (read : ∀ c, action c = .ok node c) :
    ∃ t, s.advance? registry = some (.ok () t) ∧ t.cursor = s.cursor.skip 1 ∧
      t.tracker.levels = Level.upTo k depth ∧
      t.outline = (p text.trimEnd.continuesBlock).push node ∧
      After k depth (fun _ => t.outline) t := by
  have admits : s.tracker.Admits (.spaced (k * depth) text.trimEnd (s.cursor.consumed + 1)) :=
    h.admits rfl visible.trimEnd_ne_nil
  have placed := h.placed _ (Line.width_spaced _ _ _) admits
  exact ⟨_, ParseState.advance?_eq_ok_iff.mpr
    ⟨_, _, h.takeLine? visible unpiped pending, .taken h.idle (.node placed content (read _))⟩,
    rfl, rfl, rfl, h.idle, (spaced_settle h.spaced _ rfl).1, .here⟩

end Ready

namespace After

variable {k depth : Nat} {p : Bool → Outline} {s : ParseState}

/-- After a line of some depth another one may be read. -/
theorem ready (positive : 1 ≤ k) (h : After k depth p s) : Ready k depth p s where
  idle := h.idle
  spaced := h.spaced
  outside := by
    intro base member
    have verbatim := h.offers.le_verbatimBase s.tracker.indentChar?
    rw [ParseState.bodyBase?, h.idle] at member
    cases body : s.tracker.verbatimBase? with
    | some width =>
      rw [body] at member
      cases member
      exact verbatim base body
    | none =>
      rw [body] at member
      simp only [Collector.baseWidth?, Option.map_none, Option.orElse_eq_orElse,
        Option.orElse_none] at member
      split at member
      · cases member
        exact h.offers.width_le
      · cases member
  placed line width admits := h.offers.placement positive admits width

end After

/-- Inside a block that has just been read, a line one level deeper may be read. -/
theorem ready_nested {k depth number : Nat} {s : ParseState} {head : Head} {elder : List Node}
    (positive : 1 ≤ k) (h : After k depth (fun _ => s.outline) s)
    (levels : s.tracker.levels = Level.upTo k depth)
    (last : s.outline.siblings = .block number head [] :: elder) (plain : head ≠ .hamlComment)
    (nestable : head.nestingFault? = none) :
    Ready k (depth + 1) (fun _ => s.outline.opened number head [] elder) s where
  idle := h.idle
  spaced := h.spaced
  outside := by
    intro base member
    have noBody := Tracker.verbatimBase?_of_levels levels
    simp [ParseState.bodyBase?, h.idle, Collector.baseWidth?, noBody, Outline.lastNode?, last,
      Node.isHamlComment, plain] at member
  placed line width admits := by
    have deeper : s.tracker.width < line.width := by
      rw [Tracker.width, levels, Level.innermostWidth_upTo, width]
      exact Level.lt_deeper positive depth
    have placed := Placement.deeper admits deeper last nestable
    have other : (head == .hamlComment) = false := by simpa using plain
    simp only [other, Bool.false_eq_true, if_false, entered, levels_settle, levels, width] at placed
    exact placed

/-! ### Reading the body of a Haml comment -/

/-- A line below the body's base is taken as it is. -/
theorem Cursor.takeWithin?_of_deeper {c : Cursor} {base width : Nat} {text : Text}
    {rest : List Text} (pending : c.pending = text.indented width :: rest)
    (visible : ∀ c ∈ text.head?, Text.isIndentChar c = false) (deeper : base < width) :
    c.takeWithin? (some base) = some (.spaced width text (c.consumed + 1), c.skip 1) := by
  obtain ⟨indentation, afterIndentation⟩ := Text.indentation_indented visible width
  have below : text = [] ∨ base < (List.replicate width ' ').length := by
    right
    rwa [List.length_replicate]
  simp only [takeWithin?, takeBodyLine?, pending, indentation, afterIndentation, if_pos below]
  rfl

/-- The parse may read a line of the body of a Haml comment now, which goes into an outline. -/
structure InComment (k depth : Nat) (o : Outline) (s : ParseState) : Prop where
  idle : s.collector = none
  base : s.bodyBase? = some (k * depth)
  placed : ∀ text number, text ≠ [] → ∃ t : Tracker,
    Placement (.spaced (k * (depth + 1)) text number) s.tracker s.outline .verbatim t o ∧
      t.levels = ⟨k * (depth + 1), true⟩ :: Level.upTo k depth ∧ ∀ c ∈ t.indentChar?, c = ' '

namespace InComment

variable {registry : Registry} {k depth number : Nat} {s : ParseState} {o : Outline}

/-- Below an open Haml comment further lines belong to its body. -/
theorem of_levels (positive : 1 ≤ k) (idle : s.collector = none)
    (levels : s.tracker.levels = ⟨k * (depth + 1), true⟩ :: Level.upTo k depth)
    (spaced : ∀ c ∈ s.tracker.indentChar?, c = ' ') : InComment k depth s.outline s := by
  have verbatim : s.tracker.verbatimBase? = some (k * depth) := by
    rw [verbatimBase?, levels]
    exact congrArg some (Level.innermostWidth_upTo k depth)
  refine ⟨idle, by simp [ParseState.bodyBase?, idle, Collector.baseWidth?, verbatim], ?_⟩
  intro text number content
  have inside : s.tracker.takesVerbatim (.spaced (k * (depth + 1)) text number) = true := by
    rw [takesVerbatim, verbatim, Option.any_some, Line.width_spaced, decide_eq_true_eq]
    exact Level.lt_deeper positive depth
  exact ⟨s.tracker, .body (Line.isBlank_eq_false_iff.mpr content) inside, levels, spaced⟩

/-- A Haml comment that has just been read is opened by the first line of its body. -/
theorem of_last (positive : 1 ≤ k) (h : After k depth (fun _ => s.outline) s)
    (levels : s.tracker.levels = Level.upTo k depth) {elder : List Node}
    (last : s.outline.siblings = .block number .hamlComment [] :: elder) :
    InComment k depth (s.outline.opened number .hamlComment [] elder) s := by
  have width : s.tracker.width = k * depth := by
    rw [Tracker.width, levels, Level.innermostWidth_upTo]
  have noBody := Tracker.verbatimBase?_of_levels levels
  refine ⟨h.idle, ?_, ?_⟩
  · simp [ParseState.bodyBase?, h.idle, Collector.baseWidth?, noBody, Outline.lastNode?, last,
      Node.isHamlComment, width]
  · intro text number content
    have settled := spaced_settle h.spaced (.spaced (k * (depth + 1)) text number) rfl
    have admits : s.tracker.Admits (.spaced (k * (depth + 1)) text number) := {
      content := Line.isBlank_eq_false_iff.mpr content
      notBody := by rw [takesVerbatim, noBody]; rfl
      uniform := settled.2 }
    have deeper : s.tracker.width < (Line.spaced (k * (depth + 1)) text number).width := by
      rw [width, Line.width_spaced]
      exact Level.lt_deeper positive depth
    refine ⟨_, .deeper admits deeper last rfl, ?_, settled.1⟩
    rw [levels_entered, levels_settle, levels, Line.width_spaced]
    rfl

/-- A line of the body is a plain text. -/
theorem advance (positive : 1 ≤ k) (h : InComment k depth o s) {text : Text} {rest : List Text}
    (content : text ≠ []) (visible : ∀ c ∈ text.head?, Text.isIndentChar c = false)
    (pending : s.cursor.pending = text.indented (k * (depth + 1)) :: rest) :
    ∃ t, s.advance? registry = some (.ok () t) ∧ t.cursor = s.cursor.skip 1 ∧
      t.outline = o.push (.leaf (s.cursor.consumed + 1) (.text text)) ∧
      InComment k depth t.outline t ∧ After k depth t.outline.closedAs t := by
  have taken : s.takeLine? = some (.spaced (k * (depth + 1)) text (s.cursor.consumed + 1),
      { s with cursor := s.cursor.skip 1 }) := by
    rw [ParseState.takeLine?, h.base,
      Cursor.takeWithin?_of_deeper pending visible (Level.lt_deeper positive depth)]
    rfl
  obtain ⟨tracker, placed, levels, spaced⟩ := h.placed text (s.cursor.consumed + 1) content
  refine ⟨_, ParseState.advance?_eq_ok_iff.mpr ⟨_, _, taken, .taken h.idle (.verbatim placed)⟩, rfl,
    rfl, of_levels positive h.idle levels spaced, h.idle, spaced, ?_⟩
  simp only [levels]
  exact .comment

end InComment

end HamlTemplate
