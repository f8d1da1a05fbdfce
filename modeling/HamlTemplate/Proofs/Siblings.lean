import HamlTemplate.Proofs.Beginnings
import HamlTemplate.Proofs.Nesting

/-!
# Siblings

The flag of a script is set when its block is closed, and the node that follows it comes only after
that. So an outline is described together with the line of the node that comes next, if it is known
already: `Settled` says that all flags are right in view of it. Which lines go on with a block is a
parameter here, given by their numbers.
-/

namespace HamlTemplate

def Head.midBlock? : Head → Option Bool
  | .script _ midBlock | .silentScript _ midBlock => some midBlock
  | .comment _ | .hamlComment | .element _ => none

theorem Head.midBlock?_withMidBlock (head : Head) (flag : Bool) :
    (head.withMidBlock flag).midBlock? = head.midBlock?.map fun _ => flag := by
  cases head <;> rfl

namespace Node

def midBlock? : Node → Option Bool
  | leaf .. => none
  | block _ head _ => head.midBlock?

variable (continues : Nat → Bool)

/-- The flag of a node, if it has one, says whether lines are nested in the node and the one that
follows it, on the given line, goes on with the block. -/
def Flagged (younger? : Option Nat) (node : Node) : Prop :=
  ∀ flag ∈ node.midBlock?, flag = (!node.nested.isEmpty && younger?.any continues)

/-- The nodes, last one first, are flagged right when a node on the given line follows them. -/
def Row : Option Nat → List Node → Prop
  | _, [] => True
  | younger?, node :: elder => node.Flagged continues younger? ∧ Row (some node.line) elder

/-- What may be nested in a node that begins with the given head, last one first, when a node on the
given line follows. -/
structure Holds (younger? : Option Nat) (head : Head) (nodes : List Node) : Prop where
  nestable : nodes ≠ [] → head.nestingFault? = none
  texts : head = .hamlComment → ∀ node ∈ nodes, node.kind = .text
  row : Row continues younger? nodes

/-- What is nested in a node may be, and nothing follows the last of it. -/
def Sound : Node → Prop
  | leaf .. => True
  | block _ head nested => Holds continues none head nested.reverse

variable {continues} {younger? : Option Nat} {head : Head} {nodes elder : List Node}

theorem holds_nil (younger? : Option Nat) (head : Head) : Holds continues younger? head [] :=
  ⟨fun some => absurd rfl some, nofun, trivial⟩

theorem sound_of_nested_eq_nil {node : Node} (empty : node.nested = []) :
    node.Sound continues := by
  cases node with
  | leaf line l => trivial
  | block line head nested =>
    rw [show nested = [] from empty]
    exact holds_nil none head

/-- A node that a line has just begun is flagged right, whatever follows it. -/
theorem Flagged.of_bare {node : Node} (bare : node.bare = node) (younger? : Option Nat) :
    node.Flagged continues younger? := by
  intro flag member
  cases node with
  | leaf line l => cases member
  | block line head nested =>
    obtain ⟨_, same, empty⟩ := Node.block.inj bare
    rw [midBlock?, ← same, Head.midBlock?_withMidBlock] at member
    obtain ⟨_, _, rfl⟩ := Option.map_eq_some_iff.mp member
    rw [← empty]
    rfl

/-- The flag of a node with nothing nested in it says nothing about the node that follows. -/
theorem Flagged.retarget {node : Node} (empty : node.nested = [])
    (h : node.Flagged continues younger?) (other? : Option Nat) :
    node.Flagged continues other? := by
  intro flag member
  simp [h flag member, empty]

theorem Row.retarget (empty : ∀ node ∈ nodes.head?, node.nested = [])
    (h : Row continues younger? nodes) (other? : Option Nat) : Row continues other? nodes := by
  cases nodes with
  | nil => trivial
  | cons node elder => exact ⟨h.1.retarget (empty node rfl) other?, h.2⟩

end Node

namespace Outline

variable (continues : Nat → Bool)

/-- What each open block holds may be nested in it, and the blocks follow each other as the last
nodes at their levels. Behind the innermost one a node on the given line is still to come. -/
def Rows (roots : List Node) : Option Nat → List OpenBlock → Prop
  | younger?, [] => Node.Row continues younger? roots
  | younger?, block :: outer =>
    Node.Holds continues younger? block.head block.nested ∧ Rows roots (some block.line) outer

/-- All that an outline holds is right when the next node is on the given line, or when there is no
next node. -/
structure Settled (younger? : Option Nat) (o : Outline) : Prop where
  all : o.All (Node.Sound continues)
  rows : Rows continues o.roots younger? o.openBlocks

def Admits (o : Outline) (node : Node) : Prop :=
  ∀ block ∈ o.openBlocks.head?,
    block.head.nestingFault? = none ∧ (block.head = .hamlComment → node.kind = .text)

variable {continues} {younger? : Option Nat} {o after : Outline} {node : Node} {line : Line}
  {levels left : List Level} {elder : List Node} {roots : List Node} {block : OpenBlock}
  {outer : List OpenBlock}

/-- Outside Haml comments any node may be added, and inside them plain texts may. -/
theorem admits_of_matched (matched : Matched levels o.heads)
    (h : o.inHamlComment = false ∨ node.kind = .text) : o.Admits node := by
  obtain ⟨roots, _ | ⟨block, outer⟩⟩ := o
  · nofun
  · rintro _ ⟨⟩
    refine ⟨matched.nestable block.head List.mem_cons_self, ?_⟩
    intro comment
    obtain outside | text := h
    · simp [inHamlComment, comment] at outside
    · exact text

/-- Around an open block any node may be added, because no Haml comment is there. -/
theorem admits_of_matched_tail (matched : Matched levels (heads ⟨roots, block :: outer⟩))
    (node : Node) : Admits ⟨roots, outer⟩ node := by
  cases levels with
  | nil => cases matched.verbatim
  | cons level levels =>
    have around : Matched levels (heads ⟨roots, outer⟩) := matched.tail
    exact admits_of_matched around (.inl matched.outside_around)

namespace Settled

/-- Nothing is said about the next node if nothing is nested in the last one. -/
theorem retarget (empty : ∀ node ∈ o.siblings.head?, node.nested = [])
    (h : o.Settled continues younger?) (other? : Option Nat) : o.Settled continues other? := by
  refine ⟨h.all, ?_⟩
  have rows := h.rows
  obtain ⟨roots, _ | ⟨block, outer⟩⟩ := o
  · exact rows.retarget empty other?
  · exact ⟨⟨rows.1.nestable, rows.1.texts, rows.1.row.retarget empty other?⟩, rows.2⟩

theorem push (h : o.Settled continues (some node.line)) (admits : o.Admits node)
    (sound : Node.All (Node.Sound continues) [node]) (flagged : node.Flagged continues younger?) :
    (o.push node).Settled continues younger? := by
  refine ⟨all_push.mpr ⟨h.all, sound⟩, ?_⟩
  have rows := h.rows
  obtain ⟨roots, _ | ⟨block, outer⟩⟩ := o
  · exact ⟨flagged, rows⟩
  · obtain ⟨nestable, text⟩ := admits block rfl
    refine ⟨⟨fun _ => nestable, ?_, flagged, rows.1.row⟩, rows.2⟩
    intro comment
    exact List.forall_mem_cons.mpr ⟨text comment, rows.1.texts comment⟩

/-- Without the last node an outline is as it was when that node was still to come. -/
theorem withSiblings (h : o.Settled continues younger?) (last : o.siblings = node :: elder) :
    (o.withSiblings elder).Settled continues (some node.line) := by
  have all := h.all
  rw [← push_withSiblings last, all_push] at all
  refine ⟨all.1, ?_⟩
  have rows := h.rows
  obtain ⟨roots, _ | ⟨block, outer⟩⟩ := o
  · cases last
    exact rows.2
  · obtain ⟨⟨nestable, texts, row⟩, outer⟩ := rows
    have nested : block.nested = node :: elder := last
    rw [nested] at nestable texts row
    refine ⟨⟨fun _ => nestable (List.cons_ne_nil _ _), ?_, row.2⟩, outer⟩
    intro comment
    exact (List.forall_mem_cons.mp (texts comment)).2

/-- The last node is opened for what comes next. -/
theorem opened {number : Nat} {head : Head} (h : o.Settled continues younger?)
    (last : o.siblings = .block number head [] :: elder) (other? : Option Nat) :
    (o.opened number head [] elder).Settled continues other? := by
  obtain ⟨⟨roots, blocks⟩, rows⟩ := h.withSiblings last
  refine ⟨⟨roots, List.forall_mem_cons.mpr ⟨⟨?_, nofun⟩, blocks⟩⟩, ?_, rows⟩
  · exact Node.sound_of_nested_eq_nil rfl
  · exact Node.holds_nil other? head

/-- The innermost block goes back to its place, flagged in view of the line that follows. -/
theorem closed (h : Settled continues none ⟨roots, block :: outer⟩) (following : Option Line)
    (agree : ∀ line ∈ following, continues line.number = line.text.continuesBlock)
    (filled : following.isSome → block.nested ≠ [])
    (admits : Admits ⟨roots, outer⟩ (closeBlock block following)) :
    (closed ⟨roots, block :: outer⟩ following).Settled continues (following.map Line.number) := by
  obtain ⟨⟨rootsSound, blocks⟩, holds, rows⟩ := h
  obtain ⟨⟨_, nested⟩, outerSound⟩ := List.forall_mem_cons.mp blocks
  refine push ⟨⟨rootsSound, outerSound⟩, rows⟩ admits ?_ ?_
  · rw [closeBlock, Node.all_block, Node.all_reverse]
    refine ⟨⟨?_, ?_, ?_⟩, nested⟩
    · intro some
      rw [Head.nestingFault?_withMidBlock]
      exact holds.nestable (by simpa using some)
    · intro comment node member
      rw [List.reverse_reverse] at member
      refine holds.texts ?_ node member
      refine Decidable.byContradiction fun other => ?_
      exact Head.withMidBlock_ne_hamlComment other _ comment
    · rw [List.reverse_reverse]
      exact holds.row
  · intro flag member
    rw [closeBlock, Node.midBlock?, Head.midBlock?_withMidBlock] at member
    obtain ⟨_, _, rfl⟩ := Option.map_eq_some_iff.mp member
    cases following with
    | none => simp
    | some line => simp [agree line rfl, closeBlock, Node.nested, filled rfl]

/-- A dedent closes blocks until the line that ends it follows the last one closed. -/
theorem closes (closes : Tracker.Closes line levels o left after)
    (matched : Matched levels o.heads) (agree : continues line.number = line.text.continuesBlock)
    (filled : o.siblings ≠ [])
    (h : o.Settled continues ((Tracker.following line levels).map Line.number)) :
    after.Settled continues (some line.number) := by
  induction closes with
  | done same =>
    rw [Tracker.following, if_pos same] at h
    exact h
  | @close level levels left o after wider rest ih =>
    rw [Tracker.following, if_neg (by rw [Level.innermostWidth_cons]; omega)] at h
    obtain ⟨roots, _ | ⟨block, outer⟩⟩ := o
    · cases matched.verbatim
    · refine ih (matched.closed _) ?_
        (h.closed _ ?_ (fun _ => filled) (admits_of_matched_tail matched _))
      · rw [Outline.closed, siblings_push]
        exact List.cons_ne_nil _ _
      · intro following member
        rw [Tracker.following] at member
        split at member
        · cases member
          exact agree
        · cases member

/-- At the end of the source the blocks are closed and nothing follows them. -/
theorem closedTimes (matched : Matched levels o.heads) (h : o.Settled continues none) :
    (o.closedTimes levels.length).Settled continues none := by
  have closed : ∀ {level : Level} {outer : List Level} {o : Outline},
      Matched (level :: outer) o.heads ∧ o.Settled continues none →
        Matched outer (o.closed none).heads ∧ (o.closed none).Settled continues none := by
    rintro level outer ⟨roots, _ | ⟨block, blocks⟩⟩ ⟨matched, settled⟩
    · cases matched.verbatim
    · exact ⟨matched.closed none,
        settled.closed none nofun nofun (admits_of_matched_tail matched _)⟩
  exact (Tracker.preserves_closedTimes
    (P := fun levels o => Matched levels o.heads ∧ o.Settled continues none) closed
    ⟨matched, h⟩).2

end Settled

end Outline

namespace Tracker

variable {continues : Nat → Bool} {line : Line} {t t' : Tracker} {o after : Outline}
  {role : LineRole}

/-- Once a line with content has been placed, the outline is right in view of it. -/
theorem Placement.settled (placed : Placement line t o role t' after) (content : role ≠ .blank)
    (matched : Matched t.levels o.heads) (filled : o.openBlocks ≠ [] → o.siblings ≠ [])
    (fresh : ∀ node ∈ o.siblings.head?, node.nested = [])
    (agree : t.Admits line → line.width < t.width →
      continues line.number = line.text.continuesBlock)
    (h : o.Settled continues none) : after.Settled continues (some line.number) := by
  cases placed with
  | blank => exact absurd rfl content
  | body | level => exact h.retarget fresh _
  | @deeper number head nested elder _ _ last =>
    have empty : nested = [] := fresh (.block number head nested) (by simp [last])
    subst empty
    exact h.opened last _
  | shallower admits shallower closes =>
    have opened : o.openBlocks ≠ [] := by
      intro idle
      have length := matched.length_eq
      rw [Outline.heads_eq_nil_iff.mpr idle, List.length_nil, List.length_eq_zero_iff] at length
      rw [width, length] at shallower
      exact absurd shallower (Nat.not_lt_zero _)
    apply Outline.Settled.closes closes matched (agree admits shallower) (filled opened)
    rwa [following, if_neg]
    exact Nat.ne_of_gt shallower

end Tracker

namespace Parsing

variable {continues : Nat → Bool} {registry : Registry} {line : Line} {s t : ParseState}

/-- Whether the line goes on with a block has to be known only if it is less deep than the innermost
level and no body takes it. -/
def Agrees (continues : Nat → Bool) (line : Line) (t : Tracker) : Prop :=
  t.Admits line → line.width < t.width → continues line.number = line.text.continuesBlock

theorem Taken.settled (taken : Taken line s t) (idle : s.collector = none) (lockstep : s.Lockstep)
    (agrees : Agrees continues line s.tracker) (h : s.outline.Settled continues none) :
    t.outline.Settled continues (t.collector.map FilterBlock.line) := by
  have matched := lockstep.matched
  have place : ∀ {role tracker outline}, role ≠ .blank →
      Tracker.Placement line s.tracker s.outline role tracker outline →
        outline.Settled continues (some line.number) ∧ Matched tracker.levels outline.heads :=
    fun content placed =>
      ⟨placed.settled content matched (lockstep.filled idle) (lockstep.fresh idle) agrees h,
        placed.matched matched⟩
  cases taken with
  | blank =>
    rw [idle]
    exact h
  | verbatim placed =>
    obtain ⟨settled, matched'⟩ := place (by simp) placed
    rw [idle]
    refine settled.push (Outline.admits_of_matched matched' (.inr rfl)) ?_ (.of_bare rfl _)
    exact Node.all_leaf.mpr trivial
  | node placed content read =>
    obtain ⟨settled, matched'⟩ := place (by simp) placed
    obtain ⟨number, empty, _⟩ := Reading.node?_spec content read
    have outside := (placed.structural matched).2.outside matched'
    rw [idle]
    rw [← number] at settled
    refine settled.push (Outline.admits_of_matched matched' (.inl outside)) ?_
      (.of_bare (Reading.begins_of_node? content read).bare_eq _)
    exact (Node.all_of_nested_eq_nil empty).mpr (Node.sound_of_nested_eq_nil empty)
  | filter placed _ started =>
    obtain ⟨settled, _⟩ := place (by simp) placed
    obtain ⟨_, number, _⟩ := FilterBlock.start_eq_ok started
    show Outline.Settled continues (some _) _
    rw [number]
    exact settled

/-- The node of a filter block that is over takes the place that was kept for it. -/
theorem settled_push_output {block : FilterBlock} {node : Node}
    (collecting : s.collector = some block) (finished : block.finish registry = .ok node)
    (lockstep : s.Lockstep)
    (h : s.outline.Settled continues (s.collector.map FilterBlock.line)) :
    (s.outline.push node).Settled continues none := by
  have outside := lockstep.outside_of_collecting collecting
  obtain ⟨output, _, rfl⟩ := FilterBlock.finish_eq_ok finished
  rw [collecting] at h
  refine Outline.Settled.push h (Outline.admits_of_matched lockstep.matched (.inl outside)) ?_
    (.of_bare rfl _)
  exact Node.all_leaf.mpr trivial

theorem Round.settled (round : Round registry line s t) (lockstep : s.Lockstep)
    (agrees : (∀ block, s.collector = some block → block.endsAt line = true) →
      Agrees continues line s.tracker)
    (h : s.outline.Settled continues (s.collector.map FilterBlock.line)) :
    t.outline.Settled continues (t.collector.map FilterBlock.line) := by
  cases round with
  | collected collecting =>
    rw [collecting] at h
    exact h
  | passed => exact h
  | closed collecting _ ends finished taken =>
    have pushed := settled_push_output collecting finished lockstep h
    obtain ⟨output, _, rfl⟩ := FilterBlock.finish_eq_ok finished
    refine taken.settled rfl (.push s.cursor rfl lockstep.matched) ?_ pushed
    apply agrees
    intro block collecting'
    cases collecting.symm.trans collecting'
    exact ends
  | taken idle taken =>
    rw [idle] at h
    refine taken.settled idle lockstep (agrees ?_) h
    intro block collecting
    cases idle.symm.trans collecting

end Parsing

/-- The line of a source with the given number goes on with a block when it is read as a logical
line. -/
def Text.continuesAt (source : Text) (n : Nat) : Bool :=
  ((Cursor.start source).skip (n - 1)).takeLine?.any fun (line, _) => line.text.continuesBlock

/-- A line that no body takes is read as a logical line. -/
theorem Cursor.takeLine?_of_takeWithin? {c after : Cursor} {base? : Option Nat} {line : Line}
    (taken : c.takeWithin? base? = some (line, after)) (content : line.isBlank = false)
    (shallow : ∀ base ∈ base?, line.width ≤ base) : c.takeLine? = some (line, after) := by
  cases base? with
  | none => exact taken
  | some base =>
    simp only [takeWithin?, takeBodyLine?] at taken
    split at taken
    · cases taken
    · split at taken
      · rename_i inside
        cases taken
        obtain blank | deeper := inside
        · simp [Line.isBlank, blank] at content
        · exact absurd (shallow base rfl) (Nat.not_le.mpr deeper)
      · exact taken

namespace ParseState

variable {registry : Registry} {source : Text} {continues : Nat → Bool} {line : Line}
  {s t behind : ParseState}

/-- A line that no body takes is at most as deep as the base of the body. -/
theorem width_le_of_mem_bodyBase? {base : Nat} (member : base ∈ s.bodyBase?)
    (ends : ∀ block, s.collector = some block → block.endsAt line = true)
    (notBody : s.tracker.takesVerbatim line = false)
    (shallow : s.outline.lastNode?.any Node.isHamlComment = true → line.width ≤ s.tracker.width) :
    line.width ≤ base := by
  simp only [bodyBase?, Option.orElse_eq_orElse, Option.orElse_eq_or, Option.mem_def,
    Option.or_eq_some_iff] at member
  obtain collecting | ⟨_, verbatim | ⟨_, comment⟩⟩ := member
  · obtain ⟨block, held, rfl⟩ := Option.map_eq_some_iff.mp collecting
    have ended := ends block held
    simp only [FilterBlock.endsAt, Bool.and_eq_true, decide_eq_true_eq] at ended
    exact ended.2
  · simpa [Tracker.takesVerbatim, verbatim] using notBody
  · split at comment
    · rename_i last
      cases comment
      exact shallow last
    · cases comment

/-- A line that closes a level is read as a logical line, from the place where it stands in the
source and without regard to the state it is read in. -/
theorem takeLine?_of_shallower (reached : Reached registry source s)
    (taken : s.takeLine? = some (line, behind))
    (ends : ∀ block, s.collector = some block → block.endsAt line = true)
    (admits : s.tracker.Admits line) (shallower : line.width < s.tracker.width) :
    ((Cursor.start source).skip (line.number - 1)).takeLine? = some (line, behind.cursor) := by
  have read : s.cursor.takeLine? = some (line, behind.cursor) := by
    refine Cursor.takeLine?_of_takeWithin? (takeLine?_eq_some taken).1 admits.content ?_
    intro base member
    exact width_le_of_mem_bodyBase? member ends admits.notBody fun _ => Nat.le_of_lt shallower
  rw [reached.follows.start_skip read, read]

/-- Whether a line that closes a level goes on with a block can be seen where the line stands in the
source. -/
theorem agrees_of_takeLine? (reached : Reached registry source s)
    (taken : s.takeLine? = some (line, behind))
    (ends : ∀ block, s.collector = some block → block.endsAt line = true) :
    Parsing.Agrees source.continuesAt line s.tracker := by
  intro admits shallower
  simp [Text.continuesAt, takeLine?_of_shallower reached taken ends admits shallower]

/-- Of each line that is taken in and closes a level, its number tells whether it goes on with a
block. -/
def Foresees (registry : Registry) (source : Text) (continues : Nat → Bool) : Prop :=
  ∀ s t line behind, Reached registry source s → s.takeLine? = some (line, behind) →
    s.advance? registry = some (.ok () t) →
    (∀ block, s.collector = some block → block.endsAt line = true) →
      Parsing.Agrees continues line s.tracker

theorem foresees_continuesAt : Foresees registry source source.continuesAt :=
  fun _ _ _ _ reached taken _ ends => agrees_of_takeLine? reached taken ends

/-- In every state of a parse the flags of the outline are right in view of the filter block that is
being collected. -/
theorem Foresees.settled_of_reached (foresees : Foresees registry source continues)
    (reached : Reached registry source s) :
    s.outline.Settled continues (s.collector.map FilterBlock.line) := by
  induction reached with
  | start => exact ⟨⟨nofun, nofun⟩, trivial⟩
  | @next s t reached advanced ih =>
    obtain ⟨line, behind, taken, round⟩ := advance?_eq_ok_iff.mp advanced
    obtain ⟨_, moved⟩ := takeLine?_eq_some taken
    have lockstep := (Lockstep.of_reached reached).takeLine? taken
    have kept : behind.outline.Settled continues (behind.collector.map FilterBlock.line) := by
      rw [moved]
      exact ih
    refine round.settled lockstep ?_ kept
    have agrees := foresees s t line behind reached taken advanced
    rw [moved]
    exact agrees

/-- The flags of a document are right, and so is what is nested in its nodes. -/
theorem Foresees.settled_of_parse (foresees : Foresees registry source continues) {d : Document}
    (h : Document.parse registry source = .ok d) :
    Node.All (Node.Sound continues) d.roots ∧ Node.Row continues none d.roots.reverse := by
  obtain ⟨last, reached, _, concluded⟩ := Document.exists_last_of_parse h
  have lockstep := Lockstep.of_reached reached
  have settled := foresees.settled_of_reached reached
  obtain ⟨o, finished, rfl⟩ := conclude_eq_ok concluded
  have matched := lockstep.matched_of_finished finished
  have kept : o.Settled continues none := by
    cases finished with
    | idle idle => rwa [idle] at settled
    | output collecting finished =>
      exact Parsing.settled_push_output collecting finished lockstep settled
  have closed := kept.closedTimes matched
  have none := Outline.heads_eq_nil_iff.mp matched.heads_closedTimes
  refine ⟨Node.all_reverse.mpr closed.all.1, ?_⟩
  have rows := closed.rows
  rw [none] at rows
  rw [Outline.finished, List.reverse_reverse]
  exact rows

end ParseState

/-! ### Lists of siblings -/

/-- The lists of nodes that are siblings: the roots, and the children of each node that can have
some. -/
def Document.siblingLists (d : Document) : List (List Node) :=
  d.roots :: d.nodes.filterMap Node.children?

/-- Nothing can be nested in an element with content on its own line. -/
theorem Head.nestingFault?_of_inline? {head : Head} {line : Nat} {child : Node}
    (h : head.inline? line = some child) : head.nestingFault? ≠ none := by
  cases head with
  | element e => cases tail : e.tail <;> simp_all [inline?, nestingFault?, ElementTail.node?]
  | comment | hamlComment | script | silentScript => cases h

namespace Node

variable {continues : Nat → Bool} {younger? : Option Nat} {node : Node}

theorem Row.flagged_append {later elder : List Node}
    (h : Row continues younger? (later ++ node :: elder)) :
    node.Flagged continues ((later.getLast?.map line).or younger?) := by
  induction later generalizing younger? with
  | nil => exact h.1
  | cons first later ih =>
    have flagged := ih h.2
    cases last : later.getLast? with
    | none =>
      rw [List.getLast?_eq_none_iff.mp last] at flagged ⊢
      exact flagged
    | some behind =>
      rw [last] at flagged
      rw [List.getLast?_cons, last]
      exact flagged

/-- A flag that is right is set exactly if the script has children and the node that follows goes on
with its block. -/
theorem Flagged.eq_true_iff {flag : Bool} (h : node.Flagged continues younger?)
    (script : node.midBlock? = some flag) :
    flag = true ↔ (∃ child children, node.children? = some (child :: children)) ∧
      younger?.any continues = true := by
  have children : node.children? = some node.nested := by
    cases node with
    | leaf line l => cases script
    | block line head nested =>
      cases head with
      | script | silentScript => rfl
      | comment | hamlComment | element => cases script
  rw [h flag script, Bool.and_eq_true, children]
  refine and_congr_left fun _ => ?_
  cases node.nested with
  | nil => simp
  | cons child rest => simp

/-- In a row of siblings every node is flagged right in view of the one that follows it. -/
theorem Row.flagged {siblings elder younger : List Node} (h : Row continues none siblings.reverse)
    (split : siblings = elder ++ node :: younger) :
    node.Flagged continues (younger.head?.map line) := by
  rw [split, List.reverse_append, List.reverse_cons, List.append_assoc] at h
  have flagged := h.flagged_append
  rwa [List.getLast?_reverse, Option.or_none] at flagged

theorem Sound.nested_eq_nil {line : Nat} {head : Head} {nested : List Node}
    (sound : (block line head nested).Sound continues) (fault : head.nestingFault? ≠ none) :
    nested = [] := by
  refine Decidable.byContradiction fun filled => fault (sound.nestable ?_)
  simpa using filled

theorem Sound.row {children : List Node} (sound : node.Sound continues)
    (h : node.children? = some children) : Row continues none children.reverse := by
  cases node with
  | leaf line l => cases h
  | block line head nested =>
    cases h
    cases inline : head.inline? line with
    | none => exact sound.row
    | some child =>
      rw [sound.nested_eq_nil (Head.nestingFault?_of_inline? inline)]
      have own : (block line head nested).inline? = some child := inline
      exact ⟨.of_bare (bare_of_inline? own) none, trivial⟩

theorem mem_children? {node child : Node} {children : List Node}
    (h : node.children? = some children) (member : child ∈ children) :
    node.inline? = some child ∨ child ∈ node.nested := by
  cases node with
  | leaf line l => cases h
  | block line head nested =>
    cases h
    rwa [List.mem_append, Option.mem_toList] at member

end Node

namespace Document

variable {registry : Registry} {source : Text} {continues : Nat → Bool} {d : Document} {node : Node}

/-- What is nested in the nodes of a document may be nested in them. -/
theorem sound_of_foresees (foresees : ParseState.Foresees registry source continues)
    (h : parse registry source = .ok d) (member : node ∈ d.nodes) : node.Sound continues := by
  have all := (foresees.settled_of_parse h).1
  obtain own | ⟨outer, within, inline⟩ := Node.mem_nodes_iff.mp member
  · exact all node own
  · exact Node.sound_of_nested_eq_nil (Node.nested_of_inline? inline)

theorem sound_of_mem_nodes (h : parse registry source = .ok d) (member : node ∈ d.nodes) :
    node.Sound source.continuesAt :=
  sound_of_foresees ParseState.foresees_continuesAt h member

/-- Every node of a document has a place among its siblings. -/
theorem exists_siblings (member : node ∈ d.nodes) :
    ∃ siblings ∈ d.siblingLists, node ∈ siblings := by
  have child : ∀ outer ∈ Node.preorderAll d.roots,
      node ∈ outer.nested ∨ outer.inline? = some node →
        ∃ siblings ∈ d.siblingLists, node ∈ siblings := by
    intro outer within below
    cases outer with
    | leaf line l => simp [Node.nested, Node.inline?] at below
    | block line head nested =>
      have own : .block line head nested ∈ d.nodes := Node.mem_nodes_iff.mpr (.inl within)
      refine ⟨_, .tail _ (List.mem_filterMap.mpr ⟨_, own, rfl⟩), ?_⟩
      rw [List.mem_append, Option.mem_toList, or_comm]
      exact below
  obtain own | ⟨outer, within, inline⟩ := Node.mem_nodes_iff.mp member
  · obtain root | ⟨outer, within, nested⟩ := Node.walk_preorder.mem_or_exists_above own
    · exact ⟨d.roots, List.mem_cons_self, root⟩
    · exact child outer within (.inl nested)
  · exact child outer within (.inr inline)

/-- There are no other nodes in the lists of siblings. -/
theorem mem_nodes_of_mem_siblings {siblings : List Node} (member : siblings ∈ d.siblingLists)
    (inside : node ∈ siblings) : node ∈ d.nodes := by
  obtain rfl | below := List.mem_cons.mp member
  · exact Node.mem_nodes_iff.mpr (.inl (Node.walk_preorder.subset inside))
  · obtain ⟨parent, within, children⟩ := List.mem_filterMap.mp below
    obtain own | ⟨outer, _, inline⟩ := Node.mem_nodes_iff.mp within
    · obtain inline | nested := Node.mem_children? children inside
      · exact Node.mem_nodes_iff.mpr (.inr ⟨parent, own, inline⟩)
      · have stretch := (Node.walk_preorder.isInfix own).subset
        have later : node ∈ Node.preorderAll parent.nested := Node.walk_preorder.subset nested
        exact Node.mem_nodes_iff.mpr (.inl (stretch (List.mem_cons_of_mem _ later)))
    · obtain ⟨code, rfl⟩ | ⟨content, rfl⟩ := Node.eq_of_inline? inline
      · cases children
        cases inside
      · cases children

/-- The nodes of each list of siblings are flagged right. -/
theorem row_of_foresees (foresees : ParseState.Foresees registry source continues)
    (h : parse registry source = .ok d) {siblings : List Node}
    (member : siblings ∈ d.siblingLists) :
    Node.Row continues none siblings.reverse := by
  obtain rfl | below := List.mem_cons.mp member
  · exact (foresees.settled_of_parse h).2
  · obtain ⟨parent, within, children⟩ := List.mem_filterMap.mp below
    exact (sound_of_foresees foresees h within).row children

theorem row_of_mem_siblingLists (h : parse registry source = .ok d) {siblings : List Node}
    (member : siblings ∈ d.siblingLists) : Node.Row source.continuesAt none siblings.reverse :=
  row_of_foresees ParseState.foresees_continuesAt h member

end Document

end HamlTemplate
