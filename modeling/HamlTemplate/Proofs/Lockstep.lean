import HamlTemplate.Proofs.Round

/-!
# The levels and the open blocks go in lockstep

The tracker keeps levels, the outline keeps open blocks, and a filter block may be collected beside
both. Three parts that change by rules of their own stay matched in every state a parse reaches:
there is a level for each open block, a level is verbatim exactly if its block is a Haml comment,
and a filter block goes on at the innermost level, which is not verbatim.
-/

namespace HamlTemplate

namespace Level

def Ascending : List Level → Prop
  | [] => True
  | level :: outer => innermostWidth outer < level.width ∧ Ascending outer

/-- Only the innermost level may be verbatim. -/
def OuterPlain (levels : List Level) : Prop := ∀ level ∈ levels.tail, level.verbatim = false

theorem OuterPlain.tail {level : Level} {outer : List Level} (h : OuterPlain (level :: outer)) :
    OuterPlain outer := fun l member => h l (List.mem_of_mem_tail member)

end Level

/-- The levels and the heads of the open blocks belong together. -/
structure Matched (levels : List Level) (heads : List Head) : Prop where
  verbatim : levels.map Level.verbatim = heads.map (· == .hamlComment)
  ascending : Level.Ascending levels
  outerPlain : Level.OuterPlain levels
  nestable : ∀ head ∈ heads, head.nestingFault? = none

namespace Matched

variable {levels left : List Level} {heads : List Head} {line : Line} {o after : Outline}

theorem nil : Matched [] [] where
  verbatim := rfl
  ascending := trivial
  outerPlain := by intro level member; cases member
  nestable := by intro head member; cases member

theorem length_eq (h : Matched levels heads) : levels.length = heads.length := by
  simpa using congrArg List.length h.verbatim

theorem tail {level : Level} (h : Matched (level :: levels) heads) :
    Matched levels heads.tail where
  verbatim := by
    obtain - | ⟨head, heads⟩ := heads
    · cases h.verbatim
    · exact (List.cons.inj h.verbatim).2
  ascending := h.ascending.2
  outerPlain := h.outerPlain.tail
  nestable head member := h.nestable head (List.mem_of_mem_tail member)

/-- The innermost open block is a Haml comment exactly if the innermost level is verbatim. -/
theorem inHamlComment_eq (h : Matched levels o.heads) :
    o.inHamlComment = levels.head?.any Level.verbatim := by
  have same := congrArg (fun flags => flags.head?.any id) h.verbatim
  simp only [List.head?_map, Option.any_map] at same
  rw [Outline.inHamlComment_eq]
  exact same.symm

/-- No Haml comment is around an open block. -/
theorem outside_around {roots : List Node} {block : OpenBlock} {outer : List OpenBlock}
    (h : Matched levels (Outline.heads ⟨roots, block :: outer⟩)) :
    Outline.inHamlComment ⟨roots, outer⟩ = false := by
  cases levels with
  | nil => cases h.verbatim
  | cons level levels =>
    have around : Matched levels (Outline.heads ⟨roots, outer⟩) := h.tail
    rw [around.inHamlComment_eq]
    cases innermost : levels.head? with
    | none => rfl
    | some level => exact h.outerPlain level (List.mem_of_mem_head? innermost)

/-- Closing a level keeps levels and blocks together. What is left was an outer level before, so it
is not verbatim. -/
theorem closed {level : Level} (following : Option Line) (h : Matched (level :: levels) o.heads) :
    Matched levels (o.closed following).heads := by
  rw [Outline.heads_closed]
  exact h.tail

theorem closes (closes : Tracker.Closes line levels o left after)
    (h : Matched levels o.heads) : Matched left after.heads :=
  closes.preserves (P := fun levels o => Matched levels o.heads) closed h

/-- Once all levels are closed, no block is open. -/
theorem heads_closedTimes (h : Matched levels o.heads) :
    (o.closedTimes levels.length).heads = [] := by
  have none : Matched [] (o.closedTimes levels.length).heads :=
    Tracker.preserves_closedTimes (P := fun levels o => Matched levels o.heads) (closed none) h
  exact List.length_eq_zero_iff.mp none.length_eq.symm

end Matched

/-- The second outline comes of the first by closing blocks and by opening last nodes that are not
in a Haml comment. Nodes are moved, and none is added. -/
inductive Outline.Moves : Outline → Outline → Prop
  | refl (o : Outline) : Moves o o
  | closed {o after : Outline} (following : Option Line)
      (rest : Moves (o.closed following) after) : Moves o after
  | opened {o after : Outline} {number : Nat} {head : Head} {nested elder : List Node}
      (outside : o.inHamlComment = false) (last : o.siblings = .block number head nested :: elder)
      (rest : Moves (o.opened number head nested elder) after) : Moves o after

theorem Outline.moves_closedTimes (n : Nat) (o : Outline) : o.Moves (o.closedTimes n) := by
  induction n generalizing o with
  | zero => exact .refl o
  | succ n ih => exact .closed none (ih _)

namespace Tracker

variable {line : Line} {t t' : Tracker} {o after : Outline} {role : LineRole}

theorem Closes.moves {levels left : List Level} (h : Closes line levels o left after) :
    o.Moves after := by
  induction h with
  | done => exact .refl _
  | close _ _ ih => exact .closed _ ih

def InnermostPlain (t : Tracker) : Prop := ∀ level ∈ t.levels.head?, level.verbatim = false

theorem InnermostPlain.outside (plain : t.InnermostPlain) (h : Matched t.levels o.heads) :
    o.inHamlComment = false := by
  rw [h.inHamlComment_eq]
  cases innermost : t.levels.head? with
  | none => rfl
  | some level => exact plain level innermost

theorem Closes.width_eq {levels left : List Level} (h : Closes line levels o left after) :
    Level.innermostWidth left = line.width := by
  induction h with
  | done same => exact same
  | close _ _ ih => exact ih

theorem Closes.suffix {levels left : List Level} (h : Closes line levels o left after) :
    left <:+ levels := by
  induction h with
  | done => exact List.suffix_rfl
  | close _ _ ih => exact ih.trans (List.suffix_cons _ _)

/-- A dedent leaves outer levels only, and those are not verbatim. -/
theorem Closes.innermostPlain {levels left : List Level} (h : Closes line levels o left after)
    (wider : line.width < Level.innermostWidth levels) (plain : Level.OuterPlain levels) :
    ∀ level ∈ left.head?, level.verbatim = false := by
  cases h with
  | done same => omega
  | close _ rest =>
    intro level member
    exact plain level (rest.suffix.subset (List.mem_of_mem_head? member))

/-- A line that is admitted at the width of the innermost level or beyond finds that level not
verbatim, because it would belong to the body otherwise. -/
theorem Admits.innermostPlain (admits : t.Admits line) (ascending : Level.Ascending t.levels)
    (deep : t.width ≤ line.width) : t.InnermostPlain := by
  have notBody := admits.notBody
  obtain ⟨_ | ⟨level, outer⟩, c?⟩ := t
  · intro level member
    cases member
  · rintro _ ⟨⟩
    cases verbatim : level.verbatim with
    | false => rfl
    | true =>
      have inner := ascending.1
      simp only [width, Level.innermostWidth_cons] at deep
      simp only [takesVerbatim, verbatimBase?, verbatim, if_true, Option.any_some,
        decide_eq_false_iff_not] at notBody
      omega

/-- Placing a line only moves nodes. -/
theorem Placement.moves (placed : Placement line t o role t' after)
    (h : Matched t.levels o.heads) : o.Moves after := by
  cases placed with
  | blank | body | level => exact .refl o
  | deeper admits deeper last =>
    have plain := admits.innermostPlain h.ascending (Nat.le_of_lt deeper)
    exact .opened (plain.outside h) last (.refl _)
  | shallower _ _ closes => exact closes.moves

/-- Placing a line keeps levels and blocks together. -/
theorem Placement.matched (placed : Placement line t o role t' after)
    (h : Matched t.levels o.heads) : Matched t'.levels after.heads := by
  cases placed with
  | blank | body | level => exact h
  | deeper admits deeper last nestable =>
    have plain := admits.innermostPlain h.ascending (Nat.le_of_lt deeper)
    rw [Outline.heads_opened]
    exact {
      verbatim := congrArg (_ :: ·) h.verbatim
      ascending := ⟨deeper, h.ascending⟩
      outerPlain := by
        intro level member
        simp only [levels_entered, levels_settle, List.tail_cons] at member
        cases levels : t.levels with
        | nil => simp [levels] at member
        | cons first outer =>
          rw [levels, List.mem_cons] at member
          obtain rfl | outside := member
          · exact plain level (by simp [levels])
          · exact h.outerPlain level (by rwa [levels])
      nestable := by
        intro head member
        obtain rfl | outer := List.mem_cons.mp member
        · exact nestable
        · exact h.nestable head outer }
  | shallower _ _ closes => exact h.closes closes

/-- After a line of content the innermost level has its width and is not verbatim. -/
theorem Placement.structural (placed : Placement line t o .structural t' after)
    (h : Matched t.levels o.heads) : t'.width = line.width ∧ t'.InnermostPlain := by
  generalize role : LineRole.structural = role at placed
  cases placed with
  | blank | body => cases role
  | deeper =>
    split at role
    · cases role
    · rename_i plain
      refine ⟨rfl, ?_⟩
      rintro _ ⟨⟩
      exact Bool.eq_false_iff.mpr plain
  | level admits same =>
    exact ⟨same, admits.innermostPlain h.ascending (Nat.le_of_eq same)⟩
  | shallower _ shallower closes =>
    exact ⟨closes.width_eq, closes.innermostPlain shallower h.outerPlain⟩

end Tracker

namespace FilterBlock

theorem start_eq_ok {text : Text} {width line : Nat} {block : FilterBlock}
    (h : start text width line = .ok block) :
    block.baseWidth = width ∧ block.line = line ∧ block.body = [] := by
  rw [start] at h
  split at h
  · cases h
    exact ⟨rfl, rfl, rfl⟩
  · cases h

theorem finish_eq_ok {block : FilterBlock} {registry : Registry} {node : Node}
    (h : block.finish registry = .ok node) :
    ∃ output, registry.compile? block.name block.bodyText = some output ∧
      node = .leaf block.line (.filter block.name output) := by
  rw [finish] at h
  split at h
  · rename_i output compiled
    cases h
    exact ⟨output, compiled, rfl⟩
  · cases h

end FilterBlock

/-- What is true of the tracker, the outline and the collector together between two lines. -/
structure ParseState.Lockstep (s : ParseState) : Prop where
  matched : Matched s.tracker.levels s.outline.heads
  /-- A block is only opened for a line that then adds something to it. -/
  filled : s.collector = none → s.outline.openBlocks ≠ [] → s.outline.siblings ≠ []
  /-- The node that a deeper line would open has nothing nested in it yet. -/
  fresh : s.collector = none → ∀ node ∈ s.outline.siblings.head?, node.nested = []
  collecting : ∀ block, s.collector = some block →
    block.baseWidth = s.tracker.width ∧ s.tracker.InnermostPlain

namespace ParseState.Lockstep

variable {registry : Registry} {source : Text} {line : Line} {s t : ParseState}

theorem start (source : Text) : (ParseState.start source).Lockstep where
  matched := .nil
  filled _ opened := absurd rfl opened
  fresh _ node member := by cases member
  collecting block collecting := by cases collecting

/-- Adding a node behind a placed line, with no filter block collected, is in lockstep again. -/
theorem push {tracker : Tracker} {outline : Outline} {node : Node} (cursor : Cursor)
    (empty : node.nested = []) (h : Matched tracker.levels outline.heads) :
    Lockstep ⟨cursor, tracker, outline.push node, none⟩ where
  matched := by
    rw [Outline.heads_push]
    exact h
  filled _ _ := by simp
  fresh _ := by
    intro last member
    rw [Outline.siblings_push] at member
    cases member
    exact empty
  collecting block collecting := by cases collecting

theorem taken (taken : Parsing.Taken line s t) (idle : s.collector = none) (h : s.Lockstep) :
    t.Lockstep := by
  have matched := h.matched
  cases taken with
  | blank => exact h
  | verbatim placed =>
    rw [idle]
    exact push s.cursor rfl (placed.matched matched)
  | node placed content read =>
    rw [idle]
    obtain ⟨_, empty, _⟩ := Reading.node?_spec content read
    exact push _ empty (placed.matched matched)
  | filter placed _ started =>
    obtain ⟨width, plain⟩ := placed.structural matched
    obtain ⟨base, _, _⟩ := FilterBlock.start_eq_ok started
    refine ⟨placed.matched matched, ?_, ?_, ?_⟩
    · intro collecting
      cases collecting
    · intro collecting
      cases collecting
    · rintro _ ⟨⟩
      exact ⟨base.trans width.symm, plain⟩

theorem round (round : Parsing.Round registry line s t) (h : s.Lockstep) : t.Lockstep := by
  cases round with
  | collected collecting =>
    refine ⟨h.matched, ?_, ?_, ?_⟩
    · intro idle
      cases idle
    · intro idle
      cases idle
    · rintro _ ⟨⟩
      have kept := h.collecting _ collecting
      exact kept
  | passed => exact h
  | closed _ _ _ finished taken =>
    obtain ⟨output, _, rfl⟩ := FilterBlock.finish_eq_ok finished
    exact Lockstep.taken taken rfl (push s.cursor rfl h.matched)
  | taken idle taken => exact Lockstep.taken taken idle h

theorem matched_push (h : s.Lockstep) (node : Node) :
    Matched s.tracker.levels (s.outline.push node).heads := by
  rw [Outline.heads_push]
  exact h.matched

theorem matched_of_finished {o : Outline} (h : s.Lockstep) (finished : s.Finished registry o) :
    Matched s.tracker.levels o.heads := by
  cases finished with
  | idle => exact h.matched
  | output => exact h.matched_push _

/-- The position in the source is no part of the invariant. -/
theorem moved (h : s.Lockstep) (cursor : Cursor) : Lockstep { s with cursor } :=
  ⟨h.matched, h.filled, h.fresh, h.collecting⟩

/-- Reading a line moves the cursor only. -/
theorem takeLine? {behind : ParseState} (taken : s.takeLine? = some (line, behind))
    (h : s.Lockstep) : behind.Lockstep := by
  rw [(takeLine?_eq_some taken).2]
  exact h.moved behind.cursor

theorem advance? (advanced : s.advance? registry = some (.ok () t)) (h : s.Lockstep) :
    t.Lockstep := by
  obtain ⟨line, behind, taken, round⟩ := advance?_eq_ok_iff.mp advanced
  exact (h.takeLine? taken).round round

theorem of_reached (reached : Reached registry source s) : s.Lockstep := by
  induction reached with
  | start => exact start source
  | next _ advanced ih => exact ih.advance? advanced

/-- A level is verbatim exactly if the block it belongs to is a Haml comment. -/
theorem verbatim_iff (h : s.Lockstep) {i : Nat} {level : Level} {block : OpenBlock}
    (hl : s.tracker.levels[i]? = some level) (hb : s.outline.openBlocks[i]? = some block) :
    level.verbatim = true ↔ block.head = .hamlComment := by
  have same := congrArg (·[i]?) h.matched.verbatim
  simp only [Outline.heads, List.getElem?_map, hl, hb, Option.map_some, Option.some.injEq] at same
  rw [same, beq_iff_eq]

theorem innermost_of_verbatim (h : s.Lockstep) {i : Nat} {level : Level}
    (hl : s.tracker.levels[i]? = some level) (verbatim : level.verbatim = true) : i = 0 := by
  cases i with
  | zero => rfl
  | succ i =>
    rw [← List.getElem?_tail] at hl
    have plain := h.matched.outerPlain level (List.mem_of_getElem? hl)
    simp [plain] at verbatim

/-- The line of an open element has no content of its own. -/
private theorem tail_eq_empty (h : s.Lockstep) {block : OpenBlock}
    (member : block ∈ s.outline.openBlocks) {e : Element} (head : block.head = .element e) :
    e.tail = .empty := by
  have nestable := h.matched.nestable block.head (List.mem_map_of_mem member)
  rw [head] at nestable
  cases tail : e.tail with
  | empty => rfl
  | selfClosing | script | text => simp [Head.nestingFault?, tail] at nestable

/-- All that an open block holds is nested in it. -/
theorem children?_closeBlock (h : s.Lockstep) {block : OpenBlock}
    (member : block ∈ s.outline.openBlocks) (following : Option Line) :
    (Outline.closeBlock block following).children? = some block.nested.reverse := by
  rw [Outline.closeBlock]
  cases head : block.head with
  | element e =>
    simp [Head.withMidBlock, Node.children?, Head.inline?, h.tail_eq_empty member head,
      ElementTail.node?]
  | comment | hamlComment | script | silentScript => rfl

/-- No filter block is collected inside a Haml comment, so no line is ever passed over. -/
theorem outside_of_collecting (h : s.Lockstep) {block : FilterBlock}
    (collecting : s.collector = some block) : s.outline.inHamlComment = false := by
  have plain := (h.collecting block collecting).2
  exact plain.outside h.matched

end ParseState.Lockstep

/-- In every state that a parse reaches before it reads a line, each level of indentation has its
open block: the level is verbatim exactly if the block is a Haml comment, which only the innermost
can be. Open blocks are nodes with children, and all of their children are nested lines. The
innermost one has a child unless a filter block is being collected, and then the filter block goes
on at the innermost width and outside Haml comments. -/
theorem levels_match_openBlocks {registry : Registry} {source : Text} {s : ParseState}
    (reached : ParseState.Reached registry source s) :
    s.tracker.levels.length = s.outline.openBlocks.length ∧
      (∀ i level block, s.tracker.levels[i]? = some level →
        s.outline.openBlocks[i]? = some block →
          (level.verbatim = true ↔ block.head = .hamlComment) ∧
          (level.verbatim = true → i = 0)) ∧
      (∀ block ∈ s.outline.openBlocks,
        (∀ following,
          (Outline.closeBlock block following).children? = some block.nested.reverse) ∧
        ∀ e, block.head = .element e → e.tail = .empty) ∧
      (s.collector = none → ∀ block ∈ s.outline.openBlocks.head?, block.nested ≠ []) ∧
      (∀ filter, s.collector = some filter →
        filter.baseWidth = s.tracker.width ∧
        (∀ level ∈ s.tracker.levels.head?, level.verbatim = false) ∧
        s.outline.inHamlComment = false) := by
  have h := ParseState.Lockstep.of_reached reached
  refine ⟨?_, ?_, ?_, ?_, ?_⟩
  · rw [h.matched.length_eq, Outline.heads, List.length_map]
  · intro i level block hl hb
    exact ⟨h.verbatim_iff hl hb, h.innermost_of_verbatim hl⟩
  · intro block member
    exact ⟨h.children?_closeBlock member, fun e head => h.tail_eq_empty member head⟩
  · intro idle block innermost
    obtain ⟨outer, blocks⟩ := List.head?_eq_some_iff.mp innermost
    have filled := h.filled idle (by simp [blocks])
    simpa [Outline.siblings, blocks] using filled
  · intro filter collecting
    obtain ⟨base, plain⟩ := h.collecting filter collecting
    exact ⟨base, plain, h.outside_of_collecting collecting⟩

/-- The second line begins a filter block below a comment, and the third is yet to be read. -/
theorem levels_match_openBlocks_filter :
    ∃ s, ParseState.Reached .builtins "/\n  :plain\n    x\n".toList s ∧
      s.collector.isSome = true ∧ s.tracker.levels = [⟨2, false⟩] ∧
      s.tracker.levels.length = s.outline.openBlocks.length ∧
      ∀ filter, s.collector = some filter →
        filter.baseWidth = s.tracker.width ∧
        (∀ level ∈ s.tracker.levels.head?, level.verbatim = false) ∧
        s.outline.inHamlComment = false := by
  have reached : ParseState.Reached .builtins "/\n  :plain\n    x\n".toList
      ⟨⟨["    x".toList], 2⟩, ⟨[⟨2, false⟩], some ' '⟩, ⟨[], [⟨1, .comment [], []⟩]⟩,
        some ⟨"plain".toList, 2, 2, []⟩⟩ :=
    .next (.next .start rfl) rfl
  have h := levels_match_openBlocks reached
  exact ⟨_, reached, rfl, rfl, h.1, h.2.2.2.2⟩

end HamlTemplate
