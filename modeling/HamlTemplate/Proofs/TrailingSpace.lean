import HamlTemplate.Proofs.ContentLines
import HamlTemplate.Proofs.Gathering
import HamlTemplate.Proofs.Reindentation
import HamlTemplate.Proofs.RewrittenLines
import Mathlib.Data.List.Forall2

/-!
# Spaces at the end of a line

Spaces and tabs at the end of a physical line are part of what is read only where lines are taken as
they are: in the body of a filter block and in that of a Haml comment. A document that has neither
is parsed again from a source that has such spaces added. Every way of reading trims the line, and
where it looks for a bar at the end it has trimmed the line before. Only the indentation of a line
that has nothing else can tell the two sources apart, and nothing comes of that.

That a document has no body of a Haml comment is known at the end only. Bodies are never lost on the
way there, so there has been none in any state of the parse.
-/

namespace HamlTemplate

/-! ### Haml comments without a body -/

def Node.Bodiless (node : Node) : Prop := node.isHamlComment = true → node.nested = []

namespace Outline

variable {o after : Outline} {node : Node}

structure Bodiless (o : Outline) : Prop where
  roots : Node.All Node.Bodiless o.roots
  blocks : ∀ block ∈ o.openBlocks,
    (block.head = .hamlComment → block.nested = []) ∧ Node.All Node.Bodiless block.nested

namespace Bodiless

/-- Something has been added, so that was not to the body of a Haml comment. -/
theorem of_push (h : (o.push node).Bodiless) :
    o.Bodiless ∧ Node.All Node.Bodiless [node] ∧ o.inHamlComment = false := by
  obtain ⟨roots, _ | ⟨block, outer⟩⟩ := o
  · obtain ⟨pushed, before⟩ := (Node.all_cons node roots).mp h.roots
    exact ⟨⟨before, nofun⟩, pushed, rfl⟩
  · obtain ⟨⟨empty, nested⟩, others⟩ := List.forall_mem_cons.mp h.blocks
    obtain ⟨pushed, before⟩ := (Node.all_cons node block.nested).mp nested
    have plain : block.head ≠ .hamlComment := fun comment => List.cons_ne_nil _ _ (empty comment)
    have own : (block.head = .hamlComment → block.nested = []) ∧
        Node.All Node.Bodiless block.nested := ⟨fun comment => absurd comment plain, before⟩
    refine ⟨⟨h.roots, List.forall_mem_cons.mpr ⟨own, others⟩⟩, pushed, ?_⟩
    exact beq_false_of_ne plain

theorem of_closed {following : Option Line} (h : (o.closed following).Bodiless) : o.Bodiless := by
  obtain ⟨roots, _ | ⟨block, outer⟩⟩ := o
  · exact h
  · obtain ⟨around, node, _⟩ := of_push h
    rw [closeBlock, Node.all_block, Node.all_reverse] at node
    refine ⟨around.roots, List.forall_mem_cons.mpr ⟨⟨fun comment => ?_, node.2⟩, around.blocks⟩⟩
    have own := node.1
    rw [comment] at own
    exact List.reverse_eq_nil_iff.mp (own rfl)

/-- The node that has been opened was the last one, and not in a Haml comment. -/
theorem of_opened {number : Nat} {head : Head} {nested elder : List Node}
    (outside : o.inHamlComment = false) (last : o.siblings = .block number head nested :: elder)
    (h : (o.opened number head nested elder).Bodiless) : o.Bodiless := by
  obtain ⟨⟨empty, inner⟩, others⟩ := List.forall_mem_cons.mp h.blocks
  have node : Node.All Node.Bodiless [.block number head nested] := by
    refine Node.all_block.mpr ⟨fun comment => ?_, Node.all_reverse.mp inner⟩
    rw [Node.isHamlComment_block] at comment
    exact List.reverse_eq_nil_iff.mp (empty (eq_of_beq comment))
  obtain ⟨roots, _ | ⟨block, outer⟩⟩ := o
  · obtain rfl : roots = _ := last
    exact ⟨(Node.all_cons _ elder).mpr ⟨node, h.roots⟩, others⟩
  · obtain ⟨⟨_, before⟩, others⟩ := List.forall_mem_cons.mp others
    have nested : block.nested = _ := last
    have plain : block.head ≠ .hamlComment := ne_of_beq_false outside
    refine ⟨h.roots, List.forall_mem_cons.mpr ⟨⟨fun comment => absurd comment plain, ?_⟩, others⟩⟩
    rw [nested]
    exact (Node.all_cons _ elder).mpr ⟨node, before⟩

theorem of_moves (moves : o.Moves after) (h : after.Bodiless) : o.Bodiless := by
  induction moves with
  | refl => exact h
  | closed _ _ ih => exact of_closed (ih h)
  | opened outside last _ ih => exact of_opened outside last (ih h)

end Bodiless

theorem inherited_bodiless : Inherited Bodiless Node.Bodiless where
  of_push h := ⟨h.of_push.1, h.of_push.2.1.self⟩
  of_moves := Bodiless.of_moves

end Outline

/-- If no Haml comment of a document has a body, none has one on the way to it. -/
theorem ParseState.bodiless_of_readAll {registry : Registry} {s : ParseState} {d : Document}
    (lockstep : s.Lockstep) (parsed : s.readAll registry = .ok d)
    (h : Node.All Node.Bodiless d.roots) : s.outline.Bodiless :=
  (Outline.inherited_bodiless.of_readAll lockstep parsed ⟨Node.all_reverse.mpr h, nofun⟩).1

/-! ### Padded lines -/

/-- The second line is the first with spaces and tabs behind it. -/
def Text.Padded (raw padded : Text) : Prop :=
  ∃ pad : Text, (∀ c ∈ pad, isIndentChar c = true) ∧ padded = raw ++ pad

namespace Text.Padded

variable {raw padded : Text}

/-- Either there is nothing in the line but its indentation, or that stays the same. -/
theorem parts (h : raw.Padded padded) :
    raw.afterIndentation = [] ∧ padded.afterIndentation = [] ∨
      raw.afterIndentation ≠ [] ∧ padded.indentation = raw.indentation ∧
        raw.afterIndentation.Padded padded.afterIndentation := by
  obtain ⟨pad, indent, rfl⟩ := h
  by_cases blank : raw.afterIndentation = []
  · have whole : ∀ c ∈ raw, isIndentChar c = true := List.dropWhile_eq_nil_iff.mp blank
    have empty : afterIndentation (raw ++ pad) = [] :=
      List.dropWhile_eq_nil_iff.mpr (List.forall_mem_append.mpr ⟨whole, indent⟩)
    exact .inl ⟨blank, empty⟩
  · have front : ∀ c ∈ raw.indentation, isIndentChar c = true :=
      fun c member => List.mem_takeWhile_imp member
    have visible : ∀ c ∈ (raw.afterIndentation ++ pad).head?, isIndentChar c = false := by
      rw [List.head?_append_of_ne_nil _ blank]
      exact visible_afterIndentation raw
    have split := indentation_append front visible
    rw [← List.append_assoc, indentation_append_afterIndentation] at split
    exact .inr ⟨blank, split.1, pad, indent, split.2⟩

theorem trimEnd_eq (h : raw.Padded padded) : trimEnd padded = trimEnd raw := by
  obtain ⟨pad, indent, rfl⟩ := h
  have blank : trimEnd pad = [] := by
    rw [trimEnd_eq_nil_iff]
    exact List.all_eq_true.mpr fun c member => isWhiteSpace_of_isIndentChar (indent c member)
  rw [trimEnd_append, if_pos blank]

private theorem trim_eq (h : raw.Padded padded) : trim padded = trim raw := by
  rw [← trim_trimEnd, h.trimEnd_eq, trim_trimEnd]

theorem lineContent_eq (h : raw.Padded padded) : padded.lineContent = raw.lineContent := by
  obtain ⟨blank, blank'⟩ | ⟨_, _, after⟩ := h.parts
  · rw [lineContent, lineContent, blank, blank']
  · exact after.trimEnd_eq

end Text.Padded

namespace Cursor

variable {c c' after : Cursor} {line : Line} {base? : Option Nat} {lines padded : List Text}

structure Padded (c c' : Cursor) : Prop where
  consumed : c'.consumed = c.consumed
  pending : List.Forall₂ Text.Padded c.pending c'.pending

namespace Padded

theorem skip (h : c.Padded c') (n : Nat) : (c.skip n).Padded (c'.skip n) :=
  ⟨congrArg (· + n) h.consumed, List.forall₂_drop n h.pending⟩

theorem pending_eq_nil_iff (h : c.Padded c') : c'.pending = [] ↔ c.pending = [] := by
  rw [← List.length_eq_zero_iff, ← List.length_eq_zero_iff, h.pending.length_eq]

theorem lineCount_eq (h : c.Padded c') : c'.lineCount = c.lineCount := by
  rw [lineCount, lineCount, h.consumed, h.pending.length_eq]

end Padded

private theorem map_lineContent_eq (h : List.Forall₂ Text.Padded lines padded) :
    padded.map Text.lineContent = lines.map Text.lineContent := by
  induction h with
  | nil => rfl
  | cons first _ ih => rw [List.map_cons, List.map_cons, first.lineContent_eq, ih]

/-- A run of piped lines is as long as before, and joined to the same. -/
private theorem pipedRun_padded (h : List.Forall₂ Text.Padded lines padded) :
    (pipedRun padded).length = (pipedRun lines).length ∧
      joinPiped (pipedRun padded) = joinPiped (pipedRun lines) := by
  have run : ∀ lines : List Text, (pipedRun lines).map Text.lineContent =
      (lines.map Text.lineContent).takeWhile Text.isPiped := by
    intro lines
    rw [List.takeWhile_map]
    rfl
  have joined : ∀ run : List Text,
      joinPiped run = Text.trimEnd ((run.map Text.lineContent).flatMap List.dropLast) := by
    intro run
    rw [List.flatMap_map]
    rfl
  have same : (pipedRun padded).map Text.lineContent = (pipedRun lines).map Text.lineContent := by
    rw [run, run, map_lineContent_eq h]
  constructor
  · simpa using congrArg List.length same
  · rw [joined, joined, same]

namespace Padded

/-- The same logical line is read, but that the indentation of a blank one may be another. -/
theorem takeLine? (h : c.Padded c') (read : c.takeLine? = some (line, after)) :
    ∃ indent after', c'.takeLine? = some ({ line with indent }, after') ∧ after.Padded after' ∧
      (line.isBlank = false → indent = line.indent) := by
  obtain ⟨raw, rest, pending, _⟩ := takeLine?_indent read
  have behind := h.pending
  rw [pending] at behind
  obtain ⟨raw', rest', first, more, pending'⟩ := List.forall₂_cons_left_iff.mp behind
  have content := first.lineContent_eq
  have indent : raw.lineContent ≠ [] → raw'.indentation = raw.indentation := by
    intro some
    obtain ⟨blank, _⟩ | ⟨_, same, _⟩ := first.parts
    · rw [Text.lineContent, blank] at some
      exact absurd rfl some
    · exact same
  rw [takeLine?_cons pending] at read
  rw [takeLine?_cons pending', content]
  cases piped : raw.lineContent.isPiped with
  | false =>
    rw [piped, if_neg (by simp)] at read
    cases read
    refine ⟨raw'.indentation, c'.skip 1, ?_, h.skip 1, fun shown => indent ?_⟩
    · rw [if_neg (by simp), h.consumed]
    · exact Line.isBlank_eq_false_iff.mp shown
  | true =>
    rw [piped, if_pos rfl] at read
    cases read
    have whole : ∀ raw rest, raw.lineContent.isPiped = true →
        pipedRun (raw :: rest) = raw :: pipedRun rest := by
      intro raw rest piped
      simp only [pipedRun, List.takeWhile_cons, piped, if_true]
    obtain ⟨length, joined⟩ := pipedRun_padded (.cons first more)
    rw [whole raw rest piped, whole raw' rest' (content ▸ piped)] at length joined
    have length : (pipedRun rest').length = (pipedRun rest).length := Nat.succ.inj length
    refine ⟨raw'.indentation, c'.skip ((pipedRun rest).length + 1), ?_, h.skip _,
      fun _ => indent ?_⟩
    · rw [if_pos rfl, joined, length, h.consumed]
    · intro empty
      rw [empty] at piped
      cases piped

/-- A blank line is read as a blank one, and a line that is no deeper than the body that it may
belong to is read as the same. -/
theorem takeWithin? (h : c.Padded c') (read : c.takeWithin? base? = some (line, after)) :
    ∃ line' after', c'.takeWithin? base? = some (line', after') ∧ after.Padded after' ∧
      (line.isBlank = true → line'.isBlank = true) ∧
      (line.isBlank = false → (∀ base ∈ base?, line.width ≤ base) → line' = line) := by
  have logical : c'.takeWithin? base? = c'.takeLine? → c.takeLine? = some (line, after) →
      ∃ line' after', c'.takeWithin? base? = some (line', after') ∧ after.Padded after' ∧
        (line.isBlank = true → line'.isBlank = true) ∧
        (line.isBlank = false → (∀ base ∈ base?, line.width ≤ base) → line' = line) := by
    intro same read
    obtain ⟨indent, after', read', padded, kept⟩ := h.takeLine? read
    refine ⟨{ line with indent }, after', same.trans read', padded, fun blank => blank, ?_⟩
    intro shown _
    rw [kept shown]
  cases base? with
  | none => exact logical rfl read
  | some base =>
    obtain ⟨raw, rest, pending, _⟩ := takeWithin?_indent read
    have behind := h.pending
    rw [pending] at behind
    obtain ⟨raw', rest', first, _, pending'⟩ := List.forall₂_cons_left_iff.mp behind
    obtain ⟨blank, blank'⟩ | ⟨content, indent, content'⟩ := first.parts
    · simp only [Cursor.takeWithin?, takeBodyLine?, pending, pending', blank, blank', true_or,
        if_true] at read ⊢
      cases read
      refine ⟨_, _, rfl, h.skip 1, fun _ => rfl, ?_⟩
      rintro ⟨⟩
    · by_cases deeper : base < raw.indentation.length
      · have deeper' : base < raw'.indentation.length := by rwa [indent]
        simp only [Cursor.takeWithin?, takeBodyLine?, pending, pending', deeper, deeper', or_true,
          if_true] at read ⊢
        cases read
        refine ⟨_, _, rfl, h.skip 1, fun blank => ?_, fun _ shallow => ?_⟩
        · exact absurd (List.isEmpty_iff.mp blank) content
        · exact absurd (shallow base rfl) (Nat.not_le.mpr deeper)
      · have shallow : ∀ other ∈ some base, raw.indentation.length ≤ other := by
          rintro _ ⟨⟩
          exact Nat.not_lt.mp deeper
        have shown : raw'.afterIndentation ≠ [] := by
          obtain ⟨pad, _, same⟩ := content'
          rw [same]
          exact List.append_ne_nil_of_left_ne_nil content pad
        apply logical
        · exact takeWithin?_eq_takeLine? pending' shown (indent ▸ shallow)
        · rw [← takeWithin?_eq_takeLine? pending content shallow]
          exact read

end Padded

/-- Lines that are tidied to the same are gathered to the same. -/
theorem gatherFrom_padded (wanted : Text → Bool) {tidy : Text → Text}
    (same : ∀ raw raw', Text.Padded raw raw' → tidy raw' = tidy raw)
    (h : List.Forall₂ Text.Padded lines padded) (consumed : Nat) (gathered : Gathered) :
    (gatherFrom wanted tidy lines consumed gathered).1 =
        (gatherFrom wanted tidy padded consumed gathered).1 ∧
      (gatherFrom wanted tidy lines consumed gathered).2.Padded
        (gatherFrom wanted tidy padded consumed gathered).2 := by
  induction h generalizing consumed gathered with
  | nil =>
    unfold gatherFrom
    split <;> exact ⟨rfl, rfl, .nil⟩
  | cons first rest ih =>
    unfold gatherFrom
    split
    · exact ⟨rfl, rfl, .cons first rest⟩
    · simp only [same _ _ first]
      exact ih _ _

end Cursor

namespace Reading

/-- Readings that succeed give the same from lines that are padded. -/
theorem closed_padded :
    Closed fun _ action => Agrees Cursor.Padded (fun _ => none) action where
  toSequenced := sequenced_waived _
  gather wanted tidy fault gathers text := by
    have same : ∀ raw padded, Text.Padded raw padded → tidy padded = tidy raw := by
      cases gathers with
      | statement => exact fun _ _ h => h.trimEnd_eq
      | attributes => exact fun _ _ h => h.trim_eq
    intro c c' h
    have both := Cursor.gatherFrom_padded wanted same h.pending c.consumed ⟨text, 1⟩
    rw [gather, gather, h.consumed]
    revert both
    generalize Cursor.gatherFrom wanted tidy c.pending c.consumed ⟨text, 1⟩ = first,
      Cursor.gatherFrom wanted tidy c'.pending c.consumed ⟨text, 1⟩ = second
    obtain ⟨found, after⟩ := first
    obtain ⟨found', after'⟩ := second
    rintro ⟨⟨⟩, position⟩
    cases found with
    | none => exact .waived rfl
    | some gathered => exact .ok position

end Reading

/-! ### The parse -/

namespace ParseState

variable {registry : Registry} {source : Text} {c : Cursor} {line : Line} {s t : ParseState}
  {d : Document}

/-- A round does the same with a padded line, if it neither adds to the body of a Haml comment nor
begins a filter block. -/
theorem advance?_padded (padded : s.cursor.Padded c) (idle : s.collector = none)
    (lockstep : s.Lockstep) (advanced : s.advance? registry = some (.ok () t))
    (bodiless : t.outline.Bodiless) (idle' : t.collector = none) :
    ∃ c', t.cursor.Padded c' ∧ ({ s with cursor := c } : ParseState).advance? registry =
      some (.ok () { t with cursor := c' }) := by
  obtain ⟨line, behind, taken, round⟩ := advance?_eq_ok_iff.mp advanced
  obtain ⟨read, moved⟩ := takeLine?_eq_some taken
  obtain ⟨line', after, read', padded', blank', same⟩ := padded.takeWithin? read
  have idleBehind : behind.collector = none := by rw [moved, idle]
  have taken' : ({ s with cursor := c } : ParseState).takeLine? =
      some (line', { s with cursor := after }) := by
    have base : ({ s with cursor := c } : ParseState).bodyBase? = s.bodyBase? := rfl
    rw [takeLine?, base, read']
    rfl
  -- What the line turns out to be in the first parse says how it has been read there.
  have content : ∀ {tracker outline},
      Tracker.Placement line behind.tracker behind.outline .structural tracker outline →
        line' = line := by
    intro tracker outline placed
    have offered : Parsing.offerLine registry line behind = .ok () behind :=
      Parsing.offerLine_of_idle idleBehind
    have narrow := (takeLine?_of_structural taken offered idleBehind placed).2
    exact same (placed.content (by simp)) narrow
  have taken : Parsing.Taken line behind t := by
    cases round with
    | collected collecting | passed collecting | closed collecting =>
      cases idleBehind.symm.trans collecting
    | taken _ taken => exact taken
  have again : ∀ c', Parsing.Taken line' { s with cursor := after } { t with cursor := c' } →
      t.cursor.Padded c' → ∃ c', t.cursor.Padded c' ∧
        ({ s with cursor := c } : ParseState).advance? registry =
          some (.ok () { t with cursor := c' }) :=
    fun c' taken padded => ⟨c', padded, advance?_eq_ok_iff.mpr ⟨_, _, taken', .taken idle taken⟩⟩
  rw [moved] at taken content
  cases taken with
  | blank blank => exact again after (.blank (blank' blank)) padded'
  | verbatim placed =>
    obtain ⟨_, _, outside⟩ := bodiless.of_push
    rw [placed.inHamlComment lockstep.matched] at outside
    cases outside
  | node placed begun made =>
    obtain rfl := content placed
    have agree := Reading.closed_padded.node? begun behind.cursor after padded'
    rw [made] at agree
    obtain ⟨c', made', padded''⟩ := agree.of_ok
    exact again c' (.node placed begun made') padded''
  | filter => cases idle'

/-- From a state of a parse on, the padded source leads to the same document. -/
theorem readAll_padded (padded : s.cursor.Padded c) (idle : s.collector = none)
    (lockstep : s.Lockstep) (parsed : s.readAll registry = .ok d)
    (plain : Node.All (fun node => node.kind ≠ .filter) d.roots)
    (bodiless : Node.All Node.Bodiless d.roots) :
    ({ s with cursor := c } : ParseState).readAll registry = .ok d := by
  fun_induction readAll registry s generalizing c with
  | case1 s none =>
    have none' : ({ s with cursor := c } : ParseState).advance? registry = .none := by
      rw [advance?_eq_none_iff] at none ⊢
      exact padded.pending_eq_nil_iff.mpr none
    have idle' : ({ s with cursor := c } : ParseState).collector = .none := idle
    rw [conclude_of_idle idle] at parsed
    rw [readAll_of_advance_none none', conclude_of_idle idle', ← parsed, padded.lineCount_eq]
  | case2 s after advanced ih =>
    have onward := lockstep.advance? advanced
    -- Only the whole document is known, so the rest of the run says what it has after this round.
    have shallow : Node.Shallow fun node => node.kind ≠ .filter := by
      intro line head midBlock nested
      cases head <;> rfl
    have none : after.collector = .none := by
      cases collecting : after.collector with
      | none => rfl
      | some block =>
        obtain ⟨output, filter⟩ := (all_of_readAll shallow onward parsed plain).2 block collecting
        exact absurd rfl filter
    obtain ⟨c', padded', advanced'⟩ := advance?_padded padded idle lockstep advanced
      (bodiless_of_readAll onward parsed bodiless) none
    rw [readAll_of_advance_ok advanced']
    exact ih padded' none onward parsed
  | case3 => cases parsed

end ParseState

/-! ### Padded sources -/

section Padding

variable {pad : Nat → Text} (indent : ∀ n, ∀ c ∈ pad n, Text.isIndentChar c = true)

include indent

theorem Text.keepsLines_pad : KeepsLines fun n raw => raw ++ pad n where
  unbroken n _ unbroken := List.forall_mem_append.mpr ⟨unbroken, isUnbroken_of_indent (indent n)⟩
  visible _ _ empty := (List.append_eq_nil_iff.mp empty).1

theorem Text.forall₂_padded (lines : List Text) (n : Nat) :
    List.Forall₂ Padded lines ((lines.zipIdx n).map fun entry => entry.1 ++ pad entry.2) := by
  induction lines generalizing n with
  | nil => exact .nil
  | cons raw rest ih => exact .cons ⟨pad n, indent n, rfl⟩ (ih (n + 1))

theorem Cursor.padded_start (source : Text) :
    (start source).Padded (start (source.mapLines fun n raw => raw ++ pad n)) := by
  refine ⟨rfl, ?_⟩
  rw [start, start, Text.physicalLines_mapLines (Text.keepsLines_pad indent)]
  exact Text.forall₂_padded indent source.physicalLines 1

end Padding

/-- Spaces and tabs may be put at the end of any lines. If a document has no filter block and no
Haml comment with a body, the source that has them is parsed to the same document, whether they are
behind content, behind the bar of a piped line, within an attribute block or within code that goes
on, or on a line that is blank. -/
theorem parse_pad {registry : Registry} {source : Text} {d : Document} {pad : Nat → Text}
    (spaces : ∀ n, ∀ c ∈ pad n, c = ' ' ∨ c = '\t')
    (parsed : Document.parse registry source = .ok d)
    (plain : ∀ node ∈ d.nodes, node.kind ≠ .filter ∧
      (node.isHamlComment = true → node.children? = some [])) :
    Document.parse registry (source.mapLines fun n raw => raw ++ pad n) = .ok d := by
  have indent : ∀ n, ∀ c ∈ pad n, Text.isIndentChar c = true := by
    intro n c member
    obtain rfl | rfl := spaces n c member <;> rfl
  have own : ∀ node ∈ Node.preorderAll d.roots, node ∈ d.nodes :=
    fun node member => Node.mem_nodes_iff.mpr (.inl member)
  have bodiless : Node.All Node.Bodiless d.roots := by
    intro node member comment
    have children := (plain node (own node member)).2 comment
    cases node with
    | leaf => rfl
    | block line head nested => exact (List.append_eq_nil_iff.mp (Option.some.inj children)).2
  exact ParseState.readAll_padded (Cursor.padded_start indent source) rfl (.start source) parsed
    (fun node member => (plain node (own node member)).1) bodiless

/-- All lines are padded: those of an attribute block, of code that goes on, a blank one, that of a
Haml comment and two that are piped. -/
theorem parse_pad_each :
    Document.parse .builtins
        ("%p\x7ba: 1,\t \n  b: 2\x7d\t \n- f(1,\t \n  2)\t \n\t \n-# x\t \na |\t \n b |\t \n" ++
          "c\t \n").toList = .ok ⟨9, [
      .block 1 (.element { tag := ['p'], attributes? := some "a: 1,\nb: 2".toList }) [],
      .block 3 (.silentScript "f(1,\n  2)".toList false) [],
      .block 6 .hamlComment [],
      .leaf 7 (.text "a b".toList),
      .leaf 9 (.text ['c'])]⟩ := by
  have spaces : ∀ n : Nat, ∀ c ∈ "\t ".toList, c = ' ' ∨ c = '\t' := by simp
  have parsed : Document.parse .builtins
      "%p\x7ba: 1,\n  b: 2\x7d\n- f(1,\n  2)\n\n-# x\na |\n b |\nc\n".toList = .ok ⟨9, [
        .block 1 (.element { tag := ['p'], attributes? := some "a: 1,\nb: 2".toList }) [],
        .block 3 (.silentScript "f(1,\n  2)".toList false) [],
        .block 6 .hamlComment [],
        .leaf 7 (.text "a b".toList),
        .leaf 9 (.text ['c'])]⟩ := by
    decide +kernel
  exact parse_pad spaces parsed (by decide +kernel)

end HamlTemplate
