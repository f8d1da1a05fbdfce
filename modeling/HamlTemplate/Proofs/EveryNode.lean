import HamlTemplate.Proofs.LineOrder

/-!
# What holds of every node of a document

Nodes are never lost on the way to a document. So what holds of every node of a document, if it is
no matter of the nodes nested in it or of the flag of a script, has held of all nodes in the outline
in every state of its parse, and of the nodes that were still to come from filter blocks. Other
properties of documents go back to all states of the parse in the same way.
-/

namespace HamlTemplate

/-! ### What has held before

What a document has may be known of the whole document only. Then it is followed from the end of
the parse back to its beginning. -/

/-- A property of outlines is inherited if an outline has had it before anything has been added to
it or moved in it. What has been added has the property of nodes. -/
structure Outline.Inherited (Q : Outline → Prop) (N : Node → Prop) : Prop where
  of_push : ∀ {o : Outline} {node : Node}, Q (o.push node) → Q o ∧ N node
  of_moves : ∀ {o after : Outline}, o.Moves after → Q after → Q o

/-- The outline has the property, and so has the node that will come of the filter block that is
being collected. -/
def ParseState.Has (Q : Outline → Prop) (N : Node → Prop) (s : ParseState) : Prop :=
  Q s.outline ∧
    ∀ block, s.collector = some block → ∃ output, N (.leaf block.line (.filter block.name output))

namespace Outline.Inherited

variable {Q : Outline → Prop} {N : Node → Prop} {registry : Registry} {line : Line}
  {s t : ParseState} {d : Document}

private theorem of_taken (inherited : Inherited Q N) (taken : Parsing.Taken line s t)
    (matched : Matched s.tracker.levels s.outline.heads) (h : Q t.outline) : Q s.outline := by
  cases taken with
  | blank => exact h
  | verbatim placed | node placed =>
    exact inherited.of_moves (placed.moves matched) (inherited.of_push h).1
  | filter placed => exact inherited.of_moves (placed.moves matched) h

/-- A filter block that is over was still to come. -/
private theorem of_output (inherited : Inherited Q N) {block : FilterBlock} {node : Node}
    (collecting : s.collector = some block) (finished : block.finish registry = .ok node)
    (h : Q (s.outline.push node)) : s.Has Q N := by
  obtain ⟨output, _, rfl⟩ := FilterBlock.finish_eq_ok finished
  obtain ⟨before, pushed⟩ := inherited.of_push h
  refine ⟨before, ?_⟩
  intro block' collecting'
  cases collecting.symm.trans collecting'
  exact ⟨output, pushed⟩

private theorem of_round (inherited : Inherited Q N) (round : Parsing.Round registry line s t)
    (lockstep : s.Lockstep) (h : t.Has Q N) : s.Has Q N := by
  cases round with
  | collected collecting =>
    refine ⟨h.1, ?_⟩
    intro block collecting'
    cases collecting.symm.trans collecting'
    have output := h.2 _ rfl
    exact output
  | passed => exact h
  | closed collecting _ _ finished taken =>
    apply inherited.of_output collecting finished
    exact inherited.of_taken taken (lockstep.matched_push _) h.1
  | taken idle taken => exact ⟨inherited.of_taken taken lockstep.matched h.1, by simp [idle]⟩

private theorem of_conclude (inherited : Inherited Q N) (lockstep : s.Lockstep)
    (concluded : s.conclude registry = .ok d) (h : Q ⟨d.roots.reverse, []⟩) : s.Has Q N := by
  obtain ⟨o, finished, rfl⟩ := ParseState.conclude_eq_ok concluded
  -- What is still open is closed once for each level, so all nodes end up among the roots.
  have closed : Q o := by
    have none := (lockstep.matched_of_finished finished).heads_closedTimes
    apply inherited.of_moves (moves_closedTimes s.tracker.levels.length o)
    rwa [eq_of_heads_eq_nil none]
  cases finished with
  | idle idle => exact ⟨closed, by simp [idle]⟩
  | output collecting finished => exact inherited.of_output collecting finished closed

/-- What a parse ends with, it has had in every state on the way there. -/
theorem of_readAll (inherited : Inherited Q N) (lockstep : s.Lockstep)
    (parsed : s.readAll registry = .ok d) (h : Q ⟨d.roots.reverse, []⟩) : s.Has Q N := by
  fun_induction ParseState.readAll registry s with
  | case1 s none => exact inherited.of_conclude lockstep parsed h
  | case2 s after advanced ih =>
    obtain ⟨line, behind, taken, round⟩ := ParseState.advance?_eq_ok_iff.mp advanced
    have kept := inherited.of_round round (lockstep.takeLine? taken)
      (ih (lockstep.advance? advanced) parsed)
    rw [(ParseState.takeLine?_eq_some taken).2] at kept
    exact kept
  | case3 => cases parsed

end Outline.Inherited

/-! ### What holds of every node -/

/-- The property of a block is one of its line and its head, and no matter of the head's flag. -/
def Node.Shallow (P : Node → Prop) : Prop :=
  ∀ line head midBlock nested,
    P (.block line (Head.withMidBlock midBlock head) nested) ↔ P (.block line head [])

theorem Head.exists_withMidBlock (head : Head) : ∃ midBlock, head.withMidBlock midBlock = head := by
  cases head with
  | script code midBlock | silentScript code midBlock => exact ⟨midBlock, rfl⟩
  | comment | hamlComment | element => exact ⟨false, rfl⟩

theorem Node.Shallow.block_iff {P : Node → Prop} (shallow : Shallow P) (line : Nat) (head : Head)
    (nested : List Node) : P (.block line head nested) ↔ P (.block line head []) := by
  obtain ⟨midBlock, same⟩ := head.exists_withMidBlock
  have any := shallow line head midBlock nested
  rwa [same] at any

namespace Node

variable {P : Node → Prop} {nodes first second : List Node}

/-- The property holds of a forest's nodes and of all those nested in them. -/
def All (P : Node → Prop) (nodes : List Node) : Prop := ∀ node ∈ preorderAll nodes, P node

theorem all_append : All P (first ++ second) ↔ All P first ∧ All P second := by
  simp only [All, preorderAll_append, List.forall_mem_append]

theorem all_cons (node : Node) (nodes : List Node) :
    All P (node :: nodes) ↔ All P [node] ∧ All P nodes := by
  rw [← List.singleton_append, all_append]

theorem all_leaf {line : Nat} {l : Leaf} : All P [leaf line l] ↔ P (leaf line l) := by
  simp [All, preorder]

theorem all_block {line : Nat} {head : Head} {nested : List Node} :
    All P [block line head nested] ↔ P (block line head nested) ∧ All P nested := by
  simp [All, preorder]

theorem All.self {node : Node} (all : All P [node]) : P node := by
  cases node with
  | leaf => exact all_leaf.mp all
  | block => exact (all_block.mp all).1

theorem all_reverse : All P nodes.reverse ↔ All P nodes := by
  induction nodes with
  | nil => rfl
  | cons node nodes ih => rw [List.reverse_cons, all_append, ih, and_comm, ← all_cons]

end Node

def OpenBlock.All (P : Node → Prop) (block : OpenBlock) : Prop :=
  P (.block block.line block.head []) ∧ Node.All P block.nested

namespace Outline

variable {P : Node → Prop} {o : Outline} {line : Line}

def All (P : Node → Prop) (o : Outline) : Prop :=
  Node.All P o.roots ∧ ∀ block ∈ o.openBlocks, block.All P

theorem all_push {node : Node} : (o.push node).All P ↔ o.All P ∧ Node.All P [node] := by
  obtain ⟨roots, _ | ⟨block, outer⟩⟩ := o
  · simp only [push, withSiblings, siblings, All, Node.all_cons _ roots]
    constructor
    · rintro ⟨⟨pushed, roots⟩, none⟩
      exact ⟨⟨roots, none⟩, pushed⟩
    · rintro ⟨⟨roots, none⟩, pushed⟩
      exact ⟨⟨pushed, roots⟩, none⟩
  · simp only [push, withSiblings, siblings, All, List.forall_mem_cons, OpenBlock.All,
      Node.all_cons _ block.nested]
    constructor
    · rintro ⟨roots, ⟨own, pushed, nested⟩, outer⟩
      exact ⟨⟨roots, ⟨own, nested⟩, outer⟩, pushed⟩
    · rintro ⟨⟨roots, ⟨own, nested⟩, outer⟩, pushed⟩
      exact ⟨roots, ⟨own, pushed, nested⟩, outer⟩

theorem all_closed (shallow : Node.Shallow P) (following : Option Line) :
    (o.closed following).All P ↔ o.All P := by
  obtain ⟨roots, _ | ⟨block, outer⟩⟩ := o
  · rfl
  · have node : Node.All P [closeBlock block following] ↔ block.All P := by
      rw [closeBlock, Node.all_block, shallow, Node.all_reverse, OpenBlock.All]
    simp only [closed, all_push, node]
    simp only [All, List.forall_mem_cons]
    constructor
    · rintro ⟨⟨roots, outer⟩, block⟩
      exact ⟨roots, block, outer⟩
    · rintro ⟨roots, block, outer⟩
      exact ⟨⟨roots, outer⟩, block⟩

theorem all_opened (shallow : Node.Shallow P) {number : Nat} {head : Head}
    {nested elder : List Node} (last : o.siblings = .block number head nested :: elder) :
    (o.opened number head nested elder).All P ↔ o.All P := by
  have block : OpenBlock.All P ⟨number, head, nested.reverse⟩ ↔
      Node.All P [.block number head nested] := by
    rw [OpenBlock.All, Node.all_reverse, Node.all_block, shallow.block_iff number head nested]
  rw [← push_withSiblings last, all_push, ← block, push_withSiblings last]
  simp only [opened, All, List.forall_mem_cons]
  constructor
  · rintro ⟨roots, block, outer⟩
    exact ⟨⟨roots, outer⟩, block⟩
  · rintro ⟨⟨roots, outer⟩, block⟩
    exact ⟨roots, block, outer⟩

/-- Moving nodes does not change which there are. -/
theorem Moves.all_iff {after : Outline} (moves : o.Moves after) (shallow : Node.Shallow P) :
    after.All P ↔ o.All P := by
  induction moves with
  | refl => rfl
  | closed _ _ ih => rw [ih, all_closed shallow]
  | opened _ last _ ih => rw [ih, all_opened shallow last]

theorem inherited_all (shallow : Node.Shallow P) : Inherited (All P) P where
  of_push pushed := ⟨(all_push.mp pushed).1, (all_push.mp pushed).2.self⟩
  of_moves moves := (moves.all_iff shallow).mp

end Outline

/-- What holds of all nodes of the document that a parse leads to holds of all nodes on the way. -/
theorem ParseState.all_of_readAll {registry : Registry} {P : Node → Prop} {s : ParseState}
    {d : Document} (shallow : Node.Shallow P) (lockstep : s.Lockstep)
    (h : s.readAll registry = .ok d) (all : Node.All P d.roots) : s.Has (Outline.All P) P :=
  (Outline.inherited_all shallow).of_readAll lockstep h ⟨Node.all_reverse.mpr all, nofun⟩

end HamlTemplate
