import HamlTemplate.Outline

/-!
# How outlines change

A parse changes an outline in three ways: it adds a node at the innermost level, it opens the last
node there, and it closes the innermost block. Opening and closing are given here as functions of
the outline, together with what they do to the heads of the open blocks and to the siblings of the
next node. Nothing else about them is needed to follow a parse.
-/

namespace HamlTemplate

theorem Head.withMidBlock_withMidBlock (head : Head) (first second : Bool) :
    (head.withMidBlock first).withMidBlock second = head.withMidBlock second := by
  cases head <;> rfl

theorem Head.nestingFault?_withMidBlock (head : Head) (midBlock : Bool) :
    (head.withMidBlock midBlock).nestingFault? = head.nestingFault? := by
  cases head <;> rfl

theorem Head.withMidBlock_ne_hamlComment {head : Head} (h : head ≠ .hamlComment)
    (midBlock : Bool) : head.withMidBlock midBlock ≠ .hamlComment := by
  cases head <;> simp_all [withMidBlock]

namespace Outline

def heads (o : Outline) : List Head := o.openBlocks.map OpenBlock.head

/-- The outline after its last node, a block with the given parts behind the given elder siblings,
has been opened. -/
def opened (o : Outline) (line : Nat) (head : Head) (nested elder : List Node) : Outline :=
  { o.withSiblings elder with
    openBlocks := ⟨line, head, nested.reverse⟩ :: (o.withSiblings elder).openBlocks }

/-- The outline after its innermost block has been closed in view of the line that follows. -/
def closed (o : Outline) (following : Option Line) : Outline :=
  match o.openBlocks with
  | [] => o
  | block :: outer => { o with openBlocks := outer }.push (closeBlock block following)

def closedTimes : Nat → Outline → Outline
  | 0, o => o
  | n + 1, o => closedTimes n (o.closed none)

theorem enter_eq_ok_iff {line : Line} {o after : Outline} {verbatim : Bool} :
    enter line o = .ok verbatim after ↔
      ∃ number head nested elder, o.siblings = .block number head nested :: elder ∧
        head.nestingFault? = none ∧ verbatim = (head == .hamlComment) ∧
        after = o.opened number head nested elder := by
  rw [enter]
  split
  · simp_all
  · simp_all
  · rename_i number head nested elder last
    split
    · rename_i refused
      constructor
      · intro h
        cases h
      · rintro ⟨_, _, _, _, same, admitted, _⟩
        simp [(Node.block.inj (List.cons.inj (last.symm.trans same)).1).2.1 ▸ admitted] at refused
    · rename_i admitted
      constructor
      · intro h
        injection h with hv ho
        exact ⟨number, head, nested, elder, last, admitted, hv.symm, ho.symm⟩
      · rintro ⟨_, _, _, _, same, _, rfl, rfl⟩
        obtain ⟨hnode, rfl⟩ := List.cons.inj (last.symm.trans same)
        obtain ⟨rfl, rfl, rfl⟩ := Node.block.inj hnode
        rfl

@[simp] theorem leave_eq (following : Option Line) (o : Outline) :
    leave following o = .ok () (o.closed following) := by
  obtain ⟨roots, _ | ⟨block, outer⟩⟩ := o <;> rfl

@[simp] theorem siblings_withSiblings (o : Outline) (nodes : List Node) :
    (o.withSiblings nodes).siblings = nodes := by
  obtain ⟨roots, _ | ⟨block, outer⟩⟩ := o <;> rfl

@[simp] theorem heads_withSiblings (o : Outline) (nodes : List Node) :
    (o.withSiblings nodes).heads = o.heads := by
  obtain ⟨roots, _ | ⟨block, outer⟩⟩ := o <;> rfl

@[simp] theorem withSiblings_withSiblings (o : Outline) (first second : List Node) :
    (o.withSiblings first).withSiblings second = o.withSiblings second := by
  obtain ⟨roots, _ | ⟨block, outer⟩⟩ := o <;> rfl

@[simp] theorem withSiblings_siblings (o : Outline) : o.withSiblings o.siblings = o := by
  obtain ⟨roots, _ | ⟨block, outer⟩⟩ := o <;> rfl

@[simp] theorem siblings_push (o : Outline) (node : Node) :
    (o.push node).siblings = node :: o.siblings :=
  siblings_withSiblings o _

@[simp] theorem heads_push (o : Outline) (node : Node) : (o.push node).heads = o.heads :=
  heads_withSiblings o _

/-- Adding the last node again to the elder ones gives the outline back. -/
theorem push_withSiblings {o : Outline} {node : Node} {elder : List Node}
    (h : o.siblings = node :: elder) : (o.withSiblings elder).push node = o := by
  simp only [push, siblings_withSiblings, withSiblings_withSiblings, ← h, withSiblings_siblings]

@[simp] theorem heads_opened (o : Outline) (line : Nat) (head : Head) (nested elder : List Node) :
    (o.opened line head nested elder).heads = head :: o.heads :=
  congrArg (head :: ·) (heads_withSiblings o elder)

@[simp] theorem heads_closed (o : Outline) (following : Option Line) :
    (o.closed following).heads = o.heads.tail := by
  obtain ⟨roots, _ | ⟨block, outer⟩⟩ := o
  · rfl
  · exact heads_push ⟨roots, outer⟩ _

theorem heads_eq_nil_iff {o : Outline} : o.heads = [] ↔ o.openBlocks = [] := List.map_eq_nil_iff

theorem eq_of_heads_eq_nil {o : Outline} (h : o.heads = []) : o = ⟨o.finished.reverse, []⟩ := by
  rw [finished, List.reverse_reverse, ← heads_eq_nil_iff.mp h]

theorem inHamlComment_eq (o : Outline) :
    o.inHamlComment = o.heads.head?.any (· == .hamlComment) := by
  obtain ⟨roots, _ | ⟨block, outer⟩⟩ := o <;> rfl

@[simp] theorem inHamlComment_push (o : Outline) (node : Node) :
    (o.push node).inHamlComment = o.inHamlComment := by
  rw [inHamlComment_eq, inHamlComment_eq, heads_push]

@[simp] theorem lastNode?_push (o : Outline) (node : Node) :
    (o.push node).lastNode? = some node := by
  rw [lastNode?, siblings_push, List.head?_cons]

end Outline

end HamlTemplate
