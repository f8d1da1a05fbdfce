import HamlTemplate.Filter.Collector
import HamlTemplate.Proofs.Forest
import HamlTemplate.Proofs.Outline
import HamlTemplate.Proofs.Tracking

/-!
# Outlines further on in a source

A template that is read behind another one has its nodes on later lines and behind the other's
nodes, and a line that is put into a template moves those behind it one line on. What a parse does
to an outline it does in the same way to the outline that is renumbered in this sense, as long as it
does not come to the nodes before.
-/

namespace HamlTemplate

namespace Node

mutual

/-- A node with another number for each line. -/
def renumber (f : Nat → Nat) : Node → Node
  | leaf line l => leaf (f line) l
  | block line head nested => block (f line) head (renumberAll f nested)

def renumberAll (f : Nat → Nat) : List Node → List Node
  | [] => []
  | node :: nodes => renumber f node :: renumberAll f nodes

end

mutual

/-- A node that many lines further on. -/
def shift (n : Nat) : Node → Node
  | leaf line l => leaf (line + n) l
  | block line head nested => block (line + n) head (shiftAll n nested)

def shiftAll (n : Nat) : List Node → List Node
  | [] => []
  | node :: nodes => shift n node :: shiftAll n nodes

end

variable {f : Nat → Nat} {n : Nat}

@[simp] theorem renumberAll_eq_map (f : Nat → Nat) (nodes : List Node) :
    renumberAll f nodes = nodes.map (renumber f) := by
  induction nodes with
  | nil => rfl
  | cons node nodes ih => rw [renumberAll, ih, List.map_cons]

@[simp] theorem renumber_leaf (f : Nat → Nat) (line : Nat) (l : Leaf) :
    renumber f (leaf line l) = leaf (f line) l :=
  rfl

@[simp] theorem renumber_block (f : Nat → Nat) (line : Nat) (head : Head) (nested : List Node) :
    renumber f (block line head nested) = block (f line) head (nested.map (renumber f)) := by
  rw [renumber, renumberAll_eq_map]

/-- Nodes whose lines keep their numbers stay the same. -/
private theorem map_renumber_of_fixed {nodes : List Node}
    (fixed : ∀ line ∈ lines nodes, f line = line) :
    nodes.map (renumber f) = nodes := by
  induction nodes using forest_induction with
  | nil => rfl
  | leaf line l rest ih =>
    have own := fixed line List.mem_cons_self
    rw [List.map_cons, renumber_leaf, own, ih fun line later => fixed line (.tail _ later)]
  | block line head nested rest inner outer =>
    have split : lines (block line head nested :: rest) = line :: (lines nested ++ lines rest) := by
      rw [← List.singleton_append, lines_append, lines_block, List.cons_append]
    rw [split, List.forall_mem_cons, List.forall_mem_append] at fixed
    rw [List.map_cons, renumber_block, fixed.1, inner fixed.2.1, outer fixed.2.2]

@[simp] theorem isHamlComment_renumber (f : Nat → Nat) (node : Node) :
    (node.renumber f).isHamlComment = node.isHamlComment := by
  cases node with
  | leaf line l => rfl
  | block line head nested => cases head <;> rfl

theorem shift_eq_renumber (n : Nat) : shift n = renumber (· + n) := by
  have same : ∀ nodes, shiftAll n nodes = renumberAll (· + n) nodes := by
    intro nodes
    induction nodes using forest_induction with
    | nil => rfl
    | leaf line l rest ih => simp only [shiftAll, renumberAll, ih, shift, renumber]
    | block line head nested rest inner outer =>
      simp only [shiftAll, renumberAll, outer, shift, renumber, inner]
  funext node
  have alone := same [node]
  simp only [shiftAll, renumberAll] at alone
  exact (List.cons.inj alone).1

end Node

def Line.shift (n : Nat) (line : Line) : Line := { line with number := line.number + n }

namespace Line

@[simp] theorem text_shift (n : Nat) (line : Line) : (line.shift n).text = line.text := rfl

/-- Lines are counted from one, so the last number is shifted as the first one is. -/
theorem lastNumber_shift (n : Nat) {line : Line} (counted : 1 ≤ line.number) :
    (line.shift n).lastNumber = line.lastNumber + n := by
  simp only [lastNumber, shift]
  omega

/-- A line further on is the same to a tracker. -/
theorem alike_shift (n : Nat) (line : Line) : line.Alike id Eq (line.shift n) := by
  refine ⟨rfl, rfl, ?_, ?_⟩
  · rintro c _ rfl
    rfl
  · rintro t t' same
    simp only [Tracker.mismatch?, Tracker.settle, same]
    rfl

end Line

def FilterBlock.shift (n : Nat) (block : FilterBlock) : FilterBlock :=
  { block with line := block.line + n }

def OpenBlock.renumber (f : Nat → Nat) (block : OpenBlock) : OpenBlock :=
  ⟨f block.line, block.head, block.nested.map (Node.renumber f)⟩

def OpenBlock.shift (n : Nat) (block : OpenBlock) : OpenBlock :=
  ⟨block.line + n, block.head, block.nested.map (Node.shift n)⟩

namespace Outline

/-- The outline with another number for each line, behind other nodes, of which the last one comes
first. -/
def renumber (f : Nat → Nat) (before : List Node) (o : Outline) : Outline :=
  ⟨o.roots.map (Node.renumber f) ++ before, o.openBlocks.map (OpenBlock.renumber f)⟩

/-- The outline that many lines further on, behind other nodes, of which the last one comes
first. -/
def shift (n : Nat) (before : List Node) (o : Outline) : Outline :=
  ⟨o.roots.map (Node.shift n) ++ before, o.openBlocks.map (OpenBlock.shift n)⟩

variable {f : Nat → Nat} {n : Nat} {before : List Node} {o : Outline}

theorem shift_eq_renumber (n : Nat) (before : List Node) (o : Outline) :
    o.shift n before = o.renumber (· + n) before := by
  have blocks : OpenBlock.shift n = OpenBlock.renumber (· + n) := by
    funext block
    rw [OpenBlock.shift, OpenBlock.renumber, Node.shift_eq_renumber]
  rw [shift, renumber, Node.shift_eq_renumber, blocks]

/-- An outline whose lines keep their numbers stays the same with nothing before it. -/
theorem renumber_of_fixed (roots : ∀ line ∈ Node.lines o.roots, f line = line)
    (blocks : ∀ block ∈ o.openBlocks,
      f block.line = block.line ∧ ∀ line ∈ Node.lines block.nested, f line = line) :
    o.renumber f [] = o := by
  have same : o.openBlocks.map (OpenBlock.renumber f) = o.openBlocks := by
    refine (List.map_congr_left fun block member => ?_).trans (List.map_id _)
    obtain ⟨line, nested⟩ := blocks block member
    rw [OpenBlock.renumber, line, Node.map_renumber_of_fixed nested, id]
  rw [renumber, Node.map_renumber_of_fixed roots, same, List.append_nil]

@[simp] theorem shift_zero (o : Outline) : o.shift 0 [] = o := by
  rw [shift_eq_renumber]
  exact renumber_of_fixed (fun _ _ => rfl) fun _ _ => ⟨rfl, fun _ _ => rfl⟩

theorem push_renumber (f : Nat → Nat) (before : List Node) (o : Outline) (node : Node) :
    (o.renumber f before).push (node.renumber f) = (o.push node).renumber f before := by
  obtain ⟨roots, _ | ⟨block, outer⟩⟩ := o <;>
    simp [push, renumber, withSiblings, siblings, OpenBlock.renumber]

@[simp] theorem heads_renumber (f : Nat → Nat) (before : List Node) (o : Outline) :
    (o.renumber f before).heads = o.heads := by
  simp [heads, renumber, Function.comp_def, OpenBlock.renumber]

theorem inHamlComment_renumber (f : Nat → Nat) (before : List Node) (o : Outline) :
    (o.renumber f before).inHamlComment = o.inHamlComment := by
  rw [inHamlComment_eq, inHamlComment_eq, heads_renumber]

theorem closeBlock_renumber (f : Nat → Nat) (n : Nat) (block : OpenBlock)
    (following : Option Line) :
    closeBlock (block.renumber f) (following.map (Line.shift n)) =
      (closeBlock block following).renumber f := by
  simp [closeBlock, OpenBlock.renumber, Option.any_map]

/-- A block is closed alike in view of a line with any number. -/
theorem closed_renumber (f : Nat → Nat) (n : Nat) (before : List Node) (o : Outline)
    (following : Option Line) :
    (o.renumber f before).closed (following.map (Line.shift n)) =
      (o.closed following).renumber f before := by
  obtain ⟨roots, _ | ⟨block, outer⟩⟩ := o
  · rfl
  · have pushed := push_renumber f before ⟨roots, outer⟩ (closeBlock block following)
    rw [← closeBlock_renumber f n] at pushed
    exact pushed

theorem closedTimes_renumber (f : Nat → Nat) (before : List Node) (times : Nat) (o : Outline) :
    (o.renumber f before).closedTimes times = (o.closedTimes times).renumber f before := by
  induction times generalizing o with
  | zero => rfl
  | succ times ih =>
    have first := closed_renumber f 0 before o none
    rw [Option.map_none] at first
    rw [closedTimes, closedTimes, first, ih]

theorem finished_renumber (f : Nat → Nat) (before : List Node) (o : Outline) :
    (o.renumber f before).finished = before.reverse ++ o.finished.map (Node.renumber f) := by
  simp [finished, renumber]

/-- There is a node in the outline to nest a line in, or none before it either. -/
def Anchored (before : List Node) (o : Outline) : Prop := o.siblings = [] → before = []

theorem anchored_push (before : List Node) (o : Outline) (node : Node) :
    (o.push node).Anchored before := by
  intro empty
  simp at empty

theorem siblings_renumber_of_nil (anchored : o.Anchored before) (empty : o.siblings = []) :
    (o.renumber f before).siblings = [] := by
  rw [anchored empty]
  obtain ⟨roots, _ | ⟨block, outer⟩⟩ := o
  · cases empty
    rfl
  · exact List.map_eq_nil_iff.mpr empty

/-- The last node is renumbered, and so is the outline around it. -/
theorem siblings_renumber_of_cons (f : Nat → Nat) (before : List Node) {node : Node}
    {elder : List Node} (last : o.siblings = node :: elder) :
    ∃ elder', (o.renumber f before).siblings = node.renumber f :: elder' ∧
      (o.renumber f before).withSiblings elder' = (o.withSiblings elder).renumber f before := by
  obtain ⟨roots, _ | ⟨block, outer⟩⟩ := o
  · cases last
    exact ⟨elder.map (Node.renumber f) ++ before, rfl, rfl⟩
  · obtain ⟨number, head, nested⟩ := block
    cases last
    exact ⟨elder.map (Node.renumber f), rfl, rfl⟩

theorem lastNode?_renumber (anchored : o.Anchored before) :
    (o.renumber f before).lastNode? = o.lastNode?.map (Node.renumber f) := by
  rw [lastNode?, lastNode?]
  cases last : o.siblings with
  | nil => rw [siblings_renumber_of_nil anchored last]; rfl
  | cons node elder =>
    obtain ⟨elder', siblings, _⟩ := siblings_renumber_of_cons f before last
    rw [siblings]
    rfl

theorem opened_renumber (f : Nat → Nat) (before : List Node) {line : Nat} {head : Head}
    {nested elder elder' : List Node}
    (around :
      (o.renumber f before).withSiblings elder' = (o.withSiblings elder).renumber f before) :
    (o.renumber f before).opened (f line) head (nested.map (Node.renumber f)) elder' =
      (o.opened line head nested elder).renumber f before := by
  unfold opened
  rw [around]
  simp [renumber, OpenBlock.renumber]

variable {answer? : SourceError → Option SourceError} {line : Line}

/-- A line opens the last node, or fails to, as the shifted line does in the renumbered outline. -/
theorem enter_agree (answers : ∀ e, answer? e = none ∨ answer? e = some (e.shift n))
    (anchored : o.Anchored before) (counted : 1 ≤ line.number) :
    Agree (fun o o' => o' = o.renumber f before) answer? (enter line o)
      (enter (line.shift n) (o.renumber f before)) := by
  have number := Line.lastNumber_shift n counted
  simp only [enter, number]
  cases last : o.siblings with
  | nil =>
    rw [siblings_renumber_of_nil anchored last]
    exact Tracker.agree_of_answers (answers _)
  | cons node elder =>
    obtain ⟨elder', siblings, around⟩ := siblings_renumber_of_cons f before last
    rw [siblings]
    cases node with
    | leaf line l => exact Tracker.agree_of_answers (answers _)
    | block line head nested =>
      simp only [Node.renumber_block]
      cases head.nestingFault? with
      | some fault => exact Tracker.agree_of_answers (answers _)
      | none => exact .ok (opened_renumber f before around)

/-- The indentation of a line does to an outline what that of the shifted line does to the
renumbered outline. -/
theorem handler_parallel (answers : ∀ e, answer? e = none ∨ answer? e = some (e.shift n))
    (f : Nat → Nat) (before : List Node) (line : Line) :
    handler.Parallel handler (fun o o' => o' = o.renumber f before) answer? line
      (line.shift n) where
  leave := by
    rintro o _ rfl
    simp only [handler, leave_eq]
    exact .ok (closed_renumber f n before o none)
  leaveFor := by
    rintro o _ rfl
    simp only [handler, leave_eq]
    exact .ok (closed_renumber f n before o (some line))
  mixed _ := answers _
  unmatched := answers _

end Outline

end HamlTemplate
