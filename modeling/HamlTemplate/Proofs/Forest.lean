import HamlTemplate.Node.Basic

/-!
# Forests of nodes

The nodes of a template in document order, each before those nested in it. The content of an
element's own line is not among them: it belongs to the element. Neither are, for the structure of
a template, the lines of a Haml comment, which are its text.
-/

namespace HamlTemplate

namespace Node

/-- A forest is empty, or begins with a leaf, or begins with a block whose nested nodes are a
forest of their own. -/
@[elab_as_elim]
theorem forest_induction {motive : List Node → Prop} (nil : motive [])
    (leaf : ∀ line l rest, motive rest → motive (leaf line l :: rest))
    (block : ∀ line head nested rest, motive nested → motive rest →
      motive (block line head nested :: rest)) (nodes : List Node) : motive nodes :=
  @Node.rec_1 (fun node => ∀ rest, motive rest → motive (node :: rest)) motive leaf
    (fun line head nested inner rest outer => block line head nested rest inner outer) nil
    (fun _ rest first => first rest) nodes

mutual

/-- A node and all nodes nested in it, in document order. -/
def preorder : Node → List Node
  | leaf line l => [leaf line l]
  | block line head nested => block line head nested :: preorderAll nested

def preorderAll : List Node → List Node
  | [] => []
  | node :: nodes => preorder node ++ preorderAll nodes

end

mutual

/-- A node and the nodes of its structure, in document order. A Haml comment has none below it. -/
def structural : Node → List Node
  | leaf line l => [leaf line l]
  | block line head nested =>
    block line head nested :: if head == .hamlComment then [] else structuralAll nested

def structuralAll : List Node → List Node
  | [] => []
  | node :: nodes => structural node ++ structuralAll nodes

end

/-- The nodes nested in a node as parts of the structure. -/
def parts : Node → List Node
  | leaf .. => []
  | block _ head nested => if head == .hamlComment then [] else nested

/-- The content that a node has on its own line. -/
def inline? : Node → Option Node
  | leaf .. => none
  | block line head _ => head.inline? line

def lines (nodes : List Node) : List Nat := (preorderAll nodes).map line

@[simp] theorem preorderAll_nil : preorderAll [] = [] := rfl

@[simp] theorem preorderAll_cons (node : Node) (nodes : List Node) :
    preorderAll (node :: nodes) = preorder node ++ preorderAll nodes := rfl

@[simp] theorem preorderAll_append (first second : List Node) :
    preorderAll (first ++ second) = preorderAll first ++ preorderAll second := by
  induction first with
  | nil => rfl
  | cons node first ih => simp [ih]

@[simp] theorem structuralAll_nil : structuralAll [] = [] := rfl

@[simp] theorem structuralAll_cons (node : Node) (nodes : List Node) :
    structuralAll (node :: nodes) = structural node ++ structuralAll nodes := rfl

/-- The structure of a node is the node and then that of its parts. -/
theorem structural_eq (node : Node) : structural node = node :: structuralAll node.parts := by
  cases node with
  | leaf line l => rfl
  | block line head nested =>
    simp only [structural, parts]
    split <;> rfl

@[simp] theorem lines_nil : lines [] = [] := rfl

@[simp] theorem lines_append (first second : List Node) :
    lines (first ++ second) = lines first ++ lines second := by
  simp [lines]

@[simp] theorem lines_leaf (line : Nat) (l : Leaf) : lines [leaf line l] = [line] := rfl

@[simp] theorem lines_block (line : Nat) (head : Head) (nested : List Node) :
    lines [block line head nested] = line :: lines nested := by
  simp [lines, preorder, Node.line]

/-- A node with nothing nested in it stands for its own line only. -/
theorem lines_of_nested_eq_nil {node : Node} (h : node.nested = []) :
    lines [node] = [node.line] := by
  cases node with
  | leaf line l => rfl
  | block line head nested =>
    rw [Node.nested] at h
    rw [lines_block, h]
    rfl

/-- The content that a node has on its own line is a script or a text. -/
theorem eq_of_inline? {node child : Node} (h : node.inline? = some child) :
    (∃ code, child = block node.line (.script code false) []) ∨
      ∃ content, child = leaf node.line (.text content) := by
  cases node with
  | leaf line l => cases h
  | block line head nested =>
    cases head with
    | element e =>
      rw [inline?, Head.inline?] at h
      cases tail : e.tail with
      | script code =>
        rw [tail] at h
        cases h
        exact .inl ⟨code, rfl⟩
      | text content =>
        rw [tail] at h
        cases h
        exact .inr ⟨content, rfl⟩
      | empty | selfClosing =>
        rw [tail] at h
        cases h
    | comment | hamlComment | script | silentScript => cases h

/-- The content on the line of a node is on that line. -/
theorem line_of_inline? {node child : Node} (h : node.inline? = some child) :
    child.line = node.line := by
  obtain ⟨code, rfl⟩ | ⟨content, rfl⟩ := eq_of_inline? h
  · rfl
  · rfl

/-- Nothing is nested in the content of a node's own line. -/
theorem nested_of_inline? {node child : Node} (h : node.inline? = some child) :
    child.nested = [] := by
  obtain ⟨code, rfl⟩ | ⟨content, rfl⟩ := eq_of_inline? h
  · rfl
  · rfl

/-- A node stands before all that is nested in it. -/
theorem preorder_eq (node : Node) : preorder node = node :: preorderAll node.nested := by
  cases node <;> rfl

/-- A way to go through a forest in document order. Each node comes before all that it has below
it, which is what is nested in it or nothing. -/
structure Walk (below : Node → List Node) (all : List Node → List Node) : Prop where
  nested_or_nil : ∀ node, below node = node.nested ∨ below node = []
  nil : all [] = []
  cons : ∀ node nodes, all (node :: nodes) = node :: all (below node) ++ all nodes

theorem walk_preorder : Walk nested preorderAll where
  nested_or_nil _ := .inl rfl
  nil := rfl
  cons node nodes := by rw [preorderAll_cons, preorder_eq]

theorem walk_structural : Walk parts structuralAll where
  nested_or_nil
    | leaf .. => .inl rfl
    | block _ head nested => by
      simp only [parts, Node.nested]
      split
      · exact .inr rfl
      · exact .inl rfl
  nil := rfl
  cons node nodes := by rw [structuralAll_cons, structural_eq]

namespace Walk

variable {below : Node → List Node} {all : List Node → List Node} {nodes : List Node}
  {node first : Node}

/-- A forest is empty, or begins with a node that has a forest of its own below it. -/
@[elab_as_elim]
theorem induction (walk : Walk below all) {motive : List Node → Prop} (nil : motive [])
    (cons : ∀ node rest, motive (below node) → motive rest → motive (node :: rest))
    (nodes : List Node) : motive nodes := by
  induction nodes using forest_induction with
  | nil => exact nil
  | leaf line l rest ih =>
    refine cons _ rest ?_ ih
    obtain same | same := walk.nested_or_nil (leaf line l) <;> exact same ▸ nil
  | block line head nested rest inner outer =>
    refine cons _ rest ?_ outer
    obtain same | same := walk.nested_or_nil (block line head nested)
    · exact same ▸ inner
    · exact same ▸ nil

theorem mem_cons (walk : Walk below all) :
    node ∈ all (first :: nodes) ↔ node = first ∨ node ∈ all (below first) ∨ node ∈ all nodes := by
  rw [walk.cons, List.cons_append, List.mem_cons, List.mem_append]

theorem subset (walk : Walk below all) : nodes ⊆ all nodes := by
  induction nodes with
  | nil => exact List.nil_subset _
  | cons first nodes ih =>
    intro node member
    obtain rfl | later := List.mem_cons.mp member
    · exact walk.mem_cons.mpr (.inl rfl)
    · exact walk.mem_cons.mpr (.inr (.inr (ih later)))

/-- A node and all that it has below it are a stretch of the forest they belong to. -/
theorem isInfix (walk : Walk below all) (h : node ∈ all nodes) :
    node :: all (below node) <:+: all nodes := by
  induction nodes using walk.induction with
  | nil =>
    rw [walk.nil] at h
    cases h
  | cons first rest inner outer =>
    rw [walk.cons]
    obtain rfl | within | later := walk.mem_cons.mp h
    · exact (List.prefix_append _ _).isInfix
    · have own : all (below first) <:+: first :: all (below first) :=
        (List.suffix_cons _ _).isInfix
      exact (inner within).trans (own.trans (List.prefix_append _ _).isInfix)
    · exact (outer later).trans (List.suffix_append _ _).isInfix

/-- A node of a forest is one of its first nodes, or another node of it has it right below. -/
theorem mem_or_exists_above (walk : Walk below all) (h : node ∈ all nodes) :
    node ∈ nodes ∨ ∃ above ∈ all nodes, node ∈ below above := by
  induction nodes using walk.induction with
  | nil =>
    rw [walk.nil] at h
    cases h
  | cons first rest inner outer =>
    obtain rfl | within | later := walk.mem_cons.mp h
    · exact .inl List.mem_cons_self
    · obtain own | ⟨above, member, child⟩ := inner within
      · exact .inr ⟨first, walk.mem_cons.mpr (.inl rfl), own⟩
      · exact .inr ⟨above, walk.mem_cons.mpr (.inr (.inl member)), child⟩
    · obtain root | ⟨above, member, child⟩ := outer later
      · exact .inl (List.mem_cons_of_mem _ root)
      · exact .inr ⟨above, walk.mem_cons.mpr (.inr (.inr member)), child⟩

end Walk

/-- If the lines of a forest ascend, what is nested in a node is on later lines. -/
theorem line_lt_of_mem_nested {node child : Node} {nodes : List Node}
    (ascending : (lines nodes).Pairwise (· < ·)) (h : node ∈ preorderAll nodes)
    (nested : child ∈ node.nested) : node.line < child.line := by
  have own := (List.pairwise_map.mp ascending).sublist (walk_preorder.isInfix h).sublist
  exact (List.pairwise_cons.mp own).1 child (walk_preorder.subset nested)

/-- The structure leaves nodes out and keeps the order of the others. -/
theorem structuralAll_sublist (nodes : List Node) :
    (structuralAll nodes).Sublist (preorderAll nodes) := by
  induction nodes using forest_induction with
  | nil => exact .slnil
  | leaf line l rest ih => exact ih.cons_cons _
  | block line head nested rest inner outer =>
    rw [structuralAll_cons, preorderAll_cons]
    refine .append ?_ outer
    simp only [structural, preorder]
    split
    · exact (List.nil_sublist _).cons_cons _
    · exact inner.cons_cons _

end Node

end HamlTemplate
