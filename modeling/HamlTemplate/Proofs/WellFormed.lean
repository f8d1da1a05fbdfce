import HamlTemplate.Proofs.ElementParts
import HamlTemplate.Proofs.Siblings

/-!
# Well-formed nodes

What a node begins with is settled by its line: names are made of name characters, plain content is
trimmed, and a filter is registered. Nodes are added to it afterwards, when its line is long past,
and still a node comes to hold only what its beginning admits: nothing behind the content of its own
line, plain texts in a Haml comment, and in all others nodes of later lines.
-/

namespace HamlTemplate

open Unicode

/-- What may be the children of a node on the given line that begins with the head. An element holds
what the end of its line says: nothing behind the mark of self-closing, only the content of the line
if it has some, and nodes of later lines if it has none. A Haml comment holds plain texts. -/
def Head.Fits (line : Nat) (children : List Node) : Head → Prop
  | .element e =>
    match e.tail with
    | .selfClosing => children = []
    | .script code => children = [.block line (.script code false) []]
    | .text content => children = [.leaf line (.text content)]
    | .empty => ∀ child ∈ children, line < child.line
  | .hamlComment => ∀ child ∈ children, child.kind = .text
  | .comment _ | .script .. | .silentScript .. => True

namespace Node

variable (registry : Registry)

def BeginsWell : Node → Prop
  | block _ (.element e) _ => e.HasNames ∧ ∀ content, e.tail = .text content → content.IsTight
  | leaf _ (.filter name _) => registry.contains name = true ∧ name.IsWord
  | _ => True

/-- The children of a node, if it can have some, are those that it may have. -/
def HoldsFitting : Node → Prop
  | leaf .. => True
  | block line head nested => head.Fits line ((head.inline? line).toList ++ nested)

variable {registry} {source : Text} {nodes : List Node} {node child : Node}

theorem beginsWell_bare : node.bare.BeginsWell registry ↔ node.BeginsWell registry := by
  cases node with
  | leaf line l => rfl
  | block line head nested => cases head <;> rfl

/-- The content of an element's own line is no element. -/
theorem beginsWell_of_inline? (h : node.inline? = some child) : child.BeginsWell registry := by
  obtain ⟨code, rfl⟩ | ⟨content, rfl⟩ := eq_of_inline? h
  · trivial
  · trivial

/-- In a forest whose lines ascend, a node that is sound holds what it may. -/
theorem holdsFitting {continues : Nat → Bool} (sound : node.Sound continues)
    (later : ∀ child ∈ node.nested, node.line < child.line) : node.HoldsFitting := by
  cases node with
  | leaf line l => trivial
  | block line head nested =>
    cases head with
    | element e =>
      rw [HoldsFitting, Head.Fits, Head.inline?]
      cases tail : e.tail with
      | empty => exact later
      | selfClosing | script code | text content =>
        rw [sound.nested_eq_nil (by simp [Head.nestingFault?, tail])]
        rfl
    | hamlComment =>
      intro child member
      exact sound.texts rfl child (List.mem_reverse.mpr member)
    | comment | script | silentScript => trivial

end Node

/-- What a line of content begins, begins well. -/
theorem Reading.Begins.beginsWell {registry : Registry} {c c' : Cursor} {number : Nat} {node : Node}
    {content : Content} (begins : Begins number c content node c') : node.BeginsWell registry := by
  cases begins with
  | doctype | comment | hamlComment | plain | script | silentScript => trivial
  | element read =>
    obtain ⟨declared, _, _, _, _, _, declaration, _, tailed, tag, classes, ids, rfl⟩ :=
      element_eq_ok read
    have names := (Element.declaration_eq_ok declaration).1
    refine ⟨⟨?_, ?_, ?_⟩, (elementTail_eq_ok tailed).2⟩
    · rw [tag]
      exact names.tag
    · rw [classes]
      exact names.classes
    · rw [ids]
      exact names.ids

namespace FilterBlock

theorem contains_of_finish {block : FilterBlock} {registry : Registry} {node : Node}
    (h : block.finish registry = .ok node) : registry.contains block.name = true := by
  obtain ⟨output, compiled, _⟩ := finish_eq_ok h
  obtain ⟨filter, known, _⟩ := Option.map_eq_some_iff.mp compiled
  rw [Registry.contains, known]
  rfl

end FilterBlock

theorem Node.Begun.beginsWell {registry : Registry} {source : Text} {node : Node}
    (begun : Begun registry source node) : node.BeginsWell registry := by
  cases begun with
  | verbatim => trivial
  | content _ _ begins => exact begins.beginsWell
  | filter reached collecting _ finished =>
    have known := FilterBlock.contains_of_finish finished
    obtain ⟨_, line, _, _, _, started⟩ := ParseState.exists_started reached collecting
    obtain ⟨output, _, rfl⟩ := FilterBlock.finish_eq_ok finished
    exact ⟨known, (FilterBlock.start_eq_ok_name started).2⟩

namespace Document

variable {registry : Registry} {source : Text} {d : Document} {node : Node}

theorem beginsWell_of_mem_nodes (h : parse registry source = .ok d) (member : node ∈ d.nodes) :
    node.BeginsWell registry := by
  obtain own | ⟨outer, within, inline⟩ := Node.mem_nodes_iff.mp member
  · exact Node.beginsWell_bare.mp (begun_of_parse h node own).beginsWell
  · exact Node.beginsWell_of_inline? inline

theorem holdsFitting_of_mem_nodes (h : parse registry source = .ok d) (member : node ∈ d.nodes) :
    node.HoldsFitting := by
  refine Node.holdsFitting (sound_of_mem_nodes h member) ?_
  intro child nested
  obtain own | ⟨outer, within, inline⟩ := Node.mem_nodes_iff.mp member
  · exact Node.line_lt_of_mem_nested (lines_ascending h) own nested
  · rw [Node.nested_of_inline? inline] at nested
    cases nested

end Document

/-- Every node of a document is well formed. What its line says is: the names of an element, a
plain content, the name of a filter. It holds what it may: nothing if it is self-closing, only the
content of its own line if it has some, nodes of later lines if it is an element without any, and
texts if it is a Haml comment. Every node has its place among siblings, and where a flag is set
there are children and a next sibling. -/
theorem wellFormed_of_parse {registry : Registry} {source : Text} {d : Document}
    (h : Document.parse registry source = .ok d) :
    (∀ node ∈ d.nodes, node.BeginsWell registry ∧ node.HoldsFitting ∧
      ∃ siblings ∈ d.siblingLists, node ∈ siblings) ∧
    ∀ siblings ∈ d.siblingLists, ∀ elder node younger, siblings = elder ++ node :: younger →
      node.midBlock? = some true →
        (∃ child children, node.children? = some (child :: children)) ∧ younger ≠ [] := by
  constructor
  · intro node member
    exact ⟨Document.beginsWell_of_mem_nodes h member, Document.holdsFitting_of_mem_nodes h member,
      Document.exists_siblings member⟩
  · intro siblings member elder node younger split flag
    have row := Document.row_of_mem_siblingLists h member
    obtain ⟨children, next⟩ := ((row.flagged split).eq_true_iff flag).mp rfl
    refine ⟨children, ?_⟩
    rintro rfl
    cases next

/-- Elements with all ends of lines but the empty one, a Haml comment, a filter and a flag. -/
theorem wellFormed_of_parse_else :
    ∃ d, Document.parse .builtins
        "%a.b#c= x\n%p t\n%br/\n-#\n  n\n- if y\n  z\n- else\n  :plain\n    w\n".toList = .ok d ∧
      (∀ node ∈ d.nodes, node.BeginsWell .builtins ∧ node.HoldsFitting ∧
        ∃ siblings ∈ d.siblingLists, node ∈ siblings) ∧
      ∃ siblings ∈ d.siblingLists, ∃ elder node younger, siblings = elder ++ node :: younger ∧
        node.midBlock? = some true ∧ younger ≠ [] := by
  have parsed : Document.parse .builtins
      "%a.b#c= x\n%p t\n%br/\n-#\n  n\n- if y\n  z\n- else\n  :plain\n    w\n".toList = .ok ⟨10, [
        .block 1 (.element
          { tag := ['a'], classes := [['b']], ids := [['c']], tail := .script ['x'] }) [],
        .block 2 (.element { tag := ['p'], tail := .text ['t'] }) [],
        .block 3 (.element { tag := "br".toList, tail := .selfClosing }) [],
        .block 4 .hamlComment [.leaf 5 (.text ['n'])],
        .block 6 (.silentScript "if y".toList true) [.leaf 7 (.text ['z'])],
        .block 8 (.silentScript "else".toList false) [
          .leaf 9 (.filter "plain".toList (.static "w\n".toList))]]⟩ := by
    decide +kernel
  have wellFormed := wellFormed_of_parse parsed
  have flagged := wellFormed.2 _ List.mem_cons_self [_, _, _, _] _ [_] rfl rfl
  exact ⟨_, parsed, wellFormed.1, _, List.mem_cons_self, [_, _, _, _], _, [_], rfl, rfl, flagged.2⟩

end HamlTemplate
