import HamlTemplate.Proofs.ElementGrammar
import HamlTemplate.Proofs.Round

/-!
# Reading printed lines

A printed line is read as the node it was printed from. The line of an element is one of those that
the grammar of element lines writes, and printing trims nothing off it. None of the lines needs
another one, so reading them leaves the cursor where it is.
-/

namespace HamlTemplate

/-! ### Names -/

theorem Text.IsName.trimEnd_eq {name : Text} (h : name.IsName) : name.trimEnd = name :=
  Text.trimEnd_eq_self_iff.mpr fun nonempty =>
    isWhiteSpace_of_isNameChar (h.2 _ (List.getLast_mem nonempty))

private theorem Text.IsTight.trim_space {text : Text} (h : text.IsTight) :
    Text.trim (' ' :: text) = text := by
  rw [Text.trim_cons Text.isWhiteSpace_space, h.2]

private theorem Text.IsTight.trimEnd_space {text : Text} (h : text.IsTight) :
    Text.trimEnd (' ' :: text) = ' ' :: text := by
  rw [← List.singleton_append, Text.trimEnd_append, Text.trimEnd_of_trim h.2, if_neg h.1]

/-! ### Elements -/

theorem Shorthand.trimEnd_printedAll {shorthands : List Shorthand}
    (names : ∀ shorthand ∈ shorthands, shorthand.name.IsName) :
    Text.trimEnd (shorthands.flatMap printed) = shorthands.flatMap printed := by
  induction shorthands with
  | nil => rfl
  | cons shorthand more ih =>
    obtain ⟨first, others⟩ := List.forall_mem_cons.mp names
    have own : Text.trimEnd shorthand.printed = shorthand.printed := by
      cases shorthand <;>
      · rw [printed, Text.trimEnd_cons (by decide)]
        exact congrArg _ first.trimEnd_eq
    exact Text.trimEnd_append_of_trimmed own (ih others)

theorem TrimMarks.trimEnd_printed (marks : TrimMarks) : marks.printed.trimEnd = marks.printed := by
  obtain ⟨inside, outside⟩ := marks
  revert inside outside
  decide

theorem ElementTail.trimEnd_printed {tail : ElementTail} (h : tail.Printable) :
    tail.printed.trimEnd = tail.printed := by
  cases tail with
  | empty => rfl
  | selfClosing => decide
  | script code => rw [printed, Text.trimEnd_cons (by decide), h.tight.trimEnd_space]
  | text content => exact Text.IsTight.trimEnd_space h

variable {e : Element}

namespace Element

theorem trimEnd_block (e : Element) : e.block.trimEnd = e.block := by
  rw [block]
  cases e.attributes? with
  | none => rfl
  | some code =>
    rw [Option.map_some, Option.getD_some, Text.braced, Text.trimEnd_eq_self_iff]
    intro nonempty
    rw [List.getLast_append_singleton]
    decide

/-- The line of an element does not end in white space, because no part of it does. -/
theorem trimEnd_printed (h : e.Printable) : e.printed.trimEnd = e.printed := by
  have tag : Text.trimEnd ('%' :: e.tag) = '%' :: e.tag := by
    rw [Text.trimEnd_cons (by decide), h.tag.trimEnd_eq]
  have ending : Text.trimEnd (e.marks.printed ++ e.tail.printed) =
      e.marks.printed ++ e.tail.printed :=
    Text.trimEnd_append_of_trimmed e.marks.trimEnd_printed (ElementTail.trimEnd_printed h.tail)
  have rest : e.printedRest.trimEnd = e.printedRest :=
    Text.trimEnd_append_of_trimmed e.trimEnd_block ending
  exact Text.trimEnd_append_of_trimmed tag
    (Text.trimEnd_append_of_trimmed (Shorthand.trimEnd_printedAll h.shorthands) rest)

end Element

def ElementTail.written : ElementTail → WrittenTail
  | empty => .empty
  | selfClosing => .selfClosing
  | script code => .script (' ' :: code)
  | text content => .text ' ' content

theorem ElementTail.line_written (tail : ElementTail) : tail.written.line = tail.printed := by
  cases tail <;> rfl

theorem ElementTail.Printable.wellFormed {tail : ElementTail} (h : tail.Printable) :
    tail.written.WellFormed := by
  cases tail with
  | empty | selfClosing => trivial
  | script code =>
    rw [written, WrittenTail.WellFormed, h.tight.trim_space]
    exact ⟨h.tight.1, h.complete⟩
  | text content =>
    rw [written, WrittenTail.WellFormed, h.2]
    exact ⟨Text.isWhiteSpace_space, h.1⟩

theorem ElementTail.Printable.meaning_written {tail : ElementTail} (h : tail.Printable) :
    tail.written.meaning = tail := by
  cases tail with
  | empty | selfClosing => rfl
  | script code => exact congrArg script h.tight.trim_space
  | text content => exact congrArg text h.2

theorem TrimMarks.printed_mem_spellings (marks : TrimMarks) : marks.printed ∈ spellings := by
  obtain ⟨inside, outside⟩ := marks
  revert inside outside
  decide

theorem TrimMarks.ofText_printed (marks : TrimMarks) : ofText marks.printed = marks := by
  obtain ⟨inside, outside⟩ := marks
  revert inside outside
  decide

namespace Element

/-- The parts that the line of an element is printed from, the classes before the ids. -/
def written (e : Element) : WrittenElement :=
  ⟨e.tag, e.shorthands, e.attributes?, e.marks.printed, e.tail.written⟩

theorem line_written (e : Element) : e.written.line = e.printed := by
  rw [WrittenElement.line, WrittenElement.rest, written, e.tail.line_written]
  rfl

theorem Printable.wellFormed (h : e.Printable) : e.written.WellFormed where
  tag := h.tag.2
  shorthands := h.shorthands
  declares := .inl h.tag.1
  attributes code given :=
    Text.bracketedBytes?_eq_utf8Length_iff.mpr (h.attributes code given).closed
  marks := e.marks.printed_mem_spellings
  tail := h.tail.wellFormed

/-- The parts say the element they were taken from. -/
theorem Printable.element_written (h : e.Printable) : e.written.element = e := by
  have tag : e.tag.isEmpty = false := by
    rw [Bool.eq_false_iff, ne_eq, List.isEmpty_iff]
    exact h.tag.1
  have classes : e.shorthands.filterMap Shorthand.class? = e.classes := by
    simp [Element.shorthands, Function.comp_def, Shorthand.class?]
  have ids : e.shorthands.filterMap Shorthand.id? = e.ids := by
    simp [Element.shorthands, Function.comp_def, Shorthand.id?]
  have attributes : e.attributes?.map Text.trim = e.attributes? := by
    cases given : e.attributes? with
    | none => rfl
    | some code => exact congrArg some (h.attributes code given).trimmed
  simp only [WrittenElement.element, written, tag, classes, ids, attributes,
    e.marks.ofText_printed, h.tail.meaning_written, Bool.false_eq_true, if_false]
  rfl

end Element

/-- An element is read back from its line. -/
theorem Reading.element_printed {e : Element} (h : e.Printable) (c : Cursor) :
    element e.printed c = .ok e c := by
  rw [← e.line_written, WrittenElement.element_line h.wellFormed, h.element_written]

/-! ### Lines -/

/-- What stands behind a mark and a space is found by trimming it. -/
private theorem Text.trim_trimEnd_space {text : Text} (h : text.trim = text) :
    Text.trim (Text.trimEnd (' ' :: text)) = text := by
  rw [Text.trim_trimEnd, Text.trim_cons Text.isWhiteSpace_space, h]

namespace Reading

/-- A leaf is read back from its line. -/
theorem node?_leaf {l : Leaf} (h : l.Printable) (number : Nat) :
    ∃ action, node? number (Content.ofText l.printed.trimEnd) = some action ∧
      ∀ c, action c = .ok (.leaf number l) c := by
  cases l with
  | filter => exact h.elim
  | doctype content =>
    have line : (Leaf.doctype content).printed.trimEnd =
        '!' :: '!' :: '!' :: Text.trimEnd (' ' :: content) := by
      simp only [Leaf.printed, String.reduceToList, List.cons_append, List.nil_append]
      iterate 3 rw [Text.trimEnd_cons (by decide)]
    refine ⟨pure (.leaf number (.doctype content)), ?_, fun c => rfl⟩
    rw [line, Content.ofText, node?, Text.trim_trimEnd_space h]
  | text content =>
    have line : (Leaf.text content).printed.trimEnd = '\\' :: content := by
      rw [Leaf.printed, Text.trimEnd_cons (by decide), h]
    exact ⟨pure (.leaf number (.text content)), by rw [line]; rfl, fun c => rfl⟩

/-- A head is read back from its line, with its flag not set. -/
theorem node?_head {head : Head} (h : head.Printable) (number : Nat) :
    ∃ action, node? number (Content.ofText head.printed.trimEnd) = some action ∧
      ∀ c, action c = .ok (.block number (head.withMidBlock false) []) c := by
  cases head with
  | comment text =>
    refine ⟨pure (.block number (.comment text) []), ?_, fun c => rfl⟩
    rw [Head.printed, Text.trimEnd_cons (by decide), Content.ofText, node?,
      Text.trim_trimEnd_space h]
  | hamlComment => exact ⟨pure (.block number .hamlComment []), rfl, fun c => rfl⟩
  | element e =>
    refine ⟨_, by rw [Head.printed, Element.trimEnd_printed h]; rfl, fun c => ?_⟩
    exact bind_eq_ok_iff.mpr ⟨e, c, element_printed h c, rfl⟩
  | script code flag =>
    refine ⟨_, by rw [Head.printed, Text.trimEnd_cons (by decide)]; rfl, fun c => ?_⟩
    exact bind_eq_ok_iff.mpr
      ⟨code, c, script_of_isScript h (Text.trim_trimEnd_space h.tight.2) c, rfl⟩
  | silentScript code flag =>
    have line : (Head.silentScript code flag).printed.trimEnd = '-' :: ' ' :: code := by
      rw [Head.printed, Text.trimEnd_cons (by decide), h.tight.trimEnd_space]
    refine ⟨_, by rw [line]; rfl, fun c => ?_⟩
    exact bind_eq_ok_iff.mpr ⟨code, c, script_of_isScript h h.tight.trim_space c, rfl⟩

end Reading

/-- A line that begins with the mark of another node does not go on with a block. -/
theorem Text.continuesBlock_of_mark {c : Char} (h : ['\\', '!', '/', '%', '='].contains c)
    (text : Text) :
    (Text.trimEnd (c :: text)).continuesBlock = false := by
  have mark : c = '\\' ∨ c = '!' ∨ c = '/' ∨ c = '%' ∨ c = '=' := by simpa using h
  obtain rfl | rfl | rfl | rfl | rfl := mark <;>
  · rw [Text.trimEnd_cons (by decide)]
    rfl

namespace Node

/-- Only the line of a silent script can go on with a block. -/
theorem continuesBlock_leaf {l : Leaf} (h : l.Printable) (line : Nat) :
    l.printed.trimEnd.continuesBlock = (leaf line l).continuesBlock := by
  cases l with
  | filter => exact h.elim
  | doctype content => exact Text.continuesBlock_of_mark rfl _
  | text content => exact Text.continuesBlock_of_mark rfl _

theorem continuesBlock_block {head : Head} (h : head.Printable) (line : Nat)
    (nested : List Node) :
    head.printed.trimEnd.continuesBlock = (block line head nested).continuesBlock := by
  cases head with
  | hamlComment => rfl
  | comment text => exact Text.continuesBlock_of_mark rfl _
  | element e => exact Text.continuesBlock_of_mark rfl _
  | script code flag => exact Text.continuesBlock_of_mark rfl _
  | silentScript code flag =>
    have code_eq : Text.trimStart (' ' :: code) = code := by
      rw [Text.trimStart_cons Text.isWhiteSpace_space, Text.trimStart_of_trim h.tight.2]
    rw [Head.printed, Text.trimEnd_cons (by decide), h.tight.trimEnd_space]
    simp only [Text.continuesBlock, code_eq, continuesBlock]

end Node

end HamlTemplate
