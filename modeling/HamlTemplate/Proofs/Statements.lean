import HamlTemplate.Proofs.Beginnings
import HamlTemplate.Proofs.Completeness
import HamlTemplate.Proofs.ElementParts

/-!
# Embedded code is a minimal statement

Code is gathered line by line until it is a statement, so no beginning of it that ends with a line
is one already. Line feeds come into a piece of code only between gathered lines: it begins on a
single line, even behind an attribute block that goes on over several. And the last line gathered is
never blank, because a blank line completes nothing.
-/

namespace HamlTemplate

open Unicode

/-- The code is a whole statement, and it is not one yet where a line of it ends. -/
structure Text.IsMinimalStatement (code : Text) : Prop extends code.IsScript where
  minimal : ∀ before after, code = before ++ '\n' :: after → before.isStatement = false

namespace Text

variable {text before after : Text} {tidy : Text → Text} {lines : List Text}

/-- A text of one line has, with more lines behind it, line feeds only where those lines begin. -/
private theorem exists_take_of_continued_eq (single : '\n' ∉ text)
    (unbroken : ∀ raw ∈ lines, '\n' ∉ tidy raw)
    (h : continued tidy text lines = before ++ '\n' :: after) :
    ∃ j < lines.length, before = continued tidy text (lines.take j) := by
  induction lines using List.reverseRecOn generalizing after with
  | nil =>
    rw [continued_nil] at h
    exact absurd (by simp [h]) single
  | append_singleton lines raw ih =>
    have within : ∀ line ∈ lines, '\n' ∉ tidy line :=
      fun line member => unbroken line (List.mem_append_left _ member)
    rw [continued_concat, List.append_eq_append_iff] at h
    rw [List.length_append, List.length_singleton]
    -- The line feed is inside the last line, is the one before it, or comes earlier.
    obtain ⟨more, rfl, behind⟩ | ⟨more, same, behind⟩ := h
    · cases more with
      | nil => exact ⟨lines.length, Nat.lt_succ_self _, by simp⟩
      | cons c more =>
        have inside := (List.cons.inj behind).2
        exact absurd (by simp [inside]) (unbroken raw (by simp))
    · cases more with
      | nil => exact ⟨lines.length, Nat.lt_succ_self _, by simp [same]⟩
      | cons c more =>
        obtain ⟨rfl, rfl⟩ := List.cons.inj behind
        obtain ⟨j, less, rfl⟩ := ih within same
        refine ⟨j, Nat.lt_succ_of_lt less, ?_⟩
        rw [List.take_append_of_le_length (Nat.le_of_lt less)]

/-- The last of the lines that make a text a statement is not blank. -/
theorem isTight_continued {k : Nat} (tight : text.IsTight) (bound : k ≤ lines.length)
    (now : isStatement (text.continued trimEnd (lines.take k)) = true)
    (before : ∀ j < k, isStatement (text.continued trimEnd (lines.take j)) = false) :
    (text.continued trimEnd (lines.take k)).IsTight := by
  obtain ⟨some, trimmed⟩ := tight
  refine ⟨List.append_ne_nil_of_left_ne_nil some _, ?_⟩
  have start : trimStart (text.continued trimEnd (lines.take k)) =
      text.continued trimEnd (lines.take k) :=
    trimStart_append_of_trimmed (trimStart_of_trim trimmed) some _
  rw [trim, start]
  cases k with
  | zero =>
    rw [List.take_zero, continued_nil]
    exact trimEnd_of_trim trimmed
  | succ k =>
    have unfinished := before k (Nat.lt_succ_self k)
    rw [← List.take_append_getElem bound, continued_concat] at now ⊢
    have visible : trimEnd lines[k] ≠ [] := by
      intro blank
      rw [blank, isStatement_append_lineFeed, unfinished] at now
      cases now
    rw [← List.singleton_append, ← List.append_assoc, trimEnd_append, trimEnd_trimEnd,
      if_neg visible]

/-- What is gathered of lines until it is a statement is a minimal one. -/
theorem isMinimalStatement_continued {lines : List Text} {text : Text} {k : Nat}
    (tight : text.IsTight) (single : '\n' ∉ text) (unbroken : ∀ raw ∈ lines, raw.IsUnbroken)
    (bound : k ≤ lines.length) (now : (text.continued trimEnd (lines.take k)).isStatement = true)
    (before : ∀ j < k, (text.continued trimEnd (lines.take j)).isStatement = false) :
    (text.continued trimEnd (lines.take k)).IsMinimalStatement := by
  have single' : ∀ raw ∈ lines.take k, '\n' ∉ trimEnd raw := by
    intro raw member inside
    have outside := (trimEnd_isPrefix_self raw).subset inside
    exact (unbroken raw (List.mem_of_mem_take member) _ outside).1 rfl
  refine ⟨⟨isTight_continued tight bound now before, now⟩, ?_⟩
  intro first rest split
  obtain ⟨j, less, rfl⟩ := exists_take_of_continued_eq single single' split
  rw [List.length_take] at less
  rw [List.take_take, Nat.min_eq_left (by omega)]
  exact before j (by omega)

end Text

namespace Reading

variable {c c' : Cursor} {text code : Text} {number : Nat} {node : Node}

theorem isMinimalStatement_of_script (single : '\n' ∉ text)
    (unbroken : ∀ raw ∈ c.pending, raw.IsUnbroken) (h : script text c = .ok code c') :
    code.IsMinimalStatement := by
  obtain ⟨visible, k, bound, _, rfl, now, before⟩ := script_eq_ok h
  have inside : '\n' ∉ Text.trim text :=
    fun member => single ((Text.trim_sublist text).subset member)
  exact Text.isMinimalStatement_continued (Text.isTight_trim visible) inside unbroken bound now
    before

/-- The code behind an element is on the line that its attribute block ends on. -/
theorem isMinimalStatement_of_element {e : Element} (single : '\n' ∉ text)
    (unbroken : ∀ raw ∈ c.pending, raw.IsUnbroken) (h : element text c = .ok e c')
    (tail : e.tail = .script code) : code.IsMinimalStatement := by
  obtain ⟨declared, rest, code?, behind, m, _, declaration, attributes, tailed, _, _, _, rfl⟩ :=
    element_eq_ok h
  obtain ⟨afterMark, mark, read⟩ := (elementTail_eq_ok tailed).1 code tail
  have declared : '\n' ∉ rest :=
    fun member => single ((Element.declaration_eq_ok declaration).2.subset member)
  have marks : '\n' ∉ behind := lineFeed_notMem_of_attributes? declared unbroken attributes
  apply isMinimalStatement_of_script _ _ read
  · intro member
    apply marks
    apply (TrimMarks.take_suffix {} behind).subset
    rw [mark]
    exact List.mem_cons_of_mem _ member
  · intro raw member
    have forward := closed_forward.attributes? rest c
    rw [Cursor.after, attributes] at forward
    obtain ⟨n, _, rfl⟩ := forward
    exact unbroken raw (List.mem_of_mem_drop member)

end Reading

/-- No content of a line of text has a line feed in it. -/
theorem Content.lineFeed_notMem_of_ofText {text : Text} (single : '\n' ∉ text) (part : Text)
    (h : ofText text = .element part ∨ ofText text = .script part ∨
      ofText text = .silentScript part) : '\n' ∉ part := by
  unfold ofText at h
  split at h <;> obtain h | h | h := h <;> cases h
  all_goals simp_all [defaultTag]

namespace Node

variable {registry : Registry} {source : Text} {node : Node}

/-- All code of a node, that of its own line included, is a minimal statement. -/
def HasStatements (node : Node) : Prop :=
  (∀ code ∈ node.code?, code.IsMinimalStatement) ∧
    ∀ child ∈ node.inline?, ∀ code ∈ child.code?, code.IsMinimalStatement

@[simp] theorem code?_bare (node : Node) : node.bare.code? = node.code? := by
  cases node with
  | leaf line l => rfl
  | block line head nested => cases head <;> rfl

@[simp] theorem inline?_bare (node : Node) : node.bare.inline? = node.inline? := by
  cases node with
  | leaf line l => rfl
  | block line head nested => cases head <;> rfl

/-- A node without code has nothing to show. -/
theorem hasStatements_of_none (code : node.code? = none) (inline : node.inline? = none) :
    node.HasStatements := by
  rw [HasStatements, code, inline]
  exact ⟨nofun, nofun⟩

end Node

/-- What a line begins has minimal statements, if neither the line nor any line behind it is broken
by a line feed. -/
theorem Reading.Begins.hasStatements {c c' : Cursor} {text : Text} {number : Nat} {node : Node}
    (begins : Begins number c (Content.ofText text) node c') (single : '\n' ∉ text)
    (unbroken : ∀ raw ∈ c.pending, raw.IsUnbroken) : node.HasStatements := by
  generalize content : Content.ofText text = part at begins
  have inside := Content.lineFeed_notMem_of_ofText single
  cases begins with
  | doctype | comment | hamlComment | plain => exact Node.hasStatements_of_none rfl rfl
  | script read | silentScript read =>
    refine ⟨?_, nofun⟩
    rintro _ ⟨⟩
    exact isMinimalStatement_of_script (inside _ (by simp [content])) unbroken read
  | @element _ e _ read =>
    refine ⟨nofun, ?_⟩
    intro child inline code given
    refine isMinimalStatement_of_element (inside _ (.inl content)) unbroken read ?_
    cases tail : e.tail with
    | script code' =>
      simp only [Node.inline?, Head.inline?, tail, ElementTail.node?, Option.mem_some_iff] at inline
      subst inline
      cases given
      rfl
    | text content =>
      simp only [Node.inline?, Head.inline?, tail, ElementTail.node?, Option.mem_some_iff] at inline
      subst inline
      cases given
    | empty | selfClosing => simp [Node.inline?, Head.inline?, tail, ElementTail.node?] at inline

namespace Node

variable {registry : Registry} {source : Text} {node : Node}

theorem Begun.hasStatements (begun : Begun registry source node) : node.HasStatements := by
  cases begun with
  | verbatim => exact hasStatements_of_none rfl rfl
  | filter _ _ _ finished =>
    obtain ⟨output, _, rfl⟩ := FilterBlock.finish_eq_ok finished
    exact hasStatements_of_none rfl rfl
  | content reached taken begins =>
    have before := reached.follows.isUnbroken
    have position := (ParseState.takeLine?_eq_some taken).1
    have behind := (ParseState.takeLine?_number taken).2.2.2.trans reached.follows
    refine begins.hasStatements ?_ behind.isUnbroken
    intro member
    obtain ⟨raw, pending, inside⟩ := Cursor.mem_pending_of_takeWithin? position member
    exact (before raw pending _ inside).1 rfl

end Node

/-- All code in a document is a minimal statement: the code of every script, also of one that is the
content of an element's own line, is not empty and has no white space at either end, is complete,
and is not complete yet at any line feed in it. -/
theorem code_minimal_of_parse {registry : Registry} {source : Text} {d : Document}
    (h : Document.parse registry source = .ok d) :
    ∀ node ∈ d.nodes, ∀ code ∈ node.code?,
      code ≠ [] ∧ code.trim = code ∧ code.isStatement = true ∧
        ∀ before after, code = before ++ '\n' :: after → before.isStatement = false := by
  intro node member code given
  have minimal : code.IsMinimalStatement := by
    obtain own | ⟨outer, within, inline⟩ := Node.mem_nodes_iff.mp member
    · have statements := (Document.begun_of_parse h node own).hasStatements.1
      rw [Node.code?_bare] at statements
      exact statements code given
    · have statements := (Document.begun_of_parse h outer within).hasStatements.2
      rw [Node.inline?_bare] at statements
      exact statements node inline code given
  exact ⟨minimal.tight.1, minimal.tight.2, minimal.complete, minimal.minimal⟩

/-- The code behind an attribute block of two lines goes on over a blank line. -/
theorem code_minimal_of_parse_blankLine :
    ∃ d, Document.parse .builtins "%p\x7bx: 1,\n  y: 2\x7d= f a,\n\n  b\n".toList = .ok d ∧
      ∃ node ∈ d.nodes, node.code? = some "f a,\n\n  b".toList ∧
        Text.isStatement "f a,\n".toList = false := by
  have parsed : Document.parse .builtins
      "%p\x7bx: 1,\n  y: 2\x7d= f a,\n\n  b\n".toList = .ok ⟨4, [
        .block 1 (.element
          { tag := ['p']
            attributes? := some "x: 1,\ny: 2".toList
            tail := .script "f a,\n\n  b".toList }) []]⟩ := by
    decide +kernel
  have minimal := code_minimal_of_parse parsed
    (.block 1 (.script "f a,\n\n  b".toList false) []) (.tail _ (.head _)) _ rfl
  exact ⟨_, parsed, _, .tail _ (.head _), rfl, minimal.2.2.2 _ "  b".toList rfl⟩

end HamlTemplate
