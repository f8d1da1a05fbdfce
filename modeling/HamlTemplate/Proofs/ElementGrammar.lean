import HamlTemplate.Proofs.Brackets
import HamlTemplate.Proofs.Gathering
import HamlTemplate.Proofs.Printer
import HamlTemplate.Proofs.Trimming

/-!
# The grammar of element lines

The line of an element is written part by part: a tag, classes and ids in any order, an attribute
block, marks and a tail. No part begins with a character that the part before it could go on with,
and an attribute block ends at its own brace whatever stands behind it, so each part is read up to
where the next one begins. `element_of_grammar` puts the parts together: a line written by the
grammar is read as what each of its parts says, and no further line is needed for it.
-/

namespace HamlTemplate

open Unicode

/-! ### Lines written by the grammar -/

inductive WrittenTail where
  | empty
  | selfClosing
  /-- A mark and the code behind it. -/
  | script (afterMark : Text)
  /-- White space and the text behind it. -/
  | text (space : Char) (content : Text)
  deriving DecidableEq, Repr

namespace WrittenTail

def line : WrittenTail → Text
  | empty => []
  | selfClosing => ['/']
  | script afterMark => '=' :: afterMark
  | text space content => space :: content

def meaning : WrittenTail → ElementTail
  | empty => .empty
  | selfClosing => .selfClosing
  | script afterMark => .script afterMark.trim
  | text _ content => .text content.trim

/-- There is a whole statement behind a script mark, and something to be seen in a text. -/
def WellFormed : WrittenTail → Prop
  | empty | selfClosing => True
  | script afterMark => afterMark.trim ≠ [] ∧ afterMark.trim.isStatement = true
  | text space content => isWhiteSpace space = true ∧ content.trim ≠ []

instance : (written : WrittenTail) → Decidable written.WellFormed
  | empty | selfClosing => .isTrue trivial
  | script _ | text _ _ => inferInstanceAs (Decidable (_ ∧ _))

end WrittenTail

/-- The ways of writing marks: none, one or both of them, in either order. -/
def TrimMarks.spellings : List Text := [[], ['<'], ['>'], ['<', '>'], ['>', '<']]

def TrimMarks.ofText (text : Text) : TrimMarks := ⟨text.contains '<', text.contains '>'⟩

/-- The parts of an element's line as they are written. -/
structure WrittenElement where
  /-- The tag, which may be left out. -/
  tag : Text
  /-- The classes and ids in order of appearance. -/
  shorthands : List Shorthand
  /-- What is between the braces of the attribute block. -/
  attributes? : Option Text
  marks : Text
  tail : WrittenTail
  deriving DecidableEq, Repr

namespace WrittenElement

def block (w : WrittenElement) : Text := (w.attributes?.map Text.braced).getD []

/-- What is written behind the tag, the classes and the ids. -/
def rest (w : WrittenElement) : Text := w.block ++ (w.marks ++ w.tail.line)

def line (w : WrittenElement) : Text :=
  '%' :: w.tag ++ (w.shorthands.flatMap Shorthand.printed ++ w.rest)

/-- The element that the parts say. -/
def element (w : WrittenElement) : Element where
  tag := if w.tag.isEmpty then defaultTag else w.tag
  classes := w.shorthands.filterMap Shorthand.class?
  ids := w.shorthands.filterMap Shorthand.id?
  attributes? := w.attributes?.map Text.trim
  trimsInside := (TrimMarks.ofText w.marks).inside
  trimsOutside := (TrimMarks.ofText w.marks).outside
  tail := w.tail.meaning

structure WellFormed (w : WrittenElement) : Prop where
  tag : ∀ c ∈ w.tag, isNameChar c = true
  shorthands : ∀ shorthand ∈ w.shorthands, shorthand.name.IsName
  /-- A tag, a class or an id has to be there. -/
  declares : w.tag ≠ [] ∨ w.shorthands ≠ []
  /-- The brace of the attribute block is closed by its last character. -/
  attributes : ∀ code ∈ w.attributes?,
    code.braced.bracketedBytes? = some (Text.utf8Length code.braced)
  marks : w.marks ∈ TrimMarks.spellings
  tail : w.tail.WellFormed

instance (w : WrittenElement) : Decidable w.WellFormed :=
  have := List.decidableBAll (fun c => isNameChar c = true) w.tag
  decidable_of_iff
    ((∀ c ∈ w.tag, isNameChar c = true) ∧ (∀ shorthand ∈ w.shorthands, shorthand.name.IsName) ∧
      (w.tag ≠ [] ∨ w.shorthands ≠ []) ∧
      (∀ code ∈ w.attributes?,
        code.braced.bracketedBytes? = some (Text.utf8Length code.braced)) ∧
      w.marks ∈ TrimMarks.spellings ∧ w.tail.WellFormed)
    ⟨fun h => ⟨h.1, h.2.1, h.2.2.1, h.2.2.2.1, h.2.2.2.2.1, h.2.2.2.2.2⟩,
      fun h => ⟨h.tag, h.shorthands, h.declares, h.attributes, h.marks, h.tail⟩⟩

structure IsReadAs (w : WrittenElement) (e : Element) : Prop where
  tag : e.tag = if w.tag = [] then "div".toList else w.tag
  classes : e.classes = w.shorthands.filterMap Shorthand.class?
  ids : e.ids = w.shorthands.filterMap Shorthand.id?
  attributes? : e.attributes? = w.attributes?.map Text.trim
  trimsInside : e.trimsInside = true ↔ '<' ∈ w.marks
  trimsOutside : e.trimsOutside = true ↔ '>' ∈ w.marks
  selfClosing : e.tail = .selfClosing ↔ w.tail = .selfClosing
  tail : e.tail = w.tail.meaning
  /-- The only child on the element's own line is the statement or the text of its tail. -/
  children : ∀ number, (Node.block number (.element e) []).children? =
    some (match w.tail with
      | .script afterMark => [.block number (.script afterMark.trim false) []]
      | .text _ content => [.leaf number (.text content.trim)]
      | .empty | .selfClosing => [])

end WrittenElement

/-! ### Names -/

/-- No name has white space in it. -/
theorem isWhiteSpace_of_isNameChar {c : Char} (h : isNameChar c = true) :
    isWhiteSpace c = false := by
  rw [Bool.eq_false_iff]
  intro white
  simp only [isNameChar, isAlphanumeric_of_isWhiteSpace white, Bool.false_or, Bool.or_eq_true,
    beq_iff_eq] at h
  obtain (rfl | rfl) | rfl := h <;> exact absurd white (by decide)

/-! ### The tag, the classes and the ids -/

/-- What follows the tag, the classes and the ids does not go on with any of them. -/
def Text.EndsDeclaration (rest : Text) : Prop :=
  ∀ c ∈ rest.head?, isNameChar c = false ∧ Shorthand.ofMark? c = none

namespace Shorthand

variable {shorthands : List Shorthand} {rest : Text}

/-- A list of classes and ids begins with a mark, which is in no name. -/
private theorem head?_printed (shorthands : List Shorthand) (h : rest.EndsDeclaration) :
    ∀ c ∈ (shorthands.flatMap printed ++ rest).head?, isNameChar c = false := by
  cases shorthands with
  | nil => exact fun c first => (h c first).1
  | cons shorthand more =>
    cases shorthand <;>
    · rintro c ⟨⟩
      decide

/-- Classes and ids are read up to what does not go on with them. -/
theorem takeAll?_printed (names : ∀ shorthand ∈ shorthands, shorthand.name.IsName)
    (h : rest.EndsDeclaration) :
    takeAll? (shorthands.flatMap printed ++ rest) = some (shorthands, rest) := by
  induction shorthands with
  | nil =>
    rw [List.flatMap_nil, List.nil_append]
    cases rest with
    | nil => rw [takeAll?]
    | cons c rest => rw [takeAll?, (h c rfl).2]
  | cons shorthand more ih =>
    obtain ⟨⟨nonempty, inside⟩, others⟩ := List.forall_mem_cons.mp names
    have inner := ih others
    obtain ⟨taken, dropped⟩ := Text.takeWhile_append inside (head?_printed more h)
    have named : shorthand.name.isEmpty = false := by
      rwa [Bool.eq_false_iff, ne_eq, List.isEmpty_iff]
    cases shorthand <;>
    · rw [List.flatMap_cons, List.append_assoc, printed, List.cons_append, takeAll?]
      simp only [name] at taken dropped named
      simp only [ofMark?, taken, dropped, named, inner, Bool.false_eq_true, if_false,
        Option.map_some]

end Shorthand

/-! ### Marks -/

/-- Marks are read up to what is no mark. -/
theorem TrimMarks.take_spelled {marks rest : Text} (spelled : marks ∈ spellings)
    (stops : ∀ c ∈ rest.head?, c ≠ '<' ∧ c ≠ '>') :
    take {} (marks ++ rest) = (ofText marks, rest) := by
  have stop : ∀ before : TrimMarks, take before rest = (before, rest) := by
    intro before
    cases rest with
    | nil => rfl
    | cons c rest => simp [take, stops c rfl]
  simp only [spellings, List.mem_cons, List.not_mem_nil, or_false] at spelled
  obtain rfl | rfl | rfl | rfl | rfl := spelled <;> simp [ofText, take, stop]

theorem TrimMarks.head?_spelled {marks : Text} (spelled : marks ∈ spellings) :
    ∀ c ∈ marks.head?, c = '<' ∨ c = '>' := by
  simp only [spellings, List.mem_cons, List.not_mem_nil, or_false] at spelled
  obtain rfl | rfl | rfl | rfl | rfl := spelled <;> simp

/-! ### Tails -/

/-- A tail begins with none of the characters of the parts before it. -/
private theorem WrittenTail.head?_line {written : WrittenTail} (formed : written.WellFormed) :
    ∀ c ∈ written.line.head?, c = '/' ∨ c = '=' ∨ isWhiteSpace c = true := by
  cases written with
  | empty => nofun
  | selfClosing | script => simp [line]
  | text space content =>
    rintro c ⟨⟩
    exact .inr (.inr formed.1)

namespace Reading

/-- A complete statement is read without reading on. -/
theorem script_of_isScript {code afterMark : Text} (h : code.IsScript)
    (trimmed : afterMark.trim = code) (c : Cursor) : script afterMark c = .ok code c := by
  have nonblank : afterMark.isBlank = false := by
    rw [Bool.eq_false_iff, ne_eq, ← Text.trim_eq_nil_iff, trimmed]
    exact h.tight.1
  subst trimmed
  exact script_of_isStatement nonblank h.complete c

/-- A tail is read as what it says. -/
theorem elementTail_line {written : WrittenTail} (formed : written.WellFormed) (c : Cursor) :
    elementTail written.line c = .ok written.meaning c := by
  cases written with
  | empty | selfClosing => rfl
  | script afterMark =>
    have statement : afterMark.trim.IsScript := ⟨⟨formed.1, Text.trim_trim afterMark⟩, formed.2⟩
    exact bind_eq_ok_iff.mpr ⟨_, c, script_of_isScript statement rfl c, rfl⟩
  | text space content =>
    obtain ⟨white, some⟩ := formed
    have trimmed : Text.trim (space :: content) = content.trim := Text.trim_cons white content
    have nonblank : Text.isBlank (space :: content) = false := by
      rwa [Bool.eq_false_iff, ne_eq, ← Text.trim_eq_nil_iff, trimmed]
    have unmarked : ∀ mark, isWhiteSpace mark = false →
        ∀ rest, space :: content = mark :: rest → False := by
      rintro mark visible rest same
      cases same
      cases white.symm.trans visible
    rw [WrittenTail.line, elementTail, nonblank, trimmed]
    · rfl
    · exact unmarked '/' (by decide)
    · exact unmarked '=' (by decide)

/-! ### Attribute blocks -/

/-- An attribute block is read up to its own closing brace, whatever follows. -/
theorem attributes_braced {code : Text}
    (closed : code.braced.bracketedLength? = some code.braced.length) (rest : Text) (c : Cursor) :
    attributes (code.braced ++ rest) c = .ok (code.trim, rest) c := by
  have found := Text.bracketedLength?_append closed rest
  have gathered : gather (fun text => text.bracketedLength?.isSome) Text.trim .unmatchedAttributes
      (code.braced ++ rest) c = .ok ⟨code.braced ++ rest, 1⟩ c :=
    gather_of_wanted_now (Option.isSome_iff_exists.mpr ⟨_, found⟩) c
  have between : ((code.braced ++ rest).take (code.braced.length - 1)).drop 1 = code := by
    simp [Text.braced]
  simp only [attributes, Bind.bind, EStateM.bind, gathered, found, Option.getD_some, between,
    List.drop_left, Pure.pure, EStateM.pure]

end Reading

/-! ### Whole lines -/

namespace WrittenElement

variable {w : WrittenElement}

/-- The marks and the tail begin with no brace, name or shorthand. -/
private theorem head?_marks (formed : w.WellFormed) :
    ∀ c ∈ (w.marks ++ w.tail.line).head?,
      c = '<' ∨ c = '>' ∨ c = '/' ∨ c = '=' ∨ isWhiteSpace c = true := by
  intro c first
  rw [List.head?_append, Option.mem_def, Option.or_eq_some_iff] at first
  obtain first | ⟨_, first⟩ := first
  · obtain rfl | rfl := TrimMarks.head?_spelled formed.marks c first <;> simp
  · exact .inr (.inr (WrittenTail.head?_line formed.tail c first))

theorem endsDeclaration_rest (formed : w.WellFormed) : w.rest.EndsDeclaration := by
  have ends : Text.EndsDeclaration (w.marks ++ w.tail.line) := by
    intro c first
    obtain rfl | rfl | rfl | rfl | white := head?_marks formed c first
    iterate 4 decide
    constructor
    · rw [Bool.eq_false_iff]
      intro named
      cases white.symm.trans (isWhiteSpace_of_isNameChar named)
    · unfold Shorthand.ofMark?
      split
      · cases white
      · cases white
      · rfl
  rw [rest, block]
  cases w.attributes? with
  | none => exact ends
  | some code =>
    rintro c ⟨⟩
    decide

/-- The tag, the classes and the ids are read up to the attribute block. -/
theorem declaration_line (formed : w.WellFormed) :
    Element.declaration w.line =
      .ok ({ tag := w.element.tag, classes := w.element.classes, ids := w.element.ids },
        w.rest) := by
  have ends := endsDeclaration_rest formed
  obtain ⟨taken, dropped⟩ := Text.takeWhile_append formed.tag
    (Shorthand.head?_printed w.shorthands ends)
  have declares : ¬(w.tag.isEmpty && w.shorthands.isEmpty) = true := by
    simpa [-not_and, not_and_or] using formed.declares
  simp only [line, Element.declaration, List.cons_append, Text.afterElementMark, taken, dropped,
    Shorthand.takeAll?_printed formed.shorthands ends, if_neg declares, element]

/-- The attribute block is read up to the marks, if there is one. -/
theorem attributes?_rest (formed : w.WellFormed) (c : Cursor) :
    Reading.attributes? w.rest c =
      .ok (w.element.attributes?, w.marks ++ w.tail.line) c := by
  cases given : w.attributes? with
  | none =>
    have stops : (w.marks ++ w.tail.line).head? ≠ some '\x7b' := by
      intro first
      obtain h | h | h | h | h := head?_marks formed _ first <;> cases h
    simp only [rest, block, element, given, Option.map_none, Option.getD_none, List.nil_append,
      Reading.attributes?, if_neg stops]
    rfl
  | some code =>
    have closed : code.braced.bracketedLength? = some code.braced.length :=
      Text.bracketedBytes?_eq_utf8Length_iff.mp (formed.attributes code given)
    have read := Reading.attributes_braced closed (w.marks ++ w.tail.line) c
    have begins : (code.braced ++ (w.marks ++ w.tail.line)).head? = some '\x7b' := rfl
    simp only [rest, block, element, given, Option.map_some, Option.getD_some,
      Reading.attributes?, begins, if_true]
    exact bind_eq_ok_iff.mpr ⟨_, c, read, rfl⟩

/-- Each part of a line written by the grammar is read as what it says. -/
theorem element_line (formed : w.WellFormed) (c : Cursor) :
    Reading.element w.line c = .ok w.element c := by
  have marks : TrimMarks.take {} (w.marks ++ w.tail.line) =
      (TrimMarks.ofText w.marks, w.tail.line) :=
    TrimMarks.take_spelled formed.marks fun c first => by
      obtain rfl | rfl | white := WrittenTail.head?_line formed.tail c first
      · decide
      · decide
      · constructor <;>
        · rintro rfl
          cases white
  have tail := Reading.elementTail_line formed.tail c
  simp only [Reading.element, declaration_line formed, Reading.elementRest]
  refine bind_eq_ok_iff.mpr ⟨_, c, attributes?_rest formed c, ?_⟩
  simp only [marks]
  exact bind_eq_ok_iff.mpr ⟨_, c, tail, rfl⟩

/-- A line that is written by the grammar of element lines is read as what its parts say, wherever
the cursor stands and without reading on. -/
theorem element_of_grammar (w : WrittenElement) (formed : w.WellFormed) (c : Cursor) :
    ∃ e, Reading.element w.line c = .ok e c ∧ w.IsReadAs e := by
  refine ⟨w.element, element_line formed c, ?_⟩
  exact {
    tag := by simp only [element, List.isEmpty_iff]; rfl
    classes := rfl
    ids := rfl
    attributes? := rfl
    trimsInside := List.contains_iff_mem
    trimsOutside := List.contains_iff_mem
    selfClosing := by cases h : w.tail <;> simp [element, h, WrittenTail.meaning]
    tail := rfl
    children := by
      intro number
      cases h : w.tail <;>
        simp [Node.children?, Head.inline?, element, h, WrittenTail.meaning, ElementTail.node?] }

/-- Classes stand between ids, a brace is part of a string in the attribute block, and behind a tab
an equals sign is text. -/
theorem element_of_grammar_interleaved :
    WellFormed ⟨[], [.idName "a-b".toList, .className "é".toList, .idName "c:d".toList],
        some " x: \x22\x7d\x22 ".toList, ['>', '<'], .text '\t' "= b ".toList⟩ ∧
      ∃ e, Reading.element "%#a-b.é#c:d\x7b x: \x22\x7d\x22 \x7d><\t= b ".toList
          ⟨["next".toList], 3⟩ = .ok e ⟨["next".toList], 3⟩ ∧
        e.tag = "div".toList ∧ e.classes = ["é".toList] ∧
        e.ids = ["a-b".toList, "c:d".toList] ∧ e.attributes? = some "x: \x22\x7d\x22".toList ∧
        e.trimsInside = true ∧ e.trimsOutside = true ∧ e.tail = .text "= b".toList := by
  have formed : WellFormed ⟨[], [.idName "a-b".toList, .className "é".toList,
      .idName "c:d".toList], some " x: \x22\x7d\x22 ".toList, ['>', '<'],
      .text '\t' "= b ".toList⟩ := by
    decide +kernel
  obtain ⟨e, read, asWritten⟩ := element_of_grammar _ formed ⟨["next".toList], 3⟩
  refine ⟨formed, e, read, asWritten.tag, asWritten.classes, asWritten.ids, ?_, ?_, ?_, ?_⟩
  · exact asWritten.attributes?.trans (by decide +kernel)
  · exact asWritten.trimsInside.mpr (by decide)
  · exact asWritten.trimsOutside.mpr (by decide)
  · exact asWritten.tail.trans (by decide +kernel)

end WrittenElement

end HamlTemplate
