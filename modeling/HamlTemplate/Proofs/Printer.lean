import HamlTemplate.ElementLine
import HamlTemplate.Outline
import HamlTemplate.Proofs.Forest

/-!
# Printing a template

Every node is printed on a line of its own, indented by its depth, and followed by the lines of the
nodes nested in it. The content of an element's own line goes on that line. A printed line may be
read as something else if a text in it ends in white space, is no statement or begins with the mark
of another node; `Printable` rules that out and nothing more. What a parse can find out of a forest
again is the forest itself, except for the line of each node and the flag of each script, which say
where the nodes stand: `arranged` gives them as printing does.
-/

namespace HamlTemplate

def Text.braced (code : Text) : Text := '\x7b' :: code ++ ['\x7d']

def Text.indented (width : Nat) (text : Text) : Text := List.replicate width ' ' ++ text

def Shorthand.printed : Shorthand → Text
  | className name => '.' :: name
  | idName name => '#' :: name

def Shorthand.name : Shorthand → Text
  | className name => name
  | idName name => name

/-- The marks, the one for the inside first. -/
def TrimMarks.printed (marks : TrimMarks) : Text :=
  (if marks.inside then ['<'] else []) ++ if marks.outside then ['>'] else []

def ElementTail.printed : ElementTail → Text
  | empty => []
  | selfClosing => ['/']
  | script code => '=' :: ' ' :: code
  | text content => ' ' :: content

namespace Element

/-- The classes and ids of an element, the classes first. -/
def shorthands (e : Element) : List Shorthand :=
  e.classes.map .className ++ e.ids.map .idName

def marks (e : Element) : TrimMarks := ⟨e.trimsInside, e.trimsOutside⟩

def block (e : Element) : Text := (e.attributes?.map Text.braced).getD []

def printedRest (e : Element) : Text := e.block ++ (e.marks.printed ++ e.tail.printed)

def printed (e : Element) : Text :=
  '%' :: e.tag ++ (e.shorthands.flatMap Shorthand.printed ++ e.printedRest)

end Element

def Leaf.printed : Leaf → Text
  | doctype content => "!!! ".toList ++ content
  | text content => '\\' :: content
  | filter name _ => ':' :: name

def Head.printed : Head → Text
  | comment text => '/' :: ' ' :: text
  | hamlComment => "-#".toList
  | element e => e.printed
  | script code _ => '=' :: ' ' :: code
  | silentScript code _ => '-' :: ' ' :: code

namespace Node

def content : Node → Text
  | leaf _ (.text content) => content
  | _ => []

mutual

/-- The lines of a node, with `k` spaces for each level. The body of a Haml comment is printed as
it is. -/
def printed (k depth : Nat) : Node → List Text
  | leaf _ l => [l.printed.indented (k * depth)]
  | block _ head nested =>
    head.printed.indented (k * depth) ::
      if head == .hamlComment then
        nested.map fun child => child.content.indented (k * (depth + 1))
      else printedAll k (depth + 1) nested

def printedAll (k depth : Nat) : List Node → List Text
  | [] => []
  | node :: nodes => printed k depth node ++ printedAll k depth nodes

end

/-- The source of a forest. -/
def print (k : Nat) (forest : List Node) : Text :=
  (printedAll k 0 forest).flatMap fun line => line ++ ['\n']

/-- A node that goes on with the block before it: a silent script that begins with one of the words
for that. -/
def continuesBlock : Node → Bool
  | block _ (.silentScript code _) _ => midBlockWords.any code.startsWithWord
  | _ => false

mutual

/-- A node as it is printed on the given line. The flag says whether the next line at its level
goes on with its block, if it has one. -/
def arranged (number : Nat) (continued : Bool) : Node → Node
  | leaf _ l => leaf number l
  | block _ head nested =>
    block number (head.withMidBlock (continued && !nested.isEmpty))
      (arrangedAll (number + 1) false nested)

/-- A forest as it is printed on the given line and those after it. The flag says whether the next
line at its level goes on with the block of the last node. -/
def arrangedAll (number : Nat) (continued : Bool) : List Node → List Node
  | [] => []
  | node :: nodes =>
    arranged number ((nodes.head?.map continuesBlock).getD continued) node ::
      arrangedAll (number + (preorder node).length) continued nodes

end

end Node

/-! ### What can be printed -/

/-- A text of characters that names are made of, with at least one of them. -/
def Text.IsName (text : Text) : Prop := text ≠ [] ∧ ∀ c ∈ text, isNameChar c = true

/-- A text with something in it and no white space at either end. -/
def Text.IsTight (text : Text) : Prop := text ≠ [] ∧ text.trim = text

/-- A text without line terminators. -/
def Text.IsUnbroken (text : Text) : Prop := ∀ c ∈ text, c ≠ '\n' ∧ c ≠ '\r'

instance (text : Text) : Decidable text.IsName :=
  have := List.decidableBAll (fun c => isNameChar c = true) text
  inferInstanceAs (Decidable (_ ∧ _))

instance (text : Text) : Decidable text.IsTight := inferInstanceAs (Decidable (_ ∧ _))

instance (text : Text) : Decidable text.IsUnbroken :=
  List.decidableBAll (fun c => c ≠ '\n' ∧ c ≠ '\r') text

/-- A text that is a line by itself: nothing in it ends the line, and no bar joins it with the line
that follows. -/
structure Text.FitsLine (text : Text) : Prop where
  unbroken : text.IsUnbroken
  unpiped : text.trimEnd.isPiped = false

/-- The code of a script: a whole statement. -/
structure Text.IsScript (code : Text) : Prop where
  tight : code.IsTight
  complete : code.isStatement = true

/-- The code of an attribute block: the brace that is opened before it is closed right behind it. -/
structure Text.IsAttributes (code : Text) : Prop where
  trimmed : code.trim = code
  closed : code.braced.bracketedLength? = some code.braced.length

instance (text : Text) : Decidable text.FitsLine :=
  decidable_of_iff (text.IsUnbroken ∧ text.trimEnd.isPiped = false)
    ⟨fun h => ⟨h.1, h.2⟩, fun h => ⟨h.unbroken, h.unpiped⟩⟩

instance (code : Text) : Decidable code.IsScript :=
  decidable_of_iff (code.IsTight ∧ code.isStatement = true)
    ⟨fun h => ⟨h.1, h.2⟩, fun h => ⟨h.tight, h.complete⟩⟩

instance (code : Text) : Decidable code.IsAttributes :=
  decidable_of_iff
    (code.trim = code ∧ code.braced.bracketedLength? = some code.braced.length)
    ⟨fun h => ⟨h.1, h.2⟩, fun h => ⟨h.trimmed, h.closed⟩⟩

/-- The content of an element's own line can be told from other ends of a line. -/
def ElementTail.Printable : ElementTail → Prop
  | empty | selfClosing => True
  | script code => code.IsScript
  | text content => content.IsTight

instance : (tail : ElementTail) → Decidable tail.Printable
  | .empty | .selfClosing => .isTrue trivial
  | .script code => inferInstanceAs (Decidable code.IsScript)
  | .text content => inferInstanceAs (Decidable content.IsTight)

structure Element.Printable (e : Element) : Prop where
  tag : e.tag.IsName
  shorthands : ∀ shorthand ∈ e.shorthands, shorthand.name.IsName
  attributes : ∀ code ∈ e.attributes?, code.IsAttributes
  tail : e.tail.Printable

instance (e : Element) : Decidable e.Printable :=
  decidable_of_iff
    (e.tag.IsName ∧ (∀ shorthand ∈ e.shorthands, shorthand.name.IsName) ∧
      (∀ code ∈ e.attributes?, code.IsAttributes) ∧ e.tail.Printable)
    ⟨fun h => ⟨h.1, h.2.1, h.2.2.1, h.2.2.2⟩,
      fun h => ⟨h.tag, h.shorthands, h.attributes, h.tail⟩⟩

/-- The line of a leaf says what the leaf is. A filter takes more than one line. -/
def Leaf.Printable : Leaf → Prop
  | doctype content => content.trim = content
  | text content => content.trimEnd = content
  | filter .. => False

instance : (l : Leaf) → Decidable l.Printable
  | .doctype content => inferInstanceAs (Decidable (content.trim = content))
  | .text content => inferInstanceAs (Decidable (content.trimEnd = content))
  | .filter .. => .isFalse id

def Head.Printable : Head → Prop
  | comment text => text.trim = text
  | hamlComment => True
  | element e => e.Printable
  | script code _ | silentScript code _ => code.IsScript

instance : (head : Head) → Decidable head.Printable
  | .comment text => inferInstanceAs (Decidable (text.trim = text))
  | .hamlComment => .isTrue trivial
  | .element e => inferInstanceAs (Decidable e.Printable)
  | .script code _ | .silentScript code _ => inferInstanceAs (Decidable code.IsScript)

namespace Node

/-- A plain text that can be a line of a Haml comment. -/
def IsCommentLine : Node → Prop
  | leaf _ (.text content) =>
    content ≠ [] ∧ (∀ c ∈ content.head?, Text.isIndentChar c = false) ∧ content.IsUnbroken
  | _ => False

instance : (node : Node) → Decidable node.IsCommentLine
  | leaf _ (.text content) =>
    have : Decidable (∀ c ∈ content.head?, Text.isIndentChar c = false) :=
      Option.decidableForallMem content.head?
    inferInstanceAs (Decidable (_ ∧ _ ∧ _))
  | leaf _ (.doctype _) | leaf _ (.filter ..) | block .. => .isFalse id

/-- A node that printing keeps. -/
inductive Printable : Node → Prop
  | leaf {line : Nat} {l : Leaf} (printable : l.Printable) (fits : l.printed.FitsLine) :
      Printable (leaf line l)
  /-- A Haml comment holds plain texts, whatever they are. -/
  | hamlComment {line : Nat} {nested : List Node} (body : ∀ child ∈ nested, child.IsCommentLine) :
      Printable (block line .hamlComment nested)
  /-- Any other block holds printable nodes, if lines can be nested in it at all. -/
  | block {line : Nat} {head : Head} {nested : List Node} (plain : head ≠ .hamlComment)
      (printable : head.Printable) (fits : head.printed.FitsLine)
      (nestable : nested ≠ [] → head.nestingFault? = none)
      (inner : ∀ child ∈ nested, Printable child) : Printable (block line head nested)

theorem printable_leaf_iff {line : Nat} {l : Leaf} :
    (leaf line l).Printable ↔ l.Printable ∧ l.printed.FitsLine := by
  constructor
  · intro h
    cases h with
    | leaf printable fits => exact ⟨printable, fits⟩
  · intro h
    exact .leaf h.1 h.2

theorem printable_block_iff {line : Nat} {head : Head} {nested : List Node} :
    (block line head nested).Printable ↔
      head = .hamlComment ∧ (∀ child ∈ nested, child.IsCommentLine) ∨
        head ≠ .hamlComment ∧ head.Printable ∧ head.printed.FitsLine ∧
          (nested ≠ [] → head.nestingFault? = none) ∧ ∀ child ∈ nested, child.Printable := by
  constructor
  · intro h
    cases h with
    | hamlComment body => exact .inl ⟨rfl, body⟩
    | block plain printable fits nestable inner =>
      exact .inr ⟨plain, printable, fits, nestable, inner⟩
  · rintro (⟨rfl, body⟩ | ⟨plain, printable, fits, nestable, inner⟩)
    · exact .hamlComment body
    · exact .block plain printable fits nestable inner

mutual

def decPrintable : (node : Node) → Decidable node.Printable
  | leaf _ _ => decidable_of_iff _ printable_leaf_iff.symm
  | block _ _ nested =>
    have := decPrintableAll nested
    decidable_of_iff _ printable_block_iff.symm

def decPrintableAll : (nodes : List Node) → Decidable (∀ node ∈ nodes, node.Printable)
  | [] => .isTrue nofun
  | node :: nodes =>
    have := decPrintable node
    have := decPrintableAll nodes
    decidable_of_iff (node.Printable ∧ ∀ node ∈ nodes, node.Printable) List.forall_mem_cons.symm

end

instance : DecidablePred Printable := decPrintable

end Node

/-! ### The source of a forest -/

namespace Text

variable {text : Text}

theorem IsUnbroken.indented (h : text.IsUnbroken) (width : Nat) :
    (text.indented width).IsUnbroken := by
  intro c member
  obtain space | inside := List.mem_append.mp member
  · rw [List.eq_of_mem_replicate space]
    decide
  · exact h c inside

/-- A text without terminators is a line by itself when a line feed ends it. -/
theorem physicalLines_append_lineFeed (h : text.IsUnbroken) (rest : Text) :
    physicalLines (text ++ '\n' :: rest) = text :: physicalLines rest := by
  induction text with
  | nil => exact physicalLines_lineFeed rest
  | cons c text ih =>
    obtain ⟨⟨hn, hr⟩, others⟩ := List.forall_mem_cons.mp h
    rw [List.cons_append, physicalLines_cons hn hr, ih others]

theorem physicalLines_flatMap {lines : List Text} (h : ∀ line ∈ lines, line.IsUnbroken) :
    physicalLines (lines.flatMap fun line => line ++ ['\n']) = lines := by
  induction lines with
  | nil => rfl
  | cons line lines ih =>
    obtain ⟨first, others⟩ := List.forall_mem_cons.mp h
    rw [List.flatMap_cons, List.append_assoc, List.singleton_append,
      physicalLines_append_lineFeed first, ih others]

end Text

namespace Node

variable {forest body : List Node}

theorem IsCommentLine.eq_leaf {node : Node} (h : node.IsCommentLine) :
    ∃ line content, node = leaf line (.text content) ∧ content ≠ [] ∧
      (∀ c ∈ content.head?, Text.isIndentChar c = false) ∧ content.IsUnbroken := by
  cases node with
  | block => exact h.elim
  | leaf line l =>
    cases l with
    | text content => exact ⟨line, content, rfl, h⟩
    | doctype | filter => exact h.elim

/-- The lines of a Haml comment are as many as its nodes. -/
theorem length_preorderAll_of_isCommentLine (h : ∀ child ∈ body, child.IsCommentLine) :
    (preorderAll body).length = body.length := by
  induction body with
  | nil => rfl
  | cons child body ih =>
    obtain ⟨first, others⟩ := List.forall_mem_cons.mp h
    obtain ⟨line, content, rfl, -⟩ := first.eq_leaf
    simp [preorder, ih others]

theorem printed_hamlComment (k depth line : Nat) (body : List Node) :
    printed k depth (block line .hamlComment body) =
      Head.hamlComment.printed.indented (k * depth) ::
        body.map fun child => child.content.indented (k * (depth + 1)) := rfl

theorem printed_block {head : Head} (plain : head ≠ .hamlComment) (k depth line : Nat)
    (nested : List Node) :
    printed k depth (block line head nested) =
      head.printed.indented (k * depth) :: printedAll k (depth + 1) nested := by
  rw [printed, if_neg (by simpa using plain)]

/-- Every node is printed on one line. -/
theorem length_printedAll (k depth : Nat) (h : ∀ node ∈ forest, node.Printable) :
    (printedAll k depth forest).length = (preorderAll forest).length := by
  induction forest using forest_induction generalizing depth with
  | nil => rfl
  | leaf line l rest ih =>
    have behind := ih depth (List.forall_mem_cons.mp h).2
    simp [printedAll, printed, preorder, behind]
  | block line head nested rest inner outer =>
    obtain ⟨own, others⟩ := List.forall_mem_cons.mp h
    have behind := outer depth others
    have first :
        (printed k depth (block line head nested)).length = (preorderAll nested).length + 1 := by
      cases own with
      | hamlComment body =>
        rw [printed_hamlComment, List.length_cons, List.length_map,
          length_preorderAll_of_isCommentLine body]
      | block plain _ _ _ printable =>
        rw [printed_block plain, List.length_cons, inner (depth + 1) printable]
    rw [printedAll, List.length_append, first, behind, preorderAll_cons, List.length_append,
      preorder, List.length_cons]

theorem isUnbroken_of_mem_printedAll {k depth : Nat} {text : Text}
    (h : ∀ node ∈ forest, node.Printable) (member : text ∈ printedAll k depth forest) :
    text.IsUnbroken := by
  induction forest using forest_induction generalizing depth with
  | nil => cases member
  | leaf line l rest ih =>
    obtain ⟨own, others⟩ := List.forall_mem_cons.mp h
    rw [printedAll, printed, List.singleton_append, List.mem_cons] at member
    obtain rfl | behind := member
    · exact (printable_leaf_iff.mp own).2.unbroken.indented _
    · exact ih others behind
  | block line head nested rest inner outer =>
    obtain ⟨own, others⟩ := List.forall_mem_cons.mp h
    rw [printedAll, List.mem_append] at member
    obtain first | behind := member
    · cases own with
      | hamlComment body =>
        rw [printed_hamlComment, List.mem_cons, List.mem_map] at first
        obtain rfl | ⟨child, among, rfl⟩ := first
        · exact Text.IsUnbroken.indented (by decide) _
        · obtain ⟨_, content, rfl, -, -, unbroken⟩ := (body child among).eq_leaf
          exact unbroken.indented _
      | block plain _ fits _ printable =>
        rw [printed_block plain, List.mem_cons] at first
        obtain rfl | inside := first
        · exact fits.unbroken.indented _
        · exact inner printable inside
    · exact outer others behind

/-- The physical lines of a printed forest are the lines of its nodes. -/
theorem physicalLines_print (k : Nat) (h : ∀ node ∈ forest, node.Printable) :
    Text.physicalLines (print k forest) = printedAll k 0 forest :=
  Text.physicalLines_flatMap fun _ member => isUnbroken_of_mem_printedAll h member

end Node

end HamlTemplate
