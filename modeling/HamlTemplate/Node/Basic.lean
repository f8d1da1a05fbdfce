import HamlTemplate.Fragment
import HamlTemplate.Node.Kind

/-!
# Nodes of a template

A template is a forest of nodes, each with the number of the physical line it begins on. A leaf
cannot have lines nested in it; a block can, and its head says what it is. Content on the line
of an element belongs to the element itself.
-/

namespace HamlTemplate

/-- What ends the line of an element. -/
inductive ElementTail where
  /-- Nothing: what the element holds is nested in it. -/
  | empty
  /-- The mark of an element that holds nothing. -/
  | selfClosing
  /-- A statement whose value is the content. -/
  | script (code : Text)
  /-- The content as plain text. -/
  | text (content : Text)
  deriving DecidableEq, Repr

/-- An element without the lines nested in it. -/
structure Element where
  tag : Text
  /-- The classes given in shorthand, in order of appearance. -/
  classes : List Text := []
  /-- The ids given in shorthand, in order of appearance. -/
  ids : List Text := []
  /-- The code between the braces of the attribute block. -/
  attributes? : Option Text := none
  /-- White space inside the element is removed. -/
  trimsInside : Bool := false
  /-- White space around the element is removed. -/
  trimsOutside : Bool := false
  tail : ElementTail := .empty
  deriving DecidableEq, Repr

/-- A node that no line can be nested in. -/
inductive Leaf where
  | doctype (text : Text)
  | text (content : Text)
  | filter (name : Text) (output : Fragment)
  deriving DecidableEq, Repr

/-- The beginning of a node that lines can be nested in. The flag of a script says that its block
goes on with the next node, which begins with a word such as `else`. -/
inductive Head where
  | comment (text : Text)
  | hamlComment
  | element (element : Element)
  | script (code : Text) (midBlock : Bool)
  | silentScript (code : Text) (midBlock : Bool)
  deriving DecidableEq, Repr

inductive Node where
  | leaf (line : Nat) (leaf : Leaf)
  | block (line : Nat) (head : Head) (nested : List Node)
  deriving Repr

namespace Node

mutual

def decEq : (a b : Node) → Decidable (a = b)
  | leaf m l, leaf n k => decidable_of_iff (m = n ∧ l = k) (by simp)
  | block m g ns, block n h ms =>
    have := decEqAll ns ms
    decidable_of_iff (m = n ∧ g = h ∧ ns = ms) (by simp)
  | leaf .., block .. | block .., leaf .. => .isFalse nofun

def decEqAll : (ns ms : List Node) → Decidable (ns = ms)
  | [], [] => .isTrue rfl
  | n :: ns, m :: ms =>
    have := decEq n m
    have := decEqAll ns ms
    decidable_of_iff (n = m ∧ ns = ms) (by simp)
  | [], _ :: _ | _ :: _, [] => .isFalse nofun

end

instance : DecidableEq Node := decEq

end Node

structure Document where
  /-- The number of physical lines, blank ones included. -/
  lineCount : Nat
  roots : List Node
  deriving DecidableEq, Repr

def Leaf.kind : Leaf → NodeKind
  | .doctype _ => .doctype
  | .text _ => .text
  | .filter .. => .filter

def Head.kind : Head → NodeKind
  | .comment _ => .comment
  | .hamlComment => .hamlComment
  | .element _ => .element
  | .script .. => .script
  | .silentScript .. => .silentScript

/-- The content of an element's own line as a node, on the given line. -/
def ElementTail.node? (line : Nat) : ElementTail → Option Node
  | .script code => some (.block line (.script code false) [])
  | .text content => some (.leaf line (.text content))
  | .empty | .selfClosing => none

/-- The content that a head has on its own line. -/
def Head.inline? (line : Nat) : Head → Option Node
  | .element e => e.tail.node? line
  | _ => none

namespace Node

/-- The physical line the node begins on. -/
def line : Node → Nat
  | leaf line _ => line
  | block line .. => line

def kind : Node → NodeKind
  | leaf _ l => l.kind
  | block _ head _ => head.kind

/-- The nodes of the lines nested in a node. -/
def nested : Node → List Node
  | leaf .. => []
  | block _ _ nested => nested

/-- The children of a node that can have some: the content of its own line, then the nodes nested
in it. -/
def children? : Node → Option (List Node)
  | leaf .. => none
  | block line head nested => some ((head.inline? line).toList ++ nested)

def isHamlComment : Node → Bool
  | block _ .hamlComment _ => true
  | _ => false

end Node

end HamlTemplate
