import HamlTemplate.Indentation
import HamlTemplate.Node.Basic

/-!
# Outlines

An outline is a template that is still being read: finished nodes, and the blocks that are open
around the place where the next node goes. A block is opened by a line nested in the last node
and goes back to its place, behind its elder siblings, when its level is closed.
-/

namespace HamlTemplate

open Unicode

/-- The words that go on with the block before them. -/
def midBlockWords : List Text :=
  ["else", "elsif", "rescue", "ensure", "end", "when"].map String.toList

/-- Whether a text begins with a word that stands on its own. -/
def Text.startsWithWord (text word : Text) : Bool :=
  word.isPrefixOf text && !(text.drop word.length).head?.any isWord

/-- A line continues the block before it when its text, behind an optional hyphen and white
space, begins with one of the words for that. -/
def Text.continuesBlock (text : Text) : Bool :=
  let code := Text.trimStart (match text with | '-' :: rest => rest | _ => text)
  midBlockWords.any code.startsWithWord

/-- Sets the flag of a script. Other heads have none. -/
def Head.withMidBlock (midBlock : Bool) : Head → Head
  | .script code _ => .script code midBlock
  | .silentScript code _ => .silentScript code midBlock
  | head => head

/-- Why a line cannot be nested in a node that begins with the given head, if so. -/
def Head.nestingFault? : Head → Option Fault
  | .element e =>
    match e.tail with
    | .empty => none
    | .selfClosing => some .nestedInSelfClosing
    | .script _ | .text _ => some (.nestedBesideInline e.tag)
  | _ => none

structure OpenBlock where
  line : Nat
  head : Head
  /-- The nodes nested in it so far, last one first. -/
  nested : List Node := []
  deriving Repr

structure Outline where
  /-- The finished nodes outside all open blocks, last one first. -/
  roots : List Node := []
  /-- The open blocks, innermost first. -/
  openBlocks : List OpenBlock := []
  deriving Repr

namespace Outline

/-- The nodes next to which a new one would be put, last one first. -/
def siblings (o : Outline) : List Node :=
  match o.openBlocks with
  | [] => o.roots
  | block :: _ => block.nested

def withSiblings (o : Outline) (nodes : List Node) : Outline :=
  match o.openBlocks with
  | [] => { o with roots := nodes }
  | block :: outer => { o with openBlocks := { block with nested := nodes } :: outer }

def push (o : Outline) (node : Node) : Outline := o.withSiblings (node :: o.siblings)

def lastNode? (o : Outline) : Option Node := o.siblings.head?

def inHamlComment (o : Outline) : Bool :=
  match o.openBlocks with
  | [] => false
  | block :: _ => block.head == .hamlComment

/-- Opens the last node for lines nested in it. Says whether they are taken as they are, as they
are in a Haml comment. -/
def enter (line : Line) : EStateM SourceError Outline Bool := fun o =>
  match o.siblings with
  | [] => .error ⟨.indentedStart, line.lastNumber⟩ o
  | .leaf _ leaf :: _ => .error ⟨.nestedInLeaf leaf.kind, line.lastNumber⟩ o
  | .block number head nested :: elder =>
    match head.nestingFault? with
    | some fault => .error ⟨fault, line.lastNumber⟩ o
    | none =>
      let o := o.withSiblings elder
      .ok (head == .hamlComment)
        { o with openBlocks := ⟨number, head, nested.reverse⟩ :: o.openBlocks }

/-- The node of an open block, in view of the line that follows at its own level. -/
def closeBlock (block : OpenBlock) (following : Option Line) : Node :=
  .block block.line (block.head.withMidBlock (following.any fun line => line.text.continuesBlock))
    block.nested.reverse

def leave (following : Option Line) : EStateM SourceError Outline Unit := fun o =>
  match o.openBlocks with
  | [] => .ok () o
  | block :: outer => .ok () ({ o with openBlocks := outer }.push (closeBlock block following))

/-- The outline as what follows the levels of indentation. -/
def handler : Handler Outline SourceError where
  enter := enter
  leave := leave
  reject := id

def finished (o : Outline) : List Node := o.roots.reverse

end Outline

end HamlTemplate
