import HamlTemplate.Node.Kind
import HamlTemplate.Text

/-!
# Faults

A fault is what can be wrong with a template. A source error is a fault together with the
physical line it was found at.
-/

namespace HamlTemplate

inductive Fault where
  /-- A script mark with no code behind it. -/
  | noCode
  /-- The source ends inside a statement of embedded code. -/
  | unterminatedCode
  /-- The source ends inside an attribute block. -/
  | unmatchedAttributes
  /-- A class or id mark with no name behind it. -/
  | namelessShorthand
  /-- An element line without a tag, a class or an id, by its text. -/
  | invalidElement (text : Text)
  /-- Content on the line of a self-closing element. -/
  | selfClosingContent
  /-- A line that begins like a doctype but is none. -/
  | invalidDoctype
  /-- An indentation with another character than the document's, which is given. -/
  | mixedIndentation (expected : Char)
  /-- A dedent to a width that no open level has. -/
  | unmatchedIndentation (width : Nat)
  /-- An indented line with nothing it could be nested in. -/
  | indentedStart
  /-- A line nested in a self-closing element. -/
  | nestedInSelfClosing
  /-- A line nested in an element of the given tag that has content on its own line. -/
  | nestedBesideInline (tag : Text)
  /-- A line nested in a node that cannot hold any. -/
  | nestedInLeaf (kind : NodeKind)
  /-- A filter line whose text is not a colon and a word. -/
  | invalidFilterName (text : Text)
  /-- A filter that is not registered. -/
  | unknownFilter (name : Text)
  deriving DecidableEq, Repr

namespace Fault

/-- The name of a document's indentation character. -/
private def describeIndentation (c : Char) : String := if c = '\t' then "tabs" else "spaces"

def message : Fault → String
  | noCode => "No Ruby code to evaluate"
  | unterminatedCode =>
    "Unterminated Ruby code: reached end of input inside a multiline statement"
  | unmatchedAttributes => "Unmatched attributes delimiter"
  | namelessShorthand => "Illegal element: classes and ids must have values."
  | invalidElement text => "Invalid element declaration: " ++ String.ofList text
  | selfClosingContent => "Self-closing tags can't have content."
  | invalidDoctype => "Illegal doctype declaration"
  | mixedIndentation expected =>
    "Inconsistent indentation character: the document is indented with " ++
      describeIndentation expected
  | unmatchedIndentation width =>
    "Inconsistent indentation: " ++ toString width ++
      " columns of indentation does not match any outer level"
  | indentedStart => "Indenting at the beginning of the document is illegal."
  | nestedInSelfClosing => "Illegal nesting: nesting within a self-closing tag is illegal."
  | nestedBesideInline tag =>
    "Illegal nesting: content can't be both given on the same line as %" ++ String.ofList tag ++
      " and nested within it."
  | nestedInLeaf kind => "Illegal nesting: nesting within " ++ kind.label ++ " is illegal."
  | invalidFilterName text => "Invalid filter name: " ++ String.ofList text
  | unknownFilter name => "Filter not found: " ++ String.ofList name

end Fault

/-- What of a source a fault is found in. -/
inductive FaultSite where
  /-- The indentation or the name on the first physical line of a logical one. -/
  | firstLine
  /-- The nesting of a logical line, after all of it has been read. -/
  | lastLine
  /-- The content of a line, with the lines that have been read on from it. -/
  | content
  /-- A filter block, once it is over. -/
  | block
  deriving DecidableEq, Repr

def Fault.site : Fault → FaultSite
  | mixedIndentation _ | unmatchedIndentation _ | invalidFilterName _ => .firstLine
  | indentedStart | nestedInSelfClosing | nestedBesideInline _ | nestedInLeaf _ => .lastLine
  | noCode | unterminatedCode | unmatchedAttributes | namelessShorthand | invalidElement _
  | selfClosingContent | invalidDoctype => .content
  | unknownFilter _ => .block

structure SourceError where
  fault : Fault
  line : Nat
  deriving DecidableEq, Repr

namespace SourceError

/-- The report of an error found while parsing, behind the name of the file if it has one. -/
def report (file? : Option String) (e : SourceError) : String :=
  (file?.map (· ++ ": ")).getD "" ++ "Parse error at line " ++ toString e.line ++ ": " ++
    e.fault.message

/-- The report of an error found while only reading lines. -/
def lexicalReport (e : SourceError) : String :=
  "Lexer error at line " ++ toString e.line ++ ": " ++ e.fault.message

end SourceError

end HamlTemplate
