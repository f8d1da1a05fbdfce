import HamlTemplate.Node.Basic
import HamlTemplate.Text.Quoted

/-!
# Listings

A listing shows a template with one line for each node: the number of its physical line, right
aligned, and a summary that is indented by its depth.
-/

namespace HamlTemplate

namespace Fragment

mutual

def summary : Fragment → Text
  | static text => "static ".toList ++ text.quoted
  | code text => "code ".toList ++ text.quoted
  | multi parts => '[' :: List.intercalate ", ".toList (summaries parts) ++ [']']
  | newline => "newline".toList

def summaries : List Fragment → List Text
  | [] => []
  | part :: parts => summary part :: summaries parts

end

end Fragment

namespace Element

/-- The declaration of an element: ids come before classes. -/
def summary (e : Element) : Text :=
  '%' :: e.tag ++ e.ids.flatMap ('#' :: ·) ++ e.classes.flatMap ('.' :: ·) ++
    (match e.attributes? with
      | some code => '\x7b' :: code ++ ['\x7d']
      | none => []) ++
    (if e.trimsInside then ['<'] else []) ++ (if e.trimsOutside then ['>'] else []) ++
    (if e.tail = .selfClosing then ['/'] else [])

end Element

/-- What is shown behind the code of a script whose block goes on. -/
def midBlockSummary (midBlock : Bool) : Text := if midBlock then " (mid-block)".toList else []

def Leaf.summary : Leaf → Text
  | doctype content => "doctype ".toList ++ content.quoted
  | text content => "text ".toList ++ content.quoted
  | filter name output => ':' :: name ++ ' ' :: output.summary

def Head.summary : Head → Text
  | comment text => "comment ".toList ++ text.quoted
  | hamlComment => "haml-comment".toList
  | element e => e.summary
  | script code midBlock => "= ".toList ++ code.quoted ++ midBlockSummary midBlock
  | silentScript code midBlock => "- ".toList ++ code.quoted ++ midBlockSummary midBlock

def listingLine (depth line : Nat) (summary : Text) : Text :=
  List.leftpad 4 ' ' (Nat.toDigits 10 line) ++ ": ".toList ++ List.replicate (2 * depth) ' ' ++
    summary ++ ['\n']

namespace Node

def summary : Node → Text
  | leaf _ l => l.summary
  | block _ head _ => head.summary

/-- The line for the content that a head has on its own line. -/
def inlineListing (depth line : Nat) (head : Head) : Text :=
  match head.inline? line with
  | some node => listingLine depth line node.summary
  | none => []

mutual

/-- The lines of a node and of all nodes below it. -/
def listing (depth : Nat) : Node → Text
  | leaf line l => listingLine depth line l.summary
  | block line head nested =>
    listingLine depth line head.summary ++ inlineListing (depth + 1) line head ++
      listingAll (depth + 1) nested

def listingAll (depth : Nat) : List Node → Text
  | [] => []
  | node :: nodes => listing depth node ++ listingAll depth nodes

end

end Node

/-- The listing of a whole template. -/
def Document.listing (d : Document) : Text := Node.listingAll 0 d.roots

end HamlTemplate
