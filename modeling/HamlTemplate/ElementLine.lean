import HamlTemplate.Code.Statement
import HamlTemplate.Node.Basic

/-!
# Element lines

The line of an element has, in this order: a percent sign and the tag, classes and ids in
shorthand, a block of attributes in braces, marks that remove white space, and a tail. All are
optional, but a tag, a class or an id has to be there. The attribute block ends at the brace
that closes it, if need be several lines further on.
-/

namespace HamlTemplate

open Unicode

/-- The characters that tags, classes and ids are made of. -/
def isNameChar (c : Char) : Bool := isAlphanumeric c || c == '_' || c == '-' || c == ':'

def defaultTag : Text := "div".toList

inductive Shorthand where
  | className (name : Text)
  | idName (name : Text)
  deriving DecidableEq, Repr

namespace Shorthand

/-- The shorthand that a mark introduces. -/
def ofMark? : Char → Option (Text → Shorthand)
  | '.' => some className
  | '#' => some idName
  | _ => none

def class? : Shorthand → Option Text
  | className name => some name
  | idName _ => none

def id? : Shorthand → Option Text
  | idName name => some name
  | className _ => none

/-- Reads the classes and ids at the front of a text and gives what follows them. Each mark needs
a name. -/
def takeAll? (text : Text) : Option (List Shorthand × Text) :=
  match text with
  | [] => some ([], [])
  | c :: rest =>
    match ofMark? c with
    | none => some ([], c :: rest)
    | some shorthand =>
      if (rest.takeWhile isNameChar).isEmpty then none
      else
        (takeAll? (rest.dropWhile isNameChar)).map fun (more, after) =>
          (shorthand (rest.takeWhile isNameChar) :: more, after)
termination_by text.length
decreasing_by
  exact Nat.lt_succ_of_le (List.dropWhile_sublist isNameChar).length_le

end Shorthand

structure TrimMarks where
  inside : Bool := false
  outside : Bool := false
  deriving DecidableEq, Repr

/-- Reads marks at the front of a text, each at most once and in either order. -/
def TrimMarks.take (marks : TrimMarks) : Text → TrimMarks × Text
  | [] => (marks, [])
  | c :: rest =>
    if c = '<' ∧ !marks.inside then TrimMarks.take { marks with inside := true } rest
    else if c = '>' ∧ !marks.outside then TrimMarks.take { marks with outside := true } rest
    else (marks, c :: rest)

/-- The text of an element line behind its percent sign, which may be left out. -/
def Text.afterElementMark : Text → Text
  | '%' :: rest => rest
  | text => text

/-- Takes the tag, the classes and the ids off the front of an element line, and gives the element
so far with what follows. -/
def Element.declaration (text : Text) : Except Fault (Element × Text) :=
  let tag := text.afterElementMark.takeWhile isNameChar
  match Shorthand.takeAll? (text.afterElementMark.dropWhile isNameChar) with
  | none => .error .namelessShorthand
  | some (shorthands, rest) =>
    if tag.isEmpty && shorthands.isEmpty then .error (.invalidElement text)
    else
      .ok ({ tag := if tag.isEmpty then defaultTag else tag
             classes := shorthands.filterMap Shorthand.class?
             ids := shorthands.filterMap Shorthand.id? }, rest)

namespace Reading

/-- Reads the attribute block at the front of a text that begins with its opening brace. Gives the
code between the braces and what follows the closing one. -/
def attributes (text : Text) : Reading (Text × Text) := do
  let read ← gather (fun text => text.bracketedLength?.isSome) Text.trim .unmatchedAttributes text
  let length := read.text.bracketedLength?.getD 0
  return (Text.trim ((read.text.take (length - 1)).drop 1), read.text.drop length)

def attributes? (text : Text) : Reading (Option Text × Text) :=
  if text.head? = some '\x7b' then do
    let (code, after) ← attributes text
    return (some code, after)
  else pure (none, text)

def elementTail (text : Text) : Reading ElementTail :=
  match text with
  | '/' :: rest => if Text.isBlank rest then pure .selfClosing else fail .selfClosingContent
  | '=' :: rest => do return .script (← script rest)
  | _ => pure (if Text.isBlank text then .empty else .text (Text.trim text))

def elementRest (declared : Element) (text : Text) : Reading Element := do
  let (attributes?, text) ← attributes? text
  let (marks, text) := TrimMarks.take {} text
  let tail ← elementTail text
  return { declared with
    attributes?, trimsInside := marks.inside, trimsOutside := marks.outside, tail }

def element (text : Text) : Reading Element :=
  match Element.declaration text with
  | .error fault => fail fault
  | .ok (declared, rest) => elementRest declared rest

end Reading

end HamlTemplate
