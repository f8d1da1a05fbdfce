import HamlTemplate.ElementLine

/-!
# Content of lines

The first characters of a line say what the line is. A line that begins with no mark is plain
text, and so is one that begins with an interpolation or with a backslash, which hides a mark.
Classes and ids without a tag are those of an element with the default tag.
-/

namespace HamlTemplate

inductive Content where
  /-- An element, by its whole line. -/
  | element (text : Text)
  /-- A doctype, by what follows its mark. -/
  | doctype (text : Text)
  /-- A line with the mark of a doctype cut short. -/
  | brokenDoctype
  /-- A comment for the page, by what follows its mark. -/
  | comment (text : Text)
  /-- A script whose value is output, by what follows its mark. -/
  | script (afterMark : Text)
  /-- A script that is only run, by what follows its mark. -/
  | silentScript (afterMark : Text)
  /-- A comment that is left out of the page. -/
  | hamlComment
  /-- The beginning of a filter block, by its whole line. -/
  | filter (text : Text)
  | plain (text : Text)
  deriving DecidableEq, Repr

/-- The content of a line of the given text. -/
def Content.ofText (text : Text) : Content :=
  match text with
  | '%' :: _ => element text
  | '!' :: '!' :: '!' :: rest => doctype rest
  | '!' :: _ => brokenDoctype
  | '/' :: rest => comment rest
  | '=' :: rest => script rest
  | '-' :: '#' :: _ => hamlComment
  | '-' :: rest => silentScript rest
  | '#' :: '\x7b' :: _ => plain text
  | '#' :: _ => element ('%' :: defaultTag ++ text)
  | '.' :: _ => element ('%' :: defaultTag ++ text)
  | ':' :: _ => filter text
  | '\\' :: rest => plain rest
  | _ => plain text

end HamlTemplate
