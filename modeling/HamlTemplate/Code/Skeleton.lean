import HamlTemplate.Text

/-!
# Skeletons of code

A skeleton is a piece of code reduced to what decides its structure: literals are a single
underscore and comments are gone. Only its end is ever looked at while it grows, so it is
kept with the last character first.
-/

namespace HamlTemplate

open Unicode

def isIdentifierChar (c : Char) : Bool := isAlphanumeric c || c == '_'

/-- Code without the contents of its literals and without its comments. -/
structure Skeleton where
  /-- The characters, last one first. -/
  back : Text := []
  deriving DecidableEq, Repr

namespace Skeleton

def ofText (text : Text) : Skeleton := ⟨text.reverse⟩

def toText (s : Skeleton) : Text := s.back.reverse

def push (s : Skeleton) (c : Char) : Skeleton := ⟨c :: s.back⟩

def last? (s : Skeleton) : Option Char := s.back.head?

def trimEnd (s : Skeleton) : Skeleton := ⟨s.back.dropWhile isWhiteSpace⟩

def endsWith (s : Skeleton) (ending : Text) : Bool := ending.reverse.isPrefixOf s.back

/-- Whether the skeleton ends in the given word and the word stands on its own: what comes
before it is no part of an identifier. -/
def endsWithWord (s : Skeleton) (word : Text) : Bool :=
  s.endsWith word && !(s.back.drop word.length).head?.any isIdentifierChar

@[simp] theorem toText_push (s : Skeleton) (c : Char) : (s.push c).toText = s.toText ++ [c] := by
  simp [push, toText]

end Skeleton

def Text.endsWithWord (text word : Text) : Bool := (Skeleton.ofText text).endsWithWord word

end HamlTemplate
