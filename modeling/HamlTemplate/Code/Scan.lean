import HamlTemplate.Code.Skeleton

/-!
# Scanning embedded code

The scan of a piece of embedded code tells which brackets, literals and interpolations are
still open at its end. It is no tokenizer: it knows just enough for a bracket inside a string
or a regular expression never to be taken for structure. A slash opens a regular expression
only where an operand is expected, and percent literals are ordinary brackets.

One step reads one character and may look at those that follow. What a step would have to skip
over is left to the mode of the next one, so the characters read are exactly the steps taken.
-/

namespace HamlTemplate

open Unicode

/-- A construct that is open at some point of a piece of code. -/
inductive Frame where
  /-- A bracket, by its opening character. -/
  | bracket (opener : Char)
  /-- A string or a regular expression, by the character that ends it. -/
  | literal (quote : Char)
  /-- An interpolation inside a literal. -/
  | interpolation
  deriving DecidableEq, Repr

/-- What the next character is to the scan. -/
inductive ScanMode where
  /-- It is read for what it is. -/
  | reading
  /-- It belongs to what came before it and is passed over. -/
  | skipping
  /-- It is part of a comment, unless it ends the line. -/
  | comment
  deriving DecidableEq, Repr

structure CodeScan where
  /-- The open constructs, innermost first. -/
  frames : List Frame := []
  skeleton : Skeleton := {}
  /-- A list of block parameters is open. -/
  parametersOpen : Bool := false
  /-- The number of characters read when a closing bracket first left nothing open. -/
  closedAt : Option Nat := none
  /-- The number of characters read. -/
  read : Nat := 0
  mode : ScanMode := .reading
  deriving DecidableEq, Repr

def isOpeningBracket (c : Char) : Bool := c == '(' || c == '[' || c == '{'

def isClosingBracket (c : Char) : Bool := c == ')' || c == ']' || c == '}'

def closerOf : Char → Char
  | '(' => ')'
  | '[' => ']'
  | '{' => '}'
  | c => c

namespace Skeleton

/-- The characters after which an operand is expected. -/
private def operandMarks : Text := "([\x7b,=!~&|;:?<>+-*".toList

/-- The words after which an operand is expected. -/
private def operandWords : List Text :=
  ["if", "elsif", "unless", "when", "while", "until", "and", "or", "not", "return"].map
    String.toList

/-- A slash opens a regular expression at the start, after an operator, an opening bracket or
a word such as `when`, and as the first argument of a call without parentheses: after a space
and directly before something that is neither white space nor an equals sign. -/
def expectsRegex (s : Skeleton) (rest : Text) : Bool :=
  match s.trimEnd.last? with
  | none => true
  | some c =>
    operandMarks.contains c || operandWords.any s.trimEnd.endsWithWord ||
      (s.last? == some ' ' && rest.head?.any fun next => !isWhiteSpace next && next != '=')

/-- A question mark begins an operand at the start, after a space, and after an opening bracket,
a comma or an equals sign. -/
def atOperand (s : Skeleton) : Bool :=
  match s.last? with
  | none => true
  | some c => " ([\x7b,=".toList.contains c

/-- A question mark and the character after it are a character literal where an operand begins,
if that character is not white space and no identifier goes on after it. -/
def expectsCharacter (s : Skeleton) (rest : Text) : Bool :=
  s.atOperand &&
    match rest with
    | [] => false
    | c :: after => !isWhiteSpace c && !after.head?.any isIdentifierChar

/-- A bar opens a list of block parameters after an opening brace or the word `do`. -/
def expectsParameters (s : Skeleton) : Bool :=
  s.trimEnd.last? == some '{' || s.trimEnd.endsWithWord "do".toList

end Skeleton

namespace CodeScan

def enter (s : CodeScan) (frame : Frame) : CodeScan := { s with frames := frame :: s.frames }

def keep (s : CodeScan) (c : Char) : CodeScan := { s with skeleton := s.skeleton.push c }

def skipNext (s : CodeScan) : CodeScan := { s with mode := .skipping }

/-- Reads a closing bracket: it closes the innermost construct if it fits, and is kept unless it
ends an interpolation. -/
def close (s : CodeScan) (c : Char) : CodeScan :=
  match s.frames with
  | .interpolation :: outer => if c = '\x7d' then { s with frames := outer } else s.keep c
  | .bracket opener :: outer =>
    if c = closerOf opener then { s with frames := outer }.keep c else s.keep c
  | _ => s.keep c

/-- Notes that a closing bracket has left nothing open, if it is the first to do so. -/
def noteClosed (s : CodeScan) : CodeScan :=
  if s.frames = [] ∧ s.closedAt = none then { s with closedAt := some s.read } else s

/-- Reads a character inside a literal. A backslash takes the next character with it, and all
literals but single-quoted ones can hold interpolations. -/
def stepLiteral (s : CodeScan) (quote : Char) (outer : List Frame) (c : Char) (rest : Text) :
    CodeScan :=
  if c = '\\' then s.skipNext
  else if c = '#' ∧ quote ≠ '\x27' ∧ rest.head? = some '\x7b' then
    (s.enter .interpolation).skipNext
  else if c = quote then { s with frames := outer }.keep '_'
  else s

def stepCode (s : CodeScan) (c : Char) (rest : Text) : CodeScan :=
  if c = '\x22' ∨ c = '\x27' ∨ c = '\x60' then s.enter (.literal c)
  else if c = '/' ∧ s.skeleton.expectsRegex rest then s.enter (.literal c)
  else if c = '#' then { s with mode := .comment }
  else if c = '?' ∧ s.skeleton.expectsCharacter rest then (s.keep '_').skipNext
  else if isOpeningBracket c then (s.enter (.bracket c)).keep c
  else if isClosingBracket c then (s.close c).noteClosed
  else if c = '|' ∧ s.parametersOpen then { s with parametersOpen := false }.keep ' '
  else if c = '|' ∧ s.skeleton.expectsParameters then { s with parametersOpen := true }.keep ' '
  else s.keep c

/-- Reads a character for what it is: as part of a literal or as code. -/
def stepReading (s : CodeScan) (c : Char) (rest : Text) : CodeScan :=
  match s.frames with
  | .literal quote :: outer => s.stepLiteral quote outer c rest
  | _ => s.stepCode c rest

def step (s : CodeScan) (c : Char) (rest : Text) : CodeScan :=
  let s := { s with read := s.read + 1 }
  match s.mode with
  | .reading => s.stepReading c rest
  | .skipping => { s with mode := .reading }
  | .comment => if c = '\n' then { s with mode := .reading }.stepReading c rest else s

def run : CodeScan → Text → CodeScan
  | s, [] => s
  | s, c :: rest => (s.step c rest).run rest

def depth (s : CodeScan) : Nat := s.frames.length

/-- Nothing is open, neither a construct nor a list of block parameters. -/
def isBalanced (s : CodeScan) : Bool := s.frames.isEmpty && !s.parametersOpen

@[simp] theorem run_nil (s : CodeScan) : s.run [] = s := rfl

@[simp] theorem run_cons (s : CodeScan) (c : Char) (rest : Text) :
    s.run (c :: rest) = (s.step c rest).run rest := rfl

end CodeScan

def Text.scan (text : Text) : CodeScan := CodeScan.run {} text

/-- For a text that begins with a bracket, the number of characters up to and including the
bracket that closes it. -/
def Text.bracketedLength? (text : Text) : Option Nat :=
  if text.head?.any isOpeningBracket then text.scan.closedAt else none

/-- The number of bytes up to and including the bracket that closes the first one. -/
def Text.bracketedBytes? (text : Text) : Option Nat :=
  text.bracketedLength?.map fun n => Text.utf8Length (text.take n)

end HamlTemplate
