import HamlTemplate.Proofs.BalancedCode

/-!
# White space is as good as the end

A scan that comes to the end of a text and one that goes on with white space there are in the same
state. No construct reaches over white space to tell the two apart: what may look further ahead, a
slash, a question mark or a hash mark, treats white space like nothing. So a text that grows by
whole lines can be scanned again from its beginning without revising what was found before.
-/

namespace HamlTemplate

open Unicode

variable {d : Char} {text more : Text}

/-- No identifier goes on with white space. -/
private theorem isIdentifierChar_of_isWhiteSpace (white : isWhiteSpace d = true) :
    isIdentifierChar d = false := by
  have other : d ≠ '_' := ne_of_isWhiteSpace white (by decide)
  simp [isIdentifierChar, isAlphanumeric_of_isWhiteSpace white, other]

namespace Skeleton

private theorem expectsRegex_append_white (white : isWhiteSpace d = true) (s : Skeleton)
    (rest more : Text) : s.expectsRegex (rest ++ d :: more) = s.expectsRegex rest := by
  cases rest with
  | nil => simp [expectsRegex, white]
  | cons c rest => rfl

private theorem expectsCharacter_append_white (white : isWhiteSpace d = true) (s : Skeleton)
    (rest more : Text) : s.expectsCharacter (rest ++ d :: more) = s.expectsCharacter rest := by
  match rest with
  | [] => simp [expectsCharacter, white]
  | [c] => simp [expectsCharacter, isIdentifierChar_of_isWhiteSpace white]
  | c :: e :: rest => rfl

end Skeleton

namespace CodeScan

private theorem stepLiteral_append_white (white : isWhiteSpace d = true) (s : CodeScan)
    (quote : Char)
    (outer : List Frame) (c : Char) (rest more : Text) :
    s.stepLiteral quote outer c (rest ++ d :: more) = s.stepLiteral quote outer c rest := by
  have other : d ≠ '\x7b' := ne_of_isWhiteSpace white (by decide)
  cases rest with
  | nil => simp [stepLiteral, other]
  | cons e rest => rfl

private theorem stepCode_append_white (white : isWhiteSpace d = true) (s : CodeScan) (c : Char)
    (rest more : Text) : s.stepCode c (rest ++ d :: more) = s.stepCode c rest := by
  simp only [stepCode, Skeleton.expectsRegex_append_white white,
    Skeleton.expectsCharacter_append_white white]

private theorem stepReading_append_white (white : isWhiteSpace d = true) (s : CodeScan) (c : Char)
    (rest more : Text) : s.stepReading c (rest ++ d :: more) = s.stepReading c rest := by
  simp only [stepReading, stepLiteral_append_white white, stepCode_append_white white]

/-- No step sees white space behind the rest of the text. -/
theorem step_append_white (ends : ∀ d ∈ more.head?, isWhiteSpace d = true) (s : CodeScan)
    (c : Char) (rest : Text) : s.step c (rest ++ more) = s.step c rest := by
  cases more with
  | nil => rw [List.append_nil]
  | cons d more => simp only [step, stepReading_append_white (ends d rfl)]

/-- A text is read alike at the end of the code and before white space. -/
theorem runBefore_white (ends : ∀ d ∈ more.head?, isWhiteSpace d = true) (s : CodeScan)
    (text : Text) : s.runBefore text more = s.run text := by
  induction text generalizing s with
  | nil => rfl
  | cons c rest ih => rw [runBefore_cons, step_append_white ends, ih, run_cons]

end CodeScan

namespace Text

/-- A scan that goes on with white space goes on from where the scan of the text before it ends. -/
theorem scan_append (ends : ∀ d ∈ more.head?, isWhiteSpace d = true) :
    (text ++ more).scan = text.scan.run more := by
  rw [scan, CodeScan.run_append, CodeScan.runBefore_white ends, scan]

theorem isWhiteSpace_of_head?_lineFeed : ∀ d ∈ ('\n' :: more).head?, isWhiteSpace d = true := by
  rintro _ ⟨⟩
  decide

end Text

/-- The bracket that closes the first one is found in a text as soon as the lines of the text reach
as far as that bracket. -/
theorem Text.bracketedLength?_of_append_lineFeed {text more : Text} {n : Nat}
    (h : (text ++ '\n' :: more).bracketedLength? = some n) :
    text.bracketedLength? = if n ≤ text.length then some n else none := by
  cases text with
  | nil => cases h
  | cons opener rest =>
    rw [bracketedLength?] at h ⊢
    split at h
    · rename_i opens
      rw [if_pos (by exact opens)]
      rw [Text.scan_append Text.isWhiteSpace_of_head?_lineFeed, Text.scan,
        CodeScan.run_cons {} opener] at h
      rw [Text.scan, CodeScan.run_cons {} opener]
      obtain within | ⟨code, after, rfl, closed⟩ := (CodeScan.WithinFirst.first opens rest).run rest
      · obtain within' | ⟨code, after, _, closed⟩ := within.run ('\n' :: more)
        · rw [within'.unclosed] at h
          cases h
        · rw [closed] at h
          cases h
          rw [within.unclosed, if_neg]
          simp only [CodeScan.read_run, CodeScan.read_step, List.length_cons]
          omega
      · rw [CodeScan.closedAt_run_of_some closed] at h
        rw [closed, ← h, if_pos]
        cases h
        simp only [CodeScan.read_step, List.length_cons, List.length_append]
        omega
    · cases h

end HamlTemplate
