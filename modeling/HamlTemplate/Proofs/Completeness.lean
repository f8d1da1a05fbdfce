import HamlTemplate.Code.Completeness
import HamlTemplate.Proofs.Gathering
import HamlTemplate.Proofs.LineFeed
import HamlTemplate.Proofs.Trimming

/-!
# White space completes nothing

A statement that is not complete does not become so by white space behind it. Outside literals white
space only goes into the skeleton, whose end is looked at without it, and inside a literal it is
passed over, because no literal ends in it. So a blank line is never the last one of a statement.
-/

namespace HamlTemplate

open Unicode

def isQuote (c : Char) : Bool := c == '\x22' || c == '\x27' || c == '\x60' || c == '/'

/-- Literals are opened only with a quote or a slash. -/
theorem FrameStep.quoted {c quote : Char} {frames after : List Frame}
    (step : FrameStep c frames after)
    (quoted : ∀ quote, .literal quote ∈ frames → isQuote quote = true)
    (member : .literal quote ∈ after) : isQuote quote = true := by
  cases step with
  | stay => exact quoted quote member
  | enter begun =>
    obtain rfl | outer := List.mem_cons.mp member
    · obtain ⟨rfl, quotes⟩ := begun
      simpa [isQuote, or_assoc] using quotes
    · exact quoted quote outer
  | leave => exact quoted quote (List.mem_cons_of_mem _ member)

namespace CodeScan

variable {s t : CodeScan} {c : Char} {rest : Text}

/-- All literals that are open have been begun by a character that begins literals. -/
def Quoted (s : CodeScan) : Prop := ∀ quote, .literal quote ∈ s.frames → isQuote quote = true

theorem quoted_start : Quoted {} := by
  intro quote member
  cases member

theorem Quoted.step (h : s.Quoted) (c : Char) (rest : Text) : (s.step c rest).Quoted :=
  fun _ member => (step_spec s c rest).frames.quoted h member

theorem Quoted.run (h : s.Quoted) (text : Text) : (s.run text).Quoted := by
  induction text generalizing s with
  | nil => exact h
  | cons c rest ih => exact ih (h.step c rest)

private theorem stepCode_of_isWhiteSpace (s : CodeScan) (white : isWhiteSpace c = true)
    (rest : Text) :
    s.stepCode c rest = s.keep c := by
  have other : ∀ d, isWhiteSpace d = false → c ≠ d := fun _ => ne_of_isWhiteSpace white
  have opening : isOpeningBracket c = false := by
    simp [isOpeningBracket, other '(' (by decide), other '[' (by decide), other '\x7b' (by decide)]
  have closing : isClosingBracket c = false := by
    simp [isClosingBracket, other ')' (by decide), other ']' (by decide), other '\x7d' (by decide)]
  simp [stepCode, opening, closing, other '\x22' (by decide), other '\x27' (by decide),
    other '\x60' (by decide), other '/' (by decide), other '#' (by decide),
    other '?' (by decide), other '|' (by decide)]

private theorem stepLiteral_of_isWhiteSpace {quote : Char} (quoted : isQuote quote = true)
    (outer : List Frame) (white : isWhiteSpace c = true) (rest : Text) :
    s.stepLiteral quote outer c rest = s := by
  have other : ∀ d, isWhiteSpace d = false → c ≠ d := fun _ => ne_of_isWhiteSpace white
  have unquoted : c ≠ quote := by
    apply other
    have quotes : quote = '\x22' ∨ quote = '\x27' ∨ quote = '\x60' ∨ quote = '/' := by
      simpa [isQuote, or_assoc] using quoted
    obtain rfl | rfl | rfl | rfl := quotes <;> decide
  simp [stepLiteral, unquoted, other '\\' (by decide), other '#' (by decide)]

private theorem stepReading_of_isWhiteSpace (quoted : s.Quoted) (white : isWhiteSpace c = true)
    (rest : Text) : s.stepReading c rest = s ∨ s.stepReading c rest = s.keep c := by
  rw [stepReading]
  split
  · rename_i quote outer frames
    exact .inl (stepLiteral_of_isWhiteSpace (quoted quote (by simp [frames])) outer white rest)
  · exact .inr (stepCode_of_isWhiteSpace s white rest)

/-- White space is counted and perhaps kept, and it ends an escape. It leaves a comment only if it
ends the line. Nothing is opened or closed by it. -/
theorem step_of_isWhiteSpace (quoted : s.Quoted) (white : isWhiteSpace c = true) (rest : Text) :
    ∃ skeleton, (skeleton = s.skeleton ∨ skeleton = s.skeleton.push c) ∧
      s.step c rest = { s with
        skeleton
        read := s.read + 1
        mode := if s.mode = .comment ∧ c ≠ '\n' then .comment else .reading } := by
  have counted : ∀ mode : ScanMode, ∃ skeleton,
      (skeleton = s.skeleton ∨ skeleton = s.skeleton.push c) ∧
        CodeScan.stepReading { s with read := s.read + 1, mode } c rest =
          { s with skeleton, read := s.read + 1, mode } := by
    intro mode
    have kept : Quoted { s with read := s.read + 1, mode } := quoted
    obtain same | pushed := stepReading_of_isWhiteSpace kept white rest
    · exact ⟨s.skeleton, .inl rfl, same⟩
    · exact ⟨s.skeleton.push c, .inr rfl, pushed⟩
  cases mode : s.mode with
  | reading => simpa [step, mode] using counted .reading
  | skipping => exact ⟨s.skeleton, .inl rfl, by simp [step, mode]⟩
  | comment =>
    by_cases feed : c = '\n'
    · simpa [step, mode, feed] using counted .reading
    · exact ⟨s.skeleton, .inl rfl, by simp [step, mode, feed]⟩

/-- Two states have the same open, and their skeletons end in the same when trimmed. -/
structure SameEnd (s t : CodeScan) : Prop where
  frames : s.frames = t.frames
  parametersOpen : s.parametersOpen = t.parametersOpen
  skeleton : s.skeleton.trimEnd = t.skeleton.trimEnd

theorem SameEnd.trans {u : CodeScan} (first : SameEnd s t) (second : SameEnd t u) :
    SameEnd s u where
  frames := first.frames.trans second.frames
  parametersOpen := first.parametersOpen.trans second.parametersOpen
  skeleton := first.skeleton.trans second.skeleton

theorem sameEnd_step (quoted : s.Quoted) (white : isWhiteSpace c = true) (rest : Text) :
    SameEnd (s.step c rest) s := by
  obtain ⟨skeleton, kept, state⟩ := step_of_isWhiteSpace quoted white rest
  rw [state]
  refine ⟨rfl, rfl, ?_⟩
  obtain rfl | rfl := kept
  · rfl
  · exact congrArg Skeleton.mk (List.dropWhile_cons_of_pos white)

/-- However much white space is read, the same is open and the trimmed skeleton ends as before. -/
theorem sameEnd_run {white : Text} (quoted : s.Quoted) (blank : white.isBlank = true) :
    SameEnd (s.run white) s := by
  induction white generalizing s with
  | nil => exact ⟨rfl, rfl, rfl⟩
  | cons c rest ih =>
    simp only [Text.isBlank, List.all_cons, Bool.and_eq_true] at blank
    exact (ih (quoted.step c rest) blank.2).trans (sameEnd_step quoted blank.1 rest)

end CodeScan

namespace Text

variable {text other white : Text} {lines : List Text}

/-- White space behind a text opens nothing and closes nothing. -/
theorem sameEnd_scan_append (text : Text) (blank : white.isBlank = true) :
    CodeScan.SameEnd (text ++ white).scan text.scan := by
  have ends : ∀ d ∈ white.head?, isWhiteSpace d = true :=
    fun d first => List.all_eq_true.mp blank d (List.mem_of_mem_head? first)
  rw [scan_append ends]
  exact CodeScan.sameEnd_run (CodeScan.quoted_start.run text) blank

/-- Whether a text is a statement depends on the end of its scan only. -/
theorem isStatement_congr (same : CodeScan.SameEnd text.scan other.scan) :
    text.isStatement = other.isStatement := by
  simp only [isStatement, CodeScan.isBalanced, same.frames, same.parametersOpen, same.skeleton]

/-- A line feed at the end neither completes a statement nor reopens it. -/
theorem isStatement_append_lineFeed (text : Text) :
    isStatement (text ++ ['\n']) = isStatement text :=
  isStatement_congr (sameEnd_scan_append text (by decide))

/-- Blank lines put nothing but white space behind a text. -/
private theorem isBlank_flatMap_trimEnd (blank : ∀ raw ∈ lines, raw.isBlank = true) :
    isBlank (lines.flatMap fun raw => '\n' :: trimEnd raw) = true := by
  rw [isBlank, List.all_eq_true]
  intro c member
  obtain ⟨raw, within, inside⟩ := List.mem_flatMap.mp member
  rw [trimEnd_eq_nil_iff.mpr (blank raw within), List.mem_singleton] at inside
  subst inside
  decide

end Text

/-- White space at the end of a text neither completes a statement nor reopens it, whatever is open
at the end of the text. So a text with blank lines gathered behind it is a statement exactly if it
is one without them. -/
theorem isStatement_append_of_isBlank (text : Text) :
    (∀ white : Text, white.isBlank = true → (text ++ white).isStatement = text.isStatement) ∧
      ∀ lines : List Text, (∀ raw ∈ lines, raw.isBlank = true) →
        (text.continued Text.trimEnd lines).isStatement = text.isStatement := by
  have behind : ∀ white : Text, white.isBlank = true →
      (text ++ white).isStatement = text.isStatement :=
    fun white blank => Text.isStatement_congr (Text.sameEnd_scan_append text blank)
  refine ⟨behind, ?_⟩
  intro lines blank
  exact behind _ (Text.isBlank_flatMap_trimEnd blank)

/-- The backslash takes the ideographic space with it, and the string stays open behind the line.
Two blank lines behind a comment leave the statement whole. -/
theorem isStatement_append_of_isBlank_escape :
    Text.isBlank "\u3000\n\t".toList = true ∧
      Text.isStatement ("a \x22\\".toList ++ "\u3000\n\t".toList) = false ∧
      (∀ raw ∈ ["\t".toList, []], Text.isBlank raw = true) ∧
      Text.isStatement (Text.continued Text.trimEnd "a # ?".toList ["\t".toList, []]) = true := by
  have open_ : Text.isStatement "a \x22\\".toList = false := by decide +kernel
  have whole : Text.isStatement "a # ?".toList = true := by decide +kernel
  have space : Text.isBlank "\u3000\n\t".toList = true := by decide
  have lines : ∀ raw ∈ ["\t".toList, []], Text.isBlank raw = true := by decide
  have escaped := (isStatement_append_of_isBlank "a \x22\\".toList).1 _ space
  have commented := (isStatement_append_of_isBlank "a # ?".toList).2 _ lines
  exact ⟨space, escaped.trans open_, lines, commented.trans whole⟩

end HamlTemplate
