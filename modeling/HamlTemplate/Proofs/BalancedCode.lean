import HamlTemplate.Proofs.Brackets

/-!
# Code in which everything is closed

Brackets, strings and interpolations can be nested in each other to any depth. `Text.Balanced` is
the grammar of texts in which each of them is closed. A scan of such a text ends with the constructs
open that were open before, so a closing bracket inside a string is never taken for one outside, and
brackets that are opened between such texts are exactly those that stay open.
-/

namespace HamlTemplate

/-- Where a text stands that is part of some code. -/
inductive CodePlace where
  /-- Outside literals, or inside an interpolation. -/
  | code
  /-- Inside the literal that the quote has begun. -/
  | literal (quote : Char)

def isStringQuote (c : Char) : Bool := c == '\x22' || c == '\x27' || c == '\x60'

theorem isStringQuote_iff {c : Char} :
    isStringQuote c = true ↔ c = '\x22' ∨ c = '\x27' ∨ c = '\x60' := by
  simp [isStringQuote, or_assoc]

/-- The characters of code that neither open nor close anything, wherever they stand. A slash, a
hash mark and a question mark may begin something that hides what follows. -/
def isInert (c : Char) : Bool :=
  !(isStringQuote c || isOpeningBracket c || isClosingBracket c || c == '#' || c == '/' || c == '?')

namespace Text

/-- The text closes all that it opens, at the given place. In a single-quoted string there are no
interpolations; in the others a hash mark before an opening brace always begins one. -/
inductive Balanced : CodePlace → Text → Prop
  | nil (place : CodePlace) : Balanced place []
  | inert {c : Char} {text : Text} (inert : isInert c = true) (rest : Balanced .code text) :
      Balanced .code (c :: text)
  | bracket {opener : Char} {inner text : Text} (opens : isOpeningBracket opener = true)
      (inside : Balanced .code inner) (rest : Balanced .code text) :
      Balanced .code (opener :: (inner ++ closerOf opener :: text))
  | string {quote : Char} {inner text : Text} (quotes : isStringQuote quote = true)
      (inside : Balanced (.literal quote) inner) (rest : Balanced .code text) :
      Balanced .code (quote :: (inner ++ quote :: text))
  | escape {quote c : Char} {text : Text} (rest : Balanced (.literal quote) text) :
      Balanced (.literal quote) ('\\' :: c :: text)
  | interpolation {quote : Char} {inner text : Text} (interpolates : quote ≠ '\x27')
      (inside : Balanced .code inner) (rest : Balanced (.literal quote) text) :
      Balanced (.literal quote) ('#' :: '\x7b' :: (inner ++ '\x7d' :: text))
  | character {quote c : Char} {text : Text} (other : c ≠ quote) (visible : c ≠ '\\')
      (bare : quote ≠ '\x27' → c = '#' → text.head? ≠ some '\x7b')
      (rest : Balanced (.literal quote) text) : Balanced (.literal quote) (c :: text)

/-- Opening brackets in a row, each with the text that stands behind it. -/
def openings (levels : List (Char × Text)) : Text := levels.flatMap fun level => level.1 :: level.2

@[simp] theorem openings_nil : openings [] = [] := rfl

@[simp] theorem openings_cons (level : Char × Text) (levels : List (Char × Text)) :
    openings (level :: levels) = level.1 :: (level.2 ++ openings levels) := by
  simp [openings]

end Text

/-- What may stand behind a text at the given place: a literal goes on up to its quote. -/
def CodePlace.EndsBefore (more : Text) : CodePlace → Prop
  | .code => True
  | .literal quote => isStringQuote quote = true ∧ more.head? = some quote

namespace CodeScan

open Text

variable {s t u v : CodeScan} {c quote opener : Char} {rest more text : Text} {frame : Frame}
  {outer : List Frame} {place : CodePlace}

/-- Reads all characters of a text that more text follows. -/
def runBefore : CodeScan → Text → Text → CodeScan
  | s, [], _ => s
  | s, c :: rest, more => (s.step c (rest ++ more)).runBefore rest more

@[simp] theorem runBefore_nil (s : CodeScan) (more : Text) : s.runBefore [] more = s := rfl

@[simp] theorem runBefore_cons (s : CodeScan) (c : Char) (rest more : Text) :
    s.runBefore (c :: rest) more = (s.step c (rest ++ more)).runBefore rest more := rfl

theorem runBefore_append (s : CodeScan) (text next more : Text) :
    s.runBefore (text ++ next) more = (s.runBefore text (next ++ more)).runBefore next more := by
  induction text generalizing s with
  | nil => rfl
  | cons c rest ih => simp only [List.cons_append, runBefore_cons, List.append_assoc, ih]

theorem run_append (s : CodeScan) (text more : Text) :
    s.run (text ++ more) = (s.runBefore text more).run more := by
  induction text generalizing s with
  | nil => rfl
  | cons c rest ih => simp only [List.cons_append, run_cons, runBefore_cons, ih]

@[simp] theorem read_runBefore (s : CodeScan) (text more : Text) :
    (s.runBefore text more).read = s.read + text.length := by
  induction text generalizing s with
  | nil => rfl
  | cons c rest ih =>
    rw [runBefore_cons, ih, read_step, List.length_cons]
    omega

/-- The next character is read at the given place. -/
def At (s : CodeScan) : CodePlace → Prop
  | .code => s.mode = .reading ∧ ∀ quote, s.frames.head? ≠ some (.literal quote)
  | .literal quote => s.mode = .reading ∧ s.frames.head? = some (.literal quote)

structure Entered (frame : Frame) (s t : CodeScan) : Prop where
  frames : t.frames = frame :: s.frames
  reading : t.mode = .reading
  closedAt : t.closedAt = s.closedAt

/-- The innermost construct has been closed. Nothing is noted unless it was the only one. -/
structure Left (s t : CodeScan) : Prop where
  frames : t.frames = s.frames.tail
  reading : t.mode = .reading
  closedAt : s.frames.tail ≠ [] → t.closedAt = s.closedAt

/-- The same constructs are open as before. Nothing has been noted inside one of them. -/
structure Passed (s t : CodeScan) : Prop where
  frames : t.frames = s.frames
  reading : t.mode = .reading
  closedAt : s.frames ≠ [] → t.closedAt = s.closedAt

theorem Passed.refl (reading : s.mode = .reading) : s.Passed s := ⟨rfl, reading, fun _ => rfl⟩

theorem Passed.trans (first : s.Passed t) (second : t.Passed u) : s.Passed u where
  frames := second.frames.trans first.frames
  reading := second.reading
  closedAt inside := by
    rw [second.closedAt (by rwa [first.frames]), first.closedAt inside]

/-- A construct that is opened and closed again leaves the others as they were. -/
theorem Passed.enclosed (entered : s.Entered frame t) (inside : t.Passed u) (left : u.Left v) :
    s.Passed v := by
  have inner : u.frames = frame :: s.frames := inside.frames.trans entered.frames
  refine ⟨by rw [left.frames, inner, List.tail_cons], left.reading, fun around => ?_⟩
  rw [left.closedAt (by rwa [inner, List.tail_cons]), inside.closedAt (by simp [entered.frames]),
    entered.closedAt]

theorem Passed.at (passed : s.Passed t) (h : s.At place) : t.At place := by
  cases place with
  | code => exact ⟨passed.reading, by rw [passed.frames]; exact h.2⟩
  | literal quote => exact ⟨passed.reading, by rw [passed.frames]; exact h.2⟩

/-! ### Single steps -/

theorem step_of_code (h : s.At .code) (c : Char) (rest : Text) :
    s.step c rest = { s with read := s.read + 1 }.stepCode c rest := by
  simp only [step, h.1]
  rw [stepReading]
  split
  · rename_i quote outer frames
    exact absurd (congrArg List.head? frames) (h.2 quote)
  · rfl

theorem step_of_literal (h : s.At (.literal quote)) (c : Char) (rest : Text) :
    s.step c rest = { s with read := s.read + 1 }.stepLiteral quote s.frames.tail c rest := by
  obtain ⟨outer, frames⟩ := List.head?_eq_some_iff.mp h.2
  simp only [step, h.1, stepReading, frames, List.tail_cons]

theorem step_of_skipping (skips : s.mode = .skipping) (c : Char) (rest : Text) :
    s.step c rest = { s with read := s.read + 1, mode := .reading } := by
  simp only [step, skips]

/-- An inert character changes neither the open constructs nor the way of reading. -/
theorem passed_inert (h : s.At .code) (inert : isInert c = true) (rest : Text) :
    s.Passed (s.step c rest) := by
  have other : ¬isStringQuote c ∧ ¬isOpeningBracket c ∧ ¬isClosingBracket c ∧ c ≠ '#' ∧ c ≠ '/' ∧
      c ≠ '?' := by
    simpa [isInert, and_assoc] using inert
  obtain ⟨quote, opening, closing, hash, slash, mark⟩ := other
  rw [isStringQuote_iff] at quote
  rw [step_of_code h]
  simp only [stepCode, if_neg quote, if_neg opening, if_neg closing, hash, slash, mark, false_and,
    if_false]
  split
  · exact ⟨rfl, h.1, fun _ => rfl⟩
  · split
    · exact ⟨rfl, h.1, fun _ => rfl⟩
    · exact ⟨rfl, h.1, fun _ => rfl⟩

theorem entered_bracket (h : s.At .code) (opens : isOpeningBracket opener = true) (rest : Text) :
    s.Entered (.bracket opener) (s.step opener rest) := by
  rw [step_of_code h]
  obtain rfl | rfl | rfl := isOpeningBracket_iff.mp opens
  · exact ⟨rfl, h.1, rfl⟩
  · exact ⟨rfl, h.1, rfl⟩
  · exact ⟨rfl, h.1, rfl⟩

theorem entered_string (h : s.At .code) (quotes : isStringQuote quote = true) (rest : Text) :
    s.Entered (.literal quote) (s.step quote rest) := by
  rw [step_of_code h, stepCode, if_pos (isStringQuote_iff.mp quotes)]
  exact ⟨rfl, h.1, rfl⟩

private theorem mode_noteClosed (s : CodeScan) : s.noteClosed.mode = s.mode := by
  rw [noteClosed]
  split <;> rfl

/-- Inside other constructs there is nothing to note. -/
theorem Left.noteClosed (left : s.Left t) : s.Left t.noteClosed where
  frames := (frames_noteClosed t).trans left.frames
  reading := (mode_noteClosed t).trans left.reading
  closedAt around := by
    have inside : ¬(t.frames = [] ∧ t.closedAt = none) := fun first =>
      around (left.frames.symm.trans first.1)
    rw [CodeScan.noteClosed, if_neg inside]
    exact left.closedAt around

/-- The bracket that fits the innermost one closes it. -/
theorem step_closer (reading : s.mode = .reading) (opens : isOpeningBracket opener = true)
    (frames : s.frames = .bracket opener :: outer) (rest : Text) :
    s.step (closerOf opener) rest =
      ({ s with read := s.read + 1, frames := outer }.keep (closerOf opener)).noteClosed := by
  have closing : isClosingBracket (closerOf opener) = true := by
    obtain rfl | rfl | rfl := isOpeningBracket_iff.mp opens <;> rfl
  have code : s.At .code := ⟨reading, by simp [frames]⟩
  rw [step_of_code code, stepCode_of_isClosingBracket closing]
  simp only [close, frames, if_true]

theorem left_bracket (reading : s.mode = .reading) (opens : isOpeningBracket opener = true)
    (frames : s.frames = .bracket opener :: outer) (rest : Text) :
    s.Left (s.step (closerOf opener) rest) := by
  rw [step_closer reading opens frames]
  apply Left.noteClosed
  exact ⟨by rw [frames]; rfl, reading, fun _ => rfl⟩

theorem entered_interpolation (h : s.At (.literal quote)) (interpolates : quote ≠ '\x27')
    (rest : Text) :
    s.Entered .interpolation ((s.step '#' ('\x7b' :: rest)).step '\x7b' rest) := by
  have begun : s.step '#' ('\x7b' :: rest) =
      ({ s with read := s.read + 1 }.enter .interpolation).skipNext := by
    rw [step_of_literal h, stepLiteral, if_neg (by decide), if_pos ⟨rfl, interpolates, rfl⟩]
  rw [begun, step_of_skipping rfl]
  exact ⟨rfl, rfl, rfl⟩

theorem left_interpolation (reading : s.mode = .reading)
    (frames : s.frames = .interpolation :: outer) (rest : Text) : s.Left (s.step '\x7d' rest) := by
  have code : s.At .code := ⟨reading, by simp [frames]⟩
  have closed : s.step '\x7d' rest = { s with read := s.read + 1, frames := outer }.noteClosed := by
    rw [step_of_code code, stepCode_of_isClosingBracket rfl]
    simp only [close, frames, if_true]
  rw [closed]
  apply Left.noteClosed
  exact ⟨by rw [frames]; rfl, reading, fun _ => rfl⟩

theorem left_string (h : s.At (.literal quote)) (quotes : isStringQuote quote = true)
    (rest : Text) : s.Left (s.step quote rest) := by
  have visible : quote ≠ '\\' ∧ quote ≠ '#' := by
    obtain rfl | rfl | rfl := isStringQuote_iff.mp quotes <;> decide
  rw [step_of_literal h, stepLiteral, if_neg visible.1, if_neg fun hash => visible.2 hash.1,
    if_pos rfl]
  exact ⟨rfl, h.1, fun _ => rfl⟩

/-- A backslash takes the next character with it. -/
theorem passed_escape (h : s.At (.literal quote)) (c : Char) (rest : Text) :
    s.Passed ((s.step '\\' (c :: rest)).step c rest) := by
  have begun : s.step '\\' (c :: rest) = { s with read := s.read + 1 }.skipNext := by
    rw [step_of_literal h, stepLiteral, if_pos rfl]
  rw [begun, step_of_skipping rfl]
  exact ⟨rfl, rfl, fun _ => rfl⟩

theorem passed_character (h : s.At (.literal quote)) (other : c ≠ quote) (visible : c ≠ '\\')
    (bare : quote ≠ '\x27' → c = '#' → rest.head? ≠ some '\x7b') : s.Passed (s.step c rest) := by
  rw [step_of_literal h, stepLiteral, if_neg visible,
    if_neg fun hash => bare hash.2.1 hash.1 hash.2.2, if_neg other]
  exact ⟨rfl, h.1, fun _ => rfl⟩

/-! ### Whole texts -/

theorem runBefore_around (s : CodeScan) (first last : Char) (inner text more : Text) :
    s.runBefore (first :: (inner ++ last :: text)) more =
      (((s.step first (inner ++ last :: (text ++ more))).runBefore inner
        (last :: (text ++ more))).step last (text ++ more)).runBefore text more := by
  simp only [runBefore_cons, runBefore_append, List.append_assoc, List.cons_append]

/-- A text in which everything is closed leaves the constructs around it as they were. -/
theorem passed_of_balanced (h : Balanced place text) (more : Text) (stands : s.At place)
    (ends : place.EndsBefore more) : s.Passed (s.runBefore text more) := by
  induction h generalizing s more with
  | nil place =>
    apply Passed.refl
    cases place with
    | code => exact stands.1
    | literal => exact stands.1
  | @inert c text inert _ ih =>
    have first := passed_inert stands inert (text ++ more)
    exact first.trans (ih more (first.at stands) ends)
  | @bracket opener inner text opens _ _ inside rest =>
    have entered := entered_bracket stands opens (inner ++ closerOf opener :: (text ++ more))
    have passed := inside (closerOf opener :: (text ++ more))
      ⟨entered.reading, by simp [entered.frames]⟩ trivial
    have left := left_bracket passed.reading opens (passed.frames.trans entered.frames)
      (text ++ more)
    have first := Passed.enclosed entered passed left
    rw [runBefore_around]
    exact first.trans (rest more (first.at stands) ends)
  | @string quote inner text quotes _ _ inside rest =>
    have entered := entered_string stands quotes (inner ++ quote :: (text ++ more))
    have within : (s.step quote (inner ++ quote :: (text ++ more))).At (.literal quote) :=
      ⟨entered.reading, by simp [entered.frames]⟩
    have passed := inside (quote :: (text ++ more)) within ⟨quotes, rfl⟩
    have left := left_string (passed.at within) quotes (text ++ more)
    have first := Passed.enclosed entered passed left
    rw [runBefore_around]
    exact first.trans (rest more (first.at stands) ends)
  | @escape quote c text _ ih =>
    have first := passed_escape stands c (text ++ more)
    exact first.trans (ih more (first.at stands) ends)
  | @interpolation quote inner text interpolates _ _ inside rest =>
    have entered := entered_interpolation stands interpolates (inner ++ '\x7d' :: (text ++ more))
    have passed := inside ('\x7d' :: (text ++ more))
      ⟨entered.reading, by simp [entered.frames]⟩ trivial
    have left := left_interpolation passed.reading (passed.frames.trans entered.frames)
      (text ++ more)
    have first := Passed.enclosed entered passed left
    rw [runBefore_cons, runBefore_around]
    simp only [List.cons_append, List.append_assoc]
    exact first.trans (rest more (first.at stands) ends)
  | @character quote c text other visible bare _ ih =>
    obtain ⟨quotes, next⟩ := ends
    have behind : quote ≠ '\x27' → c = '#' → (text ++ more).head? ≠ some '\x7b' := by
      intro interpolates hash
      cases text with
      | nil =>
        -- The text ends in the hash mark, and its quote stands behind it.
        rw [List.nil_append, next]
        rintro ⟨⟩
        cases quotes
      | cons d text => exact bare interpolates hash
    have first := passed_character stands other visible behind
    exact first.trans (ih more (first.at stands) ⟨quotes, next⟩)

/-- Brackets that are opened and not closed are open behind the last of them. -/
theorem run_openings (stands : s.At .code) {levels : List (Char × Text)}
    (opens : ∀ level ∈ levels, isOpeningBracket level.1 = true ∧ Balanced .code level.2) :
    (s.run (openings levels)).frames.length = s.frames.length + levels.length ∧
      (s.run (openings levels)).closedAt = s.closedAt := by
  induction levels generalizing s with
  | nil => exact ⟨rfl, rfl⟩
  | cons level levels ih =>
    obtain ⟨⟨bracket, balanced⟩, others⟩ := List.forall_mem_cons.mp opens
    have entered := entered_bracket stands bracket (level.2 ++ openings levels)
    have within : (s.step level.1 (level.2 ++ openings levels)).At .code :=
      ⟨entered.reading, by simp [entered.frames]⟩
    have passed := passed_of_balanced balanced (openings levels) within trivial
    obtain ⟨depth, closed⟩ := ih (passed.at within) others
    rw [openings_cons, run_cons, run_append]
    constructor
    · rw [depth, passed.frames, entered.frames, List.length_cons, List.length_cons]
      omega
    · rw [closed, passed.closedAt (by simp [entered.frames]), entered.closedAt]

private theorem at_start : At {} .code := ⟨rfl, nofun⟩

/-- The bracket behind a text in which everything is closed is noted when nothing else is open. -/
theorem closedAt_of_balanced {inner : Text} (opens : isOpeningBracket opener = true)
    (balanced : Balanced .code inner) (rest : Text) :
    (run {} (opener :: (inner ++ closerOf opener :: rest))).closedAt = some (inner.length + 2) := by
  have entered := entered_bracket at_start opens (inner ++ closerOf opener :: rest)
  have passed := passed_of_balanced balanced (closerOf opener :: rest)
    ⟨entered.reading, by simp [entered.frames]⟩ trivial
  rw [run_cons, run_append, run_cons]
  apply closedAt_run_of_some
  have unclosed := passed.closedAt (by simp [entered.frames])
  rw [step_closer passed.reading opens (passed.frames.trans entered.frames), noteClosed,
    if_pos ⟨rfl, unclosed.trans entered.closedAt⟩]
  simp only [keep, read_runBefore, read_step]
  congr 1
  omega

end CodeScan

/-- In a text in which everything is closed a scan leaves nothing open. A bracket before such a text
is closed by the one behind it, whatever follows. Of brackets that are opened one inside the other,
with such texts between them, all stay open. -/
theorem scan_of_balanced :
    (∀ code, Text.Balanced .code code → code.scan.depth = 0) ∧
    (∀ opener code rest, isOpeningBracket opener = true → Text.Balanced .code code →
      Text.bracketedBytes? (opener :: (code ++ closerOf opener :: rest)) =
        some (Text.utf8Length (opener :: (code ++ [closerOf opener])))) ∧
    ∀ code levels, Text.Balanced .code code →
      (∀ level ∈ levels, isOpeningBracket level.1 = true ∧ Text.Balanced .code level.2) →
        (code ++ Text.openings levels).scan.depth = levels.length ∧
        (Text.openings levels).bracketedBytes? = none := by
  refine ⟨?_, ?_, ?_⟩
  · intro code balanced
    have passed := CodeScan.passed_of_balanced balanced [] CodeScan.at_start trivial
    rw [Text.scan, ← List.append_nil code, CodeScan.run_append, CodeScan.run_nil, CodeScan.depth,
      passed.frames]
    rfl
  · intro opener code rest opens balanced
    have closed := CodeScan.closedAt_of_balanced opens balanced rest
    have bracketed : (opener :: (code ++ closerOf opener :: rest)).take (code.length + 2) =
        opener :: (code ++ [closerOf opener]) := by
      simp [List.take_append, List.take_of_length_le]
    rw [Text.bracketedBytes?, Text.bracketedLength?, if_pos (by exact opens), Text.scan, closed,
      Option.map_some, bracketed]
  · intro code levels balanced opens
    have passed := CodeScan.passed_of_balanced balanced (Text.openings levels)
      CodeScan.at_start trivial
    constructor
    · have opened := CodeScan.run_openings (passed.at CodeScan.at_start) opens
      rw [Text.scan, CodeScan.run_append, CodeScan.depth, opened.1, passed.frames]
      simp
    · have opened := CodeScan.run_openings CodeScan.at_start opens
      rw [Text.bracketedBytes?, Text.bracketedLength?, Text.scan, opened.2]
      simp

/-- Neither the brace in this string nor the brackets in its interpolation close the block that is
around it. -/
theorem scan_of_balanced_interpolation :
    Text.Balanced .code "\"\x7d#\x7b[b]\x7d\"".toList ∧
      (Text.scan "\"\x7d#\x7b[b]\x7d\"".toList).depth = 0 ∧
      Text.bracketedBytes? "\x7b\"\x7d#\x7b[b]\x7d\"\x7d é".toList = some 11 ∧
      (Text.scan "\"\x7d#\x7b[b]\x7d\"(\"\x7d#\x7b[b]\x7d\"[".toList).depth = 2 ∧
      Text.bracketedBytes? "(\"\x7d#\x7b[b]\x7d\"[".toList = none := by
  have bracket : Text.Balanced .code "[b]".toList :=
    .bracket rfl (.inert rfl (.nil _)) (.nil _)
  have body : Text.Balanced (.literal '\x22') "\x7d#\x7b[b]\x7d".toList :=
    .character (by decide) (by decide) (fun _ => by decide)
      (.interpolation (by decide) bracket (.nil _))
  have string : Text.Balanced .code "\"\x7d#\x7b[b]\x7d\"".toList := .string rfl body (.nil _)
  have ⟨whole, bracketed, nested⟩ := scan_of_balanced
  have levels := nested _ [('(', "\"\x7d#\x7b[b]\x7d\"".toList), ('[', [])] string
    (List.forall_mem_cons.mpr ⟨⟨rfl, string⟩, List.forall_mem_singleton.mpr ⟨rfl, .nil _⟩⟩)
  exact ⟨string, whole _ string, bracketed '\x7b' _ " é".toList rfl string, levels.1, levels.2⟩

end HamlTemplate
