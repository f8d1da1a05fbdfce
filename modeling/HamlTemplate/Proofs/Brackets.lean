import HamlTemplate.Code.Scan

/-!
# The bracket that closes the first one

Where a text that begins with a bracket closes it does not depend on what stands behind it. A step
of the scan may look at two more characters, but none that reads a closing bracket looks at any,
and a question mark directly before the last bracket would have taken that bracket with it.
-/

namespace HamlTemplate

theorem isOpeningBracket_iff {c : Char} :
    isOpeningBracket c = true ↔ c = '(' ∨ c = '[' ∨ c = '\x7b' := by
  simp [isOpeningBracket, or_assoc]

def Frame.BegunBy (c : Char) : Frame → Prop
  | .bracket opener => opener = c
  | .literal quote => quote = c ∧ (c = '\x22' ∨ c = '\x27' ∨ c = '\x60' ∨ c = '/')
  | .interpolation => c = '#'

def Frame.EndedBy (c : Char) : Frame → Prop
  | .bracket opener => c = closerOf opener
  | .literal quote => c = quote
  | .interpolation => c = '\x7d'

/-- What a character does to the open constructs: it begins or ends at most one. -/
inductive FrameStep (c : Char) : List Frame → List Frame → Prop
  | stay (frames : List Frame) : FrameStep c frames frames
  | enter {frame : Frame} {outer : List Frame} (begun : frame.BegunBy c) :
      FrameStep c outer (frame :: outer)
  | leave {frame : Frame} {outer : List Frame} (ended : frame.EndedBy c) :
      FrameStep c (frame :: outer) outer

/-- The outermost bracket stays, unless it is the only construct and the character closes it. -/
theorem FrameStep.outermost_cases {c opener : Char} {frames after : List Frame}
    (step : FrameStep c frames after) (outermost : frames.getLast? = some (.bracket opener)) :
    after.getLast? = some (.bracket opener) ∨
      frames = [.bracket opener] ∧ after = [] ∧ c = closerOf opener := by
  cases step with
  | stay => exact .inl outermost
  | enter =>
    left
    rw [List.getLast?_cons, outermost]
    rfl
  | leave ended =>
    cases after with
    | nil =>
      cases outermost
      exact .inr ⟨rfl, rfl, ended⟩
    | cons =>
      rw [List.getLast?_cons_cons] at outermost
      exact .inl outermost

namespace CodeScan

variable {s t : CodeScan} {c d : Char} {n : Nat} {rest more : Text}

/-- A step counts the character and then reads it or passes it over. Which of the two it does, and
what is left to the next step, does not depend on the characters that follow. -/
theorem step_cases (s : CodeScan) (c : Char) :
    (∃ mode, ∀ rest, s.step c rest = stepReading { s with read := s.read + 1, mode } c rest) ∨
      ∃ mode, ∀ rest, s.step c rest = { s with read := s.read + 1, mode } := by
  cases mode : s.mode with
  | reading => exact .inl ⟨.reading, fun rest => by simp [step, mode]⟩
  | skipping => exact .inr ⟨.reading, fun rest => by simp [step, mode]⟩
  | comment =>
    by_cases feed : c = '\n'
    · exact .inl ⟨.reading, fun rest => by simp [step, mode, feed]⟩
    · exact .inr ⟨.comment, fun rest => by simp [step, mode, feed]⟩

/-- Outside literals a character that closes nothing may open a bracket or a literal of its own, and
the skeleton may get a character for it. Nothing is noted and nothing counted. -/
theorem stepCode_cases (s : CodeScan) (closing : ¬isClosingBracket c = true) (rest : Text) :
    ∃ frames skeleton parametersOpen mode,
      s.stepCode c rest = { s with frames, skeleton, parametersOpen, mode } ∧
      (frames = s.frames ∨ frames = .bracket c :: s.frames ∨ frames = .literal c :: s.frames ∧
        (c = '\x22' ∨ c = '\x27' ∨ c = '\x60' ∨ c = '/')) ∧
      (skeleton = s.skeleton ∨ ∃ d, skeleton = s.skeleton.push d) := by
  simp only [stepCode, if_neg closing]
  split
  · rename_i quote
    refine ⟨_, _, _, _, rfl, .inr (.inr ⟨rfl, ?_⟩), .inl rfl⟩
    obtain quote | quote | quote := quote <;> simp [quote]
  · split
    · rename_i slash
      exact ⟨_, _, _, _, rfl, .inr (.inr ⟨rfl, .inr (.inr (.inr slash.1))⟩), .inl rfl⟩
    · split
      · exact ⟨_, _, _, _, rfl, .inl rfl, .inl rfl⟩
      · split
        · exact ⟨_, _, _, _, rfl, .inl rfl, .inr ⟨'_', rfl⟩⟩
        · split
          · exact ⟨_, _, _, _, rfl, .inr (.inl rfl), .inr ⟨c, rfl⟩⟩
          · split
            · exact ⟨_, _, _, _, rfl, .inl rfl, .inr ⟨' ', rfl⟩⟩
            · split
              · exact ⟨_, _, _, _, rfl, .inl rfl, .inr ⟨' ', rfl⟩⟩
              · exact ⟨_, _, _, _, rfl, .inl rfl, .inr ⟨c, rfl⟩⟩

/-- Outside literals a closing bracket is read for nothing else. -/
theorem stepCode_of_isClosingBracket (closing : isClosingBracket c = true) :
    s.stepCode c rest = (s.close c).noteClosed := by
  have other : c = ')' ∨ c = ']' ∨ c = '\x7d' := by
    simpa [isClosingBracket, or_assoc] using closing
  obtain rfl | rfl | rfl := other <;> rfl

@[simp] theorem closedAt_keep (s : CodeScan) (c : Char) : (s.keep c).closedAt = s.closedAt := rfl

theorem frames_noteClosed (s : CodeScan) : s.noteClosed.frames = s.frames := by
  rw [noteClosed]
  split <;> rfl

/-! ### What a step does -/

/-- All that a character does to a scan that has counted it. -/
structure StepSpec (c : Char) (s t : CodeScan) : Prop where
  frames : FrameStep c s.frames t.frames
  skeleton : t.skeleton = s.skeleton ∨ ∃ d, t.skeleton = s.skeleton.push d
  /-- The first bracket to leave nothing open is never replaced by a later one. -/
  noted : t.closedAt = s.closedAt ∨ s.closedAt = none ∧ t.frames = [] ∧ t.closedAt = some s.read
  /-- A bracket that leaves nothing open is noted if none has been before. -/
  closes : ∀ opener, s.frames = [.bracket opener] → t.frames = [] → s.closedAt = none →
    t.closedAt = some s.read
  read : t.read = s.read

namespace StepSpec

/-- A step notes nothing if it does not close the only bracket. -/
private theorem of_unnoted (frames : FrameStep c s.frames t.frames)
    (inside : ∀ opener, s.frames = [.bracket opener] → t.frames ≠ [])
    (skeleton : t.skeleton = s.skeleton ∨ ∃ d, t.skeleton = s.skeleton.push d)
    (closedAt : t.closedAt = s.closedAt) (read : t.read = s.read) : s.StepSpec c t :=
  ⟨frames, skeleton, .inl closedAt, fun opener only none => absurd none (inside opener only), read⟩

private theorem of_noteClosed (frames : FrameStep c s.frames t.frames)
    (skeleton : t.skeleton = s.skeleton ∨ ∃ d, t.skeleton = s.skeleton.push d)
    (closedAt : t.closedAt = s.closedAt) (read : t.read = s.read) :
    s.StepSpec c t.noteClosed := by
  rw [noteClosed]
  split
  · rename_i first
    have noted : some t.read = some s.read := congrArg some read
    exact ⟨frames, skeleton, .inr ⟨closedAt ▸ first.2, first.1, noted⟩, fun _ _ _ _ => noted, read⟩
  · rename_i later
    refine ⟨frames, skeleton, .inl closedAt, fun _ _ none unclosed => ?_, read⟩
    exact absurd ⟨none, closedAt.trans unclosed⟩ later

theorem close (s : CodeScan) (c : Char) : s.StepSpec c (s.close c).noteClosed := by
  rw [CodeScan.close]
  split
  · rename_i outer frames
    split
    · rename_i ends
      refine of_noteClosed ?_ (.inl rfl) rfl rfl
      rw [frames]
      exact .leave ends
    · exact of_noteClosed (.stay _) (.inr ⟨c, rfl⟩) rfl rfl
  · rename_i opener outer frames
    split
    · rename_i ends
      refine of_noteClosed ?_ (.inr ⟨c, rfl⟩) rfl rfl
      rw [frames]
      exact .leave ends
    · exact of_noteClosed (.stay _) (.inr ⟨c, rfl⟩) rfl rfl
  · exact of_noteClosed (.stay _) (.inr ⟨c, rfl⟩) rfl rfl

theorem stepLiteral {quote : Char} {outer : List Frame}
    (frames : s.frames = .literal quote :: outer) (c : Char) (rest : Text) :
    s.StepSpec c (s.stepLiteral quote outer c rest) := by
  have inside : ∀ (t : CodeScan) opener, s.frames = [.bracket opener] → t.frames ≠ [] := by
    intro t opener only
    cases frames.symm.trans only
  rw [CodeScan.stepLiteral]
  split
  · exact of_unnoted (.stay _) (inside _) (.inl rfl) rfl rfl
  · split
    · rename_i hash
      exact of_unnoted (.enter hash.1) (inside _) (.inl rfl) rfl rfl
    · split
      · rename_i ends
        refine of_unnoted ?_ (inside _) (.inr ⟨'_', rfl⟩) rfl rfl
        rw [frames]
        exact .leave ends
      · exact of_unnoted (.stay _) (inside _) (.inl rfl) rfl rfl

theorem stepCode (s : CodeScan) (c : Char) (rest : Text) : s.StepSpec c (s.stepCode c rest) := by
  by_cases closing : isClosingBracket c = true
  · rw [stepCode_of_isClosingBracket closing]
    exact close s c
  · obtain ⟨frames, skeleton, parametersOpen, mode, same, opened, kept⟩ :=
      stepCode_cases s closing rest
    rw [same]
    obtain rfl | rfl | ⟨rfl, quotes⟩ := opened
    · exact of_unnoted (.stay _) (fun _ only => only ▸ List.cons_ne_nil _ _) kept rfl rfl
    · exact of_unnoted (.enter rfl) (fun _ _ => List.cons_ne_nil _ _) kept rfl rfl
    · exact of_unnoted (.enter ⟨rfl, quotes⟩) (fun _ _ => List.cons_ne_nil _ _) kept rfl rfl

end StepSpec

theorem step_spec (s : CodeScan) (c : Char) (rest : Text) :
    StepSpec c { s with read := s.read + 1 } (s.step c rest) := by
  obtain ⟨mode, reads⟩ | ⟨mode, passes⟩ := step_cases s c
  · have spec : StepSpec c { s with read := s.read + 1, mode }
        (stepReading { s with read := s.read + 1, mode } c rest) := by
      rw [stepReading]
      split
      · rename_i frames
        exact .stepLiteral frames c rest
      · exact .stepCode _ c rest
    rw [reads]
    exact ⟨spec.frames, spec.skeleton, spec.noted, spec.closes, spec.read⟩
  · rw [passes]
    exact .of_unnoted (.stay _) (fun _ only => only ▸ List.cons_ne_nil _ _) (.inl rfl) rfl rfl

/-- A step reads one character. -/
@[simp] theorem read_step (s : CodeScan) (c : Char) (rest : Text) :
    (s.step c rest).read = s.read + 1 :=
  (step_spec s c rest).read

@[simp] theorem read_run (s : CodeScan) (text : Text) :
    (s.run text).read = s.read + text.length := by
  induction text generalizing s with
  | nil => rfl
  | cons c rest ih =>
    rw [run_cons, ih, read_step, List.length_cons]
    omega

theorem closedAt_step_of_some (closed : s.closedAt = some n) (c : Char) (rest : Text) :
    (s.step c rest).closedAt = some n := by
  obtain same | ⟨unclosed, _⟩ := (step_spec s c rest).noted
  · exact same.trans closed
  · cases closed.symm.trans unclosed

theorem closedAt_run_of_some (closed : s.closedAt = some n) (text : Text) :
    (s.run text).closedAt = some n := by
  induction text generalizing s with
  | nil => exact closed
  | cons c rest ih => exact ih (closedAt_step_of_some closed c rest)

/-! ### What a step does not depend on -/

theorem closedAt_stepLiteral (s : CodeScan) (quote : Char) (outer : List Frame) (c : Char)
    (rest : Text) : (s.stepLiteral quote outer c rest).closedAt = s.closedAt := by
  rw [stepLiteral]
  repeat' split
  all_goals rfl

/-- Outside literals nothing but a closing bracket is noted, whatever follows it. -/
theorem closedAt_stepCode (s : CodeScan) (c : Char) (rest : Text) :
    (s.stepCode c rest).closedAt =
      if isClosingBracket c then (s.close c).noteClosed.closedAt else s.closedAt := by
  by_cases closing : isClosingBracket c = true
  · rw [stepCode_of_isClosingBracket closing, if_pos closing]
  · obtain ⟨frames, skeleton, parametersOpen, mode, same, _⟩ := stepCode_cases s closing rest
    rw [same, if_neg closing]

/-- What a character leaves noted does not depend on the characters that follow it. -/
private theorem closedAt_stepReading (s : CodeScan) (c : Char) (rest more : Text) :
    (s.stepReading c rest).closedAt = (s.stepReading c more).closedAt := by
  simp only [stepReading]
  split
  · rw [closedAt_stepLiteral, closedAt_stepLiteral]
  · rw [closedAt_stepCode, closedAt_stepCode]

theorem closedAt_step (s : CodeScan) (c : Char) (rest more : Text) :
    (s.step c rest).closedAt = (s.step c more).closedAt := by
  obtain ⟨mode, reads⟩ | ⟨mode, passes⟩ := step_cases s c
  · rw [reads, reads]
    exact closedAt_stepReading _ c rest more
  · rw [passes, passes]

/-- A step is the same with more text behind the next character, unless it begins a character
literal and the next character is to be passed over. -/
theorem stepCode_append (s : CodeScan) (c d : Char) (more : Text) :
    s.stepCode c [d] = s.stepCode c (d :: more) ∨
      (s.stepCode c [d]).mode = .skipping ∧ (s.stepCode c [d]).closedAt = s.closedAt := by
  have regex : s.skeleton.expectsRegex (d :: more) = s.skeleton.expectsRegex [d] := rfl
  have fewer : s.skeleton.expectsCharacter (d :: more) = true →
      s.skeleton.expectsCharacter [d] = true := by
    simp only [Skeleton.expectsCharacter, Bool.and_eq_true]
    rintro ⟨operand, visible, -⟩
    exact ⟨operand, visible, rfl⟩
  by_cases literal : c = '?' ∧ s.skeleton.expectsCharacter [d] = true
  · obtain ⟨rfl, expected⟩ := literal
    right
    simp [stepCode, expected, skipNext]
  · have plain : ¬(c = '?' ∧ s.skeleton.expectsCharacter (d :: more) = true) :=
      fun h => literal ⟨h.1, fewer h.2⟩
    left
    simp only [stepCode, regex, if_neg literal, if_neg plain]

theorem stepReading_append (s : CodeScan) (c d : Char) (more : Text) :
    s.stepReading c [d] = s.stepReading c (d :: more) ∨
      (s.stepReading c [d]).mode = .skipping ∧ (s.stepReading c [d]).closedAt = s.closedAt := by
  simp only [stepReading]
  split
  · exact .inl rfl
  · exact stepCode_append s c d more

theorem step_append (s : CodeScan) (c d : Char) (more : Text) :
    s.step c [d] = s.step c (d :: more) ∨
      (s.step c [d]).mode = .skipping ∧ (s.step c [d]).closedAt = s.closedAt := by
  obtain ⟨mode, reads⟩ | ⟨mode, passes⟩ := step_cases s c
  · rw [reads, reads]
    exact stepReading_append _ c d more
  · left
    rw [passes, passes]

/-- A bracket that leaves nothing open still does so with more text behind. -/
theorem closedAt_run_append (text : Text) (closed : (s.run text).closedAt = some n) (more : Text) :
    (s.run (text ++ more)).closedAt = some n := by
  induction text generalizing s with
  | nil => exact closedAt_run_of_some closed more
  | cons c rest ih =>
    match rest with
    | [] =>
      rw [run_cons, run_nil, closedAt_step s c [] more] at closed
      exact closedAt_run_of_some closed more
    | [d] =>
      obtain same | ⟨skips, kept⟩ := step_append s c d more
      · rw [run_cons, same] at closed
        exact ih closed
      · -- The last character is passed over, so the bracket has been noted before.
        have earlier : s.closedAt = some n := by
          rw [run_cons, run_cons, run_nil, step] at closed
          simpa only [skips, kept] using closed
        exact closedAt_run_of_some earlier _
    | d :: e :: rest => exact ih closed

end CodeScan

/-- What stands behind the bracket that closes the first one does not matter. -/
theorem Text.bracketedLength?_append {text : Text} {n : Nat} (h : text.bracketedLength? = some n)
    (more : Text) : (text ++ more).bracketedLength? = some n := by
  rw [bracketedLength?] at h ⊢
  split at h
  · rename_i opens
    cases text with
    | nil => cases opens
    | cons c rest =>
      rw [if_pos (by exact opens)]
      exact CodeScan.closedAt_run_append (c :: rest) h more
  · cases h

/-! ### The bracket itself -/

namespace CodeScan

variable {s : CodeScan} {c opener : Char} {n : Nat} {rest text : Text}

/-- The given bracket is the outermost construct that is open, and nothing has been noted yet. -/
structure WithinFirst (opener : Char) (s : CodeScan) : Prop where
  outermost : s.frames.getLast? = some (.bracket opener)
  unclosed : s.closedAt = none

namespace WithinFirst

/-- After a step the first bracket is still open, or the step has read the bracket that closes
it. -/
theorem step (h : s.WithinFirst opener) (c : Char) (rest : Text) :
    (s.step c rest).WithinFirst opener ∨
      (s.step c rest).closedAt = some (s.read + 1) ∧ c = closerOf opener := by
  have spec := step_spec s c rest
  obtain outermost | ⟨only, none, ends⟩ := spec.frames.outermost_cases h.outermost
  · left
    obtain same | ⟨_, none, _⟩ := spec.noted
    · exact ⟨outermost, same.trans h.unclosed⟩
    · rw [none] at outermost
      cases outermost
  · exact .inr ⟨spec.closes opener only none h.unclosed, ends⟩

/-- After a run the first bracket is still open, or the run has read the bracket that closes it. -/
theorem run (h : s.WithinFirst opener) (text : Text) :
    (s.run text).WithinFirst opener ∨
      ∃ code after, text = code ++ closerOf opener :: after ∧
        (s.run text).closedAt = some (s.read + code.length + 1) := by
  induction text generalizing s with
  | nil => exact .inl h
  | cons c rest ih =>
    rw [run_cons]
    obtain within | ⟨noted, rfl⟩ := h.step c rest
    · obtain open_ | ⟨code, after, rfl, closed⟩ := ih within
      · exact .inl open_
      · refine .inr ⟨c :: code, after, rfl, ?_⟩
        rw [closed, read_step, List.length_cons]
        congr 1
        omega
    · exact .inr ⟨[], rest, rfl, closedAt_run_of_some noted rest⟩

/-- Reading an opening bracket first opens it. -/
theorem first (opens : isOpeningBracket opener = true) (rest : Text) :
    (CodeScan.step {} opener rest).WithinFirst opener := by
  obtain rfl | rfl | rfl := isOpeningBracket_iff.mp opens <;> exact ⟨rfl, rfl⟩

end WithinFirst

end CodeScan

/-- The bracket that is found is one that closes the first one. -/
theorem Text.bracketedLength?_eq_some {text : Text} {n : Nat}
    (h : text.bracketedLength? = some n) :
    ∃ opener code after, isOpeningBracket opener = true ∧
      text = opener :: (code ++ closerOf opener :: after) ∧ n = code.length + 2 := by
  rw [bracketedLength?] at h
  split at h
  · rename_i opens
    cases text with
    | nil => cases opens
    | cons opener rest =>
      have first := CodeScan.WithinFirst.first opens rest
      rw [Text.scan, CodeScan.run_cons] at h
      obtain within | ⟨code, after, rfl, closed⟩ := first.run rest
      · rw [within.unclosed] at h
        cases h
      · refine ⟨opener, code, after, opens, rfl, ?_⟩
        rw [closed, CodeScan.read_step, Option.some.injEq] at h
        have counted : 0 + 1 + code.length + 1 = n := h
        omega
  · cases h

theorem Text.bracketedLength?_le {text : Text} {n : Nat}
    (h : text.bracketedLength? = some n) : n ≤ text.length := by
  obtain ⟨opener, code, after, _, rfl, rfl⟩ := bracketedLength?_eq_some h
  simp

/-! ### In bytes -/

private theorem utf8Size_of_isOpeningBracket {c : Char} (opens : isOpeningBracket c = true) :
    c.utf8Size = 1 ∧ (closerOf c).utf8Size = 1 := by
  obtain rfl | rfl | rfl := isOpeningBracket_iff.mp opens <;> exact ⟨rfl, rfl⟩

namespace Text

variable {text start : Text} {n : Nat}

theorem utf8Length_pos (h : text ≠ []) : 0 < utf8Length text := by
  cases text with
  | nil => exact absurd rfl h
  | cons c text =>
    rw [utf8Length_cons]
    exact Nat.add_pos_left c.utf8Size_pos _

/-- The bytes that are found are those of the two brackets and of what is between them. -/
theorem bracketedBytes?_eq_some (h : text.bracketedBytes? = some n) :
    ∃ opener code after, isOpeningBracket opener = true ∧
      text = opener :: (code ++ closerOf opener :: after) ∧ n = utf8Length code + 2 := by
  obtain ⟨length, found, rfl⟩ := Option.map_eq_some_iff.mp h
  obtain ⟨opener, code, after, opens, rfl, rfl⟩ := bracketedLength?_eq_some found
  obtain ⟨first, last⟩ := utf8Size_of_isOpeningBracket opens
  refine ⟨opener, code, after, opens, rfl, ?_⟩
  simp only [List.take_succ_cons, List.take_length_add_append, utf8Length_cons, utf8Length_append,
    List.take_zero, utf8Length_nil, first, last]
  omega

/-- What stands behind the bracket does not change its position in bytes either. -/
theorem bracketedBytes?_append (h : text.bracketedBytes? = some n) (more : Text) :
    (text ++ more).bracketedBytes? = some n := by
  obtain ⟨length, found, rfl⟩ := Option.map_eq_some_iff.mp h
  rw [bracketedBytes?, bracketedLength?_append found more, Option.map_some,
    List.take_append_of_le_length (bracketedLength?_le found)]

/-- The bracket is within the text. -/
theorem bracketedBytes?_le (h : text.bracketedBytes? = some n) : n ≤ text.utf8Length := by
  obtain ⟨opener, code, after, opens, rfl, rfl⟩ := bracketedBytes?_eq_some h
  obtain ⟨first, last⟩ := utf8Size_of_isOpeningBracket opens
  simp only [utf8Length_cons, utf8Length_append, first, last]
  omega

/-- The bracket is the last character of a text when it is its last byte. -/
theorem bracketedBytes?_eq_utf8Length_iff :
    text.bracketedBytes? = some text.utf8Length ↔ text.bracketedLength? = some text.length := by
  constructor
  · intro h
    obtain ⟨length, found, bytes⟩ := Option.map_eq_some_iff.mp h
    have whole : utf8Length (text.take length) + utf8Length (text.drop length) =
        utf8Length text := by
      rw [← utf8Length_append, List.take_append_drop]
    have behind : text.drop length = [] := Decidable.byContradiction fun some => by
      have := utf8Length_pos some
      omega
    rw [found, Nat.le_antisymm (bracketedLength?_le found) (List.drop_eq_nil_iff.mp behind)]
  · intro h
    rw [bracketedBytes?, h, Option.map_some, List.take_length]

/-- The bracket is not found in a text that ends before it. -/
theorem bracketedBytes?_eq_none_of_isPrefix (h : text.bracketedBytes? = some n)
    (before : start <+: text) (shorter : utf8Length start < n) :
    start.bracketedBytes? = none := by
  cases found : start.bracketedBytes? with
  | none => rfl
  | some m =>
    -- A bracket found in the beginning would be the one that is found in the whole text.
    obtain ⟨more, rfl⟩ := before
    cases (bracketedBytes?_append found more).symm.trans h
    have within := bracketedBytes?_le found
    omega

end Text

/-- A text in which a closing bracket is found begins with an opening one, and what is found closes
it. The number of bytes is that of the two brackets and of what is between them, so that it lies
between characters and within the text. It stays the same when the text goes on, and nothing is
found in a shorter beginning of the text. -/
theorem bracketedBytes?_closes_first {text : Text} {n : Nat} (h : text.bracketedBytes? = some n) :
    (∃ opener code after, isOpeningBracket opener = true ∧
      text = opener :: (code ++ closerOf opener :: after) ∧
      Text.utf8Length [opener] = 1 ∧ Text.utf8Length (opener :: code) = n - 1 ∧
      Text.utf8Length (opener :: (code ++ [closerOf opener])) = n) ∧
    2 ≤ n ∧ n ≤ text.utf8Length ∧
    (∀ more, (text ++ more).bracketedBytes? = some n) ∧
    ∀ start, start <+: text → Text.utf8Length start < n → Text.bracketedBytes? start = none := by
  refine ⟨?_, ?_, Text.bracketedBytes?_le h, Text.bracketedBytes?_append h, ?_⟩
  · obtain ⟨opener, code, after, opens, parts, rfl⟩ := Text.bracketedBytes?_eq_some h
    obtain ⟨first, last⟩ := utf8Size_of_isOpeningBracket opens
    refine ⟨opener, code, after, opens, parts, first, ?_, ?_⟩
    · rw [Text.utf8Length_cons, first]
      omega
    · simp only [Text.utf8Length_cons, Text.utf8Length_append, Text.utf8Length_nil, first, last]
      omega
  · obtain ⟨_, _, _, _, _, rfl⟩ := Text.bracketedBytes?_eq_some h
    exact Nat.le_add_left 2 _
  · intro start before shorter
    exact Text.bracketedBytes?_eq_none_of_isPrefix h before shorter

/-- The braces in the string and in the character literal close nothing, and `é` takes two bytes. -/
theorem bracketedBytes?_closes_first_literals :
    Text.bracketedBytes? "\x7b\x22\x7d\x22, ?\x7d, é\x7d>".toList = some 13 ∧
      (∀ more, Text.bracketedBytes? ("\x7b\x22\x7d\x22, ?\x7d, é\x7d>".toList ++ more) = some 13) ∧
      Text.bracketedBytes? "\x7b\x22\x7d\x22, ?\x7d".toList = none := by
  have found : Text.bracketedBytes? "\x7b\x22\x7d\x22, ?\x7d, é\x7d>".toList = some 13 := by
    decide +kernel
  have h := bracketedBytes?_closes_first found
  exact ⟨found, h.2.2.2.1, h.2.2.2.2 _ (by decide) (by decide)⟩

end HamlTemplate
