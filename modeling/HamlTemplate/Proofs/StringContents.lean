import HamlTemplate.Code.Completeness
import HamlTemplate.Proofs.BalancedCode

/-!
# What a string holds

To a scan a string is one underscore, whatever is in it. Two texts that differ in what a string
holds are scanned alike up to the string and alike behind it, and only the number of characters read
tells the two scans apart. So the second scan is the first one with its positions moved: those
before the string stay, and those behind it move by the difference in length.
-/

namespace HamlTemplate

namespace Text

/-- No character of the text ends the string it is in, escapes another one or may begin an
interpolation. -/
def IsPlainIn (quote : Char) (contents : Text) : Prop :=
  ∀ c ∈ contents, c ≠ quote ∧ c ≠ '\\' ∧ c ≠ '#'

instance (quote : Char) (contents : Text) : Decidable (contents.IsPlainIn quote) :=
  decidable_of_iff (contents.all fun c => c != quote && c != '\\' && c != '#')
    (by simp [IsPlainIn, and_assoc])

def withString (before : Text) (quote : Char) (contents after : Text) : Text :=
  before ++ quote :: (contents ++ quote :: after)

end Text

namespace Skeleton

variable {s : Skeleton} {rest rest' : Text}

private theorem expectsRegex_congr (first : rest.head? = rest'.head?) :
    s.expectsRegex rest = s.expectsRegex rest' := by
  simp only [expectsRegex, first]

private theorem expectsCharacter_congr (first : rest.head? = rest'.head?)
    (second : rest[1]? = rest'[1]?) :
    s.expectsCharacter rest = s.expectsCharacter rest' := by
  cases rest with
  | nil =>
    obtain rfl : rest' = [] := List.head?_eq_none_iff.mp first.symm
    rfl
  | cons c rest =>
    obtain ⟨after, rfl⟩ := List.head?_eq_some_iff.mp first.symm
    simp only [List.getElem?_cons_succ, ← List.head?_eq_getElem?] at second
    simp only [expectsCharacter, second]

end Skeleton

namespace CodeScan

open Text

variable {s : CodeScan} {c quote : Char} {rest rest' more more' text contents : Text}
  {f : Nat → Nat}

/-! ### How far a step looks ahead -/

/-- A step looks at one more character, and a question mark at two. -/
theorem step_congr (first : rest.head? = rest'.head?) (second : c = '?' → rest[1]? = rest'[1]?) :
    s.step c rest = s.step c rest' := by
  have code : ∀ t : CodeScan, t.stepCode c rest = t.stepCode c rest' := by
    intro t
    have character : (c = '?' ∧ t.skeleton.expectsCharacter rest = true) =
        (c = '?' ∧ t.skeleton.expectsCharacter rest' = true) :=
      propext (and_congr_right fun mark => by
        rw [Skeleton.expectsCharacter_congr first (second mark)])
    simp only [stepCode, Skeleton.expectsRegex_congr first, character]
  have reading : ∀ t : CodeScan, t.stepReading c rest = t.stepReading c rest' := by
    intro t
    simp only [stepReading, stepLiteral, first, code]
  simp only [step, reading]

/-- What is read before a quote does not depend on what is behind the quote, if it does not end in a
question mark. -/
theorem runBefore_congr (last : text.getLast? ≠ some '?') (more more' : Text) :
    s.runBefore text (quote :: more) = s.runBefore text (quote :: more') := by
  induction text generalizing s with
  | nil => rfl
  | cons c rest ih =>
    have ahead : s.step c (rest ++ quote :: more) = s.step c (rest ++ quote :: more') := by
      cases rest with
      | nil => exact step_congr rfl fun mark => absurd (congrArg some mark) last
      | cons d rest =>
        refine step_congr rfl fun _ => ?_
        cases rest <;> rfl
    rw [runBefore_cons, runBefore_cons, ahead]
    apply ih
    cases rest with
    | nil => nofun
    | cons d rest => rwa [List.getLast?_cons_cons] at last

/-! ### The bracket that is noted -/

/-- A run notes nothing or a position that it has gone past. -/
theorem closedAt_runBefore_cases (s : CodeScan) (text more : Text) :
    (s.runBefore text more).closedAt = s.closedAt ∨
      ∃ n, (s.runBefore text more).closedAt = some n ∧ s.read < n ∧ n ≤ s.read + text.length := by
  induction text generalizing s with
  | nil => exact .inl rfl
  | cons c rest ih =>
    have onward := ih (s.step c (rest ++ more))
    rw [read_step] at onward
    rw [runBefore_cons, List.length_cons]
    obtain same | ⟨n, noted, low, high⟩ := onward
    · rw [same]
      obtain kept | ⟨_, _, now⟩ := (step_spec s c (rest ++ more)).noted
      · exact .inl kept
      · exact .inr ⟨s.read + 1, now, by omega, by omega⟩
    · exact .inr ⟨n, noted, by omega, by omega⟩

/-! ### The string itself -/

/-- Inside a string plain characters are only counted. -/
theorem runBefore_plain (h : s.At (.literal quote)) (plain : contents.IsPlainIn quote)
    (more : Text) :
    s.runBefore contents more = { s with read := s.read + contents.length } := by
  induction contents generalizing s with
  | nil => rfl
  | cons c rest ih =>
    obtain ⟨⟨other, visible, bare⟩, plain⟩ := List.forall_mem_cons.mp plain
    have counted : s.step c (rest ++ more) = { s with read := s.read + 1 } := by
      rw [step_of_literal h, stepLiteral, if_neg visible, if_neg fun hash => bare hash.1,
        if_neg other]
    rw [runBefore_cons, counted, ih (by exact h) plain, List.length_cons, Nat.add_right_comm,
      Nat.add_assoc]

/-- A string with plain contents leaves an underscore and nothing else. -/
theorem runBefore_string (h : s.At .code) (quotes : isStringQuote quote = true)
    (plain : contents.IsPlainIn quote) (more : Text) :
    s.runBefore (quote :: (contents ++ [quote])) more =
      { s.keep '_' with read := s.read + contents.length + 2 } := by
  have visible : quote ≠ '\\' ∧ quote ≠ '#' := by
    obtain rfl | rfl | rfl := isStringQuote_iff.mp quotes <;> decide
  have begun : ∀ rest, s.step quote rest =
      { s with read := s.read + 1, frames := .literal quote :: s.frames } := by
    intro rest
    rw [step_of_code h, stepCode, if_pos (isStringQuote_iff.mp quotes)]
    rfl
  have inside : At { s with read := s.read + 1, frames := .literal quote :: s.frames }
      (.literal quote) := ⟨h.1, rfl⟩
  rw [runBefore_cons, begun, runBefore_append, runBefore_plain inside plain, runBefore_cons,
    runBefore_nil, step_of_literal (by exact inside), stepLiteral, if_neg visible.1,
    if_neg fun hash => visible.2 hash.1, if_pos rfl]
  simp only [keep, List.tail_cons]
  congr 1
  omega

/-! ### Moving positions -/

def move (f : Nat → Nat) (s : CodeScan) : CodeScan :=
  { s with read := f s.read, closedAt := s.closedAt.map f }

private theorem close_move (s : CodeScan) (f : Nat → Nat) (c : Char) :
    (s.move f).close c = (s.close c).move f := by
  simp only [close, move]
  repeat' split
  all_goals rfl

private theorem noteClosed_move (s : CodeScan) (f : Nat → Nat) :
    (s.move f).noteClosed = s.noteClosed.move f := by
  simp only [noteClosed, move, Option.map_eq_none_iff]
  split <;> rfl

private theorem stepLiteral_move (s : CodeScan) (f : Nat → Nat) (quote : Char) (outer : List Frame)
    (c : Char) (rest : Text) :
    (s.move f).stepLiteral quote outer c rest = (s.stepLiteral quote outer c rest).move f := by
  simp only [stepLiteral]
  repeat' split
  all_goals rfl

private theorem stepCode_move (s : CodeScan) (f : Nat → Nat) (c : Char) (rest : Text) :
    (s.move f).stepCode c rest = (s.stepCode c rest).move f := by
  have skeleton : (s.move f).skeleton = s.skeleton := rfl
  have parameters : (s.move f).parametersOpen = s.parametersOpen := rfl
  simp only [stepCode, skeleton, parameters, close_move, noteClosed_move]
  repeat' split
  all_goals rfl

theorem stepReading_move (s : CodeScan) (f : Nat → Nat) (c : Char) (rest : Text) :
    (s.move f).stepReading c rest = (s.stepReading c rest).move f := by
  have frames : (s.move f).frames = s.frames := rfl
  simp only [stepReading, frames]
  split
  · exact stepLiteral_move s f _ _ c rest
  · exact stepCode_move s f c rest

/-- A step goes on from moved positions as it does from the others. -/
theorem step_move (onward : f (s.read + 1) = f s.read + 1) (c : Char) (rest : Text) :
    (s.move f).step c rest = (s.step c rest).move f := by
  have mode : (s.move f).mode = s.mode := rfl
  have counted : { s.move f with read := (s.move f).read + 1 } =
      move f { s with read := s.read + 1 } := by
    simp only [move, onward]
  have resumed : { s.move f with read := (s.move f).read + 1, mode := .reading } =
      move f { s with read := s.read + 1, mode := .reading } := by
    simp only [move, onward]
  simp only [step, mode]
  split
  · exact (congrArg (stepReading · c rest) counted).trans (stepReading_move _ f c rest)
  · exact resumed
  · split
    · exact (congrArg (stepReading · c rest) resumed).trans (stepReading_move _ f c rest)
    · exact counted

theorem run_move (onward : ∀ n, s.read ≤ n → f (n + 1) = f n + 1) (text : Text) :
    (s.move f).run text = (s.run text).move f := by
  induction text generalizing s with
  | nil => rfl
  | cons c rest ih =>
    rw [run_cons, run_cons, step_move (onward _ (Nat.le_refl _)), ih]
    intro n passed
    rw [read_step] at passed
    exact onward n (by omega)

end CodeScan

namespace Text

variable {before after inner inner' : Text} {quote : Char}

/-- Positions up to a string stay when its contents are exchanged, and those behind it move. -/
def exchange (before inner inner' : Text) (n : Nat) : Nat :=
  if n ≤ before.length then n else n - inner.length + inner'.length

/-- A string is scanned from the state before it to the state behind it, whatever it holds. -/
theorem scan_withString
    (opens : (CodeScan.runBefore {} before (quote :: (inner ++ quote :: after))).At .code)
    (quotes : isStringQuote quote = true) (plain : inner.IsPlainIn quote) :
    (withString before quote inner after).scan =
      CodeScan.run
        { (CodeScan.runBefore {} before (quote :: (inner ++ quote :: after))).keep '_' with
          read := before.length + inner.length + 2 } after := by
  have joined : quote :: (inner ++ quote :: after) = (quote :: (inner ++ [quote])) ++ after := by
    simp
  have passed := CodeScan.runBefore_string opens quotes plain after
  rw [CodeScan.read_runBefore, Nat.zero_add] at passed
  rw [scan, withString, joined, CodeScan.run_append, CodeScan.run_append, ← joined, passed]

/-- What has been noted before a string is a position before it. -/
theorem closedAt_runBefore_le {more : Text} {n : Nat}
    (noted : (CodeScan.runBefore {} before more).closedAt = some n) : n ≤ before.length := by
  obtain none | ⟨m, same, _, bound⟩ := CodeScan.closedAt_runBefore_cases {} before more
  · cases noted.symm.trans none
  · cases noted.symm.trans same
    rwa [Nat.zero_add] at bound

/-- Behind a string whose contents are exchanged the scan goes on from moved positions. -/
theorem scan_exchange
    (opens : (CodeScan.runBefore {} before (quote :: (inner ++ quote :: after))).At .code)
    (quotes : isStringQuote quote = true) (last : before.getLast? ≠ some '?')
    (plain : inner.IsPlainIn quote) (plain' : inner'.IsPlainIn quote) :
    (withString before quote inner' after).scan =
      (withString before quote inner after).scan.move (exchange before inner inner') := by
  have same : CodeScan.runBefore {} before (quote :: (inner ++ quote :: after)) =
      CodeScan.runBefore {} before (quote :: (inner' ++ quote :: after)) :=
    CodeScan.runBefore_congr last _ _
  have opens' := opens
  rw [same] at opens'
  rw [scan_withString opens quotes plain, scan_withString opens' quotes plain', ← same,
    ← CodeScan.run_move]
  · generalize before' : CodeScan.runBefore {} before (quote :: (inner ++ quote :: after)) = s
    have stays : s.closedAt.map (exchange before inner inner') = s.closedAt := by
      cases noted : s.closedAt with
      | none => rfl
      | some n =>
        rw [← before'] at noted
        rw [Option.map_some, exchange, if_pos (closedAt_runBefore_le noted)]
    have moved : exchange before inner inner' (before.length + inner.length + 2) =
        before.length + inner'.length + 2 := by
      rw [exchange, if_neg (by omega)]
      omega
    simp only [CodeScan.move, CodeScan.keep, moved, stays]
  · intro n passed
    have passed : before.length + inner.length + 2 ≤ n := passed
    rw [exchange, exchange, if_neg (by omega), if_neg (by omega)]
    omega

/-- The bracket that is noted is before the string or behind it. -/
theorem closedAt_withString_cases {n : Nat}
    (opens : (CodeScan.runBefore {} before (quote :: (inner ++ quote :: after))).At .code)
    (quotes : isStringQuote quote = true) (plain : inner.IsPlainIn quote)
    (noted : (withString before quote inner after).scan.closedAt = some n) :
    n ≤ before.length ∨
      ∃ k, 0 < k ∧ k ≤ after.length ∧ n = before.length + inner.length + 2 + k := by
  rw [scan_withString opens quotes plain, ← List.append_nil after, CodeScan.run_append,
    CodeScan.run_nil] at noted
  obtain earlier | ⟨m, same, low, high⟩ := CodeScan.closedAt_runBefore_cases _ after []
  · rw [earlier] at noted
    exact .inl (closedAt_runBefore_le noted)
  · cases noted.symm.trans same
    have low : before.length + inner.length + 2 < n := low
    have high : n ≤ before.length + inner.length + 2 + after.length := high
    exact .inr ⟨n - (before.length + inner.length + 2), by omega, by omega, by omega⟩

/-- What the text begins with does not depend on the contents of the string. -/
private theorem head?_withString (before inner inner' after : Text) (quote : Char) :
    (withString before quote inner' after).head? = (withString before quote inner after).head? := by
  cases before <;> rfl

private theorem take_withString_of_le {n : Nat} (bound : n ≤ before.length) (inner after : Text) :
    (withString before quote inner after).take n = before.take n :=
  List.take_append_of_le_length bound

private theorem take_withString_add (before inner after : Text) (quote : Char) (k : Nat) :
    (withString before quote inner after).take (before.length + inner.length + 2 + k) =
      before ++ quote :: (inner ++ [quote]) ++ after.take k := by
  have parts : withString before quote inner after =
      (before ++ quote :: (inner ++ [quote])) ++ after := by
    simp [withString]
  have length : before.length + inner.length + 2 + k =
      (before ++ quote :: (inner ++ [quote])).length + k := by
    simp only [List.length_append, List.length_cons, List.length_nil]
    omega
  rw [parts, length, List.take_length_add_append]

/-- In bytes, a position up to a string stays when its contents are exchanged, and one behind it is
as far from its end as before. -/
theorem utf8Length_take_exchange (quote : Char) {n : Nat}
    (outside : n ≤ before.length ∨
      ∃ k, 0 < k ∧ k ≤ after.length ∧ n = before.length + inner.length + 2 + k) :
    (utf8Length ((withString before quote inner after).take n) ≤ before.utf8Length ∧
      utf8Length ((withString before quote inner' after).take (exchange before inner inner' n)) =
        utf8Length ((withString before quote inner after).take n)) ∨
    ∃ m, 0 < m ∧
      utf8Length ((withString before quote inner after).take n) =
        utf8Length (before ++ quote :: (inner ++ [quote])) + m ∧
      utf8Length ((withString before quote inner' after).take (exchange before inner inner' n)) =
        utf8Length (before ++ quote :: (inner' ++ [quote])) + m := by
  obtain bound | ⟨k, positive, bound, rfl⟩ := outside
  · left
    have whole := congrArg utf8Length (List.take_append_drop n before)
    rw [utf8Length_append] at whole
    rw [exchange, if_pos bound, take_withString_of_le bound, take_withString_of_le bound]
    exact ⟨by omega, rfl⟩
  · right
    have some : after.take k ≠ [] := by
      rw [← List.length_pos_iff, List.length_take]
      omega
    have moved : exchange before inner inner' (before.length + inner.length + 2 + k) =
        before.length + inner'.length + 2 + k := by
      rw [exchange, if_neg (by omega)]
      omega
    refine ⟨utf8Length (after.take k), utf8Length_pos some, ?_, ?_⟩
    · rw [take_withString_add, utf8Length_append]
    · rw [moved, take_withString_add, utf8Length_append]

end Text

/-- What a string holds makes no difference to the rest of the code. If a quote is read as the
beginning of a string, and no question mark stands before it that could take it for a character,
plain contents of the string can be exchanged for others: the same constructs are open at the end,
the skeleton is the same, and the text is a complete statement in both cases or in neither. The
bracket that closes the first one is the same too. It is not found in either text, or before the
string and in the same place, or behind the string, in the same number of bytes from its end. -/
theorem scan_of_string {before inner inner' after : Text} {quote : Char}
    (quotes : isStringQuote quote = true)
    (opens : (CodeScan.runBefore {} before (quote :: (inner ++ quote :: after))).At .code)
    (last : before.getLast? ≠ some '?') (plain : inner.IsPlainIn quote)
    (plain' : inner'.IsPlainIn quote) :
    (Text.withString before quote inner' after).scan.depth =
        (Text.withString before quote inner after).scan.depth ∧
      (Text.withString before quote inner' after).scan.parametersOpen =
        (Text.withString before quote inner after).scan.parametersOpen ∧
      (Text.withString before quote inner' after).scan.skeleton =
        (Text.withString before quote inner after).scan.skeleton ∧
      (Text.withString before quote inner' after).isStatement =
        (Text.withString before quote inner after).isStatement ∧
      ((Text.withString before quote inner after).bracketedBytes? = none ∧
          (Text.withString before quote inner' after).bracketedBytes? = none ∨
        (∃ n ≤ before.utf8Length,
          (Text.withString before quote inner after).bracketedBytes? = some n ∧
          (Text.withString before quote inner' after).bracketedBytes? = some n) ∨
        ∃ n, 0 < n ∧
          (Text.withString before quote inner after).bracketedBytes? =
            some (Text.utf8Length (before ++ quote :: (inner ++ [quote])) + n) ∧
          (Text.withString before quote inner' after).bracketedBytes? =
            some (Text.utf8Length (before ++ quote :: (inner' ++ [quote])) + n)) := by
  have moved := Text.scan_exchange opens quotes last plain plain'
  refine ⟨by rw [moved]; rfl, by rw [moved]; rfl, by rw [moved]; rfl, ?_, ?_⟩
  · simp only [Text.isStatement, moved]
    rfl
  · simp only [Text.bracketedBytes?, Text.bracketedLength?, moved,
      Text.head?_withString before inner inner']
    split
    · cases noted : (Text.withString before quote inner after).scan.closedAt with
      | none => exact .inl ⟨rfl, by rw [CodeScan.move, noted]; rfl⟩
      | some n =>
        simp only [CodeScan.move, noted, Option.map_some, Option.some.injEq, reduceCtorEq,
          false_and, false_or]
        have outside := Text.closedAt_withString_cases opens quotes plain noted
        obtain ⟨bound, same⟩ | ⟨m, positive, here, there⟩ :=
          Text.utf8Length_take_exchange quote outside
        · exact .inl ⟨_, bound, rfl, same⟩
        · exact .inr ⟨m, positive, here, there⟩
    · exact .inl ⟨rfl, rfl⟩

/-- One string holds a brace, a bar and a slash, and the other a letter of two bytes. It is the
brace behind the string that closes the first one. -/
theorem scan_of_string_brackets :
    (Text.withString "\x7bé: ".toList '\x22' "é".toList " / 2\x7d, a ||".toList).scan.skeleton =
        (Text.withString "\x7bé: ".toList '\x22' "\x7d|/ (".toList
          " / 2\x7d, a ||".toList).scan.skeleton ∧
      (Text.withString "\x7bé: ".toList '\x22' "é".toList " / 2\x7d, a ||".toList).isStatement =
        (Text.withString "\x7bé: ".toList '\x22' "\x7d|/ (".toList
          " / 2\x7d, a ||".toList).isStatement ∧
      (Text.withString "\x7bé: ".toList '\x22' "\x7d|/ (".toList
        " / 2\x7d, a ||".toList).bracketedBytes? = some 17 ∧
      (Text.withString "\x7bé: ".toList '\x22' "é".toList
        " / 2\x7d, a ||".toList).bracketedBytes? = some 14 := by
  have frames : (CodeScan.runBefore {} "\x7bé: ".toList
      ('\x22' :: ("\x7d|/ (".toList ++ '\x22' :: " / 2\x7d, a ||".toList))).frames =
        [.bracket '\x7b'] := by
    decide +kernel
  have h := @scan_of_string "\x7bé: ".toList "\x7d|/ (".toList "é".toList " / 2\x7d, a ||".toList
    '\x22' rfl ⟨by decide +kernel, by rw [frames]; nofun⟩ (by decide) (by decide) (by decide)
  exact ⟨h.2.2.1, h.2.2.2.1, by decide +kernel, by decide +kernel⟩

end HamlTemplate
