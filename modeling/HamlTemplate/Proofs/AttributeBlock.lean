import HamlTemplate.ElementLine
import HamlTemplate.Proofs.Gathering
import HamlTemplate.Proofs.LineFeed
import HamlTemplate.Proofs.PhysicalLines
import HamlTemplate.Proofs.LineOrder

/-!
# Attribute blocks over several lines

An attribute block is read line by line, and all that has been gathered is scanned again for every
line. `attributes_eq_scan` says what comes of it in terms of one scan of everything that is left of
the source: the lines that are taken are the fewest that reach the bracket which that scan finds,
and if it finds none, all lines are taken in vain.
-/

namespace HamlTemplate

open Unicode

namespace Text

variable {text : Text} {lines : List Text} {n : Nat}

/-- The first characters of a text fit into as many bytes as a beginning of it has exactly if they
are no more characters than it has. -/
private theorem utf8Length_take_le_iff {start rest : Text} (bound : n ≤ (start ++ rest).length) :
    utf8Length ((start ++ rest).take n) ≤ utf8Length start ↔ n ≤ start.length := by
  rw [List.take_append, utf8Length_append]
  obtain shorter | longer := Nat.lt_or_ge start.length n
  · have more : rest.take (n - start.length) ≠ [] := by
      intro none
      have length := congrArg List.length none
      rw [List.length_append] at bound
      simp only [List.length_take, List.length_nil] at length
      omega
    have positive := utf8Length_pos more
    rw [List.take_of_length_le (Nat.le_of_lt shorter)]
    omega
  · have whole := congrArg utf8Length (List.take_append_drop n start)
    rw [utf8Length_append] at whole
    rw [Nat.sub_eq_zero_of_le longer, List.take_zero, utf8Length_nil]
    omega

private theorem continued_take_of_le (tidy : Text → Text) (text : Text) (lines : List Text)
    {k j : Nat}
    (h : k ≤ j) :
    continued tidy text (lines.take j) =
      continued tidy (continued tidy text (lines.take k)) ((lines.take j).drop k) := by
  have split := List.take_append_drop k (lines.take j)
  rw [List.take_take, Nat.min_eq_left h] at split
  rw [← continued_append, split]

private theorem continued_eq_take_append (tidy : Text → Text) (text : Text) (lines : List Text)
    (j : Nat) :
    continued tidy text lines =
      continued tidy text (lines.take j) ++ (lines.drop j).flatMap fun raw => '\n' :: tidy raw := by
  rw [← continued, ← continued_append, List.take_append_drop]

private theorem length_continued_take_le (tidy : Text → Text) (text : Text) (lines : List Text)
    {k j : Nat}
    (h : k ≤ j) :
    (continued tidy text (lines.take k)).length ≤ (continued tidy text (lines.take j)).length := by
  rw [continued_take_of_le tidy text lines h]
  simp [continued]

/-- The bracket that is found once all lines are there is found as soon as they reach it. -/
private theorem bracketedLength?_continued_take
    (h : (continued trim text lines).bracketedLength? = some n) {j : Nat}
    (bound : j ≤ lines.length) :
    (continued trim text (lines.take j)).bracketedLength? =
      if n ≤ (continued trim text (lines.take j)).length then some n else none := by
  obtain less | rfl := Nat.lt_or_eq_of_le bound
  · have more : lines.drop j ≠ [] := by
      rw [ne_eq, List.drop_eq_nil_iff]
      omega
    obtain ⟨rest, behind⟩ := exists_continued_append trim text (lines.take j) more
    rw [List.take_append_drop] at behind
    rw [behind] at h
    exact bracketedLength?_of_append_lineFeed h
  · rw [List.take_length, h, if_pos]
    exact bracketedLength?_le h

private theorem bracketedLength?_continued_take_of_none
    (h : (continued trim text lines).bracketedLength? = none) (j : Nat) :
    (continued trim text (lines.take j)).bracketedLength? = none := by
  cases found : (continued trim text (lines.take j)).bracketedLength? with
  | none => rfl
  | some n =>
    have later := bracketedLength?_append found
      ((lines.drop j).flatMap fun raw => '\n' :: trim raw)
    rw [← continued_eq_take_append, h] at later
    cases later

/-- As lines come behind a text, it reaches a length with one of them and has it from then on. -/
theorem exists_reaches_iff (tidy : Text → Text) (bound : n ≤ (continued tidy text lines).length) :
    ∃ k ≤ lines.length, ∀ j ≤ lines.length,
      n ≤ (continued tidy text (lines.take j)).length ↔ k ≤ j := by
  induction lines generalizing text with
  | nil =>
    refine ⟨0, Nat.le_refl 0, fun j _ => iff_of_true ?_ (Nat.zero_le j)⟩
    rwa [List.take_nil]
  | cons raw lines ih =>
    obtain short | reached := Nat.lt_or_ge text.length n
    · rw [continued_cons] at bound
      obtain ⟨k, within, first⟩ := ih bound
      refine ⟨k + 1, Nat.succ_le_succ within, fun j bound => ?_⟩
      cases j with
      | zero => exact iff_of_false (by simpa using short) (Nat.not_succ_le_zero k)
      | succ j =>
        rw [List.take_succ_cons, continued_cons, first j (Nat.le_of_succ_le_succ bound)]
        exact Nat.succ_le_succ_iff.symm
    · refine ⟨0, Nat.zero_le _, fun j _ => iff_of_true ?_ (Nat.zero_le j)⟩
      have grows := length_continued_take_le tidy text (raw :: lines) (Nat.zero_le j)
      rw [List.take_zero, continued_nil] at grows
      exact Nat.le_trans reached grows

theorem trim_sublist (text : Text) : (trim text).Sublist text := by
  have front : (trimStart text).Sublist text := List.dropWhile_sublist isWhiteSpace
  have back := (List.dropWhile_sublist isWhiteSpace (l := (trimStart text).reverse)).reverse
  rw [List.reverse_reverse] at back
  exact back.trans front

private theorem take_enclosed (opener closer : Char) (code after : Text) :
    (opener :: (code ++ closer :: after)).take (code.length + 2) =
      opener :: (code ++ [closer]) := by
  rw [List.take_succ_cons, List.take_append, List.take_of_length_le (Nat.le_succ _)]
  simp

private theorem drop_enclosed (opener closer : Char) (code after : Text) :
    (opener :: (code ++ closer :: after)).drop (code.length + 2) = after := by
  rw [List.drop_succ_cons, List.drop_append, List.drop_of_length_le (Nat.le_succ _)]
  simp

/-- What is left of the last line that a text has been continued with is unbroken, if the line
is. -/
theorem lineFeed_notMem_drop (unbroken : ∀ raw ∈ lines, raw.IsUnbroken) {k : Nat}
    (within : k ≤ lines.length) (before : ∀ j < k, (continued trim text (lines.take j)).length < n)
    (single : '\n' ∉ text) : '\n' ∉ (continued trim text (lines.take k)).drop n := by
  cases k with
  | zero =>
    rw [List.take_zero, continued_nil]
    exact fun member => single (List.mem_of_mem_drop member)
  | succ k =>
    have reached := before k (Nat.lt_succ_self k)
    rw [← List.take_append_getElem within, continued_append]
    generalize continued trim text (lines.take k) = start at reached ⊢
    have last : continued trim start [lines[k]] = (start ++ ['\n']) ++ trim lines[k] := by
      simp [continued]
    rw [last, List.drop_append, List.drop_of_length_le (by simpa [Nat.succ_le_iff] using reached),
      List.nil_append]
    intro member
    have inLine := (trim_sublist lines[k]).subset (List.mem_of_mem_drop member)
    exact (unbroken _ (List.getElem_mem within) _ inLine).1 rfl

end Text

namespace Reading

/-- The test that ends the gathering of an attribute block. -/
def closesBracket (text : Text) : Bool := text.bracketedLength?.isSome

variable {text code rest : Text} {c after : Cursor} {n : Nat}

/-- If a scan of all that is left finds the bracket, the lines that are gathered are the fewest that
reach it, and the scan of these lines finds it in the same place. -/
theorem gather_of_bracketed
    (found : (text.continued Text.trim c.pending).bracketedLength? = some n) :
    ∃ k ≤ c.pending.length,
      (∀ j ≤ c.pending.length,
        n ≤ (text.continued Text.trim (c.pending.take j)).length ↔ k ≤ j) ∧
      (text.continued Text.trim (c.pending.take k)).bracketedLength? = some n ∧
      gather closesBracket Text.trim .unmatchedAttributes text c =
        .ok ⟨text.continued Text.trim (c.pending.take k), k + 1⟩ (c.skip k) := by
  have scans := fun {j} => Text.bracketedLength?_continued_take found (j := j)
  obtain ⟨k, within, first⟩ := Text.exists_reaches_iff Text.trim (Text.bracketedLength?_le found)
  have now := scans within
  rw [if_pos ((first k within).mpr (Nat.le_refl k))] at now
  refine ⟨k, within, first, now, ?_⟩
  apply gather_of_wanted within
  · rw [closesBracket, now]
    rfl
  · intro j less
    have bound := Nat.le_trans (Nat.le_of_lt less) within
    rw [closesBracket, scans bound, if_neg (by rw [first j bound]; exact Nat.not_le.mpr less)]
    rfl

/-- If it does not, all lines are gathered in vain. -/
theorem attributes_of_unbracketed
    (unfound : (text.continued Text.trim c.pending).bracketedLength? = none) :
    attributes text c = .error ⟨.unmatchedAttributes, c.lineCount⟩ (c.skip c.pending.length) := by
  refine bind_eq_error_iff.mpr (.inl (gather_of_unwanted ?_))
  intro j _
  rw [Text.bracketedLength?_continued_take_of_none unfound j]
  rfl

/-- The attribute block is the code between the brackets of what has been gathered. -/
theorem attributes_of_gathered {opener closer : Char}
    {span : Nat} (gathered : gather closesBracket Text.trim .unmatchedAttributes text c =
      .ok ⟨opener :: (code ++ closer :: rest), span⟩ after)
    (found : Text.bracketedLength? (opener :: (code ++ closer :: rest)) = some (code.length + 2)) :
    attributes text c = .ok (Text.trim code, rest) after := by
  have inside : ((opener :: (code ++ closer :: rest)).take (code.length + 1)).drop 1 = code := by
    rw [List.take_succ_cons, List.drop_succ_cons, List.drop_zero, List.take_left]
  refine bind_eq_ok_iff.mpr ⟨_, after, gathered, ?_⟩
  simp only [found, Option.getD_some, Nat.add_succ_sub_one, inside, Text.drop_enclosed]
  rfl

end Reading

/-- Reading an attribute block at some position of a source agrees with one scan of all that is
left of the source. If the scan finds the brace that closes the first one, that many lines are
taken as it needs to reach the brace, and the block is split there; a text without a line feed
leaves none behind the brace. If the scan does not find it, all lines are taken in vain, and the
error is at the last line of the source. -/
theorem attributes_eq_scan {source text : Text} {c : Cursor} (position : c.Follows (.start source))
    (opens : text.head? = some '\x7b') :
    (∀ bytes, (text.continued Text.trim c.pending).bracketedBytes? = some bytes →
      ∃ k code after, k ≤ c.pending.length ∧
        (∀ j ≤ c.pending.length,
          bytes ≤ (text.continued Text.trim (c.pending.take j)).utf8Length ↔ k ≤ j) ∧
        text.continued Text.trim (c.pending.take k) = '\x7b' :: (code ++ '\x7d' :: after) ∧
        Text.utf8Length ('\x7b' :: (code ++ ['\x7d'])) = bytes ∧
        Reading.attributes text c = .ok (Text.trim code, after) (c.skip k) ∧
        ('\n' ∉ text → '\n' ∉ after)) ∧
    ((text.continued Text.trim c.pending).bracketedBytes? = none →
      ∃ e, Reading.attributes text c = .error e (c.skip c.pending.length) ∧
        e.fault.message = "Unmatched attributes delimiter" ∧
        e.line = source.physicalLines.length) := by
  constructor
  · intro bytes scanned
    obtain ⟨n, found, rfl⟩ := Option.map_eq_some_iff.mp scanned
    have whole := Text.bracketedLength?_le found
    obtain ⟨k, within, first, now, gathered⟩ := Reading.gather_of_bracketed found
    obtain ⟨opener, code, after, _, split, rfl⟩ := Text.bracketedLength?_eq_some now
    have brace : opener = '\x7b' := by
      have front := congrArg List.head? split
      rw [Text.continued, List.head?_append, opens] at front
      exact (Option.some.inj front).symm
    subst brace
    refine ⟨k, code, after, within, fun j bound => ?_, split, ?_, ?_, ?_⟩
    · rw [← first j bound]
      rw [Text.continued_eq_take_append Text.trim text c.pending j] at whole ⊢
      exact Text.utf8Length_take_le_iff whole
    · rw [Text.continued_eq_take_append Text.trim text c.pending k,
        List.take_append_of_le_length (Text.bracketedLength?_le now), split, Text.take_enclosed]
      rfl
    · rw [split] at gathered now
      exact Reading.attributes_of_gathered gathered now
    · intro single
      have unbroken : ∀ raw ∈ c.pending, raw.IsUnbroken := by
        obtain ⟨m, _, rfl⟩ := position
        exact fun raw member => Text.isUnbroken_of_mem_physicalLines (List.mem_of_mem_drop member)
      have short : ∀ j < k,
          (text.continued Text.trim (c.pending.take j)).length < code.length + 2 := by
        intro j less
        rw [← Nat.not_le, first j (Nat.le_trans (Nat.le_of_lt less) within)]
        exact Nat.not_le.mpr less
      have rest := Text.lineFeed_notMem_drop unbroken within short single
      rwa [split, Text.drop_enclosed] at rest
  · intro unscanned
    have unfound := Option.map_eq_none_iff.mp unscanned
    refine ⟨_, Reading.attributes_of_unbracketed unfound, rfl, ?_⟩
    show c.lineCount = source.physicalLines.length
    rw [position.lineCount_eq]
    simp [Cursor.start, Cursor.lineCount]

/-- The first brace that closes anything is part of a string, and the one that closes the block is
on the next line. -/
theorem attributes_eq_scan_string :
    (Text.continued Text.trim "\x7bx: '\x7d',".toList
        ["  y: 2\x7d t".toList, "rest".toList]).bracketedBytes? = some 14 ∧
      ∃ k code after,
        Reading.attributes "\x7bx: '\x7d',".toList ⟨["  y: 2\x7d t".toList, "rest".toList], 1⟩ =
          .ok (Text.trim code, after) (Cursor.skip ⟨["  y: 2\x7d t".toList, "rest".toList], 1⟩ k) ∧
        '\n' ∉ after := by
  have position : Cursor.Follows ⟨["  y: 2\x7d t".toList, "rest".toList], 1⟩
      (.start "%a\x7bx: '\x7d',\n  y: 2\x7d t\nrest".toList) := ⟨1, by decide, rfl⟩
  have opens : "\x7bx: '\x7d',".toList.head? = some '\x7b' := rfl
  have scanned : (Text.continued Text.trim "\x7bx: '\x7d',".toList
      ["  y: 2\x7d t".toList, "rest".toList]).bracketedBytes? = some 14 := by decide +kernel
  obtain ⟨k, code, after, _, _, _, _, read, single⟩ :=
    (attributes_eq_scan position opens).1 14 scanned
  exact ⟨scanned, k, code, after, read, single (by decide)⟩

end HamlTemplate
