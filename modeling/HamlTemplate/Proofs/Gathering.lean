import HamlTemplate.Code.Statement
import Mathlib.Data.Nat.Find

/-!
# Gathering lines

What a text becomes when lines are gathered behind it, and how many of them are gathered: as few as
make it what is wanted. A statement is gathered in this way, and so is the code of a script.
-/

namespace HamlTemplate

/-- The text with the given lines behind it, each tidied and behind a line feed. -/
def Text.continued (tidy : Text → Text) (text : Text) (lines : List Text) : Text :=
  text ++ lines.flatMap fun raw => '\n' :: tidy raw

namespace Text

variable {tidy : Text → Text} {text raw : Text} {lines more : List Text}

@[simp] theorem continued_nil (tidy : Text → Text) (text : Text) : continued tidy text [] = text :=
  List.append_nil text

theorem continued_cons (tidy : Text → Text) (text raw : Text) (lines : List Text) :
    continued tidy text (raw :: lines) = continued tidy (text ++ '\n' :: tidy raw) lines := by
  simp [continued]

theorem continued_append (tidy : Text → Text) (text : Text) (lines more : List Text) :
    continued tidy text (lines ++ more) = continued tidy (continued tidy text lines) more := by
  simp [continued]

theorem continued_concat (tidy : Text → Text) (text : Text) (lines : List Text) (raw : Text) :
    continued tidy text (lines ++ [raw]) = continued tidy text lines ++ '\n' :: tidy raw := by
  rw [continued_append]
  simp [continued]

/-- With more lines a text goes on behind a line feed. -/
theorem exists_continued_append (tidy : Text → Text) (text : Text) (lines : List Text)
    (some : more ≠ []) :
    ∃ rest, continued tidy text (lines ++ more) = continued tidy text lines ++ '\n' :: rest := by
  cases more with
  | nil => exact absurd rfl some
  | cons raw more =>
    refine ⟨tidy raw ++ more.flatMap fun raw => '\n' :: tidy raw, ?_⟩
    simp [continued]

end Text

namespace Cursor

variable {wanted : Text → Bool} {tidy : Text → Text} {text : Text} {lines : List Text}
  {consumed span k : Nat}

/-- The lines that are gathered are the fewest that make the text what is wanted. -/
private theorem gatherFrom_of_wanted (bound : k ≤ lines.length)
    (now : wanted (text.continued tidy (lines.take k)) = true)
    (before : ∀ j < k, wanted (text.continued tidy (lines.take j)) = false) :
    gatherFrom wanted tidy lines consumed ⟨text, span⟩ =
      (some ⟨text.continued tidy (lines.take k), span + k⟩, ⟨lines.drop k, consumed + k⟩) := by
  induction k generalizing lines consumed text span with
  | zero =>
    unfold gatherFrom
    rw [List.take_zero, Text.continued_nil] at now ⊢
    rw [if_pos now]
    rfl
  | succ k ih =>
    cases lines with
    | nil => cases bound
    | cons raw lines =>
      have first := before 0 (Nat.succ_pos k)
      rw [List.take_zero, Text.continued_nil] at first
      unfold gatherFrom
      rw [if_neg (by simp [first])]
      simp only [List.take_succ_cons, Text.continued_cons] at now ⊢
      have counted : ∀ n, n + 1 + k = n + (k + 1) := fun n => Nat.add_right_comm n 1 k
      simp only [Gathered.add]
      rw [ih (Nat.le_of_succ_le_succ bound) now, List.drop_succ_cons, counted, counted]
      · intro j less
        have later := before (j + 1) (Nat.succ_lt_succ less)
        rwa [List.take_succ_cons, Text.continued_cons] at later

/-- If no lines make the text what is wanted, all of them are gathered in vain. -/
private theorem gatherFrom_of_unwanted
    (never : ∀ j ≤ lines.length, wanted (text.continued tidy (lines.take j)) = false) :
    gatherFrom wanted tidy lines consumed ⟨text, span⟩ =
      (none, ⟨[], consumed + lines.length⟩) := by
  induction lines generalizing consumed text span with
  | nil =>
    have now := never 0 (Nat.zero_le _)
    rw [List.take_zero, Text.continued_nil] at now
    unfold gatherFrom
    rw [if_neg (by simp [now])]
    rfl
  | cons raw lines ih =>
    have now := never 0 (Nat.zero_le _)
    rw [List.take_zero, Text.continued_nil] at now
    unfold gatherFrom
    rw [if_neg (by simp [now])]
    simp only [Gathered.add]
    rw [ih, List.length_cons, Nat.add_assoc, Nat.add_comm 1]
    intro j bound
    have later := never (j + 1) (Nat.succ_le_succ bound)
    rwa [List.take_succ_cons, Text.continued_cons] at later

/-- Lines that are tidied to the same are gathered to the same, whatever number of lines is before
them. -/
theorem gatherFrom_map {g : Text → Text} (same : ∀ raw, tidy (g raw) = tidy raw)
    (lines : List Text) (consumed n : Nat) (gathered : Gathered) :
    gatherFrom wanted tidy (lines.map g) (consumed + n) gathered =
      ((gatherFrom wanted tidy lines consumed gathered).1,
        ⟨(gatherFrom wanted tidy lines consumed gathered).2.pending.map g,
          (gatherFrom wanted tidy lines consumed gathered).2.consumed + n⟩) := by
  induction lines generalizing consumed gathered with
  | nil =>
    unfold gatherFrom
    split <;> rfl
  | cons raw lines ih =>
    unfold gatherFrom
    split
    · rfl
    · simp only [List.map_cons, same]
      rw [Nat.add_right_comm, ih]

/-- What is gathered is the text with the fewest lines behind it that make it what is wanted, and
its span counts them. -/
theorem gatherFrom_eq_some {gathered : Gathered} {after : Cursor}
    (h : gatherFrom wanted tidy lines consumed ⟨text, span⟩ = (some gathered, after)) :
    ∃ k ≤ lines.length, after = ⟨lines.drop k, consumed + k⟩ ∧
      gathered = ⟨text.continued tidy (lines.take k), span + k⟩ ∧
      wanted (text.continued tidy (lines.take k)) = true ∧
      ∀ j < k, wanted (text.continued tidy (lines.take j)) = false := by
  by_cases found : ∃ k ≤ lines.length, wanted (text.continued tidy (lines.take k)) = true
  · have before : ∀ j < Nat.find found, wanted (text.continued tidy (lines.take j)) = false := by
      intro j less
      have bound := Nat.le_trans (Nat.le_of_lt less) (Nat.find_spec found).1
      have unwanted := Nat.find_min found less
      simpa [bound] using unwanted
    obtain ⟨bound, now⟩ := Nat.find_spec found
    rw [gatherFrom_of_wanted bound now before] at h
    cases h
    exact ⟨_, bound, rfl, rfl, now, before⟩
  · rw [gatherFrom_of_unwanted] at h
    · cases h
    · intro j bound
      rw [← Bool.not_eq_true]
      exact fun now => found ⟨j, bound, now⟩

end Cursor

namespace Reading

variable {wanted : Text → Bool} {tidy : Text → Text} {fault : Fault} {text afterMark code : Text}
  {c c' : Cursor} {k : Nat}

theorem gather_of_wanted (bound : k ≤ c.pending.length)
    (now : wanted (text.continued tidy (c.pending.take k)) = true)
    (before : ∀ j < k, wanted (text.continued tidy (c.pending.take j)) = false) :
    gather wanted tidy fault text c =
      .ok ⟨text.continued tidy (c.pending.take k), k + 1⟩ (c.skip k) := by
  rw [gather, Cursor.gatherFrom_of_wanted bound now before, Nat.add_comm 1 k]
  rfl

theorem gather_of_unwanted
    (never : ∀ j ≤ c.pending.length, wanted (text.continued tidy (c.pending.take j)) = false) :
    gather wanted tidy fault text c =
      .error ⟨fault, c.lineCount⟩ (c.skip c.pending.length) := by
  rw [gather, Cursor.gatherFrom_of_unwanted never, Cursor.skip, List.drop_length]
  rfl

/-- What is wanted at once is gathered without reading on. -/
theorem gather_of_wanted_now (now : wanted text = true) (c : Cursor) :
    gather wanted tidy fault text c = .ok ⟨text, 1⟩ c := by
  have first : wanted (text.continued tidy (c.pending.take 0)) = true := by
    rwa [List.take_zero, Text.continued_nil]
  rw [gather_of_wanted (Nat.zero_le _) first nofun, List.take_zero, Text.continued_nil,
    Cursor.skip_zero]

theorem gather_eq_ok {gathered : Gathered} (h : gather wanted tidy fault text c = .ok gathered c') :
    ∃ k ≤ c.pending.length, c' = c.skip k ∧
      gathered = ⟨text.continued tidy (c.pending.take k), k + 1⟩ ∧
      wanted (text.continued tidy (c.pending.take k)) = true ∧
      ∀ j < k, wanted (text.continued tidy (c.pending.take j)) = false := by
  rw [gather] at h
  split at h
  · rename_i read
    cases h
    obtain ⟨k, bound, position, rfl, found⟩ := Cursor.gatherFrom_eq_some read
    rw [Nat.add_comm 1 k]
    exact ⟨k, bound, position, rfl, found⟩
  · cases h

/-- A statement that is read covers the line that it begins on and those that are read on, and its
code is made of them. -/
theorem statement_eq_ok {read : Statement} (h : statement text c = .ok read c') :
    ∃ k ≤ c.pending.length, c' = c.skip k ∧
      read = ⟨text.continued Text.trimEnd (c.pending.take k), k + 1⟩ ∧
      (text.continued Text.trimEnd (c.pending.take k)).isStatement = true ∧
      ∀ j < k, (text.continued Text.trimEnd (c.pending.take j)).isStatement = false := by
  obtain ⟨gathered, m, found, made⟩ := bind_eq_ok_iff.mp h
  cases made
  obtain ⟨k, bound, position, rfl, now, before⟩ := gather_eq_ok found
  exact ⟨k, bound, position, rfl, now, before⟩

/-- The code of a script goes on until it is a statement. -/
theorem script_eq_ok (h : script afterMark c = .ok code c') :
    afterMark.isBlank = false ∧ ∃ k ≤ c.pending.length, c' = c.skip k ∧
      code = (Text.trim afterMark).continued Text.trimEnd (c.pending.take k) ∧
      code.isStatement = true ∧ ∀ j < k,
        ((Text.trim afterMark).continued Text.trimEnd (c.pending.take j)).isStatement = false := by
  rw [script] at h
  split at h
  · cases h
  · rename_i visible
    obtain ⟨read, m, found, made⟩ := bind_eq_ok_iff.mp h
    cases made
    obtain ⟨k, bound, position, rfl, now, before⟩ := statement_eq_ok found
    exact ⟨Bool.eq_false_iff.mpr visible, k, bound, position, rfl, now, before⟩

/-- A script that is complete on its own line is read without reading on. -/
theorem script_of_isStatement (visible : afterMark.isBlank = false)
    (complete : (Text.trim afterMark).isStatement = true) (c : Cursor) :
    script afterMark c = .ok (Text.trim afterMark) c := by
  rw [script, visible, if_neg Bool.false_ne_true]
  have read : statement (Text.trim afterMark) c = .ok ⟨Text.trim afterMark, 1⟩ c :=
    bind_eq_ok_iff.mpr ⟨_, c, gather_of_wanted_now complete c, rfl⟩
  exact bind_eq_ok_iff.mpr ⟨_, c, read, rfl⟩

end Reading

end HamlTemplate
