import HamlTemplate.Proofs.PhysicalLines
import HamlTemplate.Proofs.Trimming
import Mathlib.Order.Monotone.Basic

/-!
# Sources with another indentation

A source is indented anew when the indentation of each physical line is replaced by as many copies
of one character as a function of its width says. All else is kept, terminators included, so the
lines of the new source are the old ones, each with its new indentation.
-/

namespace HamlTemplate.Text

def reindentLine (f : Nat → Nat) (c : Char) (raw : Text) : Text :=
  List.replicate (f raw.indentation.length) c ++ raw.afterIndentation

/-- The width of the indentation read so far, behind a character that ends a line. -/
def lineStart? (d : Char) : Option Nat := if d = '\n' ∨ d = '\r' then some 0 else none

/-- Replaces indentation from the middle of a text on. A width is given as long as the text is in
the indentation of a line, and none behind that. -/
def reindentFrom (f : Nat → Nat) (c : Char) : Option Nat → Text → Text
  | some w, [] => List.replicate (f w) c
  | some w, d :: rest =>
    if isIndentChar d then reindentFrom f c (some (w + 1)) rest
    else List.replicate (f w) c ++ d :: reindentFrom f c (lineStart? d) rest
  | none, [] => []
  | none, d :: rest => d :: reindentFrom f c (lineStart? d) rest

/-- The source with the indentation of each line replaced. -/
def reindent (f : Nat → Nat) (c : Char) (source : Text) : Text := reindentFrom f c (some 0) source

section

variable {f : Nat → Nat} {c d : Char} {raw text rest pad : Text} {w : Nat}

theorem indentation_append (indent : ∀ d ∈ pad, isIndentChar d = true)
    (visible : ∀ d ∈ text.head?, isIndentChar d = false) :
    (pad ++ text).indentation = pad ∧ (pad ++ text).afterIndentation = text :=
  takeWhile_append indent visible

theorem visible_afterIndentation (raw : Text) :
    ∀ d ∈ raw.afterIndentation.head?, isIndentChar d = false := by
  intro d member
  have first := List.head?_dropWhile_not isIndentChar raw
  rw [← afterIndentation, member] at first
  exact first

theorem isUnbroken_of_indent (indent : ∀ d ∈ pad, isIndentChar d = true) : pad.IsUnbroken := by
  intro d member
  have kind := indent d member
  constructor <;> rintro rfl <;> cases kind

theorem isIndentChar_of_mem_replicate (indents : isIndentChar c = true) (n : Nat) :
    ∀ d ∈ List.replicate n c, isIndentChar d = true := by
  intro d member
  rw [List.eq_of_mem_replicate member]
  exact indents

private theorem isUnbroken_replicate (indents : isIndentChar c = true) (n : Nat) :
    IsUnbroken (List.replicate n c) :=
  isUnbroken_of_indent (isIndentChar_of_mem_replicate indents n)

theorem reindentLine_append (f : Nat → Nat) (c : Char) (indent : ∀ d ∈ pad, isIndentChar d = true)
    (visible : ∀ d ∈ text.head?, isIndentChar d = false) :
    reindentLine f c (pad ++ text) = List.replicate (f pad.length) c ++ text := by
  obtain ⟨front, behind⟩ := indentation_append indent visible
  rw [reindentLine, front, behind]

/-- The new indentation is that of the new line. -/
theorem indentation_reindentLine (f : Nat → Nat) (indents : isIndentChar c = true) (raw : Text) :
    (raw.reindentLine f c).indentation = List.replicate (f raw.indentation.length) c ∧
      (raw.reindentLine f c).afterIndentation = raw.afterIndentation :=
  indentation_append (isIndentChar_of_mem_replicate indents _) (visible_afterIndentation raw)

def prepend (pad : Text) : List Text → List Text
  | [] => if pad = [] then [] else [pad]
  | line :: lines => (pad ++ line) :: lines

theorem physicalLines_unbroken_append (h : pad.IsUnbroken) (text : Text) :
    physicalLines (pad ++ text) = prepend pad (physicalLines text) := by
  induction pad with
  | nil => cases lines : physicalLines text <;> simp [prepend, lines]
  | cons d pad ih =>
    obtain ⟨⟨feed, ret⟩, rest⟩ := List.forall_mem_cons.mp h
    rw [List.cons_append, physicalLines_cons feed ret, ih rest]
    cases physicalLines text with
    | nil => cases pad <;> simp [prepend]
    | cons line lines => rfl

/-- Behind a carriage return a line feed belongs to the same terminator. -/
theorem physicalLines_return_eq (text : Text) :
    physicalLines ('\r' :: text) =
      if text.head? = some '\n' then physicalLines text else [] :: physicalLines text := by
  split
  · rename_i feed
    obtain ⟨rest, rfl⟩ := List.head?_eq_some_iff.mp feed
    rw [physicalLines_pair, physicalLines_lineFeed]
  · rename_i single
    exact physicalLines_return single

/-- The first line of a text that is not empty is empty or begins with the first character. -/
private theorem exists_physicalLines_cons (d : Char) (rest : Text) :
    ∃ line lines, physicalLines (d :: rest) = line :: lines ∧ ∀ e ∈ line.head?, e = d := by
  by_cases feed : d = '\n'
  · rw [feed, physicalLines_lineFeed]
    exact ⟨[], _, rfl, nofun⟩
  by_cases ret : d = '\r'
  · rw [ret, physicalLines_return_eq]
    split
    · rename_i paired
      obtain ⟨rest, rfl⟩ := List.head?_eq_some_iff.mp paired
      exact ⟨[], _, physicalLines_lineFeed rest, nofun⟩
    · exact ⟨[], _, rfl, nofun⟩
  · rw [physicalLines_cons feed ret]
    cases physicalLines rest with
    | nil => exact ⟨[d], [], rfl, by simp⟩
    | cons line lines => exact ⟨d :: line, lines, rfl, by simp⟩

/-- The lines with the indentation of all but the first one replaced. -/
private def reindentLater (f : Nat → Nat) (c : Char) : List Text → List Text
  | [] => []
  | raw :: lines => raw :: lines.map (reindentLine f c)

private theorem head?_replicate_append (increasing : StrictMono f) (positive : 0 < w)
    (text : Text) :
    (List.replicate (f w) c ++ text).head? = some c := by
  have wide := Nat.lt_of_le_of_lt (Nat.zero_le _) (increasing positive)
  rw [List.head?_append, List.head?_replicate, if_neg (Nat.ne_of_gt wide)]
  rfl

private theorem head?_reindentFrom_some (increasing : StrictMono f) (positive : 0 < w)
    (text : Text) :
    (reindentFrom f c (some w) text).head? = some c := by
  induction text generalizing w with
  | nil =>
    rw [reindentFrom, ← List.append_nil (List.replicate _ _)]
    exact head?_replicate_append increasing positive []
  | cons d rest ih =>
    rw [reindentFrom]
    split
    · exact ih (Nat.succ_pos w)
    · exact head?_replicate_append increasing positive _

/-- A text begins with a line feed after its indentation has been replaced exactly if it did
before. -/
private theorem head?_reindentFrom_zero (increasing : StrictMono f) (zero : f 0 = 0)
    (indents : isIndentChar c = true) (text : Text) :
    (reindentFrom f c (some 0) text).head? = some '\n' ↔ text.head? = some '\n' := by
  have other : ∀ d, isIndentChar d = true → d ≠ '\n' := by
    rintro d indent rfl
    cases indent
  cases text with
  | nil => simp [reindentFrom, zero]
  | cons d rest =>
    rw [reindentFrom]
    split
    · rename_i indent
      rw [head?_reindentFrom_some increasing (Nat.succ_pos 0)]
      simp [other c indents, other d indent]
    · simp [zero]

/-- The lines of a text from behind some indentation on. -/
theorem physicalLines_reindentFrom_none (increasing : StrictMono f) (zero : f 0 = 0)
    (indents : isIndentChar c = true) (d : Char)
    (ih : physicalLines (reindentFrom f c (some 0) rest) =
      (physicalLines rest).map (reindentLine f c))
    (ih' : physicalLines (reindentFrom f c none rest) = reindentLater f c (physicalLines rest)) :
    physicalLines (reindentFrom f c none (d :: rest)) =
      reindentLater f c (physicalLines (d :: rest)) := by
  rw [reindentFrom]
  by_cases feed : d = '\n'
  · subst feed
    rw [physicalLines_lineFeed, physicalLines_lineFeed]
    exact congrArg ([] :: ·) ih
  by_cases ret : d = '\r'
  · subst ret
    have start : lineStart? '\r' = some 0 := rfl
    rw [start, physicalLines_return_eq, physicalLines_return_eq, ih]
    simp only [head?_reindentFrom_zero increasing zero indents]
    split
    · rename_i paired
      obtain ⟨rest, rfl⟩ := List.head?_eq_some_iff.mp paired
      have first : reindentLine f c [] = [] := by
        simp [reindentLine, indentation, afterIndentation, zero]
      rw [physicalLines_lineFeed, List.map_cons, first]
      rfl
    · rfl
  · have start : lineStart? d = none := if_neg (by simp [feed, ret])
    rw [start, physicalLines_cons feed ret, physicalLines_cons feed ret, ih']
    cases physicalLines rest <;> rfl

/-- The lines of a text whose indentation is replaced, from within the indentation of a line on and
from behind it on. -/
theorem physicalLines_reindentFrom (increasing : StrictMono f) (zero : f 0 = 0)
    (indents : isIndentChar c = true) (text : Text) :
    (∀ pad : Text, (∀ d ∈ pad, isIndentChar d = true) →
      physicalLines (reindentFrom f c (some pad.length) text) =
        (physicalLines (pad ++ text)).map (reindentLine f c)) ∧
    physicalLines (reindentFrom f c none text) = reindentLater f c (physicalLines text) := by
  -- The parts need each other: a visible character leads from the first to the second, and the end
  -- of a line leads back.
  induction text with
  | nil =>
    refine ⟨fun pad indent => ?_, rfl⟩
    have none : ∀ d ∈ ([] : Text).head?, isIndentChar d = false := nofun
    have line := reindentLine_append f c indent none
    have lines := physicalLines_unbroken_append (isUnbroken_replicate indents (f pad.length)) []
    rw [List.append_nil] at lines line
    rw [reindentFrom, lines, physicalLines_unbroken_append (isUnbroken_of_indent indent) []]
    cases pad with
    | nil => simp [prepend, zero]
    | cons d pad =>
      have wide : f (pad.length + 1) ≠ 0 :=
        Nat.ne_of_gt (Nat.lt_of_le_of_lt (Nat.zero_le _) (increasing (Nat.succ_pos pad.length)))
      simp [prepend, line, wide]
  | cons d rest ih =>
    obtain ⟨inside, behind⟩ := ih
    have later := physicalLines_reindentFrom_none increasing zero indents
      d (inside [] nofun) behind
    refine ⟨fun pad indent => ?_, later⟩
    rw [reindentFrom]
    split
    · rename_i kind
      have more := inside (pad ++ [d])
        (List.forall_mem_append.mpr ⟨indent, List.forall_mem_singleton.mpr kind⟩)
      simpa using more
    · rename_i kind
      obtain ⟨line, lines, split, first⟩ := exists_physicalLines_cons d rest
      rw [reindentFrom] at later
      rw [physicalLines_unbroken_append (isUnbroken_replicate indents (f pad.length)),
        physicalLines_unbroken_append (isUnbroken_of_indent indent), later, split]
      have visible : ∀ e ∈ line.head?, isIndentChar e = false := by
        intro e member
        rw [first e member]
        exact Bool.eq_false_iff.mpr kind
      simp only [reindentLater, prepend, List.map_cons, reindentLine_append f c indent visible]

/-- The lines of a source that is indented anew. -/
theorem physicalLines_reindent (increasing : StrictMono f) (zero : f 0 = 0)
    (indents : isIndentChar c = true) (source : Text) :
    (source.reindent f c).physicalLines = source.physicalLines.map (reindentLine f c) :=
  (physicalLines_reindentFrom increasing zero indents source).1 [] nofun

end

end HamlTemplate.Text
