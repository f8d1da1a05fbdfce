import HamlTemplate.Unicode.Class

/-!
# Text

Templates are read as lists of characters. This module has the few operations on them that are
needed everywhere: trimming, the test for blank text, and the length in bytes.
-/

namespace HamlTemplate

open Unicode

/-- A piece of a template, character by character. -/
abbrev Text := List Char

namespace Text

def trimStart (text : Text) : Text := text.dropWhile isWhiteSpace

def trimEnd (text : Text) : Text := (text.reverse.dropWhile isWhiteSpace).reverse

def trim (text : Text) : Text := trimEnd (trimStart text)

def isBlank (text : Text) : Bool := text.all isWhiteSpace

def utf8Length : Text → Nat
  | [] => 0
  | c :: text => c.utf8Size + utf8Length text

@[simp] theorem trimStart_nil : trimStart [] = [] := rfl

@[simp] theorem trimEnd_nil : trimEnd [] = [] := rfl

@[simp] theorem trim_nil : trim [] = [] := rfl

theorem isBlank_trimStart (text : Text) : isBlank (trimStart text) = isBlank text := by
  induction text with
  | nil => rfl
  | cons c text ih =>
    simp only [trimStart, isBlank, List.dropWhile_cons, List.all_cons] at ih ⊢
    by_cases h : isWhiteSpace c
    · simp only [h, if_true, Bool.true_and]
      exact ih
    · simp [h]

theorem trimStart_eq_nil_iff {text : Text} : trimStart text = [] ↔ isBlank text := by
  constructor
  · intro h
    rw [← isBlank_trimStart, h]
    rfl
  · intro h
    induction text with
    | nil => rfl
    | cons c text ih =>
      simp only [isBlank, List.all_cons, Bool.and_eq_true] at h
      simp only [trimStart, List.dropWhile_cons, h.1, if_true]
      exact ih h.2

theorem trimEnd_eq_nil_iff {text : Text} : trimEnd text = [] ↔ isBlank text := by
  have reversed : isBlank text.reverse = isBlank text := List.all_reverse
  rw [← reversed, ← trimStart_eq_nil_iff, trimEnd, List.reverse_eq_nil_iff]
  rfl

/-- Trimming leaves nothing of a text exactly if it is blank. -/
theorem trim_eq_nil_iff {text : Text} : trim text = [] ↔ isBlank text := by
  rw [trim, trimEnd_eq_nil_iff, isBlank_trimStart]

@[simp] theorem utf8Length_nil : utf8Length [] = 0 := rfl

@[simp] theorem utf8Length_cons (c : Char) (text : Text) :
    utf8Length (c :: text) = c.utf8Size + utf8Length text := rfl

@[simp] theorem utf8Length_append (s t : Text) :
    utf8Length (s ++ t) = utf8Length s + utf8Length t := by
  induction s with
  | nil => simp
  | cons c s ih => simp [ih, Nat.add_assoc]

end Text

end HamlTemplate
