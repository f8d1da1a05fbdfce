import HamlTemplate.Source.PhysicalLine
import Mathlib.Data.List.DropRight

/-!
# Texts put together from parts

What trimming does to a text that is put together from parts. A text that has nothing to trim at
its end keeps it when more is put in front, and the two ends can be trimmed in either order. A part
that is told by its characters ends where the next part begins with another one.
-/

namespace HamlTemplate.Text

open Unicode

variable {c : Char} {text s t : Text}

/-- A part of elements of one kind goes on no further when something else follows. -/
theorem takeWhile_append {α : Type} {kind : α → Bool} {s t : List α} (h : ∀ a ∈ s, kind a = true)
    (stops : ∀ a ∈ t.head?, kind a = false) :
    (s ++ t).takeWhile kind = s ∧ (s ++ t).dropWhile kind = t := by
  rw [List.takeWhile_append_of_pos h, List.dropWhile_append_of_pos h]
  cases t with
  | nil => exact ⟨List.append_nil s, rfl⟩
  | cons a t =>
    have stop := stops a rfl
    rw [List.takeWhile_cons_of_neg (by simp [stop]), List.dropWhile_cons_of_neg (by simp [stop])]
    exact ⟨List.append_nil s, rfl⟩

@[simp] theorem isWhiteSpace_space : isWhiteSpace ' ' = true := by decide

theorem isWhiteSpace_of_isIndentChar (h : isIndentChar c = true) : isWhiteSpace c = true := by
  simp only [isIndentChar, Bool.or_eq_true, beq_iff_eq] at h
  obtain rfl | rfl := h <;> decide

private theorem trimEnd_eq_rdropWhile (text : Text) :
    trimEnd text = text.rdropWhile isWhiteSpace := rfl

theorem trimEnd_isPrefix_self (text : Text) : trimEnd text <+: text :=
  List.rdropWhile_prefix isWhiteSpace text

theorem trimEnd_trimEnd (text : Text) : trimEnd (trimEnd text) = trimEnd text :=
  List.rdropWhile_idempotent isWhiteSpace text

theorem trimEnd_eq_self_iff :
    trimEnd text = text ↔ ∀ h : text ≠ [], isWhiteSpace (text.getLast h) = false := by
  rw [trimEnd_eq_rdropWhile, List.rdropWhile_eq_self_iff]
  simp only [Bool.not_eq_true]

/-- Trimming the end goes beyond the last part of a text only if nothing is left of that part. -/
theorem trimEnd_append (s t : Text) :
    trimEnd (s ++ t) = if trimEnd t = [] then trimEnd s else s ++ trimEnd t := by
  simp only [trimEnd, List.reverse_append, List.dropWhile_append, List.reverse_eq_nil_iff,
    List.isEmpty_iff]
  split <;> simp

theorem trimEnd_append_of_trimmed (hs : trimEnd s = s) (ht : trimEnd t = t) :
    trimEnd (s ++ t) = s ++ t := by
  rw [trimEnd_append, ht, hs]
  split
  · rename_i empty
    rw [empty, List.append_nil]
  · rfl

/-- A text that begins with something to keep only loses what its rest loses. -/
theorem trimEnd_cons (h : isWhiteSpace c = false) (text : Text) :
    trimEnd (c :: text) = c :: trimEnd text := by
  have kept : trimEnd [c] = [c] := trimEnd_eq_self_iff.mpr fun _ => h
  rw [← List.singleton_append, trimEnd_append, kept]
  split
  · rename_i empty
    rw [empty]
  · rfl

theorem trimStart_cons (h : isWhiteSpace c = true) (text : Text) :
    trimStart (c :: text) = trimStart text :=
  List.dropWhile_cons_of_pos h

theorem trimStart_append_of_trimmed (hs : trimStart s = s) (visible : s ≠ []) (t : Text) :
    trimStart (s ++ t) = s ++ t := by
  cases s with
  | nil => exact absurd rfl visible
  | cons c s =>
    have first : ¬isWhiteSpace c = true := List.dropWhile_eq_self_iff.mp hs (Nat.succ_pos _)
    exact List.dropWhile_cons_of_neg first

theorem trim_cons (h : isWhiteSpace c = true) (text : Text) : trim (c :: text) = trim text := by
  rw [trim, trimStart_cons h, trim]

/-- The two ends of a text can be trimmed in either order. -/
theorem trimStart_trimEnd (text : Text) : trimStart (trimEnd text) = trim text := by
  induction text with
  | nil => rfl
  | cons c rest ih =>
    cases white : isWhiteSpace c with
    | false =>
      have start : ∀ rest : Text, trimStart (c :: rest) = c :: rest :=
        fun rest => List.dropWhile_cons_of_neg (by simp [white])
      rw [trim, trimEnd_cons white, start, start, trimEnd_cons white]
    | true =>
      rw [trim_cons white, ← ih, ← List.singleton_append, trimEnd_append]
      split
      · rename_i empty
        rw [empty, trimEnd_eq_nil_iff.mpr (by simp [isBlank, white])]
      · exact trimStart_cons white _

/-- What is trimmed off the end of a text is not seen by trimming it. -/
theorem trim_trimEnd (text : Text) : trim (trimEnd text) = trim text := by
  rw [trim, trimStart_trimEnd, trim, trimEnd_trimEnd]

theorem trim_trim (text : Text) : trim (trim text) = trim text := by
  have front : trimStart (trimStart text) = trimStart text :=
    List.dropWhile_idempotent isWhiteSpace text
  rw [trim, trim, trimStart_trimEnd, trim, front, trimEnd_trimEnd]

theorem trimEnd_of_trim (h : trim text = text) : trimEnd text = text := by
  rw [← h, trim, trimEnd_trimEnd]

theorem trimStart_of_trim (h : trim text = text) : trimStart text = text := by
  rw [← trimEnd_of_trim h, trimStart_trimEnd, h, trimEnd_of_trim h]

end HamlTemplate.Text
