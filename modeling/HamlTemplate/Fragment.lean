import HamlTemplate.Text

/-!
# Fragments

A fragment is what a filter makes of its body: literal output, code, or several of them.
-/

namespace HamlTemplate

/-- The output of a filter. -/
inductive Fragment where
  /-- Literal output. -/
  | static (text : Text)
  /-- Code to run. -/
  | code (text : Text)
  /-- Fragments in order. -/
  | multi (parts : List Fragment)
  /-- A line break in the generated code. -/
  | newline
  deriving Repr

namespace Fragment

mutual

def decEq : (a b : Fragment) → Decidable (a = b)
  | static s, static t => decidable_of_iff (s = t) (by simp)
  | code s, code t => decidable_of_iff (s = t) (by simp)
  | multi ps, multi qs =>
    have := decEqAll ps qs
    decidable_of_iff (ps = qs) (by simp)
  | newline, newline => .isTrue rfl
  | static _, code _ | static _, multi _ | static _, newline
  | code _, static _ | code _, multi _ | code _, newline
  | multi _, static _ | multi _, code _ | multi _, newline
  | newline, static _ | newline, code _ | newline, multi _ => .isFalse nofun

def decEqAll : (ps qs : List Fragment) → Decidable (ps = qs)
  | [], [] => .isTrue rfl
  | p :: ps, q :: qs =>
    have := decEq p q
    have := decEqAll ps qs
    decidable_of_iff (p = q ∧ ps = qs) (by simp)
  | [], _ :: _ | _ :: _, [] => .isFalse nofun

end

instance : DecidableEq Fragment := decEq

end Fragment

end HamlTemplate
