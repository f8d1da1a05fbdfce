import HamlTemplate.Proofs.Agreement
import HamlTemplate.Proofs.Placement
import Mathlib.Order.Monotone.Basic

/-!
# Trackers that agree

Only the order of widths matters to a tracker. Two trackers whose levels are those of each other,
with every width taken to another one by a strictly increasing function, place lines alike if their
handlers do alike.
-/

namespace HamlTemplate

def Level.stretch (f : Nat → Nat) (level : Level) : Level := { level with width := f level.width }

@[simp] theorem Level.stretch_id : Level.stretch id = id := rfl

theorem Level.innermostWidth_map_stretch {f : Nat → Nat} (zero : f 0 = 0) (levels : List Level) :
    innermostWidth (levels.map (stretch f)) = f (innermostWidth levels) := by
  cases levels with
  | nil => exact zero.symm
  | cons level outer => rfl

/-- Two trackers have the same levels but for their widths. The relation `I` is on the characters
that the documents are indented with. -/
structure Tracker.Tracks (f : Nat → Nat) (I : Option Char → Option Char → Prop) (t t' : Tracker) :
    Prop where
  levels : t'.levels = t.levels.map (Level.stretch f)
  indents : I t.indentChar? t'.indentChar?

structure Line.Alike (f : Nat → Nat) (I : Option Char → Option Char → Prop) (line line' : Line) :
    Prop where
  blank : line'.isBlank = line.isBlank
  width : line'.width = f line.width
  settles : ∀ c c', I c c' → I (c.or line.indent.head?) (c'.or line'.indent.head?)
  mismatch : ∀ t t' : Tracker, I t.indentChar? t'.indentChar? →
    (t'.settle line').mismatch? line' = (t.settle line).mismatch? line

/-- Two handlers do alike on two lines. The relation `S` is on their states. -/
structure Handler.Parallel {σ τ ε : Type} (h : Handler σ ε) (g : Handler τ ε) (S : σ → τ → Prop)
    (answer? : ε → Option ε) (line line' : Line) : Prop where
  leave : ∀ s t, S s t → Agree S answer? (h.leave none s) (g.leave none t)
  leaveFor : ∀ s t, S s t → Agree S answer? (h.leave (some line) s) (g.leave (some line') t)
  mixed : ∀ c, answer? (h.reject ⟨.mixedIndentation c, line.number⟩) = none ∨
    answer? (h.reject ⟨.mixedIndentation c, line.number⟩) =
      some (g.reject ⟨.mixedIndentation c, line'.number⟩)
  unmatched : answer? (h.reject ⟨.unmatchedIndentation line.width, line.number⟩) = none ∨
    answer? (h.reject ⟨.unmatchedIndentation line.width, line.number⟩) =
      some (g.reject ⟨.unmatchedIndentation line'.width, line'.number⟩)

namespace Tracker

variable {σ τ ε α : Type} {h : Handler σ ε} {g : Handler τ ε} {S : σ → τ → Prop}
  {answer? : ε → Option ε} {f : Nat → Nat} {I : Option Char → Option Char → Prop}
  {line line' : Line} {t t' : Tracker} {s : σ} {s' : τ}

/-- Trackers with their handlers agree. -/
def Pairs (f : Nat → Nat) (I : Option Char → Option Char → Prop) (S : σ → τ → Prop)
    (p : Tracker × σ) (p' : Tracker × τ) : Prop :=
  Tracks f I p.1 p'.1 ∧ S p.2 p'.2

theorem agree_of_answers {e e' : ε} {R : σ → τ → Prop}
    (answers : answer? e = none ∨ answer? e = some e') :
    Agree R answer? (.error e s : EStateM.Result ε σ α) (.error e' s') := by
  obtain waived | answered := answers
  · exact .waived waived
  · exact .error answered

theorem Tracks.width_eq (zero : f 0 = 0) (tracks : Tracks f I t t') : t'.width = f t.width := by
  rw [width, tracks.levels, Level.innermostWidth_map_stretch zero]
  rfl

theorem Tracks.settle (alike : line.Alike f I line') (tracks : Tracks f I t t') :
    Tracks f I (t.settle line) (t'.settle line') :=
  ⟨tracks.levels, alike.settles _ _ tracks.indents⟩

/-- Levels of both trackers are closed alike. -/
theorem close_agree {c c' : Option Char} {closes closes' : Level → Bool}
    {following following' : List Level → Option Line} {levels : List Level} (indents : I c c')
    (same : ∀ level, closes' (level.stretch f) = closes level)
    (leaves : ∀ outer s s', S s s' →
      Agree S answer? (h.leave (following outer) s)
        (g.leave (following' (outer.map (Level.stretch f))) s'))
    (related : S s s') :
    Agree (Pairs f I S) answer? (close h c closes following levels s)
      (close g c' closes' following' (levels.map (Level.stretch f)) s') := by
  induction levels generalizing s s' with
  | nil => exact .ok ⟨⟨rfl, indents⟩, related⟩
  | cons level outer ih =>
    simp only [List.map_cons, close, same]
    split
    · have left := leaves outer s s' related
      revert left
      generalize h.leave (following outer) s = r,
        g.leave (following' (outer.map (Level.stretch f))) s' = r'
      intro left
      cases left with
      | ok related => exact ih related
      | error answered => exact .error answered
      | waived waived => exact .waived waived
    · exact .ok ⟨⟨rfl, indents⟩, related⟩

theorem openLevel_agree (alike : line.Alike f I line') (tracks : Tracks f I t t')
    (enters : Agree S answer? (h.enter line s) (g.enter line' s')) :
    Agree (Pairs f I S) answer? (openLevel h line (t, s)) (openLevel g line' (t', s')) := by
  simp only [openLevel]
  revert enters
  generalize h.enter line s = r, g.enter line' s' = r'
  intro enters
  cases enters with
  | ok related =>
    refine .ok ⟨⟨?_, tracks.indents⟩, related⟩
    simp only [List.map_cons, tracks.levels, alike.width, Level.stretch]
  | error answered => exact .error answered
  | waived waived => exact .waived waived

theorem closeWider_agree (increasing : StrictMono f) (zero : f 0 = 0)
    (parallel : h.Parallel g S answer? line line') (alike : line.Alike f I line')
    (tracks : Tracks f I t t') (related : S s s') :
    Agree (Pairs f I S) answer? (closeWider h line (t, s)) (closeWider g line' (t', s')) := by
  have closed : Agree (Pairs f I S) answer?
      (close h t.indentChar? (fun level => line.width < level.width)
        (fun outer => if Level.innermostWidth outer = line.width then some line else none)
        t.levels s)
      (close g t'.indentChar? (fun level => line'.width < level.width)
        (fun outer => if Level.innermostWidth outer = line'.width then some line' else none)
        t'.levels s') := by
    rw [tracks.levels]
    refine close_agree tracks.indents ?_ ?_ related
    · intro level
      simp only [alike.width, Level.stretch, increasing.lt_iff_lt]
    · intro outer s s' related
      rw [Level.innermostWidth_map_stretch zero, alike.width]
      simp only [increasing.injective.eq_iff]
      split
      · exact parallel.leaveFor s s' related
      · exact parallel.leave s s' related
  simp only [closeWider]
  revert closed
  generalize close h t.indentChar? _ _ t.levels s = r, close g t'.indentChar? _ _ t'.levels s' = r'
  intro closed
  cases closed with
  | @ok _ p p' related =>
    simp only [related.1.width_eq zero, alike.width, increasing.injective.eq_iff]
    split
    · exact .ok related
    · rw [← alike.width]
      exact agree_of_answers parallel.unmatched
  | error answered => exact .error answered
  | waived waived => exact .waived waived

theorem place_agree (increasing : StrictMono f) (zero : f 0 = 0)
    (parallel : h.Parallel g S answer? line line') (alike : line.Alike f I line')
    (tracks : Tracks f I t t') (related : S s s')
    (enters : Agree S answer? (h.enter line s) (g.enter line' s')) :
    Agree (Pairs f I S) answer? (place h line (t, s)) (place g line' (t', s')) := by
  have settled := tracks.settle alike
  simp only [place, alike.mismatch t t' tracks.indents]
  split
  · exact agree_of_answers (parallel.mixed _)
  · simp only [settled.width_eq zero, alike.width, increasing.lt_iff_lt]
    split
    · exact openLevel_agree alike settled enters
    · split
      · exact closeWider_agree increasing zero parallel alike settled related
      · exact .ok ⟨settled, related⟩

/-- A level that takes lines as they are does so beyond the width of the level around it. -/
theorem Tracks.verbatimBase?_eq (zero : f 0 = 0) (tracks : Tracks f I t t') :
    t'.verbatimBase? = t.verbatimBase?.map f := by
  simp only [verbatimBase?, tracks.levels]
  cases t.levels with
  | nil => rfl
  | cons level outer =>
    simp only [List.map_cons, Level.stretch, Level.innermostWidth_map_stretch zero]
    cases level.verbatim <;> rfl

theorem Tracks.takesVerbatim_eq (increasing : StrictMono f) (zero : f 0 = 0)
    (alike : line.Alike f I line') (tracks : Tracks f I t t') :
    t'.takesVerbatim line' = t.takesVerbatim line := by
  rw [takesVerbatim, takesVerbatim, tracks.verbatimBase?_eq zero, Option.any_map, alike.width]
  simp only [increasing.lt_iff_lt]

/-- Lines are processed alike. Opening the last node is left to the handlers, because it depends on
what the node is. -/
theorem process_agree (increasing : StrictMono f) (zero : f 0 = 0)
    (parallel : h.Parallel g S answer? line line') (alike : line.Alike f I line')
    (tracks : Tracks f I t t') (related : S s s')
    (enters : Agree S answer? (h.enter line s) (g.enter line' s')) :
    Agree (Pairs f I S) answer? (process h line (t, s)) (process g line' (t', s')) := by
  have body := tracks.takesVerbatim_eq increasing zero alike
  rw [takesVerbatim, takesVerbatim] at body
  simp only [process, alike.blank, body]
  split
  · exact .ok ⟨tracks, related⟩
  · split
    · exact .ok ⟨tracks, related⟩
    · exact place_agree increasing zero parallel alike tracks related enters

end Tracker

end HamlTemplate
