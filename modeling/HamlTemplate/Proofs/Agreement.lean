import HamlTemplate.Readings

/-!
# Runs that agree

Two runs of a fallible action agree when they succeed alike or fail alike. States need only be
related, and an error of the first run has its answer in the second; one that has no answer leaves
the second run free. Agreement goes through a sequence of actions step by step, so all readings
agree as soon as those do that gather lines.
-/

namespace HamlTemplate

def SourceError.shift (n : Nat) (e : SourceError) : SourceError := ⟨e.fault, e.line + n⟩

/-- Two results agree. The relation is on the states that they end in, and `answer?` gives for an
error of the first run the one that the second has to end in, if it has to end in any. -/
inductive Agree {σ τ ε α : Type} (R : σ → τ → Prop) (answer? : ε → Option ε) :
    EStateM.Result ε σ α → EStateM.Result ε τ α → Prop
  /-- Both runs succeed with the same value. -/
  | ok {a : α} {s : σ} {t : τ} (related : R s t) : Agree R answer? (.ok a s) (.ok a t)
  /-- Both runs fail. -/
  | error {e e' : ε} {s : σ} {t : τ} (answered : answer? e = some e') :
      Agree R answer? (.error e s) (.error e' t)
  /-- The first run fails in a way that says nothing about the second. -/
  | waived {e : ε} {s : σ} {r : EStateM.Result ε τ α} (waived : answer? e = none) :
      Agree R answer? (.error e s) r

namespace Agree

variable {σ τ ε α β : Type} {R R' : σ → τ → Prop} {answer? : ε → Option ε}

/-- Sequences of actions agree if the first actions do and, from related states on, the rest. -/
theorem bind {action : EStateM ε σ α} {action' : EStateM ε τ α} {next : α → EStateM ε σ β}
    {next' : α → EStateM ε τ β} {s : σ} {t : τ} (first : Agree R answer? (action s) (action' t))
    (rest : ∀ a s t, R s t → Agree R' answer? (next a s) (next' a t)) :
    Agree R' answer? ((action >>= next) s) ((action' >>= next') t) := by
  simp only [Bind.bind, EStateM.bind]
  revert first
  generalize action s = r, action' t = r'
  intro first
  cases first with
  | ok related => exact rest _ _ _ related
  | error answered => exact .error answered
  | waived waived => exact .waived waived

theorem of_ok {a : α} {s : σ} {r : EStateM.Result ε τ α} (h : Agree R answer? (.ok a s) r) :
    ∃ t, r = .ok a t ∧ R s t := by
  cases h with
  | ok related => exact ⟨_, rfl, related⟩

theorem of_error {e e' : ε} {s : σ} {r : EStateM.Result ε τ α}
    (h : Agree R answer? (.error e s) r) (answered : answer? e = some e') :
    ∃ t, r = .error e' t := by
  cases h with
  | error answered' =>
    cases answered.symm.trans answered'
    exact ⟨_, rfl⟩
  | waived waived => cases answered.symm.trans waived

end Agree

/-- What related positions have in common, for readings from them to agree: the second position is
`n` lines further on, gathering from there agrees, and errors keep their fault. -/
structure Cursor.Parallel (K : Cursor → Cursor → Prop) (answer? : SourceError → Option SourceError)
    (n : Nat) : Prop where
  consumed : ∀ c c', K c c' → c'.consumed = c.consumed + n
  answers : ∀ e, answer? e = none ∨ answer? e = some (e.shift n)
  gather : ∀ wanted {tidy fault}, Reading.Gathers tidy fault → ∀ text c c', K c c' →
    Agree K answer? (Reading.gather wanted tidy fault text c)
      (Reading.gather wanted tidy fault text c')

namespace Reading

variable {α β : Type} {K : Cursor → Cursor → Prop} {answer? : SourceError → Option SourceError}
  {n : Nat} {c c' : Cursor}

/-- An action agrees with itself from related positions on. -/
def Agrees (K : Cursor → Cursor → Prop) (answer? : SourceError → Option SourceError)
    (action : Reading α) : Prop :=
  ∀ c c', K c c' → Agree K answer? (action c) (action c')

theorem agrees_pure (a : α) : Agrees K answer? (pure a) := fun _ _ related => .ok related

theorem Agrees.bind {action : Reading α} {next : α → Reading β} (h : Agrees K answer? action)
    (h' : ∀ a, Agrees K answer? (next a)) : Agrees K answer? (action >>= next) := by
  intro c c' related
  exact (h c c' related).bind h'

theorem agrees_fail (parallel : Cursor.Parallel K answer? n) (fault : Fault) :
    Agrees K answer? (fail fault : Reading α) := by
  intro c c' related
  have line := parallel.consumed c c' related
  rw [fail, fail, line]
  obtain waived | answered := parallel.answers ⟨fault, c.consumed⟩
  · exact .waived waived
  · exact .error answered

/-- Readings agree from positions from which gathering does. -/
theorem closed_agrees (parallel : Cursor.Parallel K answer? n) :
    Closed fun _ action => Agrees K answer? action where
  pure := agrees_pure
  bind first rest := first.bind rest
  fail fault _ := agrees_fail parallel fault
  gather := parallel.gather

/-- If nothing is asked of a run that fails, only gathering has to agree. -/
theorem sequenced_waived (K : Cursor → Cursor → Prop) :
    Sequenced fun _ action => Agrees K (fun _ => none) action where
  pure := agrees_pure
  bind first rest := first.bind rest
  fail _ _ _ _ _ := .waived rfl

end Reading

end HamlTemplate
