import HamlTemplate.Proofs.Placement

/-!
# What a handler is told

`Handler.recording` answers as another handler does and keeps a record of what it is told.
`Tracker.Move` says once what becomes of the levels when a line is processed, and which events that
takes, whatever the handler answers. An error is not undone, so it counts as an outcome like any
other.
-/

namespace HamlTemplate

inductive Event where
  | enter (line : Line)
  | leave (following : Option Line)
  deriving DecidableEq, Repr

def Event.isEnter : Event → Bool
  | .enter _ => true
  | .leave _ => false

def Event.isLeave : Event → Bool
  | .enter _ => false
  | .leave _ => true

section

variable {σ ε α : Type}

def valueOf? : EStateM.Result ε σ α → Option α
  | .ok a _ => some a
  | .error _ _ => none

def stateOf : EStateM.Result ε σ α → σ
  | .ok _ s => s
  | .error _ s => s

/-- The handler with a record, oldest event first, of what it is told. -/
def Handler.recording (h : Handler σ ε) : Handler (σ × List Event) ε where
  enter line := fun (s, log) =>
    match h.enter line s with
    | .ok verbatim s => .ok verbatim (s, log ++ [.enter line])
    | .error e s => .error e (s, log ++ [.enter line])
  leave following := fun (s, log) =>
    match h.leave following s with
    | .ok () s => .ok () (s, log ++ [.leave following])
    | .error e s => .error e (s, log ++ [.leave following])
  reject := h.reject

end

namespace Tracker

variable {σ ε α : Type} {h : Handler σ ε} {line : Line} {t : Tracker} {s : σ} {log : List Event}

/-- What a tracker does with a handler, with the record that is kept of it. -/
def recorded (log : List Event) :
    EStateM.Result ε (Tracker × σ) α → EStateM.Result ε (Tracker × σ × List Event) α
  | .ok a (t, s) => .ok a (t, s, log)
  | .error e (t, s) => .error e (t, s, log)

@[simp] theorem stateOf_recorded (log : List Event) (r : EStateM.Result ε (Tracker × σ) α) :
    stateOf (recorded log r) = ((stateOf r).1, (stateOf r).2, log) := by
  cases r <;> rfl

/-- Levels are closed from the innermost one on, and the handler is told of each. The flag says
whether it has agreed to all. -/
inductive Leaves (h : Handler σ ε) (closes : Level → Bool) (following : List Level → Option Line) :
    List Level → Bool → List Event → List Level → Prop
  /-- The innermost level stays open. -/
  | stop {levels : List Level} (stays : ∀ level ∈ levels.head?, closes level = false) :
      Leaves h closes following levels true [] levels
  /-- The handler fails when the level has been closed. -/
  | failed {level : Level} {outer : List Level} (closed : closes level = true)
      (fails : ∃ s e s', h.leave (following outer) s = .error e s') :
      Leaves h closes following (level :: outer) false [.leave (following outer)] outer
  /-- The level is closed, and then those around it. -/
  | leave {level : Level} {outer left : List Level} {agreed : Bool} {events : List Event}
      (closed : closes level = true) (rest : Leaves h closes following outer agreed events left) :
      Leaves h closes following (level :: outer) agreed (.leave (following outer) :: events) left

/-- What becomes of the levels when a line is processed, which events it takes, and what the line
turns out to be, if the call succeeds. -/
inductive Move (h : Handler σ ε) (line : Line) (t : Tracker) :
    Option LineRole → List Event → Tracker → Prop
  /-- A blank line changes nothing. -/
  | blank (blank : line.isBlank = true) : Move h line t (some .blank) [] t
  /-- A line of a verbatim body changes nothing. -/
  | body (content : line.isBlank = false) (inside : t.takesVerbatim line = true) :
      Move h line t (some .verbatim) [] t
  /-- A line is refused that is indented with another character than the document. -/
  | mixed (content : line.isBlank = false) (outside : t.takesVerbatim line = false)
      (mixed : (t.settle line).mismatch? line ≠ none) : Move h line t none [] (t.settle line)
  /-- A deeper line opens a level, which is verbatim if the handler says so. -/
  | deeper {verbatim : Bool} (admits : t.Admits line) (deeper : t.width < line.width)
      (answers : ∃ s s', h.enter line s = .ok verbatim s') :
      Move h line t (some (if verbatim then .verbatim else .structural)) [.enter line]
        ((t.settle line).entered line.width verbatim)
  /-- The level stays open when the handler fails. -/
  | unopened (admits : t.Admits line) (deeper : t.width < line.width)
      (fails : ∃ s e s', h.enter line s = .error e s') :
      Move h line t none [.enter line] ((t.settle line).entered line.width false)
  /-- A line of the same width goes on at the innermost level. -/
  | level (admits : t.Admits line) (same : t.width = line.width) :
      Move h line t (some .structural) [] (t.settle line)
  /-- A line that is less deep closes the levels that are wider. One that is left has to have its
  width. -/
  | shallower {events : List Event} {left : List Level} (admits : t.Admits line)
      (shallower : line.width < t.width)
      (leaves : Leaves h (line.width < ·.width) (following line) t.levels true events left) :
      Move h line t (if Level.innermostWidth left = line.width then some .structural else none)
        events { t.settle line with levels := left }
  /-- Wider levels may stay open when the handler fails. -/
  | unclosed {events : List Event} {left : List Level} (admits : t.Admits line)
      (shallower : line.width < t.width)
      (leaves : Leaves h (line.width < ·.width) (following line) t.levels false events left) :
      Move h line t none events { t.settle line with levels := left }

/-- Closing levels is as told by `Leaves`, and keeping a record changes nothing in it. -/
theorem close_recording (h : Handler σ ε) (c? : Option Char) (closes : Level → Bool)
    (following : List Level → Option Line) (levels : List Level) (s : σ) (log : List Event) :
    ∃ events left s',
      close h.recording c? closes following levels (s, log) =
          recorded (log ++ events) (close h c? closes following levels s) ∧
        stateOf (close h c? closes following levels s) = (⟨left, c?⟩, s') ∧
        Leaves h closes following levels
          (valueOf? (close h c? closes following levels s)).isSome events left := by
  induction levels generalizing s log with
  | nil => exact ⟨[], [], s, by rw [List.append_nil]; rfl, rfl, .stop nofun⟩
  | cons level outer ih =>
    by_cases closed : closes level = true
    · simp only [close, closed, if_true, Handler.recording]
      cases told : h.leave (following outer) s with
      | ok _ s =>
        obtain ⟨events, left, s', run, state, leaves⟩ := ih s (log ++ [.leave (following outer)])
        refine ⟨_, left, s', ?_, state, .leave closed leaves⟩
        rw [← List.append_cons] at run
        exact run
      | error e s' => exact ⟨_, outer, s', rfl, rfl, .failed closed ⟨s, e, s', told⟩⟩
    · simp only [close, if_neg closed]
      refine ⟨[], level :: outer, s, by rw [List.append_nil]; rfl, rfl, .stop ?_⟩
      rintro _ ⟨⟩
      exact Bool.eq_false_iff.mpr closed

/-- A deeper line is told of, whether the level then stays open for good or because of an error. -/
theorem openLevel_recording (admits : t.Admits line) (deeper : t.width < line.width) (s : σ)
    (log : List Event) :
    ∃ events,
      openLevel h.recording line (t.settle line, s, log) =
          recorded (log ++ events) (openLevel h line (t.settle line, s)) ∧
        Move h line t (valueOf? (openLevel h line (t.settle line, s))) events
          (stateOf (openLevel h line (t.settle line, s))).1 := by
  simp only [openLevel, Handler.recording]
  cases told : h.enter line s with
  | ok verbatim s' => exact ⟨_, rfl, .deeper admits deeper ⟨s, s', told⟩⟩
  | error e s' => exact ⟨_, rfl, .unopened admits deeper ⟨s, e, s', told⟩⟩

theorem closeWider_eq (h : Handler σ ε) (line : Line) (t : Tracker) (s : σ) :
    closeWider h line (t, s) =
      match close h t.indentChar? (line.width < ·.width) (following line) t.levels s with
      | .ok () (t, s) =>
        if t.width = line.width then .ok .structural (t, s)
        else .error (h.reject ⟨.unmatchedIndentation line.width, line.number⟩) (t, s)
      | .error e state => .error e state := rfl

theorem closeWider_recording (admits : t.Admits line) (shallower : line.width < t.width) (s : σ)
    (log : List Event) :
    ∃ events,
      closeWider h.recording line (t.settle line, s, log) =
          recorded (log ++ events) (closeWider h line (t.settle line, s)) ∧
        Move h line t (valueOf? (closeWider h line (t.settle line, s))) events
          (stateOf (closeWider h line (t.settle line, s))).1 := by
  obtain ⟨events, left, s', run, state, leaves⟩ :=
    close_recording h (t.settle line).indentChar? (line.width < ·.width) (following line)
      (t.settle line).levels s log
  refine ⟨events, ?_⟩
  rw [closeWider_eq, closeWider_eq, run]
  cases closed : close h (t.settle line).indentChar? (line.width < ·.width) (following line)
      (t.settle line).levels s with
  | ok _ after =>
    rw [closed] at state leaves
    obtain rfl : after = (⟨left, (t.settle line).indentChar?⟩, s') := state
    have move := Move.shallower admits shallower leaves
    by_cases same : (Tracker.mk left (t.settle line).indentChar?).width = line.width
    · rw [if_pos (by exact same)] at move
      simp only [recorded, same, if_true]
      exact ⟨trivial, move⟩
    · rw [if_neg (by exact same)] at move
      simp only [recorded, same, if_false]
      exact ⟨rfl, move⟩
  | error e after =>
    rw [closed] at state leaves
    obtain rfl : after = (⟨left, (t.settle line).indentChar?⟩, s') := state
    exact ⟨rfl, .unclosed admits shallower leaves⟩

/-- A record changes nothing in what a tracker does, and what it does is told by `Move`. -/
theorem process_recording (h : Handler σ ε) (line : Line) (t : Tracker) (s : σ)
    (log : List Event) :
    ∃ events,
      process h.recording line (t, s, log) =
          recorded (log ++ events) (process h line (t, s)) ∧
        Move h line t (valueOf? (process h line (t, s))) events
          (stateOf (process h line (t, s))).1 := by
  by_cases content : line.isBlank = true
  · rw [process_of_blank content, process_of_blank content]
    exact ⟨[], by rw [List.append_nil]; rfl, .blank content⟩
  rw [Bool.not_eq_true] at content
  by_cases inside : t.takesVerbatim line = true
  · rw [process_of_takesVerbatim content inside, process_of_takesVerbatim content inside]
    exact ⟨[], by rw [List.append_nil]; rfl, .body content inside⟩
  rw [Bool.not_eq_true] at inside
  by_cases uniform : (t.settle line).mismatch? line = none
  · have admits : t.Admits line := ⟨content, inside, uniform⟩
    rw [process_of_admits admits, process_of_admits admits]
    split
    · exact openLevel_recording admits ‹_› s log
    · split
      · exact closeWider_recording admits ‹_› s log
      · exact ⟨[], by rw [List.append_nil]; rfl, .level admits (by omega)⟩
  · obtain ⟨expected, mixed⟩ := Option.ne_none_iff_exists'.mp uniform
    have outside := inside
    rw [takesVerbatim] at outside
    simp only [process, content, outside, Bool.false_eq_true, if_false, place, mixed]
    exact ⟨[], by rw [List.append_nil]; rfl, .mixed content inside uniform⟩

/-- At the end of the source all levels are closed, unless the handler fails. -/
theorem finish_recording (h : Handler σ ε) (t : Tracker) (s : σ) (log : List Event) :
    ∃ events left s',
      finish h.recording (t, s, log) = recorded (log ++ events) (finish h (t, s)) ∧
        stateOf (finish h (t, s)) = ({ t with levels := left }, s') ∧
        Leaves h (fun _ => true) (fun _ => none) t.levels (valueOf? (finish h (t, s))).isSome events
          left :=
  close_recording h t.indentChar? _ _ t.levels s log

end Tracker

end HamlTemplate
