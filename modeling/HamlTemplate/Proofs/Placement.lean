import HamlTemplate.Proofs.Outline

/-!
# Where a line is placed

A line that is processed leaves the tracker and the outline as they are, opens one level or closes
some. `Placement` says once what each outcome is and when it comes about, and `process_eq_ok_iff`
says that there are no others. Every invariant of the indentation follows from it by cases.
-/

namespace HamlTemplate

namespace Tracker

/-- A line belongs to the body of a verbatim level. -/
def takesVerbatim (t : Tracker) (line : Line) : Bool := t.verbatimBase?.any (· < line.width)

/-- A line is content whose indentation has to be looked at, and its indentation is made of the
document's character. -/
structure Admits (t : Tracker) (line : Line) : Prop where
  content : line.isBlank = false
  notBody : t.takesVerbatim line = false
  uniform : (t.settle line).mismatch? line = none

def entered (t : Tracker) (width : Nat) (verbatim : Bool) : Tracker :=
  { t with levels := ⟨width, verbatim⟩ :: t.levels }

@[simp] theorem levels_settle (t : Tracker) (line : Line) : (t.settle line).levels = t.levels := rfl

@[simp] theorem width_settle (t : Tracker) (line : Line) : (t.settle line).width = t.width := rfl

@[simp] theorem verbatimBase?_settle (t : Tracker) (line : Line) :
    (t.settle line).verbatimBase? = t.verbatimBase? := rfl

@[simp] theorem levels_entered (t : Tracker) (width : Nat) (verbatim : Bool) :
    (t.entered width verbatim).levels = ⟨width, verbatim⟩ :: t.levels := rfl

@[simp] theorem width_entered (t : Tracker) (width : Nat) (verbatim : Bool) :
    (t.entered width verbatim).width = width := rfl

/-- A document that is indented with one character goes on that way. -/
theorem uniform_settle {t : Tracker} {line : Line} {c : Char} (before : ∀ d ∈ t.indentChar?, d = c)
    (indent : ∀ d ∈ line.indent, d = c) :
    (∀ d ∈ (t.settle line).indentChar?, d = c) ∧ (t.settle line).mismatch? line = none := by
  have settled : ∀ d ∈ (t.settle line).indentChar?, d = c := by
    intro d member
    rw [settle] at member
    cases first : t.indentChar? with
    | some e =>
      rw [first, Option.some_or] at member
      exact before d (by rwa [first])
    | none =>
      rw [first, Option.none_or] at member
      exact indent d (List.mem_of_mem_head? member)
  refine ⟨settled, ?_⟩
  rw [mismatch?, Option.filter_eq_none_iff]
  intro d member
  rw [settled d member]
  simpa using indent

/-- The line that the node of a closed level sees behind it: the dedented line itself if the level
around the closed one is where that line goes on. -/
def following (line : Line) (outer : List Level) : Option Line :=
  if Level.innermostWidth outer = line.width then some line else none

/-- Closing levels from the innermost one on leads from some levels and an outline to others, of
which the innermost level has the width of the line. -/
inductive Closes (line : Line) : List Level → Outline → List Level → Outline → Prop
  /-- The line has the width of the innermost level. -/
  | done {levels : List Level} {o : Outline} (same : Level.innermostWidth levels = line.width) :
      Closes line levels o levels o
  /-- The innermost level is wider than the line, and is closed first. -/
  | close {level : Level} {outer left : List Level} {o after : Outline}
      (wider : line.width < level.width)
      (rest : Closes line outer (o.closed (following line outer)) left after) :
      Closes line (level :: outer) o left after

/-- What closing one level keeps, a dedent keeps. -/
theorem Closes.preserves {line : Line} {levels left : List Level} {o after : Outline}
    {P : List Level → Outline → Prop}
    (closed : ∀ {level : Level} {outer : List Level} {o : Outline} (following : Option Line),
      P (level :: outer) o → P outer (o.closed following))
    (closes : Closes line levels o left after) (h : P levels o) : P left after := by
  induction closes with
  | done => exact h
  | close _ _ ih => exact ih (closed _ h)

/-- What closing one level with no line to follow keeps, the end of the source keeps. -/
theorem preserves_closedTimes {P : List Level → Outline → Prop}
    (closed : ∀ {level : Level} {outer : List Level} {o : Outline},
      P (level :: outer) o → P outer (o.closed none))
    {levels : List Level} {o : Outline} (h : P levels o) : P [] (o.closedTimes levels.length) := by
  induction levels generalizing o with
  | nil => exact h
  | cons level outer ih => exact ih (closed h)

/-- What becomes of the levels and of the outline when a line is processed, and what the line turns
out to be. -/
inductive Placement (line : Line) (t : Tracker) (o : Outline) :
    LineRole → Tracker → Outline → Prop
  /-- A blank line changes nothing. -/
  | blank (blank : line.isBlank = true) : Placement line t o .blank t o
  /-- A line of a verbatim body changes nothing. -/
  | body (content : line.isBlank = false) (inside : t.takesVerbatim line = true) :
      Placement line t o .verbatim t o
  /-- A deeper line opens a level and the last node. -/
  | deeper {number : Nat} {head : Head} {nested elder : List Node} (admits : t.Admits line)
      (deeper : t.width < line.width) (last : o.siblings = .block number head nested :: elder)
      (nestable : head.nestingFault? = none) :
      Placement line t o (if head == .hamlComment then .verbatim else .structural)
        ((t.settle line).entered line.width (head == .hamlComment))
        (o.opened number head nested elder)
  /-- A line of the same width goes on at the innermost level. -/
  | level (admits : t.Admits line) (same : t.width = line.width) :
      Placement line t o .structural (t.settle line) o
  /-- A line that is less deep closes the levels that are wider. -/
  | shallower {left : List Level} {after : Outline} (admits : t.Admits line)
      (shallower : line.width < t.width) (closes : Closes line t.levels o left after) :
      Placement line t o .structural { t.settle line with levels := left } after

/-- A dedent ends where the innermost level has the width of the line, with a success. -/
theorem closeWider_eq_ok_of_stop {line : Line} {levels : List Level} {c? : Option Char}
    {o : Outline} {role : LineRole} {after : Tracker × Outline}
    (stop : Level.innermostWidth levels ≤ line.width) :
    closeWider Outline.handler line (⟨levels, c?⟩, o) = .ok role after ↔
      Level.innermostWidth levels = line.width ∧ role = .structural ∧
        after = (⟨levels, c?⟩, o) := by
  have closed : close Outline.handler c? (fun level => line.width < level.width)
      (fun outer => if Level.innermostWidth outer = line.width then some line else none) levels o =
        .ok () (⟨levels, c?⟩, o) := by
    cases levels with
    | nil => rfl
    | cons level outer =>
      rw [Level.innermostWidth_cons] at stop
      simp only [close, Nat.not_lt.mpr stop, decide_false, Bool.false_eq_true, if_false]
  simp only [closeWider, closed]
  by_cases same : (Tracker.mk levels c?).width = line.width
  · rw [if_pos same]
    constructor
    · intro h
      injection h with hr ha
      exact ⟨same, hr.symm, ha.symm⟩
    · rintro ⟨_, rfl, rfl⟩
      rfl
  · rw [if_neg same]
    constructor
    · intro h
      cases h
    · rintro ⟨same', _⟩
      exact absurd same' same

/-- A dedent closes the innermost level first if it is wider than the line. -/
theorem closeWider_cons {line : Line} {level : Level} {outer : List Level} {c? : Option Char}
    {o : Outline} (wider : line.width < level.width) :
    closeWider Outline.handler line (⟨level :: outer, c?⟩, o) =
      closeWider Outline.handler line (⟨outer, c?⟩, o.closed (following line outer)) := by
  simp only [closeWider, close, wider, decide_true, if_true, Outline.handler, Outline.leave_eq,
    following]

theorem closeWider_eq_ok_iff {line : Line} {levels : List Level} {c? : Option Char} {o : Outline}
    {role : LineRole} {t : Tracker} {after : Outline} :
    closeWider Outline.handler line (⟨levels, c?⟩, o) = .ok role (t, after) ↔
      role = .structural ∧ ∃ left, Closes line levels o left after ∧ t = ⟨left, c?⟩ := by
  induction levels generalizing o with
  | nil =>
    rw [closeWider_eq_ok_of_stop (Nat.zero_le _)]
    constructor
    · rintro ⟨same, rfl, h⟩
      cases h
      exact ⟨rfl, [], .done same, rfl⟩
    · rintro ⟨rfl, left, closes, rfl⟩
      cases closes with
      | done same => exact ⟨same, rfl, rfl⟩
  | cons level outer ih =>
    by_cases wider : line.width < level.width
    · rw [closeWider_cons wider, ih]
      refine and_congr_right fun _ => exists_congr fun left => and_congr_left fun _ => ?_
      constructor
      · exact .close wider
      · intro closes
        cases closes with
        | done same => exact absurd same (Nat.ne_of_gt wider)
        | close _ rest => exact rest
    · rw [closeWider_eq_ok_of_stop (Nat.not_lt.mp wider)]
      constructor
      · rintro ⟨same, rfl, h⟩
        cases h
        exact ⟨rfl, level :: outer, .done same, rfl⟩
      · rintro ⟨rfl, left, closes, rfl⟩
        cases closes with
        | done same => exact ⟨same, rfl, rfl⟩
        | close wider' => exact absurd wider' wider

/-- A deeper line opens a level exactly if the last node can be opened. -/
theorem openLevel_eq_ok_iff {line : Line} {t t' : Tracker} {o after : Outline} {role : LineRole} :
    openLevel Outline.handler line (t, o) = .ok role (t', after) ↔
      ∃ number head nested elder, o.siblings = .block number head nested :: elder ∧
        head.nestingFault? = none ∧
        role = (if head == .hamlComment then .verbatim else .structural) ∧
        t' = t.entered line.width (head == .hamlComment) ∧
        after = o.opened number head nested elder := by
  simp only [openLevel, Outline.handler]
  cases entering : Outline.enter line o with
  | ok verbatim o' =>
    obtain ⟨number, head, nested, elder, last, nestable, rfl, rfl⟩ :=
      Outline.enter_eq_ok_iff.mp entering
    constructor
    · intro h
      cases h
      exact ⟨number, head, nested, elder, last, nestable, rfl, rfl, rfl⟩
    · rintro ⟨_, _, _, _, last', _, rfl, rfl, rfl⟩
      cases last.symm.trans last'
      rfl
  | error e o' =>
    constructor
    · intro h
      cases h
    · rintro ⟨number, head, nested, elder, last, nestable, _⟩
      have opens : Outline.enter line o =
          .ok (head == .hamlComment) (o.opened number head nested elder) :=
        Outline.enter_eq_ok_iff.mpr ⟨number, head, nested, elder, last, nestable, rfl, rfl⟩
      cases entering.symm.trans opens

theorem process_of_blank {σ ε : Type} {h : Handler σ ε} {line : Line}
    (blank : line.isBlank = true) (t : Tracker) (s : σ) :
    process h line (t, s) = .ok .blank (t, s) := by
  simp [process, blank]

theorem process_of_takesVerbatim {σ ε : Type} {h : Handler σ ε} {line : Line} {t : Tracker}
    (content : line.isBlank = false) (inside : t.takesVerbatim line = true) (s : σ) :
    process h line (t, s) = .ok .verbatim (t, s) := by
  rw [takesVerbatim] at inside
  simp [process, content, inside]

/-- Content whose indentation is looked at is refused unless the tracker admits it. -/
theorem admits_of_process {line : Line} {t t' : Tracker} {o after : Outline} {role : LineRole}
    (content : line.isBlank = false) (notBody : t.takesVerbatim line = false)
    (h : process Outline.handler line (t, o) = .ok role (t', after)) : t.Admits line := by
  refine ⟨content, notBody, ?_⟩
  rw [takesVerbatim] at notBody
  simp only [process, content, notBody, Bool.false_eq_true, if_false, place] at h
  cases mixed : (t.settle line).mismatch? line with
  | none => rfl
  | some expected =>
    rw [mixed] at h
    cases h

/-- The width of a line that is admitted decides what it does to the levels. -/
theorem process_of_admits {σ ε : Type} {h : Handler σ ε} {line : Line} {t : Tracker}
    (admits : t.Admits line) (s : σ) :
    process h line (t, s) =
      if t.width < line.width then openLevel h line (t.settle line, s)
      else if line.width < t.width then closeWider h line (t.settle line, s)
      else .ok .structural (t.settle line, s) := by
  obtain ⟨content, notBody, uniform⟩ := admits
  rw [takesVerbatim] at notBody
  simp only [process, content, notBody, Bool.false_eq_true, if_false, place, uniform]
  rfl

theorem process_of_placement {line : Line} {t t' : Tracker} {o after : Outline} {role : LineRole}
    (placed : Placement line t o role t' after) :
    process Outline.handler line (t, o) = .ok role (t', after) := by
  cases placed with
  | blank blank => exact process_of_blank blank t o
  | body content inside => exact process_of_takesVerbatim content inside o
  | deeper admits deeper last nestable =>
    rw [process_of_admits admits, if_pos deeper, openLevel_eq_ok_iff]
    exact ⟨_, _, _, _, last, nestable, rfl, rfl, rfl⟩
  | level admits same =>
    rw [process_of_admits admits, if_neg (by omega), if_neg (by omega)]
  | shallower admits shallower closes =>
    rw [process_of_admits admits, if_neg (by omega), if_pos shallower, settle,
      closeWider_eq_ok_iff]
    exact ⟨rfl, _, closes, rfl⟩

theorem placement_of_process {line : Line} {t t' : Tracker} {o after : Outline} {role : LineRole}
    (h : process Outline.handler line (t, o) = .ok role (t', after)) :
    Placement line t o role t' after := by
  cases content : line.isBlank with
  | true =>
    cases h.symm.trans (process_of_blank content t o)
    exact .blank content
  | false =>
    cases inside : t.takesVerbatim line with
    | true =>
      cases h.symm.trans (process_of_takesVerbatim content inside o)
      exact .body content inside
    | false =>
      have admits := admits_of_process content inside h
      rw [process_of_admits admits] at h
      obtain deeper | same | shallower := Nat.lt_trichotomy t.width line.width
      · rw [if_pos deeper, openLevel_eq_ok_iff] at h
        obtain ⟨number, head, nested, elder, last, nestable, rfl, rfl, rfl⟩ := h
        exact .deeper admits deeper last nestable
      · rw [if_neg (by omega), if_neg (by omega)] at h
        cases h
        exact .level admits same
      · rw [if_neg (by omega), if_pos shallower, settle, closeWider_eq_ok_iff] at h
        obtain ⟨rfl, left, closes, rfl⟩ := h
        exact .shallower admits shallower closes

/-- Processing a line succeeds exactly with a placement. -/
theorem process_eq_ok_iff {line : Line} {t t' : Tracker} {o after : Outline} {role : LineRole} :
    process Outline.handler line (t, o) = .ok role (t', after) ↔
      Placement line t o role t' after :=
  ⟨placement_of_process, process_of_placement⟩

theorem close_all (c? : Option Char) (levels : List Level) (o : Outline) :
    close Outline.handler c? (fun _ => true) (fun _ => none) levels o =
      .ok () (⟨[], c?⟩, o.closedTimes levels.length) := by
  induction levels generalizing o with
  | nil => rfl
  | cons level outer ih =>
    simp only [close, if_true, Outline.handler, Outline.leave_eq, List.length_cons,
      Outline.closedTimes] at ih ⊢
    exact ih _

/-- At the end of the source all levels are closed, with no line behind them. -/
theorem finish_eq (t : Tracker) (o : Outline) :
    finish Outline.handler (t, o) =
      .ok () (⟨[], t.indentChar?⟩, o.closedTimes t.levels.length) :=
  close_all t.indentChar? t.levels o

end Tracker

end HamlTemplate
