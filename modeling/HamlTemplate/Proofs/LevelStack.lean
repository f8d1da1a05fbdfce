import HamlTemplate.Proofs.Events

/-!
# The stack of levels

Levels become wider inwards, and only the innermost one may be verbatim. This is so after every
call of a tracker, however the handler has answered. A call that has failed leaves a stack that is
in order as well, so any calls may follow it.
-/

namespace HamlTemplate

namespace Tracker

variable {σ ε : Type} {h : Handler σ ε} {line next : Line} {t t' : Tracker} {s : σ}
  {log events : List Event} {levels left outer : List Level} {agreed : Bool}

/-- All open levels, innermost first. The last one is that of width zero. -/
def stack (t : Tracker) : List Level := t.levels ++ [⟨0, false⟩]

inductive Call where
  | process (line : Line)
  | finish

def Call.after (h : Handler σ ε) (state : Tracker × σ) : Call → Tracker × σ
  | .process line => stateOf (Tracker.process h line state)
  | .finish => stateOf (Tracker.finish h state)

def afterCalls (h : Handler σ ε) (calls : List Call) (state : Tracker × σ) : Tracker × σ :=
  calls.foldl (Call.after h) state

/-- The levels are in order, and as many are open as have been opened and not closed. -/
structure Sound (t : Tracker) (log : List Event) : Prop where
  increasing : t.stack.Pairwise fun inner outer => outer.width < inner.width
  verbatim : ∀ level ∈ t.stack.tail, level.verbatim = false
  counted : log.countP Event.isEnter = log.countP Event.isLeave + t.levels.length

/-! ### Closing levels -/

namespace Leaves

variable {closes : Level → Bool} {following : List Level → Option Line}

theorem suffix (leaves : Leaves h closes following levels agreed events left) :
    left <:+ levels := by
  induction leaves with
  | stop => exact List.suffix_refl _
  | failed => exact List.suffix_cons ..
  | leave _ _ ih => exact ih.trans (List.suffix_cons ..)

theorem isLeave (leaves : Leaves h closes following levels agreed events left) :
    ∀ event ∈ events, event.isLeave = true := by
  induction leaves with
  | stop => exact nofun
  | failed => exact List.forall_mem_singleton.mpr rfl
  | leave _ _ ih => exact List.forall_mem_cons.mpr ⟨rfl, ih⟩

/-- Each event closes one level. -/
theorem length (leaves : Leaves h closes following levels agreed events left) :
    events.length + left.length = levels.length := by
  induction leaves with
  | stop => exact Nat.zero_add _
  | failed => exact Nat.add_comm ..
  | leave _ _ ih =>
    rw [List.length_cons, List.length_cons]
    omega

/-- Nothing happens if the innermost level is not to be closed. -/
theorem eq_of_stays (leaves : Leaves h closes following levels agreed events left)
    (stays : ∀ level ∈ levels.head?, closes level = false) : events = [] ∧ left = levels := by
  cases leaves with
  | stop => exact ⟨rfl, rfl⟩
  | failed closed => exact absurd (stays _ rfl) (by simp [closed])
  | leave closed => exact absurd (stays _ rfl) (by simp [closed])

/-- All levels are closed if all are to be closed and the handler agrees to it. -/
theorem eq_nil_of_agreed
    (leaves : Leaves h (fun _ => true) following levels agreed events left)
    (agrees : agreed = true) : left = [] := by
  induction leaves with
  | @stop levels stays =>
    cases levels with
    | nil => rfl
    | cons level => exact absurd (stays level rfl) nofun
  | failed => cases agrees
  | leave _ _ ih => exact ih agrees

end Leaves

theorem stays_of_innermostWidth_le (narrow : Level.innermostWidth levels ≤ line.width) :
    ∀ level ∈ levels.head?, decide (line.width < level.width) = false := by
  intro level inside
  obtain ⟨outer, rfl⟩ := List.head?_eq_some_iff.mp inside
  exact decide_eq_false (Nat.not_lt.mpr narrow)

theorem following_eq_some_iff :
    following line outer = some next ↔ Level.innermostWidth outer = line.width ∧ line = next := by
  rw [following]
  split <;> simp_all

/-- There is a level of the innermost width among all levels. -/
theorem exists_mem_innermostWidth (outer : List Level) :
    ∃ level ∈ outer ++ [(⟨0, false⟩ : Level)], level.width = Level.innermostWidth outer := by
  cases outer with
  | nil => exact ⟨_, .head _, rfl⟩
  | cons level outer => exact ⟨level, .head _, rfl⟩

/-- Only behind the last level that is closed a line is seen, and there is then a level of the
line's width around that level. -/
theorem Leaves.eq_nil_of_leave_some {front back : List Event}
    (leaves : Leaves h (line.width < ·.width) (following line) levels agreed events left)
    (split : events = front ++ .leave (some next) :: back) :
    back = [] ∧ next = line ∧
      ∃ level ∈ (levels ++ [(⟨0, false⟩ : Level)]).tail, level.width = line.width := by
  induction leaves generalizing front with
  | stop => simp at split
  | @failed level outer _ _ =>
    obtain ⟨event, last⟩ : following line outer = some next ∧ back = [] := by
      cases front <;> simp_all
    obtain ⟨same, rfl⟩ := following_eq_some_iff.mp event
    exact ⟨last, rfl, same ▸ exists_mem_innermostWidth outer⟩
  | @leave level outer _ _ _ _ rest ih =>
    cases front with
    | nil =>
      obtain ⟨event, rfl⟩ : following line outer = some next ∧ _ = back := by simpa using split
      obtain ⟨same, rfl⟩ := following_eq_some_iff.mp event
      have ended := rest.eq_of_stays (stays_of_innermostWidth_le (Nat.le_of_eq same))
      exact ⟨ended.1, rfl, same ▸ exists_mem_innermostWidth outer⟩
    | cons event front =>
      obtain ⟨_, split⟩ := List.cons_eq_cons.mp split
      obtain ⟨last, own, level, inside, same⟩ := ih split
      exact ⟨last, own, level, List.mem_of_mem_tail inside, same⟩

/-- A dedent that ends at a level of the line's width is told of with the line. -/
theorem Leaves.leave_mem
    (leaves : Leaves h (line.width < ·.width) (following line) levels agreed events left)
    (wider : line.width < Level.innermostWidth levels)
    (same : Level.innermostWidth left = line.width) : .leave (some line) ∈ events := by
  induction leaves with
  | stop => omega
  | failed =>
    rw [following, if_pos same]
    exact .head _
  | @leave level outer _ _ _ _ rest ih =>
    by_cases wider : line.width < Level.innermostWidth outer
    · exact .tail _ (ih wider same)
    · obtain ⟨rfl, rfl⟩ := rest.eq_of_stays (stays_of_innermostWidth_le (Nat.not_lt.mp wider))
      rw [following, if_pos same]
      exact .head _

/-! ### Soundness of the stack -/

/-- No level is wider than the innermost one. -/
theorem width_le_innermostWidth (increasing : (levels ++ [(⟨0, false⟩ : Level)]).Pairwise
      fun inner outer => outer.width < inner.width) :
    ∀ level ∈ levels ++ [(⟨0, false⟩ : Level)], level.width ≤ Level.innermostWidth levels := by
  cases levels with
  | nil => exact List.forall_mem_singleton.mpr (Nat.le_refl 0)
  | cons level outer =>
    have around := (List.pairwise_cons.mp increasing).1
    refine List.forall_mem_cons.mpr ⟨Nat.le_refl _, fun level inside => ?_⟩
    exact Nat.le_of_lt (around level inside)

theorem sound_start : Sound {} [] := ⟨by simp [stack], nofun, rfl⟩

namespace Sound

theorem of_levels (sound : t.Sound log) (same : t'.levels = t.levels) : t'.Sound log := by
  obtain ⟨increasing, verbatim, counted⟩ := sound
  rw [stack, ← same] at increasing verbatim
  rw [← same] at counted
  exact ⟨increasing, verbatim, counted⟩

/-- The innermost level is wider than those around it. -/
theorem lt_width (sound : t.Sound log) : ∀ level ∈ t.stack.tail, level.width < t.width := by
  obtain ⟨levels, c?⟩ := t
  cases levels with
  | nil => exact nofun
  | cons level outer => exact (List.pairwise_cons.mp sound.increasing).1

/-- Below a verbatim level is what is deeper than the level around it, and so than all others. -/
theorem base_spec (sound : t.Sound log) {base : Nat} (opened : t.verbatimBase? = some base) :
    base < t.width ∧ ∀ level ∈ t.stack.tail, level.width ≤ base := by
  obtain ⟨levels, c?⟩ := t
  cases levels with
  | nil => cases opened
  | cons level outer =>
    simp only [verbatimBase?, Option.ite_none_right_eq_some, Option.some.injEq] at opened
    obtain ⟨_, rfl⟩ := opened
    obtain ⟨around, inside, width⟩ := exists_mem_innermostWidth outer
    exact ⟨width ▸ sound.lt_width around inside,
      width_le_innermostWidth (List.pairwise_cons.mp sound.increasing).2⟩

/-- A line that is deeper than a verbatim level belongs to its body. -/
theorem plain_of_deeper (sound : t.Sound log) (admits : t.Admits line)
    (deeper : t.width < line.width) : ∀ level ∈ t.stack, level.verbatim = false := by
  obtain ⟨levels, c?⟩ := t
  cases levels with
  | nil => exact List.forall_mem_singleton.mpr rfl
  | cons level outer =>
    refine List.forall_mem_cons.mpr ⟨Bool.eq_false_iff.mpr fun verbatim => ?_, sound.verbatim⟩
    have base : (⟨level :: outer, c?⟩ : Tracker).verbatimBase? =
        some (Level.innermostWidth outer) := if_pos verbatim
    have narrower := (sound.base_spec base).1
    have outside := admits.notBody
    rw [takesVerbatim, base, Option.any_some, decide_eq_false_iff_not] at outside
    omega

theorem entered (sound : t.Sound log) (admits : t.Admits line) (deeper : t.width < line.width)
    (verbatim : Bool) :
    ((t.settle line).entered line.width verbatim).Sound (log ++ [.enter line]) where
  increasing := by
    refine List.pairwise_cons.mpr ⟨fun level inside => ?_, sound.increasing⟩
    have width := width_le_innermostWidth sound.increasing level inside
    exact Nat.lt_of_le_of_lt width deeper
  verbatim := sound.plain_of_deeper admits deeper
  counted := by
    have before := sound.counted
    rw [List.countP_append, List.countP_append, before]
    simp only [List.countP_singleton, Event.isEnter, Event.isLeave, levels_entered, levels_settle,
      List.length_cons]
    rfl

theorem leaves {closes : Level → Bool} {following : List Level → Option Line}
    (sound : t.Sound log) (leaves : Leaves h closes following t.levels agreed events left)
    (same : t'.levels = left) : t'.Sound (log ++ events) := by
  have stays : t'.stack <:+ t.stack := by
    obtain ⟨closed, split⟩ := leaves.suffix
    exact ⟨closed, by rw [stack, stack, same, ← List.append_assoc, split]⟩
  refine ⟨sound.increasing.sublist stays.sublist, fun level inside => ?_, ?_⟩
  · exact sound.verbatim level (stays.sublist.tail.mem inside)
  · have entered : events.countP Event.isEnter = 0 := by
      refine List.countP_eq_zero.mpr fun event inside => ?_
      have closed := leaves.isLeave event inside
      cases event <;> simp_all [Event.isEnter, Event.isLeave]
    have left := List.countP_eq_length.mpr leaves.isLeave
    have length := leaves.length
    have before := sound.counted
    rw [List.countP_append, List.countP_append, same]
    omega

/-- Processing a line keeps the stack in order, whatever becomes of the call. -/
theorem move {role? : Option LineRole} (sound : t.Sound log)
    (move : Move h line t role? events t') : t'.Sound (log ++ events) := by
  cases move with
  | blank | body => rwa [List.append_nil]
  | mixed | level =>
    rw [List.append_nil]
    exact sound.of_levels rfl
  | deeper admits deeper | unopened admits deeper => exact sound.entered admits deeper _
  | shallower _ _ leaves | unclosed _ _ leaves => exact sound.leaves leaves rfl

end Sound

/-! ### Calls -/

/-- A record changes nothing in what a call does, and the stack stays in order. -/
theorem after_recording (h : Handler σ ε) (sound : t.Sound log) (s : σ) (call : Call) :
    ∃ t' s' log', call.after h (t, s) = (t', s') ∧
      call.after h.recording (t, s, log) = (t', s', log') ∧ t'.Sound log' := by
  cases call with
  | process line =>
    obtain ⟨events, run, move⟩ := process_recording h line t s log
    refine ⟨(stateOf (process h line (t, s))).1, (stateOf (process h line (t, s))).2, _, rfl, ?_,
      sound.move move⟩
    simp only [Call.after, run, stateOf_recorded]
  | finish =>
    obtain ⟨events, left, s', run, state, leaves⟩ := finish_recording h t s log
    refine ⟨_, s', _, state, ?_, sound.leaves leaves rfl⟩
    simp only [Call.after, run, stateOf_recorded, state]

theorem afterCalls_recording (h : Handler σ ε) (sound : t.Sound log) (s : σ) (calls : List Call) :
    ∃ t' s' log', afterCalls h calls (t, s) = (t', s') ∧
      afterCalls h.recording calls (t, s, log) = (t', s', log') ∧ t'.Sound log' := by
  induction calls generalizing t s log with
  | nil => exact ⟨t, s, log, rfl, rfl, sound⟩
  | cons call calls ih =>
    obtain ⟨t', s', log', plain, told, sound⟩ := after_recording h sound s call
    rw [afterCalls, afterCalls, List.foldl_cons, List.foldl_cons, plain, told]
    exact ih sound s'

/-- A line that turns out to be structural has the width of the innermost level. -/
theorem Move.width_eq (move : Move h line t (some .structural) events t') :
    t'.width = line.width := by
  generalize found : some LineRole.structural = role? at move
  cases move with
  | blank | body | mixed | unopened | unclosed => cases found
  | deeper => rfl
  | level _ same => exact same
  | shallower =>
    rw [eq_comm, Option.ite_none_right_eq_some] at found
    exact found.1

/-- The handler sees a line behind a level only at the end of a dedent to an open level. -/
theorem Move.eq_nil_of_leave_some {role? : Option LineRole} {front back : List Event}
    (move : Move h line t role? events t')
    (split : events = front ++ .leave (some next) :: back) :
    back = [] ∧ next = line ∧ ∃ level ∈ t.stack.tail, level.width = line.width := by
  cases move with
  | blank | body | mixed | level => simp at split
  | deeper | unopened =>
    have inside : Event.leave (some next) ∈ [Event.enter line] := by simp [split]
    simp at inside
  | shallower _ _ leaves | unclosed _ _ leaves => exact leaves.eq_nil_of_leave_some split

/-- A line that has the width of a level around the innermost one is always seen. -/
theorem Move.leave_mem {role : LineRole} (sound : t.Sound log) (content : line.isBlank = false)
    (around : ∃ level ∈ t.stack.tail, level.width = line.width)
    (move : Move h line t (some role) events t') : .leave (some line) ∈ events := by
  obtain ⟨level, inside, same⟩ := around
  have narrower := sound.lt_width level inside
  generalize found : some role = role? at move
  cases move with
  | blank blank => simp [content] at blank
  | body _ body =>
    -- The levels around a verbatim one are not wider than its base.
    obtain ⟨base, opened, deeper⟩ := (Option.any_eq_true ..).mp body
    have narrow := (sound.base_spec opened).2 level inside
    have deeper := of_decide_eq_true deeper
    omega
  | mixed | unopened | unclosed => cases found
  | deeper | level => omega
  | shallower _ shallower leaves =>
    rw [eq_comm, Option.ite_none_right_eq_some] at found
    exact leaves.leave_mem shallower found.1

/-- Whatever has been asked of a fresh tracker, and whatever the handler has answered, the stack is
in order: its bottom has no width and is not verbatim, levels become wider inwards, and only the
innermost one may be verbatim. The handler has been told of as many openings more than closings as
levels are open. The same goes on to hold in the next call. A line that it finds structural has
the width of the innermost level. The handler sees the line last, behind a level, if a level around
the innermost one has its width. When all levels are closed only the bottom is left. -/
theorem sound_of_calls (h : Handler σ ε) (start : σ) (calls : List Call) :
    ∃ t s log, afterCalls h calls ({}, start) = (t, s) ∧
      afterCalls h.recording calls ({}, start, []) = (t, s, log) ∧
      t.stack.getLast? = some ⟨0, false⟩ ∧ t.Sound log ∧
      (∀ base, t.verbatimBase? = some base → base < t.width) ∧
      (∀ line, ∃ events,
        process h.recording line (t, s, log) = recorded (log ++ events) (process h line (t, s)) ∧
        (∀ t' s', process h line (t, s) = .ok .structural (t', s') → t'.width = line.width) ∧
        (∀ front next back, events = front ++ .leave (some next) :: back →
          back = [] ∧ next = line ∧ ∃ level ∈ t.stack.tail, level.width = line.width) ∧
        (line.isBlank = false → (∃ level ∈ t.stack.tail, level.width = line.width) →
          ∀ role state, process h line (t, s) = .ok role state → .leave (some line) ∈ events)) ∧
      ∀ t' s', finish h (t, s) = .ok () (t', s') → t'.stack = [⟨0, false⟩] := by
  obtain ⟨t, s, log, plain, told, sound⟩ := afterCalls_recording h sound_start start calls
  refine ⟨t, s, log, plain, told, by simp [stack], sound, fun base opened => ?_, fun line => ?_, ?_⟩
  · exact (sound.base_spec opened).1
  · obtain ⟨events, run, move⟩ := process_recording h line t s log
    refine ⟨events, run, fun t' s' ok => ?_, fun _ _ _ split => ?_,
      fun content around role _ ok => ?_⟩
    · rw [ok] at move
      exact move.width_eq
    · exact move.eq_nil_of_leave_some split
    · rw [ok] at move
      exact move.leave_mem sound content around
  · intro t' s' ok
    obtain ⟨events, left, s'', _, state, leaves⟩ := finish_recording h t s log
    rw [ok] at state leaves
    obtain ⟨rfl, rfl⟩ : t' = { t with levels := left } ∧ s' = s'' := Prod.mk.inj state
    rw [stack, leaves.eq_nil_of_agreed rfl]
    rfl

end Tracker

end HamlTemplate
