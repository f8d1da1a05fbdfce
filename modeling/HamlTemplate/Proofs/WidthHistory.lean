import HamlTemplate.Proofs.LevelStack
import Mathlib.Data.Set.Card

/-!
# Levels and the widths of earlier lines

As long as a handler agrees to everything, the open levels can be told from the widths of the lines
before: a width is open exactly if a line had it and none since was less deep. Whether a line is
accepted, and how many levels it closes, is then a matter of the earlier lines alone.
-/

namespace HamlTemplate

/-- The handler agrees to everything and asks for no verbatim level. -/
structure Handler.Lenient {σ ε : Type} (h : Handler σ ε) : Prop where
  enter : ∀ line s, ∃ s', h.enter line s = .ok false s'
  leave : ∀ following s, ∃ s', h.leave following s = .ok () s'

def Handler.agreeing : Handler Unit SourceError where
  enter _ := pure false
  leave _ := pure ()
  reject := id

theorem Handler.lenient_agreeing : Handler.agreeing.Lenient :=
  ⟨fun _ s => ⟨s, rfl⟩, fun _ s => ⟨s, rfl⟩⟩

/-- The width has come at some time, and no smaller one since. -/
def Standing (widths : List Nat) (v : Nat) : Prop :=
  ∃ j, widths[j]? = some v ∧ ∀ k w : Nat, j < k → widths[k]? = some w → v ≤ w

@[simp] theorem not_standing_nil (v : Nat) : ¬Standing [] v := by
  rintro ⟨j, at_j, _⟩
  cases at_j

/-- A width ends all larger ones and stands itself. -/
theorem standing_concat_iff {widths : List Nat} {v w : Nat} :
    Standing (widths ++ [w]) v ↔ v = w ∨ Standing widths v ∧ v ≤ w := by
  have last : (widths ++ [w])[widths.length]? = some w := List.getElem?_concat_length
  constructor
  · rintro ⟨j, at_j, since⟩
    obtain before | same | after := Nat.lt_trichotomy j widths.length
    · refine .inr ⟨⟨j, ?_, fun k u later at_k => ?_⟩, since _ w before last⟩
      · rwa [List.getElem?_append_left before] at at_j
      · have bound := (List.getElem?_eq_some_iff.mp at_k).1
        exact since k u later (by rwa [List.getElem?_append_left bound])
    · rw [same, last] at at_j
      exact .inl (Option.some.inj at_j).symm
    · rw [List.getElem?_eq_none (by simpa using after)] at at_j
      cases at_j
  · rintro (rfl | ⟨⟨j, at_j, since⟩, le⟩)
    · refine ⟨widths.length, last, fun k u later at_k => ?_⟩
      rw [List.getElem?_eq_none (by simpa using later)] at at_k
      cases at_k
    · have before := (List.getElem?_eq_some_iff.mp at_j).1
      refine ⟨j, by rwa [List.getElem?_append_left before], fun k u later at_k => ?_⟩
      by_cases within : k < widths.length
      · rw [List.getElem?_append_left within] at at_k
        exact since k u later at_k
      · obtain rfl : k = widths.length := by
          have bound := (List.getElem?_eq_some_iff.mp at_k).1
          rw [List.length_append, List.length_singleton] at bound
          omega
        rw [last] at at_k
        exact Option.some.inj at_k ▸ le

namespace Tracker

variable {σ ε : Type} {h : Handler σ ε} {start s s' : σ} {line : Line} {lines : List Line}
  {t t' : Tracker} {log events : List Event} {levels left : List Level} {agreed : Bool}

/-- The state in which a fresh tracker has accepted the lines one after the other. None of them is
blank. -/
inductive Accepted (h : Handler σ ε) (start : σ) : List Line → Tracker × σ → Prop
  | none : Accepted h start [] ({}, start)
  | concat {lines : List Line} {line : Line} {state state' : Tracker × σ} {role : LineRole}
      (earlier : Accepted h start lines state) (content : line.isBlank = false)
      (accepted : process h line state = .ok role state') :
      Accepted h start (lines ++ [line]) state'

structure Reflects (t : Tracker) (lines : List Line) : Prop where
  sound : ∃ log, t.Sound log
  plain : ∀ level ∈ t.levels, level.verbatim = false
  standing : ∀ v, v ∈ t.levels.map Level.width ↔ 0 < v ∧ Standing (lines.map Line.width) v
  width : t.width = (lines.map Line.width).getLastD 0
  indentChar? : t.indentChar? = lines.findSome? (·.indent.head?)

/-! ### Levels that become wider inwards -/

private theorem innermostWidth_mem (deep : 0 < Level.innermostWidth levels) :
    Level.innermostWidth levels ∈ levels.map Level.width := by
  cases levels with
  | nil => cases deep
  | cons level outer => exact .head _

/-- The widths of the levels that are not wider than some width. -/
private theorem mem_filter_width_iff {v w : Nat} :
    v ∈ (levels.filter (·.width ≤ w)).map Level.width ↔ v ∈ levels.map Level.width ∧ v ≤ w := by
  simp only [List.mem_map, List.mem_filter, decide_eq_true_eq]
  constructor
  · rintro ⟨level, ⟨inside, narrow⟩, rfl⟩
    exact ⟨⟨level, inside, rfl⟩, narrow⟩
  · rintro ⟨⟨level, inside, rfl⟩, narrow⟩
    exact ⟨level, ⟨inside, narrow⟩, rfl⟩

section Increasing

variable (increasing : (levels ++ [(⟨0, false⟩ : Level)]).Pairwise
  fun inner outer => outer.width < inner.width)
include increasing

private theorem mem_width_le : ∀ level ∈ levels, level.width ≤ Level.innermostWidth levels := by
  intro level inside
  exact width_le_innermostWidth increasing level (List.mem_append_left _ inside)

/-- Of the levels that are not wider than some width, the innermost has that width exactly if it is
the width of a level. -/
theorem innermostWidth_filter_eq_iff {w : Nat} :
    Level.innermostWidth (levels.filter (·.width ≤ w)) = w ↔
      w = 0 ∨ w ∈ levels.map Level.width := by
  have inside := @innermostWidth_mem (levels.filter (·.width ≤ w))
  rw [mem_filter_width_iff] at inside
  constructor
  · intro same
    rw [same] at inside
    by_cases deep : 0 < w
    · exact .inr (inside deep).1
    · exact .inl (by omega)
  · intro known
    have wide : w ≤ Level.innermostWidth (levels.filter (·.width ≤ w)) := by
      obtain rfl | member := known
      · exact Nat.zero_le _
      · have left := mem_filter_width_iff.mpr ⟨member, le_refl w⟩
        obtain ⟨level, kept, width⟩ := List.mem_map.mp left
        calc
          w = level.width := width.symm
          _ ≤ _ := mem_width_le (increasing.sublist (List.filter_sublist.append_right _)) level kept
    by_cases deep : 0 < Level.innermostWidth (levels.filter (·.width ≤ w))
    · exact Nat.le_antisymm (inside deep).2 wide
    · omega

/-- When a handler agrees, exactly the wider levels are closed. -/
theorem Leaves.eq_filter
    (leaves : Leaves h (line.width < ·.width) (following line) levels agreed events left)
    (agrees : agreed = true) : left = levels.filter (·.width ≤ line.width) := by
  induction leaves with
  | @stop levels stays =>
    refine (List.filter_eq_self.mpr fun level inside => decide_eq_true ?_).symm
    have narrow := mem_width_le increasing level inside
    cases levels with
    | nil => cases inside
    | cons innermost outer =>
      have innermost := of_decide_eq_false (stays _ rfl)
      rw [Level.innermostWidth_cons] at narrow
      omega
  | failed => cases agrees
  | @leave level _ _ _ _ closed rest ih =>
    have wider : ¬level.width ≤ line.width := Nat.not_le.mpr (of_decide_eq_true closed)
    rw [List.filter_cons_of_neg (by simpa using wider)]
    exact ih (List.pairwise_cons.mp increasing).2 agrees

theorem Leaves.length_eq_countP
    (leaves : Leaves h (line.width < ·.width) (following line) levels agreed events left)
    (agrees : agreed = true) : events.length = levels.countP (line.width < ·.width) := by
  have length := leaves.length
  have parts := List.length_eq_countP_add_countP (fun level : Level => line.width < level.width)
    (l := levels)
  simp only [decide_eq_true_eq, Nat.not_lt] at parts
  rw [leaves.eq_filter increasing agrees, ← List.countP_eq_length_filter] at length
  omega

end Increasing

theorem Leaves.agreed_of_lenient {closes : Level → Bool} {following : List Level → Option Line}
    (lenient : h.Lenient) (leaves : Leaves h closes following levels agreed events left) :
    agreed = true := by
  induction leaves with
  | stop => rfl
  | failed _ fails =>
    obtain ⟨s, e, s', fails⟩ := fails
    obtain ⟨_, agrees⟩ := lenient.leave _ s
    cases fails.symm.trans agrees
  | leave _ _ ih => exact ih

/-- What a line that is not blank turns out to be, if it is accepted, and what becomes of the
levels, when the handler agrees to everything. -/
inductive Lands (line : Line) (t : Tracker) : Option LineRole → List Event → Tracker → Prop
  /-- A line is refused that is indented with another character than the document. -/
  | mixed (mixed : (t.settle line).mismatch? line ≠ none) : Lands line t none [] (t.settle line)
  /-- A deeper line opens a level. -/
  | deeper (uniform : (t.settle line).mismatch? line = none) (deeper : t.width < line.width) :
      Lands line t (some .structural) [.enter line] ((t.settle line).entered line.width false)
  /-- Any other line closes the levels that are wider. It has to have the width of one that is
  left. -/
  | back {events : List Event} (uniform : (t.settle line).mismatch? line = none)
      (back : line.width ≤ t.width) (leave : ∀ event ∈ events, event.isLeave = true)
      (closed : events.length = t.levels.countP (line.width < ·.width)) :
      Lands line t
        (if Level.innermostWidth (t.levels.filter (·.width ≤ line.width)) = line.width
          then some .structural else none)
        events { t.settle line with levels := t.levels.filter (·.width ≤ line.width) }

theorem takesVerbatim_of_plain (plain : ∀ level ∈ t.levels, level.verbatim = false)
    (line : Line) : t.takesVerbatim line = false := by
  obtain ⟨levels, c?⟩ := t
  cases levels with
  | nil => rfl
  | cons level outer =>
    have innermost := plain level (.head _)
    simp only [takesVerbatim, verbatimBase?, innermost, Bool.false_eq_true, if_false,
      Option.any_none]

theorem lands_of_move {role? : Option LineRole} (lenient : h.Lenient) (sound : t.Sound log)
    (plain : ∀ level ∈ t.levels, level.verbatim = false) (content : line.isBlank = false)
    (move : Move h line t role? events t') : Lands line t role? events t' := by
  have back {events : List Event} {left : List Level} (admits : t.Admits line)
      (back : line.width ≤ t.width)
      (leaves : Leaves h (line.width < ·.width) (following line) t.levels true events left) :
      Lands line t (if Level.innermostWidth left = line.width then some .structural else none)
        events { t.settle line with levels := left } := by
    obtain rfl := leaves.eq_filter sound.increasing rfl
    exact .back admits.uniform back leaves.isLeave (leaves.length_eq_countP sound.increasing rfl)
  cases move with
  | blank blank => simp [content] at blank
  | body _ inside => simp [takesVerbatim_of_plain plain] at inside
  | mixed _ _ mixed => exact .mixed mixed
  | deeper admits deeper answers =>
    obtain ⟨s, s', answers⟩ := answers
    obtain ⟨_, agrees⟩ := lenient.enter line s
    cases answers.symm.trans agrees
    exact .deeper admits.uniform deeper
  | unopened _ _ fails =>
    obtain ⟨s, e, s', fails⟩ := fails
    obtain ⟨_, agrees⟩ := lenient.enter line s
    cases fails.symm.trans agrees
  | level admits same =>
    have innermost : Level.innermostWidth t.levels = line.width := same
    have stays := stays_of_innermostWidth_le (Nat.le_of_eq innermost)
    have lands := back admits innermost.ge (.stop stays)
    rw [if_pos innermost] at lands
    exact lands
  | shallower admits shallower leaves => exact back admits (Nat.le_of_lt shallower) leaves
  | unclosed _ _ leaves => cases leaves.agreed_of_lenient lenient

/-- A line is accepted if its indentation is made of the document's character and it is deeper than
all levels or as deep as one of them. -/
theorem Lands.accepted_iff {role? : Option LineRole} (sound : t.Sound log)
    (lands : Lands line t role? events t') :
    role? ≠ none ↔ (t.settle line).mismatch? line = none ∧
      (line.width = 0 ∨ t.width < line.width ∨ line.width ∈ t.levels.map Level.width) := by
  cases lands with
  | mixed mixed => exact iff_of_false (absurd rfl) fun h => mixed h.1
  | deeper uniform deeper => simp [uniform, deeper]
  | back uniform back =>
    have known := innermostWidth_filter_eq_iff sound.increasing (w := line.width)
    simp only [ne_eq, ite_eq_right_iff, reduceCtorEq, imp_false, not_not, known, uniform,
      Nat.not_lt.mpr back, true_and, false_or]

/-- An accepted line opens one level, or it closes those that are wider. -/
theorem Lands.events_spec {role : LineRole} (lands : Lands line t (some role) events t') :
    (t.width < line.width → events = [.enter line]) ∧
      (line.width ≤ t.width → (∀ event ∈ events, event.isLeave = true) ∧
        events.length = t.levels.countP (line.width < ·.width)) := by
  generalize accepted : some role = role? at lands
  cases lands with
  | mixed => cases accepted
  | deeper _ deeper => exact ⟨fun _ => rfl, fun back => absurd deeper (Nat.not_lt.mpr back)⟩
  | back _ back leave closed =>
    exact ⟨fun deeper => absurd deeper (Nat.not_lt.mpr back), fun _ => ⟨leave, closed⟩⟩

/-! ### Levels and history -/

theorem indentChar?_settle (reflects : t.Reflects lines) (line : Line) :
    (t.settle line).indentChar? = (lines ++ [line]).findSome? (·.indent.head?) := by
  rw [settle, reflects.indentChar?, List.findSome?_append, List.findSome?_singleton]

theorem reflects_nil : Reflects {} [] where
  sound := ⟨[], sound_start⟩
  plain := nofun
  standing v := by simp
  width := rfl
  indentChar? := rfl

/-- The levels reflect the lines when one more has been accepted. -/
theorem Reflects.concat {role : LineRole} (reflects : t.Reflects lines)
    (lands : Lands line t (some role) events t') (sound : ∃ log, t'.Sound log) :
    t'.Reflects (lines ++ [line]) := by
  obtain ⟨log, before⟩ := reflects.sound
  have known := reflects.standing
  generalize accepted : some role = role? at lands
  cases lands with
  | mixed => cases accepted
  | deeper _ deeper =>
    have narrower : ∀ v ∈ t.levels.map Level.width, v < line.width :=
      List.forall_mem_map.mpr fun level inside =>
        Nat.lt_of_le_of_lt (mem_width_le before.increasing level inside) deeper
    refine ⟨sound, List.forall_mem_cons.mpr ⟨rfl, reflects.plain⟩, fun v => ?_, by simp,
      indentChar?_settle reflects line⟩
    simp only [levels_entered, levels_settle, List.map_cons, List.mem_cons, List.map_append,
      List.map_nil, standing_concat_iff]
    constructor
    · rintro (rfl | inside)
      · exact ⟨by omega, .inl rfl⟩
      · have stands := (known v).mp inside
        exact ⟨stands.1, .inr ⟨stands.2, Nat.le_of_lt (narrower v inside)⟩⟩
    · rintro ⟨deep, rfl | ⟨stands, _⟩⟩
      · exact .inl rfl
      · exact .inr ((known v).mpr ⟨deep, stands⟩)
  | back =>
    rw [eq_comm, Option.ite_none_right_eq_some] at accepted
    obtain ⟨same, _⟩ := accepted
    refine ⟨sound, fun level inside => reflects.plain level (List.mem_filter.mp inside).1,
      fun v => ?_, ?_, indentChar?_settle reflects line⟩
    · simp only [mem_filter_width_iff, List.map_append, List.map_cons, List.map_nil,
        standing_concat_iff]
      constructor
      · rintro ⟨inside, narrow⟩
        have stands := (known v).mp inside
        exact ⟨stands.1, .inr ⟨stands.2, narrow⟩⟩
      · rintro ⟨deep, rfl | ⟨stands, narrow⟩⟩
        · have known := (innermostWidth_filter_eq_iff before.increasing).mp same
          exact ⟨known.resolve_left (by omega), le_refl _⟩
        · exact ⟨(known v).mpr ⟨deep, stands⟩, narrow⟩
    · rw [List.map_append, List.map_singleton, List.getLastD_concat]
      exact same

/-- A line keeps to the document's character if that is the first one of the first line that is
indented. -/
theorem Reflects.mismatch?_eq_none_iff (reflects : t.Reflects lines) :
    (t.settle line).mismatch? line = none ↔
      ∀ c ∈ line.indent, (lines ++ [line]).findSome? (·.indent.head?) = some c := by
  rw [mismatch?, Option.filter_eq_none_iff, ← indentChar?_settle reflects line]
  simp only [Bool.not_eq_true', Bool.not_eq_false, List.all_eq_true, beq_iff_eq]
  constructor
  · intro uniform c inside
    -- The line is indented, so the document has its character at this line at the latest.
    have indented : (t.settle line).indentChar? ≠ none := by
      rw [settle, ne_eq, Option.or_eq_none_iff, List.head?_eq_none_iff]
      exact fun h => List.ne_nil_of_mem inside h.2
    obtain ⟨d, settled⟩ := Option.ne_none_iff_exists'.mp indented
    rw [settled, uniform d settled c inside]
  · intro uniform d settled c inside
    have same := uniform c inside
    rw [settled] at same
    exact (Option.some.inj same).symm

/-- The levels that a line closes are told by the widths of the lines before. -/
theorem Reflects.ncard_standing (reflects : t.Reflects lines) (w : Nat) :
    Set.ncard {v | w < v ∧ Standing (lines.map Line.width) v} =
      t.levels.countP (w < ·.width) := by
  obtain ⟨log, sound⟩ := reflects.sound
  have widths : {v | w < v ∧ Standing (lines.map Line.width) v} =
      (((t.levels.map Level.width).filter (w < ·)).toFinset : Set Nat) := by
    ext v
    have known := reflects.standing v
    simp only [Set.mem_ofPred_eq, Finset.mem_coe, List.mem_toFinset, List.mem_filter, known,
      decide_eq_true_eq]
    constructor
    · rintro ⟨wider, stands⟩
      exact ⟨⟨by omega, stands⟩, wider⟩
    · rintro ⟨⟨_, stands⟩, wider⟩
      exact ⟨wider, stands⟩
  have distinct : ((t.levels.map Level.width).filter (w < ·)).Nodup := by
    apply List.Nodup.filter
    have increasing := (List.pairwise_append.mp sound.increasing).1
    exact List.pairwise_map.mpr (increasing.imp fun narrower => Nat.ne_of_gt narrower)
  rw [widths, Set.ncard_coe_finset, List.toFinset_card_of_nodup distinct,
    ← List.countP_eq_length_filter, List.countP_map]
  rfl

theorem Accepted.reflects {state : Tracker × σ} (lenient : h.Lenient)
    (accepted : Accepted h start lines state) : state.1.Reflects lines := by
  induction accepted with
  | none => exact reflects_nil
  | @concat lines line state state' role _ content run ih =>
    obtain ⟨t, s⟩ := state
    obtain ⟨log, sound⟩ := ih.sound
    obtain ⟨events, _, move⟩ := process_recording h line t s log
    rw [run] at move
    have lands := lands_of_move lenient sound ih.plain content move
    exact ih.concat lands ⟨_, sound.move move⟩

theorem valueOf?_ne_none_iff {α : Type} {r : EStateM.Result ε σ α} :
    valueOf? r ≠ none ↔ ∃ a s, r = .ok a s := by
  cases r <;> simp [valueOf?]

/-- After lines that have been accepted, none of them blank, a line is accepted exactly if its
indentation is made of the first character that any line so far was indented with, and it is not
indented at all, or deeper than the line before, or as deep as an earlier line since which none was
less deep. A deeper line opens a level. Any other line closes as many as there are larger widths
that still stand. -/
theorem accepted_iff_of_history (lenient : h.Lenient) (earlier : Accepted h start lines (t, s))
    (content : line.isBlank = false) :
    ((∃ role state, process h line (t, s) = .ok role state) ↔
      (∀ c ∈ line.indent, (lines ++ [line]).findSome? (·.indent.head?) = some c) ∧
        (line.width = 0 ∨ (lines.map Line.width).getLastD 0 < line.width ∨
          Standing (lines.map Line.width) line.width)) ∧
    ∀ role t' s' log, process h line (t, s) = .ok role (t', s') →
      ∃ events, process h.recording line (t, s, log) = .ok role (t', s', log ++ events) ∧
        ((lines.map Line.width).getLastD 0 < line.width → events = [.enter line]) ∧
        (line.width ≤ (lines.map Line.width).getLastD 0 →
          (∀ event ∈ events, event.isLeave = true) ∧
            events.length =
              Set.ncard {v | line.width < v ∧ Standing (lines.map Line.width) v}) := by
  have reflects := earlier.reflects lenient
  obtain ⟨before, sound⟩ := reflects.sound
  rw [← reflects.width]
  constructor
  · obtain ⟨events, _, move⟩ := process_recording h line t s before
    have known := reflects.standing line.width
    have lands := lands_of_move lenient sound reflects.plain content move
    rw [← valueOf?_ne_none_iff, lands.accepted_iff sound, reflects.mismatch?_eq_none_iff, known]
    refine and_congr_right fun _ => ?_
    by_cases deep : 0 < line.width
    · simp only [deep, true_and]
    · simp only [Nat.eq_zero_of_not_pos deep, true_or]
  · intro role t' s' log ok
    obtain ⟨events, run, move⟩ := process_recording h line t s log
    rw [ok] at run move
    have told := (lands_of_move lenient sound reflects.plain content move).events_spec
    rw [← reflects.ncard_standing] at told
    exact ⟨events, run, told⟩

/-- Of three open levels, a line that is as deep as the first closes two. -/
theorem accepted_iff_of_history_dedent :
    Accepted .agreeing () [⟨"  ".toList, ['a'], 1, 1⟩, ⟨"    ".toList, ['b'], 2, 1⟩,
        ⟨"      ".toList, ['c'], 3, 1⟩]
      (⟨[⟨6, false⟩, ⟨4, false⟩, ⟨2, false⟩], some ' '⟩, ()) ∧
    Standing [2, 4, 6] 2 ∧ Set.ncard {v | 2 < v ∧ Standing [2, 4, 6] v} = 2 := by
  have accepted : Accepted .agreeing () [⟨"  ".toList, ['a'], 1, 1⟩, ⟨"    ".toList, ['b'], 2, 1⟩,
        ⟨"      ".toList, ['c'], 3, 1⟩]
      (⟨[⟨6, false⟩, ⟨4, false⟩, ⟨2, false⟩], some ' '⟩, ()) :=
    .concat (.concat (.concat .none rfl rfl) rfl rfl) rfl rfl
  have content : Line.isBlank ⟨"  ".toList, ['d'], 4, 1⟩ = false := rfl
  obtain ⟨known, told⟩ := accepted_iff_of_history Handler.lenient_agreeing accepted content
  have run : process Handler.agreeing.recording ⟨"  ".toList, ['d'], 4, 1⟩
      (⟨[⟨6, false⟩, ⟨4, false⟩, ⟨2, false⟩], some ' '⟩, (), []) =
        .ok .structural (⟨[⟨2, false⟩], some ' '⟩, (),
          [.leave none, .leave (some ⟨"  ".toList, ['d'], 4, 1⟩)]) := rfl
  obtain ⟨events, run', _, closed⟩ := told .structural ⟨[⟨2, false⟩], some ' '⟩ () [] rfl
  obtain ⟨_, width | deeper | stands⟩ := known.mp ⟨_, _, rfl⟩
  · cases width
  · exact absurd deeper (by decide)
  · cases run.symm.trans run'
    exact ⟨accepted, stands, (closed (by decide)).2.symm⟩

end Tracker

end HamlTemplate
