import HamlTemplate.Proofs.Continuation

/-!
# Lines of errors

What is wrong with a line is reported at its first physical line, at its last one, or at the last
line that has been read on from it. Which of them it is depends on the fault alone, and each lies
within what has been read since the line began. That a filter is not registered shows only when its
block is over, and is reported at the line that has begun the block.
-/

namespace HamlTemplate

/-- The error is at the line that its fault is found in, for a logical line that has been read on
from up to a position. -/
def SourceError.LocatedIn (e : SourceError) (line : Line) (after : Cursor) : Prop :=
  match e.fault.site with
  | .firstLine => e.line = line.number
  | .lastLine => e.line = line.lastNumber
  | .content => e.line = after.consumed
  | .block => False

theorem SourceError.LocatedIn.site_ne_block {e : SourceError} {line : Line} {after : Cursor}
    (h : e.LocatedIn line after) : e.fault.site ≠ .block := by
  intro block
  rw [LocatedIn, block] at h
  exact h

/-! ### Each action -/

def Reading.FailsInPlace {α : Type} (action : Reading α) : Prop :=
  ∀ c e after, action c = .error e after → e.fault.site = .content ∧ e.line = after.consumed

theorem Reading.closed_failsInPlace : Closed fun _ action => FailsInPlace action where
  pure a c e after h := by cases h
  bind first rest c e after h := by
    obtain failed | ⟨a, m, _, failed⟩ := bind_eq_error_iff.mp h
    · exact first c e after failed
    · exact rest a m e after failed
  fail fault content c e after h := by
    cases h
    exact ⟨content, rfl⟩
  gather _ _ _ gathers _ c e after h := by
    rw [gather] at h
    split at h
    · cases h
    · cases h
      cases gathers <;> exact ⟨rfl, rfl⟩

/-! ### Lines that are refused -/

def Node.nestingFault? : Node → Option Fault
  | leaf _ l => some (.nestedInLeaf l.kind)
  | block _ head _ => head.nestingFault?

theorem Node.nestingFault?_cases {node : Node} {fault : Fault}
    (h : node.nestingFault? = some fault) :
    fault = .nestedInSelfClosing ∨ (∃ tag, fault = .nestedBesideInline tag) ∨
      fault = .nestedInLeaf node.kind := by
  cases node with
  | leaf line l =>
    cases h
    exact .inr (.inr rfl)
  | block line head nested =>
    cases head with
    | element e =>
      simp only [nestingFault?, Head.nestingFault?] at h
      split at h
      · cases h
      · cases h
        exact .inl rfl
      · cases h
        exact .inr (.inl ⟨_, rfl⟩)
      · cases h
        exact .inr (.inl ⟨_, rfl⟩)
    | _ => cases h

namespace Outline

/-- Why no line can be nested at the innermost level, if so: there is no node there, or the last one
cannot hold any. -/
def nestingFault? (o : Outline) : Option Fault :=
  match o.lastNode? with
  | none => some .indentedStart
  | some node => node.nestingFault?

theorem enter_eq_error_iff {line : Line} {o after : Outline} {e : SourceError} :
    enter line o = .error e after ↔
      after = o ∧ o.nestingFault? = some e.fault ∧ e.line = line.lastNumber := by
  obtain ⟨fault, number⟩ := e
  rw [enter, nestingFault?, lastNode?]
  cases o.siblings with
  | nil => simp [eq_comm, and_comm]
  | cons node elder =>
    cases node with
    | leaf line l => simp [Node.nestingFault?, eq_comm, and_comm]
    | block line head nested =>
      simp only [List.head?_cons, Node.nestingFault?]
      cases head.nestingFault? with
      | none => simp
      | some fault => simp [eq_comm, and_comm]

/-- What cannot be nested is wrong with a line as a whole. -/
theorem site_of_nestingFault? {o : Outline} {fault : Fault} (h : o.nestingFault? = some fault) :
    fault.site = .lastLine := by
  rw [nestingFault?] at h
  split at h
  · cases h
    rfl
  · obtain rfl | ⟨tag, rfl⟩ | rfl := Node.nestingFault?_cases h <;> rfl

end Outline

/-- A line of content is refused because it is deeper than the innermost level and nothing can be
nested there. -/
structure Tracker.Refuses (line : Line) (t : Tracker) (o : Outline) (e : SourceError) : Prop where
  admits : t.Admits line
  deeper : t.width < line.width
  fault : o.nestingFault? = some e.fault
  lastLine : e.line = line.lastNumber

namespace Tracker

variable {line : Line} {o : Outline} {e : SourceError}

/-- No block refuses to be closed. -/
theorem exists_close (c? : Option Char) (closes : Level → Bool)
    (following : List Level → Option Line) (levels : List Level) (o : Outline) :
    ∃ state, close Outline.handler c? closes following levels o = .ok () state := by
  induction levels generalizing o with
  | nil => exact ⟨_, rfl⟩
  | cons level outer ih =>
    rw [close]
    split
    · simp only [Outline.handler, Outline.leave_eq] at ih ⊢
      exact ih _
    · exact ⟨_, rfl⟩

theorem openLevel_eq_error_iff {after : Tracker × Outline} :
    openLevel Outline.handler line (t, o) = .error e after ↔
      after = (t.entered line.width false, o) ∧ o.nestingFault? = some e.fault ∧
        e.line = line.lastNumber := by
  simp only [openLevel, Outline.handler]
  cases entered : Outline.enter line o with
  | ok verbatim o' =>
    refine iff_of_false (by simp) ?_
    rintro ⟨_, fault, number⟩
    cases entered.symm.trans (Outline.enter_eq_error_iff.mpr ⟨rfl, fault, number⟩)
  | error e' o' =>
    obtain ⟨rfl, fault, number⟩ := Outline.enter_eq_error_iff.mp entered
    constructor
    · rintro ⟨⟩
      exact ⟨rfl, fault, number⟩
    · rintro ⟨rfl, fault', number'⟩
      obtain rfl : e = e' := by
        cases e
        cases e'
        simp_all
      rfl

/-- A dedent is refused for the width that it ends at. -/
theorem closeWider_eq_error {t : Tracker} {after : Tracker × Outline}
    (h : closeWider Outline.handler line (t, o) = .error e after) :
    e.fault.site = .firstLine ∧ e.line = line.number := by
  obtain ⟨state, closed⟩ := exists_close t.indentChar? (fun level => line.width < level.width)
    (fun outer => if Level.innermostWidth outer = line.width then some line else none) t.levels o
  simp only [closeWider, closed] at h
  split at h
  · cases h
  · cases h
    exact ⟨rfl, rfl⟩

/-- A line is refused for its own indentation, or because nothing can be nested where it is. -/
theorem process_eq_error {t : Tracker} {after : Tracker × Outline}
    (h : process Outline.handler line (t, o) = .error e after) :
    e.fault.site = .firstLine ∧ e.line = line.number ∨ Refuses line t o e := by
  cases content : line.isBlank with
  | true =>
    rw [process_of_blank content] at h
    cases h
  | false =>
    cases body : t.takesVerbatim line with
    | true =>
      rw [process_of_takesVerbatim content body] at h
      cases h
    | false =>
      cases mixed : (t.settle line).mismatch? line with
      | some expected =>
        rw [takesVerbatim] at body
        simp only [process, content, body, Bool.false_eq_true, if_false, place, mixed] at h
        cases h
        exact .inl ⟨rfl, rfl⟩
      | none =>
        have admits : t.Admits line := ⟨content, body, mixed⟩
        rw [process_of_admits admits] at h
        split at h
        · rename_i deeper
          obtain ⟨_, fault, number⟩ := openLevel_eq_error_iff.mp h
          exact .inr ⟨admits, deeper, fault, number⟩
        · split at h
          · exact .inl (closeWider_eq_error h)
          · cases h

end Tracker

namespace Parsing

variable {registry : Registry} {line : Line} {s t : ParseState} {e : SourceError}

theorem reading_eq_error {α : Type} {action : Reading α} (h : reading action s = .error e t) :
    action s.cursor = .error e t.cursor := by
  rw [reading] at h
  split at h
  · cases h
  · rename_i failed
    cases h
    exact failed

/-- The content of a line fails where it has been read to. The name of a filter is on the line. -/
theorem add_eq_error
    (h : add line.width line.number (Content.ofText line.text) s = .error e t) :
    e.fault.site = .content ∧ e.line = t.cursor.consumed ∨
      e.fault.site = .firstLine ∧ e.line = line.number := by
  cases made : Reading.node? line.number (Content.ofText line.text) with
  | some action =>
    rw [add_of_node? made] at h
    obtain failed | ⟨node, m, _, pushed⟩ := bind_eq_error_iff.mp h
    · exact .inl (Reading.closed_failsInPlace.node? made _ _ _ (reading_eq_error failed))
    · cases pushed
  | none =>
    cases content : Content.ofText line.text with
    | filter text =>
      rw [content] at h
      simp only [add, collecting, Collector.start, FilterBlock.start] at h
      cases named : FilterBlock.name? text with
      | some name =>
        rw [named] at h
        cases h
      | none =>
        rw [named] at h
        cases h
        exact .inr ⟨rfl, rfl⟩
    | _ =>
      rw [content] at made
      cases made

theorem placeLine_eq_error (h : placeLine line s = .error e t) :
    e.fault.site = .content ∧ e.line = t.cursor.consumed ∨
      e.fault.site = .firstLine ∧ e.line = line.number ∨
      Tracker.Refuses line s.tracker s.outline e := by
  rw [placeLine] at h
  obtain failed | ⟨role, m, _, added⟩ := bind_eq_error_iff.mp h
  · rw [following] at failed
    split at failed
    · cases failed
    · rename_i refused
      cases failed
      exact .inr (Tracker.process_eq_error refused)
  · cases role with
    | blank | verbatim => cases added
    | structural =>
      obtain content | first := add_eq_error added
      · exact .inl content
      · exact .inr (.inl first)

theorem locatedIn_of_placeLine (h : placeLine line s = .error e t) :
    e.LocatedIn line t.cursor := by
  rw [SourceError.LocatedIn]
  obtain ⟨site, number⟩ | ⟨site, number⟩ | refuses := placeLine_eq_error h
  · rw [site]
    exact number
  · rw [site]
    exact number
  · rw [Outline.site_of_nestingFault? refuses.fault]
    exact refuses.lastLine

/-- A line that is offered to a filter block fails only by ending it. -/
theorem offerLine_eq_error (h : offerLine registry line s = .error e t) :
    ∃ block, s.collector = some block ∧ registry.lookup? block.name = none ∧
      e = ⟨.unknownFilter block.name, block.line⟩ := by
  have offered := offered registry line s
  rw [h] at offered
  cases offered with
  | unknown collecting _ finished => exact ⟨_, collecting, FilterBlock.finish_eq_error finished⟩

/-- A line cannot be taken in because the filter block that it ends has an unknown filter, or
because of the line itself. -/
theorem acceptLine_eq_error (h : acceptLine registry line s = .error e t) :
    (∃ block, s.collector = some block ∧ registry.lookup? block.name = none ∧
      e = ⟨.unknownFilter block.name, block.line⟩) ∨ e.LocatedIn line t.cursor := by
  rw [acceptLine_eq] at h
  split at h
  · split at h
    · exact .inr (locatedIn_of_placeLine h)
    · cases h
  · rename_i failed
    cases h
    exact .inl (offerLine_eq_error failed)

end Parsing

/-! ### The whole parse -/

namespace ParseState

variable {registry : Registry} {source : Text} {s : ParseState} {e : SourceError}

/-- A parse goes no further than a state: the next line cannot be taken in, or no line is left and
what is open cannot be closed. -/
inductive FailsWith (registry : Registry) (s : ParseState) (e : SourceError) : Prop
  | line {after : ParseState} (failed : s.advance? registry = some (.error e after))
  | finish (ended : s.cursor.pending = []) (failed : s.conclude registry = .error e)

theorem exists_failing_of_readAll (reached : Reached registry source s)
    (h : s.readAll registry = .error e) :
    ∃ last, Reached registry source last ∧ last.FailsWith registry e := by
  fun_induction readAll registry s with
  | case1 s none => exact ⟨s, reached, .finish (advance?_eq_none_iff.mp none) h⟩
  | case2 s after advanced ih => exact ih (reached.next advanced) h
  | case3 s e' after failed =>
    cases h
    exact ⟨s, reached, .line failed⟩

/-- What a parse fails with is the filter of the block that is open, or the line read last. -/
theorem FailsWith.cause (h : s.FailsWith registry e) :
    (∃ block, s.collector = some block ∧ e = ⟨.unknownFilter block.name, block.line⟩) ∨
      ∃ line behind after, s.takeLine? = some (line, behind) ∧
        Parsing.acceptLine registry line behind = .error e after ∧
        e.LocatedIn line after.cursor := by
  cases h with
  | line failed =>
    obtain ⟨⟨line, behind⟩, taken, failed⟩ := Option.map_eq_some_iff.mp failed
    obtain ⟨block, collecting, _, unknown⟩ | located := Parsing.acceptLine_eq_error failed
    · rw [(takeLine?_eq_some taken).2] at collecting
      exact .inl ⟨block, collecting, unknown⟩
    · exact .inr ⟨line, behind, _, taken, failed, located⟩
  | finish ended failed =>
    obtain ⟨block, collecting, _, unknown⟩ := conclude_eq_error failed
    exact .inl ⟨block, collecting, unknown⟩

/-- The error of a line lies within what has been read since the line began. -/
theorem bounds_of_locatedIn {line : Line} {behind after : ParseState}
    (taken : s.takeLine? = some (line, behind))
    (refused : Parsing.acceptLine registry line behind = .error e after)
    (located : e.LocatedIn line after.cursor) :
    line.number = s.cursor.consumed + 1 ∧ line.number ≤ e.line ∧
      e.line ≤ after.cursor.consumed ∧ after.cursor.consumed ≤ s.cursor.lineCount := by
  have read := (takeLine?_eq_some taken).1
  have last := Cursor.lastNumber_of_takeWithin? read
  obtain ⟨_, positive, _, number⟩ := Cursor.takeWithin?_eq_some read
  have onward := Parsing.forward_acceptLine registry line behind
  rw [Cursor.after, refused] at onward
  have further : behind.cursor.consumed ≤ after.cursor.consumed := onward.consumed_le
  have whole : after.cursor.lineCount = s.cursor.lineCount :=
    (onward.trans (takeLine?_number taken).2.2.2).lineCount_eq
  have within : after.cursor.consumed ≤ after.cursor.lineCount := Nat.le_add_right _ _
  have first : line.number ≤ line.lastNumber := by
    rw [Line.lastNumber]
    omega
  refine ⟨number, ?_, ?_, by omega⟩
  all_goals
    rw [SourceError.LocatedIn] at located
    split at located
    · omega
    · omega
    · omega
    · cases located

end ParseState

/-- A filter block that is collected behind a line was collected before, or begins on that line. -/
theorem Parsing.Round.begun {registry : Registry} {line : Line} {s t : ParseState}
    {block : FilterBlock} (round : Round registry line s t)
    (collecting : t.collector = some block) :
    (∃ earlier, s.collector = some earlier ∧ earlier.name = block.name ∧
      earlier.line = block.line) ∨ block.line = line.number := by
  cases round with
  | @collected earlier before =>
    cases collecting
    exact .inl ⟨earlier, before, rfl, rfl⟩
  | passed => exact .inl ⟨block, collecting, rfl, rfl⟩
  | closed _ _ _ _ taken =>
    exact .inr (FilterBlock.start_eq_ok (taken.started rfl collecting).1).2.1
  | taken idle taken =>
    exact .inr (FilterBlock.start_eq_ok (taken.started idle collecting).1).2.1

/-- Unless it is that of the filter block that is open, the error of a parse is behind the position
that the parse goes on from. -/
theorem ParseState.line_of_readAll_eq_error {registry : Registry} {s : ParseState} {e : SourceError}
    (h : s.readAll registry = .error e) :
    (∃ block, s.collector = some block ∧ e = ⟨.unknownFilter block.name, block.line⟩) ∨
      s.cursor.consumed < e.line := by
  fun_induction readAll registry s with
  | case1 s none =>
    obtain ⟨block, collecting, _, same⟩ := conclude_eq_error h
    exact .inl ⟨block, collecting, same⟩
  | case2 s after advanced ih =>
    obtain ⟨line, behind, taken, round⟩ := advance?_eq_ok_iff.mp advanced
    obtain ⟨low, _, _, _⟩ := takeLine?_number taken
    obtain ⟨block, collecting, rfl⟩ | later := ih h
    · obtain ⟨earlier, before, name, number⟩ | begun := round.begun collecting
      · rw [(takeLine?_eq_some taken).2] at before
        exact .inl ⟨earlier, before, by rw [name, number]⟩
      · exact .inr (begun ▸ low)
    · have onward := (advance?_cursor advanced taken).consumed_le
      have read := (takeLine?_number taken).2.1
      exact .inr (by omega)
  | case3 s e' after failed =>
    cases h
    obtain known | ⟨line, behind, after, taken, refused, located⟩ := FailsWith.cause (.line failed)
    · exact .inl known
    · obtain ⟨number, low, _⟩ := bounds_of_locatedIn taken refused located
      exact .inr (by omega)

/-- A text that is put together begins like the first part. -/
private theorem head?_toList_append {start rest : String} {c : Char}
    (h : start.toList.head? = some c) :
    (start ++ rest).toList.head? = some c := by
  rw [String.toList_append, List.head?_append, h, Option.some_or]

/-- The messages for all other faults begin with another letter than the one for an unknown
filter. -/
private theorem Fault.exists_head?_message {fault : Fault} (other : fault.site ≠ .block) :
    ∃ c, c ≠ 'F' ∧ fault.message.toList.head? = some c := by
  cases fault with
  | unknownFilter name => exact absurd rfl other
  | noCode => exact ⟨'N', by decide, by decide +kernel⟩
  | unterminatedCode | unmatchedAttributes => exact ⟨'U', by decide, by decide +kernel⟩
  | selfClosingContent => exact ⟨'S', by decide, by decide +kernel⟩
  | namelessShorthand | invalidDoctype | indentedStart | nestedInSelfClosing =>
    exact ⟨'I', by decide, by decide +kernel⟩
  | invalidElement | mixedIndentation | invalidFilterName =>
    exact ⟨'I', by decide, head?_toList_append (by decide +kernel)⟩
  | unmatchedIndentation | nestedBesideInline | nestedInLeaf =>
    exact ⟨'I', by decide, head?_toList_append (head?_toList_append (by decide +kernel))⟩

/-- A message says that a filter is unknown only if that is what is wrong. -/
theorem Fault.message_eq_iff {fault : Fault} {name : Text} :
    fault.message = "Filter not found: " ++ String.ofList name ↔ fault = .unknownFilter name := by
  constructor
  · intro same
    by_cases other : fault.site = .block
    · cases fault with
      | unknownFilter given =>
        rw [String.ofList_injective ((String.append_right_inj _).mp same)]
      | _ => cases other
    · obtain ⟨c, letter, first⟩ := exists_head?_message other
      rw [same, head?_toList_append (c := 'F') (by decide +kernel)] at first
      cases first
      exact absurd rfl letter
  · rintro rfl
    rfl

/-- The error of a parse is at one of the lines of its source. If it is that a filter is unknown,
its line is the one that has begun the filter block that is open where the parse fails. Otherwise
the line that has been read last cannot be taken in, and the error is not before that line and not
behind the last line read when the parse fails. -/
theorem error_line_of_parse {registry : Registry} {source : Text} {e : SourceError}
    (h : Document.parse registry source = .error e) :
    1 ≤ e.line ∧ e.line ≤ source.physicalLines.length ∧
      (∀ name, e.fault.message = "Filter not found: " ++ String.ofList name →
        ∃ last block earlier line behind, ParseState.Reached registry source last ∧
          last.FailsWith registry e ∧ last.collector = some block ∧ block.name = name ∧
          ParseState.Reached registry source earlier ∧
          earlier.takeLine? = some (line, behind) ∧
          FilterBlock.start line.text line.width line.number = .ok { block with body := [] } ∧
          line.text = ':' :: name ∧ e.line = line.number) ∧
      ((∀ name, e.fault.message ≠ "Filter not found: " ++ String.ofList name) →
        ∃ last line behind after, ParseState.Reached registry source last ∧
          last.takeLine? = some (line, behind) ∧
          Parsing.acceptLine registry line behind = .error e after ∧
          line.number = last.cursor.consumed + 1 ∧
          line.number ≤ e.line ∧ e.line ≤ after.cursor.consumed) := by
  obtain ⟨last, reached, failed⟩ := ParseState.exists_failing_of_readAll .start h
  obtain ⟨block, collecting, rfl⟩ | ⟨line, behind, after, taken, refused, located⟩ := failed.cause
  · obtain ⟨earlier, line, behind, before, taken, started⟩ :=
      ParseState.exists_started reached collecting
    obtain ⟨_, number, _⟩ := FilterBlock.start_eq_ok started
    have begun := (FilterBlock.start_eq_ok_name started).1
    obtain ⟨positive, _, bound, _⟩ := ParseState.takeLine?_number taken
    rw [ParseState.lineCount_of_reached before] at bound
    simp only at number begun
    refine ⟨?_, ?_, ?_, ?_⟩
    · show 1 ≤ block.line
      omega
    · show block.line ≤ _
      omega
    · intro name message
      cases Fault.message_eq_iff.mp message
      exact ⟨last, block, earlier, line, behind, reached, failed, collecting, rfl, before, taken,
        started, begun, number⟩
    · intro other
      exact absurd rfl (other block.name)
  · obtain ⟨number, low, high, within⟩ := ParseState.bounds_of_locatedIn taken refused located
    rw [ParseState.lineCount_of_reached reached] at within
    refine ⟨by omega, by omega, ?_, ?_⟩
    · intro name message
      have unknown := Fault.message_eq_iff.mp message
      exact absurd (congrArg Fault.site unknown) located.site_ne_block
    · intro _
      exact ⟨last, line, behind, after, reached, taken, refused, number, low, high⟩

/-- The filter is named on the second line, and that it is unknown shows on the fourth. A statement
begins on the second line, and the source ends inside it on the third. -/
theorem error_line_of_parse_later :
    Document.parse .builtins "/\n  :nope\n    x\n%p\n".toList =
        .error ⟨.unknownFilter "nope".toList, 2⟩ ∧
      (∃ last block, ParseState.Reached .builtins "/\n  :nope\n    x\n%p\n".toList last ∧
        last.collector = some block ∧ block.name = "nope".toList) ∧
      Document.parse .builtins "%p\n  = f(1,\n    2\n".toList = .error ⟨.unterminatedCode, 3⟩ ∧
      ∃ last line behind after,
        ParseState.Reached .builtins "%p\n  = f(1,\n    2\n".toList last ∧
          last.takeLine? = some (line, behind) ∧
          Parsing.acceptLine .builtins line behind = .error ⟨.unterminatedCode, 3⟩ after ∧
          line.number ≤ 3 ∧ 3 ≤ after.cursor.consumed := by
  have unknown : Document.parse .builtins "/\n  :nope\n    x\n%p\n".toList =
      .error ⟨.unknownFilter "nope".toList, 2⟩ := by
    decide +kernel
  have premature : Document.parse .builtins "%p\n  = f(1,\n    2\n".toList =
      .error ⟨.unterminatedCode, 3⟩ := by
    decide +kernel
  obtain ⟨last, block, _, _, _, reached, _, collecting, name, _⟩ :=
    (error_line_of_parse unknown).2.2.1 _ rfl
  obtain ⟨last', line, behind, after, reached', taken, refused, _, low, high⟩ :=
    (error_line_of_parse premature).2.2.2 fun name same => by
      cases Fault.message_eq_iff.mp same
  exact ⟨unknown, ⟨last, block, reached, collecting, name⟩, premature, last', line, behind, after,
    reached', taken, refused, low, high⟩

end HamlTemplate
