import HamlTemplate.Proofs.Beginnings
import HamlTemplate.Proofs.Lockstep
import HamlTemplate.Proofs.ParallelRuns
import HamlTemplate.Proofs.PhysicalLines

/-!
# Sources that go on

What is wrong with a source is wrong with every source that begins with it, unless the error is that
the source ends too early. The parse of the longer source runs in parallel with that of the shorter
one, up to the end of the latter. A filter block that is open there and whose filter is unknown can
only be ended by the error that the shorter source has met.
-/

namespace HamlTemplate

/-- What is wrong is that the source ends inside a construct. -/
def Fault.isPremature : Fault → Bool
  | unterminatedCode | unmatchedAttributes => true
  | _ => false

/-- The error that a longer source meets too. -/
def SourceError.settled? (e : SourceError) : Option SourceError :=
  if e.fault.isPremature then none else some e

namespace Cursor

/-- The second position has more lines behind those of the first, and the last of these is not
piped, so that it is not joined with what follows. -/
structure Extends (more : List Text) (c c' : Cursor) : Prop where
  pending : c'.pending = c.pending ++ more
  consumed : c'.consumed = c.consumed
  unpiped : ∀ raw ∈ c.pending.getLast?, raw.lineContent.isPiped = false

variable {more lines : List Text} {c c' after : Cursor} {line : Line}

theorem Extends.skip (h : Extends more c c') {k : Nat} (bound : k ≤ c.pending.length) :
    Extends more (c.skip k) (c'.skip k) where
  pending := by
    rw [pending_skip, pending_skip, h.pending, List.drop_append_of_le_length bound]
  consumed := by rw [consumed_skip, consumed_skip, h.consumed]
  unpiped := by
    rw [pending_skip, List.getLast?_drop]
    split
    · nofun
    · exact h.unpiped

/-- The piped lines at the front end before the last line if that one is not piped. -/
private theorem pipedRun_append (some : lines ≠ [])
    (unpiped : ∀ raw ∈ lines.getLast?, raw.lineContent.isPiped = false) (more : List Text) :
    pipedRun (lines ++ more) = pipedRun lines := by
  induction lines with
  | nil => exact absurd rfl some
  | cons raw rest ih =>
    cases rest with
    | nil =>
      have last := unpiped raw rfl
      simp [pipedRun, last]
    | cons next rest =>
      rw [List.getLast?_cons_cons] at unpiped
      have later := ih (List.cons_ne_nil _ _) unpiped
      simp only [pipedRun, List.cons_append, List.takeWhile_cons] at later ⊢
      split
      · rw [later]
      · rfl

theorem Extends.takeLine? (h : Extends more c c') (taken : c.takeLine? = some (line, after)) :
    c'.takeLine? = some (line, c'.skip line.span) := by
  cases pending : c.pending with
  | nil => simp [Cursor.takeLine?, pending] at taken
  | cons raw rest =>
    have pending' : c'.pending = raw :: (rest ++ more) := by
      rw [h.pending, pending, List.cons_append]
    have run : pipedRun (raw :: (rest ++ more)) = pipedRun (raw :: rest) :=
      pipedRun_append (List.cons_ne_nil raw rest) (pending ▸ h.unpiped) more
    simp only [Cursor.takeLine?, pending, pending', run, h.consumed] at taken ⊢
    split at taken <;> cases taken <;> simp_all

/-- A line that can be read is read in the longer source too. -/
theorem Extends.takeWithin? {base? : Option Nat} (h : Extends more c c')
    (taken : c.takeWithin? base? = some (line, after)) :
    c'.takeWithin? base? = some (line, c'.skip line.span) := by
  cases base? with
  | none => exact h.takeLine? taken
  | some base =>
    simp only [Cursor.takeWithin?, takeBodyLine?] at taken ⊢
    cases pending : c.pending with
    | nil => simp [pending] at taken
    | cons raw rest =>
      rw [h.pending, pending, List.cons_append]
      rw [pending] at taken
      simp only at taken ⊢
      split at taken
      · rename_i body
        cases taken
        rw [if_pos body, h.consumed]
      · rename_i body
        rw [if_neg body]
        exact h.takeLine? taken

/-- What is gathered before the end of the source is gathered in the longer source too. -/
private theorem gatherFrom_append {wanted : Text → Bool} {tidy : Text → Text}
    {sofar gathered : Gathered}
    {consumed : Nat} (found : gatherFrom wanted tidy lines consumed sofar = (some gathered, after))
    (more : List Text) :
    gatherFrom wanted tidy (lines ++ more) consumed sofar =
      (some gathered, ⟨after.pending ++ more, after.consumed⟩) := by
  induction lines generalizing consumed sofar with
  | nil =>
    unfold gatherFrom at found ⊢
    split at found
    · rename_i now
      cases found
      rw [if_pos now]
    · cases found
  | cons raw rest ih =>
    rw [List.cons_append]
    unfold gatherFrom at found ⊢
    split at found
    · rename_i now
      cases found
      rw [if_pos now]
      rfl
    · rename_i later
      rw [if_neg later]
      exact ih found

/-- Positions in a source and in a longer one run in parallel as long as no error of the first is
that it ends too early. -/
theorem parallelRuns_extends (more : List Text) :
    ParallelRuns (Extends more) Eq SourceError.settled? 0 where
  consumed _ _ h := h.consumed
  answers e := by
    unfold SourceError.settled?
    split
    · exact .inl rfl
    · exact .inr rfl
  gather wanted tidy fault gathers text c c' h := by
    have position := gatherFrom_follows wanted tidy c.pending c.consumed ⟨text, 1⟩
    rw [Reading.gather, Reading.gather, h.pending, h.consumed]
    cases gathered : gatherFrom wanted tidy c.pending c.consumed ⟨text, 1⟩ with
    | mk gathered? after =>
      rw [gathered] at position
      cases gathered? with
      | none =>
        refine .waived ?_
        cases gathers <;> rfl
      | some whole =>
        rw [gatherFrom_append gathered more]
        refine .ok ⟨rfl, rfl, ?_⟩
        obtain ⟨k, bound, rfl⟩ : after.Follows c := position
        exact (h.skip bound).unpiped
  takes c c' base? line after h taken := by
    obtain ⟨moved, _, bound, _⟩ := takeWithin?_eq_some taken
    refine ⟨line.alike_shift 0, c'.skip line.span, h.takeWithin? taken, ?_⟩
    rw [moved]
    exact h.skip bound

/-- The positions before the first lines of a source and of a longer one. -/
theorem extends_start {source : Text} (ends : source.EndsLine)
    (unpiped : ∀ raw ∈ source.physicalLines.getLast?, raw.lineContent.isPiped = false)
    (more : Text) : Extends more.physicalLines (start source) (start (source ++ more)) where
  pending := Text.physicalLines_append ends more
  consumed := rfl
  unpiped := unpiped

end Cursor

namespace FilterBlock

variable {block : FilterBlock} {registry : Registry}

theorem finish_of_unknown (unknown : registry.lookup? block.name = none) :
    block.finish registry = .error ⟨.unknownFilter block.name, block.line⟩ := by
  simp [finish, Registry.compile?, unknown]

theorem finish_eq_error {e : SourceError} (h : block.finish registry = .error e) :
    registry.lookup? block.name = none ∧ e = ⟨.unknownFilter block.name, block.line⟩ := by
  simp only [finish, Registry.compile?] at h
  cases found : registry.lookup? block.name with
  | none =>
    rw [found] at h
    cases h
    exact ⟨rfl, rfl⟩
  | some filter =>
    rw [found] at h
    cases h

end FilterBlock

namespace ParseState

variable {registry : Registry} {source : Text} {s t : ParseState} {block : FilterBlock}

/-- The only error at the end of a source is that the filter of its last block is unknown. -/
theorem conclude_eq_error {e : SourceError} (h : s.conclude registry = .error e) :
    ∃ block, s.collector = some block ∧ registry.lookup? block.name = none ∧
      e = ⟨.unknownFilter block.name, block.line⟩ := by
  cases collecting : s.collector with
  | none =>
    rw [conclude_of_idle collecting] at h
    cases h
  | some block =>
    rw [conclude_of_collecting collecting] at h
    cases finished : block.finish registry with
    | ok node => simp [finished] at h
    | error e' =>
      rw [finished] at h
      cases h
      exact ⟨block, rfl, FilterBlock.finish_eq_error finished⟩

/-- While a filter block is collected whose filter is unknown, a line is added to it or meets the
error. -/
theorem advance?_of_unknown (lockstep : s.Lockstep) (collecting : s.collector = some block)
    (unknown : registry.lookup? block.name = none)
    {r : EStateM.Result SourceError ParseState Unit} (advanced : s.advance? registry = some r) :
    (∃ line after, r = .ok () after ∧ after.collector = some (block.push line)) ∨
      ∃ after, r = .error ⟨.unknownFilter block.name, block.line⟩ after := by
  obtain ⟨⟨line, behind⟩, taken, rfl⟩ := Option.map_eq_some_iff.mp advanced
  have collecting' : behind.collector = some block := by
    rw [(takeLine?_eq_some taken).2]
    exact collecting
  have outside := (lockstep.takeLine? taken).outside_of_collecting collecting'
  simp only [Parsing.acceptLine_eq]
  cases ends : block.endsAt line with
  | false =>
    rw [Parsing.offerLine_of_within collecting' outside ends]
    exact .inl ⟨line, _, rfl, rfl⟩
  | true =>
    rw [Parsing.offerLine_of_ends collecting' outside ends, FilterBlock.finish_of_unknown unknown]
    exact .inr ⟨_, rfl⟩

/-- Nothing but the error comes of a filter block whose filter is unknown. -/
theorem readAll_of_unknown (lockstep : s.Lockstep) (collecting : s.collector = some block)
    (unknown : registry.lookup? block.name = none) :
    s.readAll registry = .error ⟨.unknownFilter block.name, block.line⟩ := by
  fun_induction readAll registry s generalizing block with
  | case1 s none =>
    rw [conclude_of_collecting collecting, FilterBlock.finish_of_unknown unknown]
  | case2 s after advanced ih =>
    obtain ⟨line, after', same, pushed⟩ | ⟨after', same⟩ :=
      advance?_of_unknown lockstep collecting unknown advanced
    · cases same
      have error := ih (lockstep.advance? advanced) pushed unknown
      exact error
    · cases same
  | case3 s e after failed =>
    obtain ⟨line, after', same, pushed⟩ | ⟨after', same⟩ :=
      advance?_of_unknown lockstep collecting unknown failed
    · cases same
    · cases same
      rfl

/-- A filter block that is being collected was begun by a line with its name. -/
theorem exists_begun (reached : Reached registry source s) (collecting : s.collector = some block) :
    ∃ earlier line behind, Reached registry source earlier ∧
      earlier.takeLine? = some (line, behind) ∧ line.text = ':' :: block.name ∧
      line.number = block.line := by
  obtain ⟨earlier, line, behind, before, taken, started⟩ := exists_started reached collecting
  have name := (FilterBlock.start_eq_ok_name started).1
  obtain ⟨_, number, _⟩ := FilterBlock.start_eq_ok started
  exact ⟨earlier, line, behind, before, taken, name, number.symm⟩

/-- With no line in between and nothing before, a state run in parallel is at another position of
its source and the same otherwise. -/
theorem Shifted.eq_of_zero {K : Cursor → Cursor → Prop} (shifted : s.Shifted K Eq 0 [] t) :
    t = { s with cursor := t.cursor } := by
  obtain ⟨cursor, tracker, outline, collector⟩ := t
  obtain ⟨_, ⟨levels, indents⟩, moved, same⟩ := shifted
  obtain ⟨levels', indentChar?⟩ := tracker
  simp only [Level.stretch_id, List.map_id, Outline.shift_zero] at levels indents moved same
  have unmoved : FilterBlock.shift 0 = id := rfl
  rw [unmoved, Option.map_id, id] at same
  subst levels moved same indents
  rfl

end ParseState

/-- The parse of a longer source meets the error of the shorter one, or runs in parallel with it up
to its end and meets the error of the block that is open there. -/
theorem Document.parse_append_of_error {registry : Registry} {source : Text} {e : SourceError}
    (ends : source.EndsLine)
    (unpiped : ∀ raw ∈ source.physicalLines.getLast?, raw.lineContent.isPiped = false)
    (failed : Document.parse registry source = .error e) (settled : e.fault.isPremature = false)
    (more : Text) : Document.parse registry (source ++ more) = .error e := by
  have parallel := Cursor.parallelRuns_extends more.physicalLines
  have shifted : ParseState.Shifted (Cursor.Extends more.physicalLines) Eq 0 []
      (.start source) (.start (source ++ more)) :=
    ⟨Cursor.extends_start ends unpiped more, ⟨rfl, rfl⟩, rfl, rfl⟩
  have anchored : ParseState.Anchored [] (.start source) := fun _ _ => rfl
  obtain ⟨e', failed', waived | same⟩ | ⟨last, last', reached, _, _, shifted, ended, onward⟩ :=
    ParseState.readAll_parallel parallel .start anchored shifted
  · cases failed.symm.trans failed'
    simp [SourceError.settled?, settled] at waived
  · cases failed.symm.trans failed'
    exact same
  · -- The shorter source ends with its filter block open, which the longer one goes on with.
    obtain ⟨block, collecting, unknown, rfl⟩ :=
      ParseState.conclude_eq_error (ended.symm.trans failed)
    have moved := shifted.eq_of_zero
    have collecting' : last'.collector = some block := by
      rw [moved]
      exact collecting
    have lockstep' : last'.Lockstep := by
      rw [moved]
      exact (ParseState.Lockstep.of_reached reached).moved last'.cursor
    exact onward.trans (ParseState.readAll_of_unknown lockstep' collecting' unknown)

/-- An error stays when more follows the source: an error of a source that ends with a line feed,
and with a line that is not piped, is the error of every source that goes on behind it, unless it is
that the source ends inside a construct. So does the error of a filter block whose filter is
unknown: once the block has begun, it is all that can come of the source, whatever the body is and
whatever follows it, and it is at the line with the name. -/
theorem parse_append_eq_error (registry : Registry) :
    (∀ source e, source.getLast? = some '\n' →
      (∀ raw ∈ (Text.physicalLines source).getLast?, raw.lineContent.isPiped = false) →
      Document.parse registry source = .error e →
      e.fault ≠ .unmatchedAttributes → e.fault ≠ .unterminatedCode →
      ∀ more, Document.parse registry (source ++ more) = .error e) ∧
    (∀ source s block, ParseState.Reached registry source s → s.collector = some block →
      registry.lookup? block.name = none →
      (∃ earlier line behind, ParseState.Reached registry source earlier ∧
        earlier.takeLine? = some (line, behind) ∧ line.text = ':' :: block.name ∧
        line.number = block.line) ∧
      ∃ e, Document.parse registry source = .error e ∧
        e.fault.message = "Filter not found: " ++ String.ofList block.name ∧
        e.line = block.line) := by
  constructor
  · intro source e ends unpiped failed matched terminated more
    have settled : e.fault.isPremature = false := by
      cases fault : e.fault with
      | unmatchedAttributes => exact absurd fault matched
      | unterminatedCode => exact absurd fault terminated
      | _ => rfl
    exact Document.parse_append_of_error (.inr ends) unpiped failed settled more
  · intro source s block reached collecting unknown
    have error := ParseState.readAll_of_unknown (.of_reached reached) collecting unknown
    rw [← reached.parse_eq] at error
    exact ⟨ParseState.exists_begun reached collecting, _, error, rfl, rfl⟩

/-- The filter line is the second of the source, and the line that is put behind it has another
error. -/
theorem parse_append_eq_error_unknown :
    Document.parse .builtins "/\n  :nope\n    x\n".toList =
        .error ⟨.unknownFilter "nope".toList, 2⟩ ∧
      Document.parse .builtins ("/\n  :nope\n    x\n".toList ++ "%\n".toList) =
        .error ⟨.unknownFilter "nope".toList, 2⟩ ∧
      ∃ e, Document.parse .builtins "/\n  :nope\n    x\n".toList = .error e ∧
        e.fault.message = "Filter not found: nope" ∧ e.line = 2 := by
  have failed : Document.parse .builtins "/\n  :nope\n    x\n".toList =
      .error ⟨.unknownFilter "nope".toList, 2⟩ := by
    decide +kernel
  have reached : ParseState.Reached .builtins "/\n  :nope\n    x\n".toList
      ⟨⟨["    x".toList], 2⟩, ⟨[⟨2, false⟩], some ' '⟩, ⟨[], [⟨1, .comment [], []⟩]⟩,
        some ⟨"nope".toList, 2, 2, []⟩⟩ :=
    .next (.next .start rfl) rfl
  have onward := (parse_append_eq_error .builtins).1 _ _ rfl (by decide) failed (by simp) (by simp)
  have begun := (parse_append_eq_error .builtins).2 _ _ _ reached rfl rfl
  exact ⟨failed, onward _, begun.2⟩

end HamlTemplate
