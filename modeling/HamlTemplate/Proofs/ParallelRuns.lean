import HamlTemplate.Proofs.Lockstep
import HamlTemplate.Proofs.Shift

/-!
# Parallel runs

Two parses run in parallel when the second is at the same point as the first, a number of lines
further on, with the nodes of the first renumbered and behind nodes of its own. One round keeps them
in parallel or lets both fail, and so the whole of the first run is matched: it ends in an error
that the second meets too, or at the end of its source, with the second still in parallel.
-/

namespace HamlTemplate

namespace FilterBlock

variable {f : Nat → Nat} {n : Nat} {line : Line}

theorem start_shift (n : Nat) (text : Text) (width line : Nat) :
    start text width (line + n) =
      match start text width line with
      | .ok block => .ok (block.shift n)
      | .error e => .error (e.shift n) := by
  rw [start, start]
  cases name? text <;> rfl

theorem finish_shift {block : FilterBlock} (numbered : f block.line = block.line + n)
    (registry : Registry) :
    (block.shift n).finish registry =
      match block.finish registry with
      | .ok node => .ok (node.renumber f)
      | .error e => .error (e.shift n) := by
  have same : (block.shift n).bodyText = block.bodyText := rfl
  simp only [finish, same]
  have name : (block.shift n).name = block.name := rfl
  rw [name]
  cases registry.compile? block.name block.bodyText with
  | none => rfl
  | some output => exact congrArg (Except.ok ∘ (Node.leaf · _)) numbered.symm

end FilterBlock

/-- The second state is that of the first, `n` lines further on, with the nodes of the first
renumbered and behind other nodes. The relation `K` is on the positions, and `I` on the characters
that the documents are indented with. -/
structure ParseState.Renumbered (K : Cursor → Cursor → Prop)
    (I : Option Char → Option Char → Prop) (f : Nat → Nat) (n : Nat) (before : List Node)
    (s t : ParseState) : Prop where
  cursor : K s.cursor t.cursor
  tracker : Tracker.Tracks id I s.tracker t.tracker
  outline : t.outline = s.outline.renumber f before
  collector : t.collector = s.collector.map (FilterBlock.shift n)
  begun : ∀ block, s.collector = some block → f block.line = block.line + n

/-- The second state is that of the first, `n` lines further on and behind other nodes. The relation
`K` is on the positions, and `I` on the characters that the documents are indented with. -/
structure ParseState.Shifted (K : Cursor → Cursor → Prop) (I : Option Char → Option Char → Prop)
    (n : Nat) (before : List Node) (s t : ParseState) : Prop where
  cursor : K s.cursor t.cursor
  tracker : Tracker.Tracks id I s.tracker t.tracker
  outline : t.outline = s.outline.shift n before
  collector : t.collector = s.collector.map (FilterBlock.shift n)

/-- To be shifted is to be renumbered, with the same difference for each line. -/
theorem ParseState.renumbered_iff_shifted {K : Cursor → Cursor → Prop}
    {I : Option Char → Option Char → Prop} {n : Nat} {before : List Node} {s t : ParseState} :
    s.Renumbered K I (· + n) n before t ↔ s.Shifted K I n before t := by
  constructor
  · rintro ⟨cursor, tracker, outline, collector, -⟩
    exact ⟨cursor, tracker, by rw [outline, Outline.shift_eq_renumber], collector⟩
  · rintro ⟨cursor, tracker, outline, collector⟩
    exact ⟨cursor, tracker, by rw [outline, Outline.shift_eq_renumber], collector,
      fun _ _ => rfl⟩

/-- The next line does not come to the nodes before. -/
def ParseState.Anchored (before : List Node) (s : ParseState) : Prop :=
  s.collector = none → s.outline.Anchored before

/-- Lines behind related positions are renumbered to the lines `n` further on. -/
def Cursor.Renumbers (K : Cursor → Cursor → Prop) (f : Nat → Nat) (n : Nat) : Prop :=
  ∀ c c', K c c' → ∀ number, c.consumed < number → f number = number + n

/-- What related positions have in common, for parses from them to run in parallel: readings agree,
and the next lines are the same but for their numbers. -/
structure ParallelRuns (K : Cursor → Cursor → Prop) (I : Option Char → Option Char → Prop)
    (answer? : SourceError → Option SourceError) (n : Nat) : Prop
    extends Cursor.Parallel K answer? n where
  takes : ∀ c c' base? line after, K c c' → c.takeWithin? base? = some (line, after) →
    line.Alike id I (line.shift n) ∧
      ∃ after', c'.takeWithin? base? = some (line.shift n, after') ∧ K after after'

namespace Parsing

variable {α : Type} {K : Cursor → Cursor → Prop} {I : Option Char → Option Char → Prop}
  {answer? : SourceError → Option SourceError} {f : Nat → Nat} {n : Nat} {before : List Node}
  {s t : ParseState} {registry : Registry} {line : Line}

theorem reading_agree {action : Reading α} (agrees : Reading.Agrees K answer? action)
    (renumbered : s.Renumbered K I f n before t) :
    Agree (ParseState.Renumbered K I f n before) answer? (reading action s) (reading action t) := by
  have read := agrees s.cursor t.cursor renumbered.cursor
  simp only [reading]
  revert read
  generalize action s.cursor = r, action t.cursor = r'
  intro read
  cases read with
  | ok related => exact .ok { renumbered with cursor := related }
  | error answered => exact .error answered
  | waived waived => exact .waived waived

theorem following_agree {action action' : EStateM SourceError (Tracker × Outline) α}
    (followed : Agree (Tracker.Pairs id I fun o o' => o' = o.renumber f before) answer?
      (action (s.tracker, s.outline)) (action' (t.tracker, t.outline)))
    (renumbered : s.Renumbered K I f n before t) :
    Agree (ParseState.Renumbered K I f n before) answer? (following action s)
      (following action' t) := by
  simp only [following]
  revert followed
  generalize action (s.tracker, s.outline) = r, action' (t.tracker, t.outline) = r'
  intro followed
  cases followed with
  | ok related => exact .ok { renumbered with tracker := related.1, outline := related.2 }
  | error answered => exact .error answered
  | waived waived => exact .waived waived

theorem push_agree (node : Node) (renumbered : s.Renumbered K I f n before t) :
    Agree (ParseState.Renumbered K I f n before) answer? (push node s)
      (push (node.renumber f) t) := by
  refine .ok { renumbered with outline := ?_ }
  simp only [renumbered.outline]
  exact Outline.push_renumber f before s.outline node

/-- What a line begins is added alike. -/
theorem add_agree (parallel : Cursor.Parallel K answer? n) (width number : Nat)
    (content : Content) (numbered : f number = number + n)
    (renumbered : s.Renumbered K I f n before t) :
    Agree (ParseState.Renumbered K I f n before) answer? (add width number content s)
      (add width (number + n) content t) := by
  have block : ∀ head s t, s.Renumbered K I f n before t →
      Agree (ParseState.Renumbered K I f n before) answer? (push (.block number head []) s)
        (push (.block (number + n) head []) t) := by
    rw [← numbered]
    exact fun head s t related => push_agree (.block number head []) related
  have leaf : ∀ l, Agree (ParseState.Renumbered K I f n before) answer?
      (push (.leaf number l) s) (push (.leaf (number + n) l) t) := by
    rw [← numbered]
    exact fun l => push_agree (.leaf number l) renumbered
  cases content with
  | element text =>
    exact (reading_agree ((Reading.closed_agrees parallel).element text) renumbered).bind
      fun e => block (.element e)
  | script afterMark =>
    exact (reading_agree ((Reading.closed_agrees parallel).script afterMark) renumbered).bind
      fun code => block (.script code false)
  | silentScript afterMark =>
    exact (reading_agree ((Reading.closed_agrees parallel).script afterMark) renumbered).bind
      fun code => block (.silentScript code false)
  | brokenDoctype => exact reading_agree (Reading.agrees_fail parallel _) renumbered
  | doctype text => exact leaf _
  | comment text => exact block _ s t renumbered
  | hamlComment => exact block _ s t renumbered
  | plain text => exact leaf _
  | filter text =>
    simp only [add, collecting, Collector.start, FilterBlock.start_shift n]
    cases started : FilterBlock.start text width number with
    | ok block =>
      refine .ok { renumbered with collector := rfl, begun := ?_ }
      rintro _ ⟨⟩
      rwa [← (FilterBlock.start_eq_ok started).2.1] at numbered
    | error e => exact Tracker.agree_of_answers (parallel.answers e)

/-- A line is placed alike. -/
theorem placeLine_agree (parallel : Cursor.Parallel K answer? n) (counted : 1 ≤ line.number)
    (numbered : f line.number = line.number + n) (alike : line.Alike id I (line.shift n))
    (anchored : s.outline.Anchored before) (renumbered : s.Renumbered K I f n before t) :
    Agree (ParseState.Renumbered K I f n before) answer? (placeLine line s)
      (placeLine (line.shift n) t) := by
  have enters := Outline.enter_agree (f := f) parallel.answers anchored counted
  rw [← renumbered.outline] at enters
  have processed := Tracker.process_agree strictMono_id rfl
    (Outline.handler_parallel parallel.answers f before line) alike renumbered.tracker
    renumbered.outline enters
  refine (following_agree processed renumbered).bind fun role s t renumbered => ?_
  cases role with
  | blank => exact .ok renumbered
  | verbatim =>
    have moved : (Node.leaf line.number (.text line.text)).renumber f =
        .leaf (line.shift n).number (.text line.text) := by
      rw [Node.renumber_leaf, numbered]
      rfl
    exact moved ▸ push_agree (.leaf line.number (.text line.text)) renumbered
  | structural => exact add_agree parallel line.width line.number _ numbered renumbered

theorem offerLine_agree (registry : Registry) (line : Line)
    (parallel : Cursor.Parallel K answer? n) (anchored : s.Anchored before)
    (renumbered : s.Renumbered K I f n before t) :
    Agree (fun s t => s.Renumbered K I f n before t ∧ s.Anchored before) answer?
      (offerLine registry line s) (offerLine registry (line.shift n) t) := by
  have outside := Outline.inHamlComment_renumber f before s.outline
  rw [← renumbered.outline] at outside
  have collector := renumbered.collector
  have begun := renumbered.begun
  cases collecting : s.collector with
  | none =>
    rw [collecting] at collector
    rw [offerLine_of_idle collecting, offerLine_of_idle collector]
    exact .ok ⟨renumbered, anchored⟩
  | some block =>
    rw [collecting] at collector
    cases inside : s.outline.inHamlComment with
    | true =>
      rw [offerLine_of_inHamlComment inside, offerLine_of_inHamlComment (outside.trans inside)]
      exact .ok ⟨renumbered, anchored⟩
    | false =>
      have outside := outside.trans inside
      have numbered := begun block collecting
      cases ends : block.endsAt line with
      | false =>
        rw [offerLine_of_within collecting inside ends,
          offerLine_of_within collector outside (by exact ends)]
        refine .ok ⟨{ renumbered with collector := rfl, begun := ?_ }, ?_⟩
        · rintro _ ⟨⟩
          exact numbered
        · intro idle
          cases idle
      | true =>
        rw [offerLine_of_ends collecting inside ends,
          offerLine_of_ends collector outside (by exact ends), FilterBlock.finish_shift numbered]
        cases block.finish registry with
        | error e => exact Tracker.agree_of_answers (parallel.answers e)
        | ok node =>
          refine .ok ⟨⟨renumbered.cursor, renumbered.tracker, ?_, rfl, nofun⟩, ?_⟩
          · simp only [renumbered.outline]
            exact Outline.push_renumber f before s.outline node
          · exact fun _ => Outline.anchored_push before s.outline node

/-- A line is taken in alike. -/
theorem acceptLine_agree (parallel : Cursor.Parallel K answer? n) (counted : 1 ≤ line.number)
    (numbered : f line.number = line.number + n) (alike : line.Alike id I (line.shift n))
    (anchored : s.Anchored before) (renumbered : s.Renumbered K I f n before t) :
    Agree (ParseState.Renumbered K I f n before) answer? (acceptLine registry line s)
      (acceptLine registry (line.shift n) t) := by
  have offered := offerLine_agree registry line parallel anchored renumbered
  rw [acceptLine_eq, acceptLine_eq]
  revert offered
  generalize offerLine registry line s = r, offerLine registry (line.shift n) t = r'
  intro offered
  cases offered with
  | @ok _ s t related =>
    obtain ⟨renumbered, anchored⟩ := related
    simp only [renumbered.collector, Option.isNone_map]
    split
    · rename_i idle
      exact placeLine_agree parallel counted numbered alike
        (anchored (Option.isNone_iff_eq_none.mp idle)) renumbered
    · exact .ok renumbered
  | error answered => exact .error answered
  | waived waived => exact .waived waived

/-- A line of content keeps the next line from coming to the nodes before. -/
theorem Taken.anchored (taken : Taken line s t)
    (anchored : line.isBlank = true → s.Anchored before) : t.Anchored before := by
  cases taken with
  | blank blank => exact anchored blank
  | verbatim => exact fun _ => Outline.anchored_push before _ _
  | node => exact fun _ => Outline.anchored_push before _ _
  | filter =>
    intro idle
    cases idle

/-- A round keeps the next line from coming to the nodes before. -/
theorem Round.anchored (round : Round registry line s t) (anchored : s.Anchored before) :
    t.Anchored before := by
  cases round with
  | collected =>
    intro idle
    cases idle
  | passed => exact anchored
  | closed _ _ _ _ taken => exact taken.anchored fun _ _ => Outline.anchored_push before _ _
  | taken _ taken => exact taken.anchored fun _ => anchored

end Parsing

namespace ParseState

variable {K : Cursor → Cursor → Prop} {I : Option Char → Option Char → Prop}
  {answer? : SourceError → Option SourceError} {f : Nat → Nat} {n : Nat} {before : List Node}
  {s t : ParseState} {registry : Registry} {source : Text}

theorem Renumbered.bodyBase?_eq (renumbered : s.Renumbered K I f n before t)
    (anchored : s.Anchored before) : t.bodyBase? = s.bodyBase? := by
  have verbatim := renumbered.tracker.verbatimBase?_eq rfl
  have width := renumbered.tracker.width_eq rfl
  rw [Option.map_id, id] at verbatim
  rw [id] at width
  simp only [bodyBase?, verbatim, width, renumbered.collector, renumbered.outline]
  cases collecting : s.collector with
  | none =>
    -- The second outline has older nodes, none of which may be taken for the last one.
    rw [Outline.lastNode?_renumber (anchored collecting), Option.any_map]
    simp
  | some block => rfl

/-- The next round is taken alike, if there is one. -/
theorem advance?_agree (parallel : ParallelRuns K I answer? n) (further : Cursor.Renumbers K f n)
    (anchored : s.Anchored before) (renumbered : s.Renumbered K I f n before t)
    {r : EStateM.Result SourceError ParseState Unit} (advanced : s.advance? registry = some r) :
    ∃ r', t.advance? registry = some r' ∧ Agree (Renumbered K I f n before) answer? r r' := by
  obtain ⟨⟨line, behind⟩, taken, rfl⟩ := Option.map_eq_some_iff.mp advanced
  obtain ⟨read, moved⟩ := takeLine?_eq_some taken
  obtain ⟨alike, after', read', related⟩ :=
    parallel.takes _ t.cursor _ line behind.cursor renumbered.cursor read
  have number := (Cursor.takeWithin?_eq_some read).2.2.2
  have numbered := further _ _ renumbered.cursor line.number (by omega)
  have taken' : t.takeLine? = some (line.shift n, { t with cursor := after' }) := by
    rw [takeLine?, renumbered.bodyBase?_eq anchored, read']
    rfl
  refine ⟨_, by rw [advance?, taken']; rfl, ?_⟩
  rw [moved]
  exact Parsing.acceptLine_agree parallel.toParallel (by omega) numbered alike anchored
    { renumbered with cursor := related }

/-- A run in parallel with another one meets the error that the other ends in, or it is still in
parallel when the other comes to the end of its source. -/
theorem readAll_renumbered (parallel : ParallelRuns K I answer? n)
    (further : Cursor.Renumbers K f n) (reached : Reached registry source s)
    (anchored : s.Anchored before) (renumbered : s.Renumbered K I f n before t) :
    (∃ e, s.readAll registry = .error e ∧
      (answer? e = none ∨ t.readAll registry = .error (e.shift n))) ∨
    ∃ last last' : ParseState, Reached registry source last ∧ last.Anchored before ∧
      last.cursor.pending = [] ∧ last.Renumbered K I f n before last' ∧
      s.readAll registry = last.conclude registry ∧
      t.readAll registry = last'.readAll registry := by
  fun_induction readAll registry s generalizing t with
  | case1 s none =>
    exact .inr ⟨s, t, reached, anchored, advance?_eq_none_iff.mp none, renumbered, rfl, rfl⟩
  | case2 s after advanced ih =>
    obtain ⟨r', advanced', agree⟩ := advance?_agree parallel further anchored renumbered advanced
    obtain ⟨after', rfl, renumbered'⟩ := agree.of_ok
    obtain ⟨line, behind, taken, round⟩ := advance?_eq_ok_iff.mp advanced
    have kept : behind.Anchored before := by
      rw [(takeLine?_eq_some taken).2]
      exact anchored
    rw [readAll_of_advance_ok advanced']
    exact ih (reached.next advanced) (round.anchored kept) renumbered'
  | case3 s e after failed =>
    obtain ⟨r', failed', agree⟩ := advance?_agree parallel further anchored renumbered failed
    refine .inl ⟨e, rfl, ?_⟩
    obtain waived | answered := parallel.answers e
    · exact .inl waived
    · obtain ⟨after', rfl⟩ := agree.of_error answered
      exact .inr (readAll_of_advance_error failed')

/-- So does a run in parallel with one whose lines are all shifted by the same number. -/
theorem readAll_parallel (parallel : ParallelRuns K I answer? n)
    (reached : Reached registry source s) (anchored : s.Anchored before)
    (shifted : s.Shifted K I n before t) :
    (∃ e, s.readAll registry = .error e ∧
      (answer? e = none ∨ t.readAll registry = .error (e.shift n))) ∨
    ∃ last last' : ParseState, Reached registry source last ∧ last.Anchored before ∧
      last.cursor.pending = [] ∧ last.Shifted K I n before last' ∧
      s.readAll registry = last.conclude registry ∧
      t.readAll registry = last'.readAll registry := by
  have runs := readAll_renumbered parallel (fun _ _ _ _ _ => rfl) reached anchored
    (renumbered_iff_shifted.mpr shifted)
  simpa only [renumbered_iff_shifted] using runs

end ParseState

end HamlTemplate
