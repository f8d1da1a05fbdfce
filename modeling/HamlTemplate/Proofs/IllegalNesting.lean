import HamlTemplate.Proofs.ErrorLines
import HamlTemplate.Proofs.PipedRuns

/-!
# Illegal nesting

A line that is deeper than the innermost level is refused if there is no node to nest it in, or if
that node cannot hold any line. This is the only way to the messages about nesting. Of those two are
confined: no line is ever refused because it is nested in a filter block, since every deeper line
belongs to the block, and only the first line of content can have nothing to be nested in, since
from then on there is a node at every level.
-/

namespace HamlTemplate

/-! ### What messages begin with -/

/-- Two texts differ before either ends. -/
def Text.Apart (first second : Text) : Prop := ¬first <+: second ∧ ¬second <+: first

instance (first second : Text) : Decidable (first.Apart second) :=
  inferInstanceAs (Decidable (_ ∧ _))

/-- Texts that differ go on to do so. -/
theorem Text.Apart.append {front : Text} {start rest : String} (h : front.Apart start.toList) :
    front.Apart (start ++ rest).toList := by
  rw [String.toList_append]
  constructor
  · intro within
    obtain shorter | longer := List.prefix_or_prefix_of_prefix within (List.prefix_append _ _)
    · exact h.1 shorter
    · exact h.2 longer
  · intro whole
    exact h.2 (.trans (List.prefix_append _ _) whole)

theorem Text.Apart.ne {first second : String} (h : Apart first.toList second.toList) :
    second ≠ first := by
  rintro rfl
  exact h.1 (List.prefix_refl _)

/-- A text that is put together begins as its first part does. -/
private theorem prefix_toList_append {front : Text} {start rest : String}
    (h : front <+: start.toList) :
    front <+: (start ++ rest).toList := by
  rw [String.toList_append]
  exact h.trans (List.prefix_append _ _)

namespace Fault

def isIllegalNesting : Fault → Bool
  | nestedInSelfClosing | nestedBesideInline _ | nestedInLeaf _ => true
  | _ => false

theorem site_of_isIllegalNesting {fault : Fault} (h : fault.isIllegalNesting = true) :
    fault.site = .lastLine := by
  cases fault <;> first | rfl | cases h

/-- The messages about illegal nesting are those that say so. -/
theorem message_begins_iff {fault : Fault} :
    "Illegal nesting".toList <+: fault.message.toList ↔ fault.isIllegalNesting = true := by
  cases fault with
  | nestedInSelfClosing => exact iff_of_true (by decide +kernel) rfl
  | nestedBesideInline | nestedInLeaf =>
    exact iff_of_true (prefix_toList_append (prefix_toList_append (by decide +kernel))) rfl
  | invalidElement | mixedIndentation | invalidFilterName | unknownFilter =>
    refine iff_of_false (Text.Apart.append ?_).1 nofun
    decide +kernel
  | unmatchedIndentation =>
    refine iff_of_false (Text.Apart.append (.append ?_)).1 nofun
    decide +kernel
  | noCode | unterminatedCode | unmatchedAttributes | namelessShorthand | selfClosingContent
  | invalidDoctype | indentedStart => exact iff_of_false (by decide +kernel) nofun

theorem message_eq_indentedStart_iff {fault : Fault} :
    fault.message = "Indenting at the beginning of the document is illegal." ↔
      fault = .indentedStart := by
  cases fault with
  | indentedStart => exact iff_of_true rfl rfl
  | invalidElement | mixedIndentation | invalidFilterName | unknownFilter =>
    refine iff_of_false (Text.Apart.append ?_).ne nofun
    decide +kernel
  | unmatchedIndentation | nestedBesideInline | nestedInLeaf =>
    refine iff_of_false (Text.Apart.append (.append ?_)).ne nofun
    decide +kernel
  | noCode | unterminatedCode | unmatchedAttributes | namelessShorthand | selfClosingContent
  | invalidDoctype | nestedInSelfClosing => exact iff_of_false (by decide +kernel) nofun

theorem message_eq_nestedInFilter_iff {fault : Fault} :
    fault.message = "Illegal nesting: nesting within filter is illegal." ↔
      fault = .nestedInLeaf .filter := by
  constructor
  · intro same
    have illegal : fault.isIllegalNesting = true := by
      rw [← message_begins_iff, same]
      decide +kernel
    cases fault with
    | nestedInLeaf kind =>
      cases kind with
      | filter => rfl
      | _ => exact absurd same (by decide +kernel)
    | nestedInSelfClosing => exact absurd same (by decide +kernel)
    | nestedBesideInline =>
      refine absurd same (Text.Apart.append (.append ?_)).ne
      decide +kernel
    | _ => cases illegal
  · rintro rfl
    decide +kernel

end Fault

/-! ### Why a deeper line is refused -/

namespace Node

variable {node : Node} {fault : Fault}

theorem isIllegalNesting_of_nestingFault? (h : node.nestingFault? = some fault) :
    fault.isIllegalNesting = true := by
  obtain rfl | ⟨tag, rfl⟩ | rfl := nestingFault?_cases h <;> rfl

/-- A line that is nested in a node without a head is refused for what that node is. -/
theorem kind_of_nestingFault? {kind : NodeKind}
    (h : node.nestingFault? = some (.nestedInLeaf kind)) : node.kind = kind := by
  obtain other | ⟨tag, other⟩ | same := nestingFault?_cases h
  · cases other
  · cases other
  · exact (Fault.nestedInLeaf.inj same).symm

end Node

theorem Outline.siblings_eq_nil_of_indentedStart {o : Outline}
    (h : o.nestingFault? = some .indentedStart) : o.siblings = [] := by
  rw [nestingFault?, lastNode?] at h
  cases last : o.siblings with
  | nil => rfl
  | cons node elder =>
    rw [last] at h
    cases Node.isIllegalNesting_of_nestingFault? h

theorem Tracker.Refuses.process {line : Line} {t : Tracker} {o : Outline} {e : SourceError}
    (refuses : Refuses line t o e) :
    ∃ after, process Outline.handler line (t, o) = .error e after := by
  rw [process_of_admits refuses.admits, if_pos refuses.deeper]
  exact ⟨_, openLevel_eq_error_iff.mpr ⟨rfl, refuses.fault, refuses.lastLine⟩⟩

namespace Parsing

variable {registry : Registry} {line : Line} {s t : ParseState} {e : SourceError}

/-- An error at the last line of a line is that it cannot be nested. -/
theorem refuses_of_placeLine (h : placeLine line s = .error e t)
    (site : e.fault.site = .lastLine) : Tracker.Refuses line s.tracker s.outline e := by
  obtain ⟨other, _⟩ | ⟨other, _⟩ | refuses := placeLine_eq_error h
  · rw [other] at site
    cases site
  · rw [other] at site
    cases site
  · exact refuses

theorem placeLine_of_refuses (refuses : Tracker.Refuses line s.tracker s.outline e) :
    ∃ t, placeLine line s = .error e t := by
  obtain ⟨after, processed⟩ := refuses.process
  exact ⟨_, bind_eq_error_iff.mpr (.inl (by rw [following, processed]))⟩

/-- Where no filter block is collected, a line that is to be refused is. -/
theorem acceptLine_of_refuses (idle : s.collector = none)
    (refuses : Tracker.Refuses line s.tracker s.outline e) :
    ∃ t, acceptLine registry line s = .error e t := by
  obtain ⟨t, refused⟩ := placeLine_of_refuses refuses
  refine ⟨t, ?_⟩
  rw [acceptLine_eq, offerLine_of_idle idle]
  simpa [idle] using refused

/-- A line is refused for its nesting only where no filter block is collected: it would belong to
the block, or has a width that ends it. -/
theorem refuses_of_acceptLine (lockstep : s.Lockstep) (h : acceptLine registry line s = .error e t)
    (site : e.fault.site = .lastLine) :
    s.collector = none ∧ Tracker.Refuses line s.tracker s.outline e := by
  rw [acceptLine_eq] at h
  have offered := offered registry line s
  generalize offerLine registry line s = result at h offered
  cases offered with
  | idle idle =>
    simp only [idle, Option.isNone_none, if_true] at h
    exact ⟨idle, refuses_of_placeLine h site⟩
  | inside collecting inside =>
    rw [lockstep.outside_of_collecting collecting] at inside
    cases inside
  | within => cases h
  | output collecting _ ends _ =>
    have deeper := (refuses_of_placeLine h site).deeper
    have base := (lockstep.collecting _ collecting).1
    simp only [FilterBlock.endsAt, Bool.and_eq_true, decide_eq_true_eq] at ends
    simp only at deeper
    omega
  | unknown _ _ finished =>
    cases h
    obtain ⟨_, rfl⟩ := FilterBlock.finish_eq_error finished
    cases site

end Parsing

/-! ### Lines behind a filter block -/

/-- Where no filter block is collected, the last node is not that of a filter. -/
def ParseState.PastFilters (s : ParseState) : Prop :=
  s.collector = none → ∀ node ∈ s.outline.lastNode?, node.kind ≠ .filter

namespace Parsing

variable {registry : Registry} {line : Line} {s t : ParseState}

/-- A line of content leaves a node of its own as the last one, or begins a filter block. -/
theorem Taken.pastFilters (taken : Taken line s t) (before : line.isBlank = true → s.PastFilters) :
    t.PastFilters := by
  cases taken with
  | blank blank => exact before blank
  | verbatim =>
    rintro _ node member
    rw [Outline.lastNode?_push] at member
    cases member
    nofun
  | node _ content read =>
    rintro _ node member
    rw [Outline.lastNode?_push] at member
    cases member
    exact (Reading.begins_of_node? content read).kind_ne_filter
  | filter =>
    intro idle
    cases idle

/-- The line that ends a filter block is taken in the same round. -/
theorem Round.pastFilters (round : Round registry line s t) (before : s.PastFilters) :
    t.PastFilters := by
  cases round with
  | collected =>
    intro idle
    cases idle
  | passed => exact before
  | closed _ _ ends _ taken =>
    refine taken.pastFilters fun blank => ?_
    simp [FilterBlock.endsAt, blank] at ends
  | taken _ taken => exact taken.pastFilters fun _ => before

end Parsing

namespace ParseState

variable {registry : Registry} {source : Text} {s : ParseState} {e : SourceError}

theorem Reached.pastFilters (reached : Reached registry source s) : s.PastFilters := by
  induction reached with
  | start =>
    rintro _ node member
    cases member
  | next _ advanced ih =>
    obtain ⟨line, behind, taken, round⟩ := advance?_eq_ok_iff.mp advanced
    refine round.pastFilters ?_
    rw [(takeLine?_eq_some taken).2]
    exact ih

/-- Where a parse fails because of the nesting of a line, that line has been read, and no filter
block is collected. -/
theorem exists_refusing_of_parse (h : Document.parse registry source = .error e)
    (site : e.fault.site = .lastLine) :
    ∃ s line behind, Reached registry source s ∧ s.takeLine? = some (line, behind) ∧
      s.collector = none ∧ Tracker.Refuses line s.tracker s.outline e := by
  obtain ⟨s, reached, failed⟩ := exists_failing_of_readAll .start h
  obtain ⟨block, _, rfl⟩ | ⟨line, behind, after, taken, refused, _⟩ := failed.cause
  · cases site
  · have lockstep := (Lockstep.of_reached reached).takeLine? taken
    have refuses := Parsing.refuses_of_acceptLine lockstep refused site
    rw [(takeLine?_eq_some taken).2] at refuses
    exact ⟨s, line, behind, reached, taken, refuses⟩

theorem fault_ne_nestedInFilter (h : Document.parse registry source = .error e) :
    e.fault ≠ .nestedInLeaf .filter := by
  intro fault
  obtain ⟨s, line, behind, reached, _, idle, refuses⟩ :=
    exists_refusing_of_parse h (by rw [fault]; rfl)
  have refused := refuses.fault
  rw [fault, Outline.nestingFault?] at refused
  cases last : s.outline.lastNode? with
  | none => simp [last] at refused
  | some node =>
    rw [last] at refused
    exact reached.pastFilters idle node last (Node.kind_of_nestingFault? refused)

end ParseState

/-! ### Lines before all others -/

def Cursor.firstContent? (c : Cursor) : Option Line :=
  c.logicalLines.find? fun line => !line.isBlank

namespace Cursor

variable {c after : Cursor} {line : Line}

theorem firstContent?_of_blank (read : c.takeLine? = some (line, after))
    (blank : line.isBlank = true) : c.firstContent? = after.firstContent? := by
  simp [firstContent?, logicalLines_of_takeLine? read, blank]

theorem firstContent?_of_content (read : c.takeLine? = some (line, after))
    (content : line.isBlank = false) : c.firstContent? = some line := by
  simp [firstContent?, logicalLines_of_takeLine? read, content]

end Cursor

/-- A line is indented, and with one character only. -/
def Line.IsEvenlyIndented (line : Line) : Prop :=
  line.indent ≠ [] ∧ ∃ c, ∀ d ∈ line.indent, d = c

/-- At the beginning a line is refused for its nesting exactly if it is evenly indented. -/
theorem Tracker.refuses_start_iff {line : Line} {e : SourceError} :
    Refuses line {} {} e ↔
      line.isBlank = false ∧ line.IsEvenlyIndented ∧ e = ⟨.indentedStart, line.lastNumber⟩ := by
  constructor
  · rintro ⟨⟨content, _, uniform⟩, deeper, fault, number⟩
    refine ⟨content, ⟨?_, ?_⟩, ?_⟩
    · exact List.ne_nil_of_length_pos deeper
    · cases indent : line.indent with
      | nil =>
        rw [Line.width, indent] at deeper
        cases deeper
      | cons c rest =>
        refine ⟨c, ?_⟩
        simpa [mismatch?, settle, indent] using uniform
    · obtain ⟨fault', number'⟩ := e
      cases fault
      cases number
      rfl
  · rintro ⟨content, ⟨some, c, even⟩, rfl⟩
    have fresh : ∀ d ∈ ({} : Tracker).indentChar?, d = c := by simp
    have uniform := (uniform_settle fresh even).2
    exact ⟨⟨content, rfl, uniform⟩, List.length_pos_iff.mpr some, rfl, rfl⟩

namespace ParseState

variable {registry : Registry} {source : Text} {s t : ParseState} {c : Cursor}

/-- Nothing but blank lines has been read, or the next line is not the first one of content. -/
theorem Reached.fresh_or_anchored (reached : Reached registry source s) :
    s = { cursor := s.cursor } ∧ s.cursor.firstContent? = (Cursor.start source).firstContent? ∨
      ∀ before, s.Anchored before := by
  induction reached with
  | start => exact .inl ⟨rfl, rfl⟩
  | @next s t _ advanced ih =>
    obtain ⟨line, behind, taken, round⟩ := advance?_eq_ok_iff.mp advanced
    obtain ⟨read, moved⟩ := takeLine?_eq_some taken
    obtain ⟨fresh, first⟩ | anchored := ih
    · rw [fresh] at read moved
      have read : s.cursor.takeLine? = some (line, behind.cursor) := read
      have idle : behind.collector = none := by rw [moved]
      cases round with
      | collected collecting | passed collecting | closed collecting =>
        cases idle.symm.trans collecting
      | taken _ taken =>
        cases blank : line.isBlank with
        | false =>
          exact .inr fun before => taken.anchored fun empty => by rw [blank] at empty; cases empty
        | true =>
          cases taken with
          | blank =>
            refine .inl ⟨moved, ?_⟩
            rw [← Cursor.firstContent?_of_blank read blank, first]
          | verbatim placed => rw [placed.content (by simp)] at blank; cases blank
          | node placed | filter placed => rw [placed.content (by simp)] at blank; cases blank
    · refine .inr fun before => round.anchored ?_
      rw [moved]
      exact anchored before

/-- From the beginning on blank lines are passed over, and the first line of content is refused if
it is evenly indented. -/
theorem readAll_of_evenlyIndented {line : Line} (first : c.firstContent? = some line)
    (even : line.IsEvenlyIndented) :
    ({ cursor := c } : ParseState).readAll registry = .error ⟨.indentedStart, line.lastNumber⟩ := by
  fun_induction Cursor.logicalLines c with
  | case1 c ended =>
    rw [Cursor.firstContent?, Cursor.logicalLines_of_none ended] at first
    cases first
  | case2 c next after read ih =>
    have taken : ({ cursor := c } : ParseState).takeLine? = some (next, { cursor := after }) := by
      have logical : c.takeWithin? none = some (next, after) := read
      exact congrArg (Option.map _) logical
    cases blank : next.isBlank with
    | true =>
      have passed : ({ cursor := c } : ParseState).advance? registry =
          some (.ok () { cursor := after }) :=
        advance?_eq_ok_iff.mpr ⟨next, _, taken, .taken rfl (.blank blank)⟩
      rw [readAll_of_advance_ok passed]
      rw [Cursor.firstContent?_of_blank read blank] at first
      exact ih first
    | false =>
      rw [Cursor.firstContent?_of_content read blank] at first
      obtain rfl : next = line := Option.some.inj first
      have refuses := Tracker.refuses_start_iff.mpr ⟨blank, even, rfl⟩
      have refused : ∃ t, Parsing.acceptLine registry next { cursor := after } =
          .error ⟨.indentedStart, next.lastNumber⟩ t :=
        Parsing.acceptLine_of_refuses rfl refuses
      obtain ⟨t, refused⟩ := refused
      have failed : ({ cursor := c } : ParseState).advance? registry =
          some (.error ⟨.indentedStart, next.lastNumber⟩ t) := by
        rw [advance?, taken]
        exact congrArg some refused
      exact readAll_of_advance_error failed

end ParseState

/-- Two of the messages about nesting are confined. No parse fails because a line is nested in a
filter. A parse fails because a line is indented with nothing to be nested in exactly if the first
line of content is indented, with one character only, and then the error is at the last physical
line which that line covers. -/
theorem nesting_messages_of_parse (registry : Registry) (source : Text) :
    (∀ e, Document.parse registry source = .error e →
      e.fault.message ≠ "Illegal nesting: nesting within filter is illegal.") ∧
    ∀ n, (∃ e, Document.parse registry source = .error e ∧
        e.fault.message = "Indenting at the beginning of the document is illegal." ∧ e.line = n) ↔
      ∃ line, (Cursor.start source).firstContent? = some line ∧ line.IsEvenlyIndented ∧
        n = line.lastNumber := by
  refine ⟨fun e failed message => ?_, fun n => ⟨?_, ?_⟩⟩
  · exact ParseState.fault_ne_nestedInFilter failed (Fault.message_eq_nestedInFilter_iff.mp message)
  · rintro ⟨⟨fault, number⟩, failed, message, rfl⟩
    obtain rfl : fault = .indentedStart := Fault.message_eq_indentedStart_iff.mp message
    obtain ⟨s, line, behind, reached, taken, idle, refuses⟩ :=
      ParseState.exists_refusing_of_parse failed rfl
    obtain ⟨fresh, first⟩ | anchored := reached.fresh_or_anchored
    · rw [fresh] at refuses taken
      obtain ⟨content, even, same⟩ := Tracker.refuses_start_iff.mp refuses
      have read : s.cursor.takeLine? = some (line, behind.cursor) :=
        (ParseState.takeLine?_eq_some taken).1
      rw [Cursor.firstContent?_of_content read content] at first
      exact ⟨line, first.symm, even, congrArg SourceError.line same⟩
    · -- There is a node to nest the line in, so it is refused for that node.
      have empty := Outline.siblings_eq_nil_of_indentedStart refuses.fault
      cases anchored [.leaf 0 (.text [])] idle empty
  · rintro ⟨line, first, even, rfl⟩
    exact ⟨_, ParseState.readAll_of_evenlyIndented first even, rfl, rfl⟩

/-- Blank lines come first, and then two piped lines that are joined. -/
theorem nesting_messages_of_parse_piped :
    ∃ e, Document.parse .builtins "\n \t\n  a |\n b |\n".toList = .error e ∧
      e.fault.message = "Indenting at the beginning of the document is illegal." ∧ e.line = 4 ∧
      e.fault.message ≠ "Illegal nesting: nesting within filter is illegal." := by
  have confined := nesting_messages_of_parse .builtins "\n \t\n  a |\n b |\n".toList
  have first : (Cursor.start "\n \t\n  a |\n b |\n".toList).firstContent? =
      some ⟨"  ".toList, "a b".toList, 3, 2⟩ := by
    decide +kernel
  obtain ⟨e, failed, message, number⟩ :=
    (confined.2 4).mpr ⟨_, first, ⟨by decide, ' ', by simp⟩, rfl⟩
  exact ⟨e, failed, message, number, confined.1 e failed⟩

end HamlTemplate
