import HamlTemplate.Proofs.BlankLines
import HamlTemplate.Proofs.ContentLines
import HamlTemplate.Proofs.PipedRuns
import HamlTemplate.Proofs.RewrittenLines

/-!
# The tag that is left out

A line of content that begins with a class or an id is that of an element with the default tag. It
may as well begin with the mark of elements, with the tag behind it or without. The line is joined
with piped lines as before, is placed as before, goes on with no block, and what is read from it is
the same element or the same error. So the parse comes to the line as before, and on from it in the
same state.
-/

namespace HamlTemplate

namespace Text

variable {raw content text more mark : Text}

/-- The text begins with a class or an id that no tag is before. A hash mark with a brace behind it
begins an interpolation. -/
def BeginsShorthand (text : Text) : Prop :=
  text[0]? = some '.' ∨ text[0]? = some '#' ∧ text[1]? ≠ some '\x7b'

instance (text : Text) : Decidable text.BeginsShorthand := inferInstanceAs (Decidable (_ ∨ _))

/-- The mark of an element, with the default tag or without. -/
def IsDivMark (mark : Text) : Prop := mark = "%".toList ∨ mark = "%div".toList

instance (mark : Text) : Decidable mark.IsDivMark := inferInstanceAs (Decidable (_ ∨ _))

/-- The line with a mark put directly before its content. -/
def marked (raw mark : Text) : Text := raw.indentation ++ (mark ++ raw.afterIndentation)

namespace BeginsShorthand

theorem exists_cons (h : text.BeginsShorthand) :
    ∃ c rest, text = c :: rest ∧ (c = '.' ∨ c = '#' ∧ rest.head? ≠ some '\x7b') := by
  cases text with
  | nil => simp [BeginsShorthand] at h
  | cons c rest =>
    refine ⟨c, rest, rfl, ?_⟩
    rw [List.head?_eq_getElem?]
    simpa [BeginsShorthand] using h

/-- The first two characters decide. -/
theorem append (h : text.BeginsShorthand) (two : 2 ≤ text.length) (more : Text) :
    (text ++ more).BeginsShorthand := by
  rw [BeginsShorthand, List.getElem?_append_left (by omega), List.getElem?_append_left (by omega)]
  exact h

theorem of_prefix {front : Text} (h : text.BeginsShorthand) (shorter : front <+: text)
    (some : front ≠ []) : front.BeginsShorthand := by
  obtain ⟨more, rfl⟩ := shorter
  have first : (front ++ more)[0]? = front[0]? :=
    List.getElem?_append_left (List.length_pos_iff.mpr some)
  rw [BeginsShorthand, first] at h
  refine h.imp id (And.imp_right fun other second => other ?_)
  rw [List.getElem?_append_left (List.getElem?_eq_some_iff.mp second).1, second]

theorem trimEnd_ne_nil (h : text.BeginsShorthand) : trimEnd text ≠ [] := by
  obtain ⟨c, rest, rfl, kind⟩ := h.exists_cons
  have visible : Unicode.isWhiteSpace c = false := by
    obtain rfl | ⟨rfl, _⟩ := kind <;> decide
  rw [trimEnd_cons visible]
  exact List.cons_ne_nil _ _

theorem trimEnd (h : text.BeginsShorthand) : (trimEnd text).BeginsShorthand :=
  h.of_prefix (trimEnd_isPrefix_self text) h.trimEnd_ne_nil

theorem trimEnd_append (h : text.BeginsShorthand) (mark : Text) :
    Text.trimEnd (mark ++ text) = mark ++ Text.trimEnd text := by
  rw [Text.trimEnd_append, if_neg h.trimEnd_ne_nil]

/-- What is put in front of the content of a line has no part in its bar. -/
theorem isPiped_append (h : content.BeginsShorthand) (mark : Text) :
    isPiped (mark ++ content) = content.isPiped := by
  obtain ⟨c, rest, rfl, kind⟩ := h.exists_cons
  have other : c ≠ '|' := by
    obtain rfl | ⟨rfl, _⟩ := kind <;> decide
  have back : (c :: rest).reverse = rest.reverse ++ [c] := List.reverse_cons
  rw [isPiped, isPiped, List.reverse_append, back]
  rcases rest.reverse with _ | ⟨d, _ | ⟨e, back⟩⟩
  · simp [other]
  · by_cases bar : d = '|' <;> simp [bar]
  · by_cases bar : d = '|' <;> simp [bar]

/-- The content of a piped line begins with a class or an id without its bar as well. -/
theorem dropLast (h : content.BeginsShorthand) (piped : content.isPiped = true) (more : Text) :
    BeginsShorthand (content.dropLast ++ more) := by
  obtain ⟨front, c, rfl, bare, indents⟩ := exists_dropLast_of_isPiped piped
  have shorter : front ++ [c] <+: front ++ [c, '|'] := ⟨['|'], by simp⟩
  have some : front ≠ [] := by
    rintro rfl
    obtain ⟨d, rest, same, kind⟩ := h.exists_cons
    cases same
    obtain rfl | ⟨rfl, _⟩ := kind <;> cases indents
  rw [bare]
  apply append (h.of_prefix shorter (by simp))
  have length := List.length_pos_iff.mpr some
  simp only [List.length_append, List.length_singleton]
  omega

/-- Neither a class nor an id goes on with a block. -/
theorem continuesBlock_eq_false (h : text.BeginsShorthand) : text.continuesBlock = false := by
  obtain ⟨c, rest, rfl, kind⟩ := h.exists_cons
  obtain rfl | ⟨rfl, _⟩ := kind <;> rfl

end BeginsShorthand

theorem IsDivMark.exists_cons (div : mark.IsDivMark) : ∃ tag, mark = '%' :: tag := by
  obtain rfl | rfl := div
  · exact ⟨[], rfl⟩
  · exact ⟨"div".toList, rfl⟩

theorem IsDivMark.isUnbroken (div : mark.IsDivMark) : mark.IsUnbroken := by
  obtain rfl | rfl := div <;> decide

theorem IsDivMark.isUnbroken_marked (div : mark.IsDivMark) (unbroken : raw.IsUnbroken) :
    (raw.marked mark).IsUnbroken := by
  rw [← indentation_append_afterIndentation raw] at unbroken
  obtain ⟨indent, content⟩ := List.forall_mem_append.mp unbroken
  exact List.forall_mem_append.mpr ⟨indent, List.forall_mem_append.mpr ⟨div.isUnbroken, content⟩⟩

theorem IsDivMark.marked_eq_nil (div : mark.IsDivMark) (empty : raw.marked mark = []) :
    raw = [] := by
  obtain ⟨tag, rfl⟩ := div.exists_cons
  simp [marked] at empty

/-- A mark that is put before the content of a line is part of it. -/
theorem content_marked (div : mark.IsDivMark) (raw : Text) :
    (raw.marked mark).indentation = raw.indentation ∧
      (raw.marked mark).afterIndentation = mark ++ raw.afterIndentation := by
  obtain ⟨tag, rfl⟩ := div.exists_cons
  have indent : ∀ c ∈ raw.indentation, isIndentChar c = true :=
    fun c member => List.mem_takeWhile_imp member
  have visible : ∀ c ∈ (('%' :: tag) ++ raw.afterIndentation).head?, isIndentChar c = false := by
    rintro c ⟨⟩
    rfl
  exact indentation_append indent visible

theorem lineContent_marked (div : mark.IsDivMark) (h : raw.afterIndentation.BeginsShorthand) :
    (raw.marked mark).lineContent = mark ++ raw.lineContent := by
  rw [lineContent, (content_marked div raw).2, h.trimEnd_append, lineContent]

/-- The line that has the mark is piped exactly if it was. -/
theorem isPiped_marked (div : mark.IsDivMark) (h : raw.afterIndentation.BeginsShorthand) :
    (raw.marked mark).lineContent.isPiped = raw.lineContent.isPiped := by
  rw [lineContent_marked div h]
  exact h.trimEnd.isPiped_append mark

end Text

namespace Cursor

open Text

variable {c c' after : Cursor} {line : Line} {raw mark : Text} {rest : List Text}

/-- The line that has the mark is read with the same lines behind it. -/
theorem takeLine?_marked (pending : c.pending = raw :: rest)
    (pending' : c'.pending = raw.marked mark :: rest) (consumed : c'.consumed = c.consumed)
    (div : mark.IsDivMark) (shorthand : raw.afterIndentation.BeginsShorthand)
    (read : c.takeLine? = some (line, after)) :
    line.text.BeginsShorthand ∧
      c'.takeLine? = some ({ line with text := mark ++ line.text }, after) := by
  have behind : ∀ n, c'.skip (n + 1) = c.skip (n + 1) := by
    intro n
    rw [skip, skip, pending, pending', consumed]
    rfl
  have indent := (content_marked div raw).1
  have content := lineContent_marked div shorthand
  have begins : raw.lineContent.BeginsShorthand := shorthand.trimEnd
  rw [takeLine?_cons pending] at read
  rw [takeLine?_cons pending', isPiped_marked div shorthand]
  cases piped : raw.lineContent.isPiped with
  | false =>
    rw [piped, if_neg (by simp)] at read
    cases read
    refine ⟨begins, ?_⟩
    rw [if_neg (by simp), indent, content, consumed, behind 0]
  | true =>
    rw [piped, if_pos rfl] at read
    cases read
    have first :=
      begins.dropLast piped ((pipedRun rest).flatMap fun raw => raw.lineContent.dropLast)
    have some : raw.lineContent ≠ [] := by
      obtain ⟨d, more, same, _⟩ := begins.exists_cons
      rw [same]
      exact List.cons_ne_nil d more
    have joined : joinPiped (raw.marked mark :: pipedRun rest) =
        mark ++ joinPiped (raw :: pipedRun rest) := by
      rw [joinPiped, joinPiped, List.flatMap_cons, List.flatMap_cons, content,
        List.dropLast_append_of_ne_nil some, List.append_assoc, first.trimEnd_append]
    refine ⟨?_, ?_⟩
    · exact first.trimEnd
    · rw [if_pos rfl, indent, joined, consumed, behind]

end Cursor

/-! ### What is read from the line -/

/-- At least one class or id is read, or its name is missing. -/
theorem Shorthand.takeAll?_ne_nil {text rest : Text} (h : text.BeginsShorthand) :
    takeAll? text ≠ some ([], rest) := by
  obtain ⟨c, more, rfl, kind⟩ := h.exists_cons
  have marks : ∃ shorthand, ofMark? c = some shorthand := by
    obtain rfl | ⟨rfl, _⟩ := kind
    · exact ⟨className, rfl⟩
    · exact ⟨idName, rfl⟩
  obtain ⟨shorthand, marks⟩ := marks
  rw [takeAll?, marks]
  simp only
  split
  · intro failed
    cases failed
  · cases takeAll? (more.dropWhile isNameChar) <;> simp

/-- An element without a tag is one with the default tag. -/
theorem Element.declaration_marked {text : Text} (h : text.BeginsShorthand) :
    declaration ('%' :: text) = declaration ('%' :: defaultTag ++ text) := by
  have unnamed : ∀ c ∈ text.head?, isNameChar c = false := by
    obtain ⟨c, rest, rfl, kind⟩ := h.exists_cons
    rintro _ ⟨⟩
    obtain rfl | ⟨rfl, _⟩ := kind <;> decide
  obtain ⟨noTag, afterNone⟩ := Text.takeWhile_append (s := []) nofun unnamed
  have named : defaultTag.all isNameChar = true := by decide
  obtain ⟨tag, afterTag⟩ := Text.takeWhile_append (List.all_eq_true.mp named) unnamed
  rw [List.nil_append] at noTag afterNone
  have short : Text.afterElementMark ('%' :: text) = text := rfl
  have long : Text.afterElementMark ('%' :: defaultTag ++ text) = defaultTag ++ text := rfl
  simp only [declaration, short, long, noTag, afterNone, tag, afterTag]
  cases taken : Shorthand.takeAll? text with
  | none => rfl
  | some read =>
    obtain ⟨_ | ⟨first, more⟩, rest⟩ := read
    · exact absurd taken (Shorthand.takeAll?_ne_nil h)
    · rfl

/-- The line that has the mark calls for the same element. -/
theorem Parsing.add_marked {text mark : Text} (div : mark.IsDivMark) (h : text.BeginsShorthand)
    (width number : Nat) :
    add width number (Content.ofText (mark ++ text)) = add width number (Content.ofText text) := by
  have implicit : Content.ofText text = .element ('%' :: defaultTag ++ text) := by
    obtain ⟨c, rest, rfl, kind⟩ := h.exists_cons
    obtain rfl | ⟨rfl, brace⟩ := kind
    · rfl
    · rw [Content.ofText]
      rintro more rfl
      exact brace rfl
  rw [implicit]
  obtain rfl | rfl := div
  · show add width number (.element ('%' :: text)) = _
    have same : Reading.element ('%' :: text) = Reading.element ('%' :: defaultTag ++ text) := by
      rw [Reading.element, Reading.element, Element.declaration_marked h]
    rw [add, add, same]
  · rfl

/-- A block is closed alike before two lines that both go on with it, or before two that do not. -/
theorem Outline.closed_congr {o : Outline} {first second : Option Line}
    (continues : (first.any fun line => line.text.continuesBlock) =
      second.any fun line => line.text.continuesBlock) :
    o.closed first = o.closed second := by
  have node : ∀ block, closeBlock block first = closeBlock block second := by
    intro block
    rw [closeBlock, closeBlock, continues]
  simp only [closed, node]

namespace Tracker

variable {line : Line} {text : Text} {t t' : Tracker} {o after : Outline} {role : LineRole}
  {levels left : List Level}

/-- Blocks are closed alike for a line with another text, if neither text goes on with a block. -/
theorem Closes.congr_text (continues : text.continuesBlock = line.text.continuesBlock)
    (closes : Closes line levels o left after) :
    Closes { line with text } levels o left after := by
  induction closes with
  | done same => exact .done same
  | @close level outer left o after wider rest ih =>
    have wider : Line.width { line with text } < level.width := wider
    apply Closes.close wider
    have same :
        o.closed (following { line with text } outer) = o.closed (following line outer) := by
      apply Outline.closed_congr
      by_cases around : Level.innermostWidth outer = line.width
      · have around' : Level.innermostWidth outer = Line.width { line with text } := around
        rw [following, following, if_pos around, if_pos around']
        exact continues
      · have around' : Level.innermostWidth outer ≠ Line.width { line with text } := around
        rw [following, following, if_neg around, if_neg around']
    rw [same]
    exact ih

/-- A line with another text has the same place, if both are blank or neither is, and both go on
with a block or neither does. -/
theorem Placement.congr_text (blank : text.isEmpty = line.text.isEmpty)
    (continues : text.continuesBlock = line.text.continuesBlock)
    (placed : Placement line t o role t' after) :
    Placement { line with text } t o role t' after := by
  have content : Line.isBlank { line with text } = line.isBlank := blank
  have admitted : t.Admits line → t.Admits { line with text } :=
    fun admits => ⟨content.trans admits.content, admits.notBody, admits.uniform⟩
  cases placed with
  | blank blank => exact .blank (content.trans blank)
  | body visible inside => exact .body (content.trans visible) inside
  | deeper admits deeper last nestable => exact .deeper (admitted admits) deeper last nestable
  | level admits same => exact .level (admitted admits) same
  | shallower admits shallower closes =>
    exact .shallower (admitted admits) shallower (closes.congr_text continues)

end Tracker

/-! ### The parse -/

/-- A line of content does the same when it has the mark. -/
theorem Parsing.acceptLine_marked {registry : Registry} {line : Line} {mark : Text}
    {s m placed : ParseState} (div : mark.IsDivMark) (h : line.text.BeginsShorthand)
    (offered : offerLine registry line s = .ok () m) (idle : m.collector = none)
    (followed : following (Tracker.process Outline.handler line) m = .ok .structural placed) :
    acceptLine registry { line with text := mark ++ line.text } s =
      acceptLine registry line s := by
  obtain ⟨tag, rfl⟩ := div.exists_cons
  have shown : List.isEmpty ('%' :: tag ++ line.text) = line.text.isEmpty := by
    obtain ⟨c, rest, same, _⟩ := h.exists_cons
    rw [same]
    rfl
  have continues : Text.continuesBlock ('%' :: tag ++ line.text) = line.text.continuesBlock :=
    h.continuesBlock_eq_false.symm
  have offered' :
      offerLine registry { line with text := '%' :: tag ++ line.text } s = .ok () m := by
    obtain ⟨none, rfl⟩ | ⟨block, node, collecting, outside, ends, finished, rfl⟩ :=
      offerLine_eq_ok_of_none offered idle
    · exact offerLine_of_idle none
    · have ends' : block.endsAt { line with text := '%' :: tag ++ line.text } = true := by
        rw [← ends, FilterBlock.endsAt, FilterBlock.endsAt, Line.isBlank, shown]
        rfl
      rw [offerLine_of_ends collecting outside ends', finished]
  obtain ⟨tracker, outline, processed, rfl⟩ := following_eq_ok_iff.mp followed
  have position := Tracker.process_eq_ok_iff.mp processed
  rw [acceptLine_of_offered offered idle, acceptLine_of_offered offered' idle,
    placeLine_of_structural position,
    placeLine_of_structural (position.congr_text shown continues)]
  exact congrFun (add_marked div h line.width line.number) _

theorem ParseState.advance?_of_takeLine? {registry : Registry} {s behind : ParseState} {line : Line}
    (taken : s.takeLine? = some (line, behind)) :
    s.advance? registry = some (Parsing.acceptLine registry line behind) := by
  rw [advance?, taken]
  rfl

theorem ParseState.readAll_of_advance_eq {registry : Registry} {s t : ParseState}
    (same : t.advance? registry = s.advance? registry) (some : s.advance? registry ≠ none) :
    t.readAll registry = s.readAll registry := by
  cases advanced : s.advance? registry with
  | none => exact absurd advanced some
  | some result =>
    rw [advanced] at same
    cases result with
    | ok _ after => rw [readAll_of_advance_ok same, readAll_of_advance_ok advanced]
    | error e after => rw [readAll_of_advance_error same, readAll_of_advance_error advanced]

/-- The line is read and taken in as before when it has the mark. -/
theorem ParseState.advance?_marked {registry : Registry} {s : ParseState} {c : Cursor} {line : Line}
    {raw mark : Text} {rest : List Text} (dispatched : s.Dispatches registry line)
    (pending : s.cursor.pending = raw :: rest) (pending' : c.pending = raw.marked mark :: rest)
    (consumed : c.consumed = s.cursor.consumed) (shorthand : raw.afterIndentation.BeginsShorthand)
    (div : mark.IsDivMark) :
    ({ s with cursor := c } : ParseState).advance? registry = s.advance? registry ∧
      s.advance? registry ≠ none := by
  obtain ⟨behind, m, placed, taken, offered, idle, followed⟩ := dispatched
  obtain ⟨tracker, outline, processed, _⟩ := Parsing.following_eq_ok_iff.mp followed
  obtain ⟨logical, narrow⟩ := takeLine?_of_structural taken offered idle
    (Tracker.process_eq_ok_iff.mp processed)
  obtain ⟨begins, read⟩ :=
    Cursor.takeLine?_marked pending pending' consumed div shorthand logical
  obtain ⟨indent, content⟩ := Text.content_marked div raw
  have visible : (raw.marked mark).afterIndentation ≠ [] := by
    obtain ⟨tag, rfl⟩ := div.exists_cons
    rw [content]
    exact List.cons_ne_nil _ _
  have shallow : ∀ base ∈ s.bodyBase?, (raw.marked mark).indentation.length ≤ base := by
    obtain ⟨_, _, pending'', same⟩ := Cursor.takeLine?_indent logical
    cases pending.symm.trans pending''
    rw [indent, ← same]
    exact narrow
  have taken' : ({ s with cursor := c } : ParseState).takeLine? =
      some ({ line with text := mark ++ line.text }, behind) := by
    have base : ({ s with cursor := c } : ParseState).bodyBase? = s.bodyBase? := rfl
    rw [takeLine?, base, Cursor.takeWithin?_eq_takeLine? pending' visible shallow, read,
      (takeLine?_eq_some taken).2]
    rfl
  have same := Parsing.acceptLine_marked div begins offered idle followed
  rw [advance?_of_takeLine? taken, advance?_of_takeLine? taken', same]
  exact ⟨rfl, Option.some_ne_none _⟩

/-- Up to the line that has the mark, and behind it, the lines are as they were. -/
theorem Text.physicalLines_marked {source mark : Text} {n : Nat} (div : mark.IsDivMark)
    (bound : n < source.physicalLines.length) :
    (source.mapLine (n + 1) fun raw => raw.marked mark).physicalLines =
      source.physicalLines.take n ++
        source.physicalLines[n].marked mark :: source.physicalLines.drop (n + 1) := by
  rw [physicalLines_mapLine (fun _ => div.isUnbroken_marked) (fun _ => div.marked_eq_nil),
    List.modify_eq_take_drop, List.drop_eq_getElem_cons bound, List.modifyHead_cons]

/-- The default tag may be written out. If a line of content begins with a class or an id, a percent
sign may be put before it, with the default tag behind the sign or without. The parse gives the same
document or the same error, whatever the line goes on with and whatever comes behind it. -/
theorem parse_explicit_div {registry : Registry} {source raw mark : Text} {s : ParseState}
    {line : Line} (reached : ParseState.Reached registry source s)
    (dispatched : s.Dispatches registry line)
    (first : source.physicalLines[line.number - 1]? = some raw)
    (shorthand : raw.afterIndentation.BeginsShorthand) (div : mark.IsDivMark) :
    Document.parse registry (source.mapLine line.number fun raw => raw.marked mark) =
      Document.parse registry source := by
  obtain ⟨behind, _, _, taken, _⟩ := id dispatched
  obtain ⟨_, _, _, number⟩ := Cursor.takeWithin?_eq_some (ParseState.takeLine?_eq_some taken).1
  rw [number, Nat.add_sub_cancel] at first
  rw [number]
  obtain ⟨bound, rfl⟩ := List.getElem?_eq_some_iff.mp first
  have behind : source.physicalLines.drop s.cursor.consumed =
      source.physicalLines[s.cursor.consumed] ::
        source.physicalLines.drop (s.cursor.consumed + 1) :=
    List.drop_eq_getElem_cons bound
  have lines := Text.physicalLines_marked div bound
  have unpiped : Cursor.pipedRun (source.physicalLines.drop s.cursor.consumed) = [] →
      Cursor.pipedRun (source.physicalLines[s.cursor.consumed].marked mark ::
        source.physicalLines.drop (s.cursor.consumed + 1)) = [] := by
    rw [behind, Cursor.pipedRun_eq_nil_iff, Cursor.pipedRun_eq_nil_iff]
    rintro unpiped _ ⟨⟩
    rw [Text.isPiped_marked div shorthand]
    exact unpiped _ rfl
  have arrived := reached.congr_of_pipedRun lines unpiped (Nat.le_refl _) (Nat.le_of_lt bound)
  have ahead : ((Cursor.start (source.mapLine (s.cursor.consumed + 1) fun raw =>
      raw.marked mark)).skip s.cursor.consumed).pending =
        source.physicalLines[s.cursor.consumed].marked mark ::
          source.physicalLines.drop (s.cursor.consumed + 1) := by
    rw [Cursor.pending_skip, Cursor.start, lines]
    exact List.drop_left' (List.length_take_of_le (Nat.le_of_lt bound))
  obtain ⟨same, some⟩ := ParseState.advance?_marked dispatched
    (reached.follows.pending_eq.trans behind) ahead (by simp [Cursor.start]) shorthand div
  rw [arrived.parse_eq, reached.parse_eq]
  exact ParseState.readAll_of_advance_eq same some

/-- The first line has an attribute block and a script that go on over lines of their own, and a
sibling behind it. The second has content beside it, so nothing can be nested in it, and the error
names the default tag. -/
theorem parse_explicit_div_nested :
    Document.parse .builtins
        "/\n  %#a.b\x7bx: 1,\n    y: 2\x7d= f(1,\n 2)\n  q\n".toList = .ok ⟨5, [
      .block 1 (.comment []) [
        .block 2 (.element {
          tag := "div".toList
          classes := [['b']]
          ids := [['a']]
          attributes? := some "x: 1,\ny: 2".toList
          tail := .script "f(1,\n 2)".toList }) [],
        .leaf 5 (.text ['q'])]]⟩ ∧
    Document.parse .builtins "%div.a b\n  c\n".toList =
      .error ⟨.nestedBesideInline "div".toList, 2⟩ := by
  constructor
  · have begun : ∃ s, ParseState.Reached .builtins
        "/\n  #a.b\x7bx: 1,\n    y: 2\x7d= f(1,\n 2)\n  q\n".toList s ∧
        s.Dispatches .builtins ⟨"  ".toList, "#a.b\x7bx: 1,".toList, 2, 1⟩ := by
      refine ⟨_, .next .start rfl, _, _, _, rfl, rfl, rfl, rfl⟩
    obtain ⟨s, reached, dispatched⟩ := begun
    have same := parse_explicit_div reached dispatched rfl (by decide) (.inl rfl)
    exact same.trans (by decide +kernel)
  · have dispatched : ParseState.Dispatches .builtins (.start ".a b\n  c\n".toList)
        ⟨[], ".a b".toList, 1, 1⟩ := ⟨_, _, _, rfl, rfl, rfl, by rfl⟩
    have same := parse_explicit_div .start dispatched rfl (by decide) (.inr rfl)
    exact same.trans (by decide +kernel)

end HamlTemplate
