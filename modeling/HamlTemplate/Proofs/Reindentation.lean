import HamlTemplate.Proofs.Beginnings
import HamlTemplate.Proofs.Gathering
import HamlTemplate.Proofs.Reindented
import HamlTemplate.Proofs.Uniform

/-!
# Indentation means no more than its order

A document that is indented with spaces is parsed again from the source that is indented anew, as
long as the new widths are in the order of the old ones. The two parses go through the same
outlines, and their trackers keep the same levels but for the widths. Where indentation becomes part
of what is read, in the body of a filter block and in code that goes on over several lines, there is
nothing to say, so the document must have neither.
-/

namespace HamlTemplate

/-- The node is no filter block, and its code, if it has some, is on one line. -/
def Node.IsCompact (node : Node) : Prop :=
  node.kind ≠ .filter ∧ ∀ code ∈ node.code?, '\n' ∉ code

instance (node : Node) : Decidable node.IsCompact := inferInstanceAs (Decidable (_ ∧ _))

/-- The node is compact, and so is the content of its own line. -/
def Node.HasCompactLine (node : Node) : Prop :=
  node.IsCompact ∧ ∀ child ∈ node.inline?, child.IsCompact

instance (node : Node) : Decidable node.HasCompactLine := inferInstanceAs (Decidable (_ ∧ _))

theorem Node.shallow_hasCompactLine : Node.Shallow Node.HasCompactLine := by
  intro line head midBlock nested
  cases head <;> rfl

def Line.reindent (f : Nat → Nat) (c : Char) (line : Line) : Line :=
  { line with indent := List.replicate (f line.width) c }

theorem Line.width_reindent (f : Nat → Nat) (c : Char) (line : Line) :
    (line.reindent f c).width = f line.width :=
  List.length_replicate

namespace Cursor

variable {f : Nat → Nat} {c : Char}

def reindent (f : Nat → Nat) (c : Char) (p : Cursor) : Cursor :=
  ⟨p.pending.map (Text.reindentLine f c), p.consumed⟩

private theorem skip_reindent (f : Nat → Nat) (c : Char) (p : Cursor) (k : Nat) :
    (p.reindent f c).skip k = (p.skip k).reindent f c := by
  simp [skip, reindent]

theorem lineContent_reindentLine (indents : Text.isIndentChar c = true) (raw : Text) :
    (raw.reindentLine f c).lineContent = raw.lineContent := by
  rw [Text.lineContent, (Text.indentation_reindentLine f indents raw).2, Text.lineContent]

private theorem pipedRun_map (indents : Text.isIndentChar c = true) (lines : List Text) :
    pipedRun (lines.map (Text.reindentLine f c)) =
      (pipedRun lines).map (Text.reindentLine f c) := by
  simp only [pipedRun, List.takeWhile_map, Function.comp_def, lineContent_reindentLine indents]

private theorem joinPiped_map (indents : Text.isIndentChar c = true) (run : List Text) :
    joinPiped (run.map (Text.reindentLine f c)) = joinPiped run := by
  simp only [joinPiped, List.flatMap_map, lineContent_reindentLine indents]

theorem takeLine?_reindent (indents : Text.isIndentChar c = true) (p : Cursor) :
    (p.reindent f c).takeLine? =
      p.takeLine?.map fun (line, after) => (line.reindent f c, after.reindent f c) := by
  have pending : (p.reindent f c).pending = p.pending.map (Text.reindentLine f c) := rfl
  have consumed : (p.reindent f c).consumed = p.consumed := rfl
  simp only [takeLine?, skip_reindent, pending, consumed, pipedRun_map indents]
  cases p.pending with
  | nil => rfl
  | cons raw rest =>
    have front := (Text.indentation_reindentLine f indents raw).1
    cases pipedRun (raw :: rest) with
    | nil =>
      simp only [List.map_cons, List.map_nil, front, lineContent_reindentLine indents]
      rfl
    | cons first run =>
      have joined := joinPiped_map (f := f) indents (first :: run)
      simp only [List.map_cons, List.length_cons, List.length_map] at joined ⊢
      simp only [joined, front]
      rfl

theorem takeWithin?_reindent (increasing : StrictMono f) (indents : Text.isIndentChar c = true)
    (base? : Option Nat) (p : Cursor) :
    (p.reindent f c).takeWithin? (base?.map f) =
      (p.takeWithin? base?).map fun (line, after) => (line.reindent f c, after.reindent f c) := by
  cases base? with
  | none => exact takeLine?_reindent indents p
  | some base =>
    have pending : (p.reindent f c).pending = p.pending.map (Text.reindentLine f c) := rfl
    have consumed : (p.reindent f c).consumed = p.consumed := rfl
    simp only [Option.map_some, takeWithin?, takeBodyLine?, skip_reindent, pending, consumed,
      takeLine?_reindent indents]
    cases p.pending with
    | nil => rfl
    | cons raw rest =>
      obtain ⟨front, behind⟩ := Text.indentation_reindentLine f indents raw
      simp only [List.map_cons, front, behind, List.length_replicate, increasing.lt_iff_lt]
      split <;> rfl

end Cursor

/-- A line that is indented with spaces is the same to a tracker that knows the new widths. -/
theorem Line.alike_reindent (f : Nat → Nat) (c : Char) {line : Line}
    (spaced : ∀ d ∈ line.indent, d = ' ') :
    line.Alike f (Tracker.Uniform ' ' c) (line.reindent f c) :=
  Tracker.alike_of_uniform rfl (line.width_reindent f c) spaced fun _ member =>
    List.eq_of_mem_replicate member

namespace Tracker

variable {f : Nat → Nat} {c : Char} {line : Line} {t t' u : Tracker} {o after : Outline}
  {role : LineRole}

/-- What a line that is placed does to an outline is no matter of its indentation. -/
theorem enter_agree (line line' : Line) (o : Outline) :
    Agree Eq (fun _ => none) (Outline.enter line o) (Outline.enter line' o) := by
  simp only [Outline.enter]
  split
  · exact .waived rfl
  · exact .waived rfl
  · split
    · exact .waived rfl
    · exact .ok rfl

theorem handler_parallel_reindent (f : Nat → Nat) (c : Char) (line : Line) :
    Outline.handler.Parallel Outline.handler Eq (fun _ => none) line (line.reindent f c) where
  leave := by
    rintro o _ rfl
    simp only [Outline.handler, Outline.leave_eq]
    exact .ok rfl
  leaveFor := by
    rintro o _ rfl
    simp only [Outline.handler, Outline.leave_eq]
    exact .ok rfl
  mixed _ := .inl rfl
  unmatched := .inl rfl

/-- A line is placed in the same way with the new widths. -/
theorem Placement.reindent (increasing : StrictMono f) (zero : f 0 = 0)
    (spaced : ∀ d ∈ line.indent, d = ' ') (tracks : Tracks f (Uniform ' ' c) t t')
    (placed : Placement line t o role u after) :
    ∃ u', Placement (line.reindent f c) t' o role u' after ∧
      Tracks f (Uniform ' ' c) u u' := by
  have agree := process_agree increasing zero (handler_parallel_reindent f c line)
    (line.alike_reindent f c spaced) tracks rfl (enter_agree line (line.reindent f c) o)
  rw [process_of_placement placed] at agree
  obtain ⟨⟨u', _⟩, processed, tracks', rfl⟩ := agree.of_ok
  exact ⟨u', placement_of_process processed, tracks'⟩

end Tracker

namespace Text

private theorem trim_append_of_isWhiteSpace {pad : Text}
    (white : ∀ d ∈ pad, Unicode.isWhiteSpace d = true) (text : Text) :
    trim (pad ++ text) = trim text := by
  rw [trim, trimStart, List.dropWhile_append_of_pos white]
  rfl

/-- The indentation of a line is trimmed off, whatever it is. -/
theorem trim_reindentLine {f : Nat → Nat} {c : Char} (indents : isIndentChar c = true)
    (raw : Text) : trim (raw.reindentLine f c) = trim raw := by
  have front : ∀ d ∈ raw.indentation, isIndentChar d = true :=
    fun d member => List.mem_takeWhile_imp member
  have back : ∀ n, ∀ d ∈ List.replicate n c, isIndentChar d = true :=
    isIndentChar_of_mem_replicate indents
  rw [reindentLine,
    trim_append_of_isWhiteSpace fun d member => isWhiteSpace_of_isIndentChar (back _ d member),
    ← trim_append_of_isWhiteSpace fun d member => isWhiteSpace_of_isIndentChar (front d member),
    indentation_append_afterIndentation]

end Text

namespace Reading

variable {f : Nat → Nat} {c : Char} {text afterMark code : Text} {p p' : Cursor}

/-- Code on one line is read without the lines behind it, whatever these are. -/
theorem script_of_single (ok : script afterMark p = .ok code p') (single : '\n' ∉ code) :
    p' = p ∧ ∀ q, script afterMark q = .ok code q := by
  obtain ⟨visible, k, _, _, rfl, now, _⟩ := script_eq_ok ok
  have alone : p.pending.take k = [] := by
    cases taken : p.pending.take k with
    | nil => rfl
    | cons raw more =>
      rw [taken] at single
      exact absurd (by simp [Text.continued]) single
  rw [alone, Text.continued_nil] at now ok ⊢
  have atOnce := script_of_isStatement visible now
  rw [atOnce p] at ok
  cases ok
  exact ⟨rfl, atOnce⟩

theorem elementTail_of_single {tail : ElementTail} (ok : elementTail text p = .ok tail p')
    (single : ∀ code, tail = .script code → '\n' ∉ code) :
    p' = p ∧ ∀ q, elementTail text q = .ok tail q := by
  unfold elementTail at ok ⊢
  split at ok
  · split at ok
    · rename_i blank
      cases ok
      exact ⟨rfl, fun _ => by rw [if_pos blank]; rfl⟩
    · cases ok
  · obtain ⟨code, _, read, made⟩ := bind_eq_ok_iff.mp ok
    cases made
    obtain ⟨rfl, always⟩ := script_of_single read (single code rfl)
    exact ⟨rfl, fun q => bind_eq_ok_iff.mpr ⟨code, q, always q, rfl⟩⟩
  · cases ok
    exact ⟨rfl, fun _ => rfl⟩

/-- An attribute block is the same with its lines indented anew, because they are trimmed. -/
theorem agrees_gather_trim (indents : Text.isIndentChar c = true) (wanted : Text → Bool)
    (fault : Fault) (text : Text) :
    Agrees (fun p q => q = p.reindent f c) (fun _ => none)
      (gather wanted Text.trim fault text) := by
  rintro p _ rfl
  have trims : ∀ raw, Text.trim (raw.reindentLine f c) = Text.trim raw :=
    Text.trim_reindentLine indents
  simp only [gather, Cursor.reindent]
  rw [← Nat.add_zero p.consumed, Cursor.gatherFrom_map trims]
  obtain ⟨_ | gathered, after⟩ :=
    Cursor.gatherFrom wanted Text.trim p.pending p.consumed ⟨text, 1⟩
  · exact .waived rfl
  · exact .ok rfl

/-- An element is the same in the source that is indented anew. -/
theorem element_reindent (indents : Text.isIndentChar c = true) {element : Element}
    (ok : Reading.element text p = .ok element p')
    (single : ∀ code, element.tail = .script code → '\n' ∉ code) :
    Reading.element text (p.reindent f c) = .ok element (p'.reindent f c) := by
  cases declared : Element.declaration text with
  | error fault =>
    simp only [Reading.element, declared] at ok
    cases ok
  | ok declaration =>
    simp only [Reading.element, declared] at ok ⊢
    obtain ⟨⟨attributes, text⟩, q, block, rest⟩ := bind_eq_ok_iff.mp ok
    obtain ⟨tail, _, read, made⟩ := bind_eq_ok_iff.mp rest
    cases made
    have agrees : Agrees (fun p q => q = p.reindent f c) (fun _ => none)
        (attributes? declaration.2) :=
      (sequenced_waived _).attributes? (fun wanted text => agrees_gather_trim indents wanted _ text)
        _
    have same := agrees p _ rfl
    rw [block] at same
    obtain ⟨_, block', rfl⟩ := same.of_ok
    obtain ⟨rfl, always⟩ := elementTail_of_single read single
    exact bind_eq_ok_iff.mpr ⟨_, _, block', bind_eq_ok_iff.mpr ⟨tail, _, always _, rfl⟩⟩

/-- The node that a line begins is the same in the source that is indented anew, unless it has code
that goes on over several lines. -/
theorem node?_reindent (indents : Text.isIndentChar c = true) {number : Nat} {content : Content}
    {action : Reading Node} {node : Node} (begun : node? number content = some action)
    (ok : action p = .ok node p') (compact : node.HasCompactLine) :
    action (p.reindent f c) = .ok node (p'.reindent f c) := by
  cases content with
  | filter text => cases begun
  | element text =>
    cases begun
    obtain ⟨element, _, read, made⟩ := bind_eq_ok_iff.mp ok
    cases made
    have again := element_reindent (f := f) indents read ?_
    · exact bind_eq_ok_iff.mpr ⟨element, _, again, rfl⟩
    · intro code tail
      refine (compact.2 (.block number (.script code false) []) ?_).2 code rfl
      simp [Node.inline?, Head.inline?, ElementTail.node?, tail]
  | script afterMark | silentScript afterMark =>
    cases begun
    obtain ⟨code, _, read, made⟩ := bind_eq_ok_iff.mp ok
    cases made
    obtain ⟨rfl, always⟩ := script_of_single read (compact.1.2 code rfl)
    exact bind_eq_ok_iff.mpr ⟨code, _, always _, rfl⟩
  | brokenDoctype =>
    cases begun
    cases ok
  | doctype text | comment text | hamlComment | plain text =>
    cases begun
    cases ok
    rfl

end Reading

namespace ParseState

variable {registry : Registry} {source : Text} {f : Nat → Nat} {c : Char} {line : Line}
  {s t u : ParseState} {d : Document}

/-- The same state of a parse in the source that is indented anew: the position is the same, the
levels have the new widths, and the outline is the same. There is no filter block. -/
structure Reindented (f : Nat → Nat) (c : Char) (s t : ParseState) : Prop where
  cursor : t.cursor = s.cursor.reindent f c
  tracks : Tracker.Tracks f (Tracker.Uniform ' ' c) s.tracker t.tracker
  outline : t.outline = s.outline
  idle : s.collector = none ∧ t.collector = none

theorem Reindented.bodyBase?_eq (zero : f 0 = 0) (related : Reindented f c s t) :
    t.bodyBase? = s.bodyBase?.map f := by
  simp only [bodyBase?, related.idle.1, related.idle.2, related.outline,
    related.tracks.verbatimBase?_eq zero, related.tracks.width_eq zero]
  cases s.tracker.verbatimBase? with
  | some base => rfl
  | none =>
    simp only [Collector.baseWidth?]
    split <;> rfl

/-- What a line leads to, it leads to in the source that is indented anew. -/
theorem Reindented.taken (increasing : StrictMono f) (zero : f 0 = 0)
    (indents : Text.isIndentChar c = true) (spaced : ∀ d ∈ line.indent, d = ' ')
    (related : Reindented f c s t) (taken : Parsing.Taken line s u)
    (compact : u.Has (Outline.All Node.HasCompactLine) Node.HasCompactLine) :
    ∃ v, Parsing.Taken (line.reindent f c) t v ∧ Reindented f c u v := by
  obtain ⟨cursor, tracker, outline, collector⟩ := t
  obtain ⟨rfl, tracks, rfl, idle, rfl⟩ := related
  cases taken with
  | blank blank => exact ⟨_, .blank blank, rfl, tracks, rfl, idle, rfl⟩
  | verbatim placed =>
    obtain ⟨_, placed', tracks'⟩ := placed.reindent increasing zero spaced tracks
    exact ⟨_, .verbatim placed', rfl, tracks', rfl, idle, rfl⟩
  | node placed content read =>
    obtain ⟨_, placed', tracks'⟩ := placed.reindent increasing zero spaced tracks
    have own := (Outline.all_push.mp compact.1).2.self
    have read' := Reading.node?_reindent (f := f) indents content read own
    exact ⟨_, .node placed' content read', rfl, tracks', rfl, idle, rfl⟩
  | filter placed content started =>
    obtain ⟨output, leaf⟩ := compact.2 _ rfl
    exact absurd rfl leaf.1.1

/-- A parse goes on in the source that is indented anew. -/
theorem Reindented.advance? (increasing : StrictMono f) (zero : f 0 = 0)
    (indents : Text.isIndentChar c = true) (spaced : IndentedWith ' ' s.cursor.pending)
    (related : Reindented f c s t) (advanced : s.advance? registry = some (.ok () u))
    (compact : u.Has (Outline.All Node.HasCompactLine) Node.HasCompactLine) :
    ∃ v, t.advance? registry = some (.ok () v) ∧ Reindented f c u v := by
  obtain ⟨line, behind, taken, round⟩ := advance?_eq_ok_iff.mp advanced
  obtain ⟨read, moved⟩ := takeLine?_eq_some taken
  have indent := indent_of_takeWithin? spaced read
  have idle : behind.collector = none := by rw [moved, related.idle.1]
  have taken : Parsing.Taken line behind u := by
    cases round with
    | collected collecting | passed collecting | closed collecting =>
      cases idle.symm.trans collecting
    | taken _ taken => exact taken
  have related' : Reindented f c behind { t with cursor := behind.cursor.reindent f c } := by
    rw [moved]
    exact ⟨rfl, related.tracks, related.outline, related.idle⟩
  obtain ⟨v, taken', related''⟩ := related'.taken increasing zero indents indent taken compact
  refine ⟨v, advance?_eq_ok_iff.mpr ⟨_, _, ?_, .taken related'.idle.2 taken'⟩, related''⟩
  rw [takeLine?, related.cursor, related.bodyBase?_eq zero,
    Cursor.takeWithin?_reindent increasing indents, read]
  rfl

/-- From a state of a parse on, the source that is indented anew leads to the same document. -/
theorem readAll_reindent (increasing : StrictMono f) (zero : f 0 = 0)
    (indents : Text.isIndentChar c = true) (spaced : IndentedWith ' ' source.physicalLines)
    (reached : Reached registry source s) (related : Reindented f c s t)
    (parsed : s.readAll registry = .ok d) (compact : Node.All Node.HasCompactLine d.roots) :
    t.readAll registry = .ok d := by
  fun_induction readAll registry s generalizing t with
  | case1 s none =>
    have none' : t.advance? registry = .none := by
      rw [advance?_eq_none_iff] at none ⊢
      rw [related.cursor, Cursor.reindent, none, List.map_nil]
    have count : t.cursor.lineCount = s.cursor.lineCount := by
      simp only [related.cursor, Cursor.reindent, Cursor.lineCount, List.length_map]
    rw [conclude_of_idle related.idle.1] at parsed
    rw [readAll_of_advance_none none', conclude_of_idle related.idle.2, count, related.outline,
      related.tracks.levels, List.length_map, parsed]
  | case2 s after advanced ih =>
    have onward := reached.next advanced
    -- Only the whole document is known to be compact, so the rest of the run says what its nodes
    -- are after this round.
    have all := all_of_readAll Node.shallow_hasCompactLine (.of_reached onward) parsed compact
    obtain ⟨v, advanced', related'⟩ :=
      related.advance? increasing zero indents (reached.indentedWith spaced) advanced all
    rw [readAll_of_advance_ok advanced']
    exact ih onward related' parsed
  | case3 => cases parsed

end ParseState

/-- Indentation means no more than its order: a source that is indented with spaces gives the same
document when it is indented anew, with spaces or tabs, as long as wider lines stay wider. Only
filter blocks and code on several lines take indentation in, so there must be none. -/
theorem parse_reindent {registry : Registry} {source : Text} {d : Document} {f : Nat → Nat}
    {c : Char} (increasing : StrictMono f) (zero : f 0 = 0) (indents : c = ' ' ∨ c = '\t')
    (spaced : IndentedWith ' ' source.physicalLines)
    (parsed : Document.parse registry source = .ok d)
    (compact : ∀ node ∈ Node.preorderAll d.roots, node.HasCompactLine) :
    Document.parse registry (source.reindent f c) = .ok d := by
  have indents : Text.isIndentChar c = true := by
    obtain rfl | rfl := indents <;> rfl
  have related : ParseState.Reindented f c (.start source) (.start (source.reindent f c)) := by
    refine ⟨?_, ⟨rfl, nofun, nofun⟩, rfl, rfl, rfl⟩
    simp only [ParseState.start, Cursor.start, Cursor.reindent,
      Text.physicalLines_reindent increasing zero indents]
  exact ParseState.readAll_reindent increasing zero indents spaced .start related parsed compact

/-- Widths grow threefold and become tabs, in an attribute block, piped lines and the body of a Haml
comment as well. -/
theorem parse_reindent_tabs :
    Document.parse .builtins
        (Text.reindent (3 * ·) '\t'
          ("%ul\x7ba: 1,\n     b: 2\x7d\n  - if x\n    = y\n  - else\n    a |\n     b |\n" ++
            "  -#\n    c\n     d\n%p\n").toList) = .ok ⟨11, [
      .block 1 (.element { tag := "ul".toList, attributes? := some "a: 1,\nb: 2".toList }) [
        .block 3 (.silentScript "if x".toList true) [.block 4 (.script ['y'] false) []],
        .block 5 (.silentScript "else".toList false) [.leaf 6 (.text "a b".toList)],
        .block 8 .hamlComment [.leaf 9 (.text ['c']), .leaf 10 (.text ['d'])]],
      .block 11 (.element { tag := ['p'] }) []]⟩ := by
  have increasing : StrictMono (3 * · : Nat → Nat) := by
    intro a b less
    exact Nat.mul_lt_mul_of_pos_left less (Nat.succ_pos 2)
  exact parse_reindent increasing rfl (.inr rfl) (by decide +kernel) (by decide +kernel)
    (by decide +kernel)

end HamlTemplate
