import HamlTemplate.Proofs.Agreement
import HamlTemplate.Proofs.BlockKeyword
import HamlTemplate.Proofs.Gathering

/-!
# What follows a block that goes on

The flag of a script is set by the text of the line behind its block, and what is begun by that line
is decided apart from it. The two go together in part only. If the line has the hyphen of a script,
then it is a silent script whose code begins with the word that goes on with the block. A line with
that word and no hyphen sets the flag as well, and it is plain text.
-/

namespace HamlTemplate

open Unicode

namespace Text

variable {text more rest : Text}

/-- The text begins with one of the words that go on with a block, which stands on its own. -/
def startsMidBlock (text : Text) : Bool := midBlockWords.any text.startsWithWord

theorem startsMidBlock_iff : text.startsMidBlock = true ↔
    ∃ word ∈ midBlockWords, ∃ rest, text = word ++ rest ∧ ∀ c ∈ rest.head?, isWord c = false := by
  simp only [startsMidBlock, List.any_eq_true, startsWithWord_iff]

/-- What is behind the text does not matter if no word goes on there. -/
theorem startsMidBlock_append (h : text.startsMidBlock = true)
    (stops : ∀ c ∈ more.head?, isWord c = false) : startsMidBlock (text ++ more) = true := by
  obtain ⟨word, member, rest, rfl, stops'⟩ := startsMidBlock_iff.mp h
  refine startsMidBlock_iff.mpr ⟨word, member, rest ++ more, List.append_assoc _ _ _, ?_⟩
  cases rest with
  | nil => exact stops
  | cons c rest => exact stops'

/-- Nor does the white space at the end of the text. -/
theorem startsMidBlock_trimEnd (h : text.startsMidBlock = true) :
    (trimEnd text).startsMidBlock = true := by
  obtain ⟨word, member, rest, rfl, stops⟩ := startsMidBlock_iff.mp h
  have all : ∀ word ∈ midBlockWords, trimEnd word = word := by decide
  have trimmed := all word member
  refine startsMidBlock_iff.mpr ⟨word, member, trimEnd rest, ?_, ?_⟩
  · rw [trimEnd_append, trimmed]
    split
    · rename_i blank
      rw [blank, List.append_nil]
    · rfl
  · intro c first
    refine stops c ?_
    obtain ⟨white, split⟩ := trimEnd_isPrefix_self rest
    rw [← split, List.head?_append, Option.mem_def.mp first]
    rfl

/-- White space and a word are no mark of anything else. -/
private theorem ofText_of_visible {c : Char} (kind : isWhiteSpace c = true ∨ isWord c = true)
    (text : Text) :
    Content.ofText (c :: text) = .plain (c :: text) ∧
      Content.ofText ('-' :: c :: text) = .silentScript (c :: text) := by
  have unmarked : c ∉ "%!/=-#.:\\".toList := by
    intro member
    have all : "%!/=-#.:\\".toList.all (fun d => !isWhiteSpace d && !isWord d) = true := by decide
    have known := List.all_eq_true.mp all c member
    rw [Bool.and_eq_true, Bool.not_eq_true', Bool.not_eq_true'] at known
    obtain white | word := kind
    · cases white.symm.trans known.1
    · cases word.symm.trans known.2
  constructor
  · unfold Content.ofText
    split <;> simp_all
  · unfold Content.ofText
    split <;> simp_all

/-- A line that goes on with a block is a silent script if it has the hyphen of one, and else it is
plain text. -/
theorem ofText_of_continuesBlock (h : text.continuesBlock = true) :
    (∃ rest, text = '-' :: rest ∧ Content.ofText text = .silentScript rest ∧
      (trimStart rest).startsMidBlock = true) ∨
    (text.head? ≠ some '-' ∧ Content.ofText text = .plain text ∧
      (trimStart text).startsMidBlock = true) := by
  obtain ⟨word, member, hyphen, space, rest, rfl, marked, white, stops⟩ := continuesBlock_iff.mp h
  obtain ⟨unmarked, _, behind⟩ := leading_midBlock member white rest
  obtain ⟨⟨d, tail, rfl, _⟩, known⟩ := of_mem_midBlockWords member
  have starts : (trimStart (space ++ (d :: tail ++ rest))).startsMidBlock = true :=
    startsMidBlock_iff.mpr ⟨_, member, rest, behind, stops⟩
  obtain ⟨c, more, split, kind⟩ : ∃ c more, space ++ (d :: tail ++ rest) = c :: more ∧
      (isWhiteSpace c = true ∨ isWord c = true) := by
    cases space with
    | nil => exact ⟨d, tail ++ rest, rfl, .inr (known d List.mem_cons_self)⟩
    | cons c space => exact ⟨c, _, rfl, .inl (white c List.mem_cons_self)⟩
  rw [split] at unmarked starts ⊢
  obtain ⟨plain, script⟩ := ofText_of_visible kind more
  obtain rfl | rfl := marked
  · exact .inr ⟨unmarked, plain, starts⟩
  · exact .inl ⟨_, rfl, script, starts⟩

end Text

/-! ### What such a line begins -/

/-- A text with lines behind it begins as it does alone, up to a line feed. -/
private theorem Text.exists_continued_eq (tidy : Text → Text) (text : Text) (lines : List Text) :
    ∃ more, text.continued tidy lines = text ++ more ∧ ∀ d ∈ more.head?, d = '\n' := by
  cases lines with
  | nil =>
    refine ⟨[], ?_, nofun⟩
    rw [continued_nil, List.append_nil]
  | cons raw lines =>
    obtain ⟨rest, same⟩ := exists_continued_append tidy text [] (List.cons_ne_nil raw lines)
    rw [continued_nil] at same
    refine ⟨'\n' :: rest, same, ?_⟩
    rintro _ ⟨⟩
    rfl

theorem Reading.startsMidBlock_of_script {afterMark code : Text} {c c' : Cursor}
    (h : script afterMark c = .ok code c')
    (starts : (Text.trimStart afterMark).startsMidBlock = true) : code.startsMidBlock = true := by
  obtain ⟨_, k, _, _, rfl, _⟩ := script_eq_ok h
  obtain ⟨more, same, feed⟩ :=
    Text.exists_continued_eq Text.trimEnd (Text.trim afterMark) (c.pending.take k)
  rw [same]
  apply Text.startsMidBlock_append (Text.startsMidBlock_trimEnd starts)
  intro d first
  obtain rfl := feed d first
  decide

namespace Node

/-- A silent script that goes on with a block. -/
def isMidBlockScript : Node → Bool
  | block _ (.silentScript code _) _ => code.startsMidBlock
  | _ => false

/-- A plain text that begins with a word that goes on with a block. -/
def isMidBlockText : Node → Bool
  | leaf _ (.text content) => (Text.trimStart content).startsMidBlock
  | _ => false

/-- The node may have been begun by a line of the given text that goes on with a block. -/
def goesOn (text : Text) (node : Node) : Bool :=
  if text.head? = some '-' then node.isMidBlockScript else node.isMidBlockText

theorem goesOn_of_begins {text : Text} {number : Nat} {node : Node} {c c' : Cursor}
    (begins : Reading.Begins number c (Content.ofText text) node c')
    (continues : text.continuesBlock = true) : node.goesOn text = true := by
  obtain ⟨rest, rfl, content, starts⟩ | ⟨unmarked, content, starts⟩ :=
    Text.ofText_of_continuesBlock continues
  · rw [content] at begins
    cases begins with
    | silentScript read => exact Reading.startsMidBlock_of_script read starts
  · rw [content] at begins
    cases begins with
    | plain => simpa [goesOn, unmarked, isMidBlockText] using starts

/-- An element with content on its own line does not go on with a block. -/
theorem goesOn_of_inline? {node child : Node} (h : node.inline? = some child) (text : Text) :
    node.goesOn text = false := by
  cases node with
  | leaf line l => cases h
  | block line head nested =>
    cases head with
    | element e =>
      rw [goesOn]
      split <;> rfl
    | comment | hamlComment | script | silentScript => cases h

theorem shallow_goesOn (number : Nat) (text : Text) :
    Shallow fun node => ¬(node.line = number ∧ node.goesOn text = true) := by
  intro line head midBlock nested
  cases head <;> exact Iff.rfl

end Node

/-! ### The node in the document -/

/-- A line that closes a level is a line of content. -/
theorem Tracker.Placement.eq_structural {line : Line} {t t' : Tracker} {o after : Outline}
    {role : LineRole} (placed : Placement line t o role t' after) (admits : t.Admits line)
    (shallower : line.width < t.width) : role = .structural := by
  cases placed with
  | blank blank => cases blank.symm.trans admits.content
  | body _ inside => cases inside.symm.trans admits.notBody
  | deeper _ deeper => exact absurd deeper (Nat.lt_asymm shallower)
  | level | shallower => rfl

namespace Parsing

variable {registry : Registry} {line : Line} {s t : ParseState}

/-- A line that goes on with a block and closes a level begins a node that goes on with it. -/
theorem Taken.exists_goesOn (taken : Taken line s t) (admits : s.tracker.Admits line)
    (shallower : line.width < s.tracker.width) (continues : line.text.continuesBlock = true) :
    ∃ outline node, t.outline = Outline.push outline node ∧ node.line = line.number ∧
      node.goesOn line.text = true := by
  cases taken with
  | blank blank => cases blank.symm.trans admits.content
  | verbatim placed => cases placed.eq_structural admits shallower
  | node placed content read =>
    have begins := Reading.begins_of_node? content read
    obtain ⟨number, _⟩ := Reading.node?_spec content read
    exact ⟨_, _, rfl, number, Node.goesOn_of_begins begins continues⟩
  | filter placed content started =>
    obtain ⟨rest, _, script, _⟩ | ⟨_, plain, _⟩ := Text.ofText_of_continuesBlock continues
    · cases script.symm.trans content
    · cases plain.symm.trans content

theorem Round.exists_goesOn (round : Round registry line s t)
    (outside : ∀ block, s.collector = some block → s.outline.inHamlComment = false)
    (ends : ∀ block, s.collector = some block → block.endsAt line = true)
    (admits : s.tracker.Admits line) (shallower : line.width < s.tracker.width)
    (continues : line.text.continuesBlock = true) :
    ∃ outline node, t.outline = Outline.push outline node ∧ node.line = line.number ∧
      node.goesOn line.text = true := by
  cases round with
  | collected collecting _ within => cases within.symm.trans (ends _ collecting)
  | passed collecting inside => cases inside.symm.trans (outside _ collecting)
  | closed _ _ _ _ taken | taken _ taken => exact taken.exists_goesOn admits shallower continues

end Parsing

namespace ParseState

variable {registry : Registry} {source : Text} {s t : ParseState} {line : Line} {d : Document}

/-- A node that has been added to an outline on the way is in the document with its line, and goes
on with a block as before. -/
theorem exists_goesOn_of_push {outline : Outline} {node : Node} {text : Text}
    (lockstep : t.Lockstep) (h : t.readAll registry = .ok d)
    (pushed : t.outline = outline.push node) (goes : node.goesOn text = true) :
    ∃ final ∈ Node.preorderAll d.roots, final.line = node.line ∧ final.goesOn text = true := by
  -- What no node of the document is has been no node on the way.
  refine Decidable.byContradiction fun none => ?_
  have all : Node.All (fun final => ¬(final.line = node.line ∧ final.goesOn text = true))
      d.roots := by
    intro final member found
    exact none ⟨final, member, found⟩
  have before := (all_of_readAll (Node.shallow_goesOn _ _) lockstep h all).1
  rw [pushed, Outline.all_push] at before
  exact before.2.self ⟨rfl, goes⟩

/-- A line that closes a level and goes on with a block begins a node of the document that does. -/
theorem exists_goesOn (reached : Reached registry source s)
    (advanced : s.advance? registry = some (.ok () t)) {behind : ParseState}
    (taken : s.takeLine? = some (line, behind))
    (ends : ∀ block, s.collector = some block → block.endsAt line = true)
    (admits : s.tracker.Admits line) (shallower : line.width < s.tracker.width)
    (continues : line.text.continuesBlock = true) (h : Document.parse registry source = .ok d) :
    ∃ node ∈ Node.preorderAll d.roots, node.line = line.number ∧ node.goesOn line.text = true := by
  obtain ⟨_, _, taken', round⟩ := advance?_eq_ok_iff.mp advanced
  cases taken.symm.trans taken'
  have lockstep := Lockstep.of_reached reached
  have outside : ∀ block, s.collector = some block → s.outline.inHamlComment = false :=
    fun _ collecting => lockstep.outside_of_collecting collecting
  rw [(takeLine?_eq_some taken).2] at round
  obtain ⟨outline, node, pushed, number, goes⟩ :=
    round.exists_goesOn outside ends admits shallower continues
  rw [reached.parse_eq, readAll_of_advance_ok advanced] at h
  rw [← number]
  exact exists_goesOn_of_push (lockstep.advance? advanced) h pushed goes

end ParseState

/-- The line of the source with the given number goes on with a block, and a node of the document
has been begun by it. -/
def Document.continuesAt (d : Document) (source : Text) (n : Nat) : Bool :=
  ((Cursor.start source).skip (n - 1)).takeLine?.any fun (line, _) =>
    line.text.continuesBlock &&
      (Node.preorderAll d.roots).any fun node => node.line == n && node.goesOn line.text

namespace ParseState

variable {registry : Registry} {source : Text} {d : Document}

/-- From the document it can be told what the lines of a parse have begun. -/
theorem foresees_document (h : Document.parse registry source = .ok d) :
    Foresees registry source (d.continuesAt source) := by
  intro s t line behind reached taken advanced ends admits shallower
  have read := takeLine?_of_shallower reached taken ends admits shallower
  simp only [Document.continuesAt, read, Option.any_some]
  cases continues : line.text.continuesBlock with
  | false => rfl
  | true =>
    obtain ⟨node, member, number, goes⟩ :=
      exists_goesOn reached advanced taken ends admits shallower continues h
    rw [Bool.true_and, List.any_eq_true]
    exact ⟨node, member, by simp [number, goes]⟩

end ParseState

namespace Document

variable {registry : Registry} {source : Text} {d : Document} {node next : Node}

/-- The node on the line that has been foreseen has been begun by that line. -/
theorem goesOn_of_continuesAt (h : parse registry source = .ok d) (member : next ∈ d.nodes)
    (continues : d.continuesAt source next.line = true) :
    ∃ line behind, ((Cursor.start source).skip (next.line - 1)).takeLine? = some (line, behind) ∧
      next.goesOn line.text = true := by
  rw [continuesAt, Option.any_eq_true] at continues
  obtain ⟨⟨line, behind⟩, read, continues⟩ := continues
  obtain ⟨_, found⟩ := Bool.and_eq_true_iff.mp continues
  obtain ⟨node, inside, goes⟩ := List.any_eq_true.mp found
  obtain ⟨same, goes⟩ := Bool.and_eq_true_iff.mp goes
  refine ⟨line, behind, read, ?_⟩
  have ascending := List.pairwise_map.mp (lines_ascending h)
  obtain own | ⟨outer, within, inline⟩ := Node.mem_nodes_iff.mp member
  · rwa [← Node.eq_of_line_eq ascending inside own (eq_of_beq same)]
  · -- The content of an element's own line is on that line, but the element does not go on.
    rw [Node.line_of_inline? inline] at same
    obtain rfl := Node.eq_of_line_eq ascending inside within (eq_of_beq same)
    rw [Node.goesOn_of_inline? inline] at goes
    cases goes

end Document

/-- A script whose flag is set is followed by a node that has been begun by a line with a word that
goes on with a block. If the line has the hyphen of a script, the node is a silent script, and its
code begins with the word. Without the hyphen, it is a plain text that does. -/
theorem midBlock_follower_of_parse {registry : Registry} {source : Text} {d : Document}
    (h : Document.parse registry source = .ok d) :
    (∀ node ∈ d.nodes, ∃ siblings ∈ d.siblingLists, node ∈ siblings) ∧
    ∀ siblings ∈ d.siblingLists, ∀ elder node younger, siblings = elder ++ node :: younger →
      node.midBlock? = some true →
        ∃ next, younger.head? = some next ∧ ∃ line behind,
          ((Cursor.start source).skip (next.line - 1)).takeLine? = some (line, behind) ∧
            ((line.text.head? = some '-' ∧ next.isMidBlockScript = true) ∨
              (line.text.head? ≠ some '-' ∧ next.isMidBlockText = true)) := by
  refine ⟨fun node member => Document.exists_siblings member, ?_⟩
  intro siblings member elder node younger split set
  have row := Document.row_of_foresees (ParseState.foresees_document h) h member
  obtain ⟨_, continues⟩ := ((row.flagged split).eq_true_iff set).mp rfl
  rw [Option.any_map, Option.any_eq_true] at continues
  obtain ⟨next, following, continues⟩ := continues
  have inside : next ∈ siblings := by
    rw [split]
    simp [List.mem_of_mem_head? following]
  obtain ⟨line, behind, read, goes⟩ := Document.goesOn_of_continuesAt h
    (Document.mem_nodes_of_mem_siblings member inside) continues
  refine ⟨next, following, line, behind, read, ?_⟩
  rw [Node.goesOn] at goes
  split at goes
  · rename_i hyphen
    exact .inl ⟨hyphen, goes⟩
  · rename_i unmarked
    exact .inr ⟨unmarked, goes⟩

/-- The block of the condition goes on with `else`. The block of that is taken to go on as well,
because the text behind it begins with a word that could end it. -/
theorem midBlock_follower_of_parse_else :
    ∃ d, Document.parse .builtins "- if a\n  b\n- else\n  c\nend of list\n".toList = .ok d ∧
      d.roots.map Node.midBlock? = [some true, some true, none] ∧
      ∀ i < 2, ∃ next, d.roots[i + 1]? = some next ∧ ∃ line behind,
        ((Cursor.start "- if a\n  b\n- else\n  c\nend of list\n".toList).skip
          (next.line - 1)).takeLine? = some (line, behind) ∧
            ((line.text.head? = some '-' ∧ next.isMidBlockScript = true) ∨
              (line.text.head? ≠ some '-' ∧ next.isMidBlockText = true)) := by
  have parsed : Document.parse .builtins
      "- if a\n  b\n- else\n  c\nend of list\n".toList = .ok ⟨5, [
        .block 1 (.silentScript "if a".toList true) [.leaf 2 (.text ['b'])],
        .block 3 (.silentScript "else".toList true) [.leaf 4 (.text ['c'])],
        .leaf 5 (.text "end of list".toList)]⟩ := by
    decide +kernel
  have follower := (midBlock_follower_of_parse parsed).2 _ List.mem_cons_self
  refine ⟨_, parsed, rfl, ?_⟩
  intro i less
  obtain rfl | rfl : i = 0 ∨ i = 1 := by omega
  · exact follower [] _ [_, _] rfl rfl
  · exact follower [_] _ [_] rfl rfl

/-- The flag is set although a plain text follows, which is no code at all. -/
theorem exists_midBlock_before_text :
    ∃ d, Document.parse .builtins "- if a\n  b\nend of list\n".toList = .ok d ∧
      ∃ siblings ∈ d.siblingLists, ∃ elder node younger, siblings = elder ++ node :: younger ∧
        node.midBlock? = some true ∧
        younger.head? = some (.leaf 3 (.text "end of list".toList)) ∧
        ¬∃ next, younger.head? = some next ∧ next.isMidBlockScript = true := by
  have parsed : Document.parse .builtins "- if a\n  b\nend of list\n".toList = .ok ⟨3, [
      .block 1 (.silentScript "if a".toList true) [.leaf 2 (.text ['b'])],
      .leaf 3 (.text "end of list".toList)]⟩ := by
    decide +kernel
  refine ⟨_, parsed, _, List.mem_cons_self, [], _, [_], rfl, rfl, rfl, ?_⟩
  rintro ⟨next, following, script⟩
  cases following
  cases script

end HamlTemplate
