import HamlTemplate.Parse.Document
import HamlTemplate.Proofs.Placement

/-!
# Rounds of a parse

One round of a parse reads a line and takes it in. `Round` says what a round that succeeds does,
and `acceptLine_eq_ok_iff` that it is nothing else: the line goes to the filter block, or it closes
that block first, or there is none; in the last two cases `Taken` says what becomes of it. A parse
that succeeds is a chain of rounds, so what holds at the beginning and is kept by a round holds of
every state that `Reached` describes.
-/

namespace HamlTemplate

namespace Reading

/-- Reads on as the content of a line asks for, and gives the node that the line begins. The line
of a filter begins none: its node is made when its block is over. -/
def node? (number : Nat) : Content → Option (Reading Node)
  | .element text => some do return .block number (.element (← element text)) []
  | .doctype text => some (pure (.leaf number (.doctype (Text.trim text))))
  | .brokenDoctype => some (fail .invalidDoctype)
  | .comment text => some (pure (.block number (.comment (Text.trim text)) []))
  | .script afterMark => some do return .block number (.script (← script afterMark) false) []
  | .silentScript afterMark =>
    some do return .block number (.silentScript (← script afterMark) false) []
  | .hamlComment => some (pure (.block number .hamlComment []))
  | .filter _ => none
  | .plain text => some (pure (.leaf number (.text text)))

/-- Whatever a line of content begins is read as readings are. -/
theorem Closed.node? {P : (α : Type) → Reading α → Prop} (closed : Closed P) {number : Nat}
    {content : Content} {action : Reading Node} (h : node? number content = some action) :
    P Node action := by
  cases content with
  | filter text => cases h
  | brokenDoctype =>
    cases h
    exact closed.fail _ rfl
  | element text =>
    cases h
    exact closed.bind (closed.element text) fun _ => closed.pure _
  | script afterMark | silentScript afterMark =>
    cases h
    exact closed.bind (closed.script afterMark) fun _ => closed.pure _
  | doctype text | comment text | hamlComment | plain text =>
    cases h
    exact closed.pure _

/-- What a line of content begins, read on from one position to another. -/
inductive Begins (number : Nat) (c : Cursor) : Content → Node → Cursor → Prop
  | element {text : Text} {e : Element} {c' : Cursor} (read : element text c = .ok e c') :
      Begins number c (.element text) (.block number (.element e) []) c'
  | doctype (text : Text) :
      Begins number c (.doctype text) (.leaf number (.doctype (Text.trim text))) c
  | comment (text : Text) :
      Begins number c (.comment text) (.block number (.comment (Text.trim text)) []) c
  | script {afterMark code : Text} {c' : Cursor} (read : script afterMark c = .ok code c') :
      Begins number c (.script afterMark) (.block number (.script code false) []) c'
  | silentScript {afterMark code : Text} {c' : Cursor} (read : script afterMark c = .ok code c') :
      Begins number c (.silentScript afterMark) (.block number (.silentScript code false) []) c'
  | hamlComment : Begins number c .hamlComment (.block number .hamlComment []) c
  | plain (text : Text) : Begins number c (.plain text) (.leaf number (.text text)) c

/-- The node of a filter comes only when its block is over. -/
theorem Begins.kind_ne_filter {number : Nat} {c c' : Cursor} {content : Content} {node : Node}
    (begins : Begins number c content node c') : node.kind ≠ .filter := by
  cases begins <;> nofun

theorem begins_of_node? {number : Nat} {content : Content} {action : Reading Node} {node : Node}
    {c c' : Cursor} (h : node? number content = some action) (ok : action c = .ok node c') :
    Begins number c content node c' := by
  cases content with
  | filter text => cases h
  | element text =>
    cases h
    obtain ⟨e, m, read, made⟩ := bind_eq_ok_iff.mp ok
    cases made
    exact .element read
  | script afterMark =>
    cases h
    obtain ⟨code, m, read, made⟩ := bind_eq_ok_iff.mp ok
    cases made
    exact .script read
  | silentScript afterMark =>
    cases h
    obtain ⟨code, m, read, made⟩ := bind_eq_ok_iff.mp ok
    cases made
    exact .silentScript read
  | brokenDoctype =>
    cases h
    cases ok
  | doctype text | comment text | hamlComment | plain text =>
    cases h
    cases ok
    constructor

/-- A node that a line has just begun is on that line and has nothing nested in it. -/
theorem node?_spec {number : Nat} {content : Content} {action : Reading Node} {node : Node}
    {c c' : Cursor} (h : node? number content = some action) (ok : action c = .ok node c') :
    node.line = number ∧ node.nested = [] ∧ c'.Follows c := by
  have forward := closed_forward.node? h c
  rw [Cursor.after, ok] at forward
  cases begins_of_node? h ok <;> exact ⟨rfl, rfl, forward⟩

end Reading

namespace Parsing

variable {α : Type} {registry : Registry} {line : Line} {s t : ParseState}

theorem reading_eq_ok_iff {action : Reading α} {a : α} :
    reading action s = .ok a t ↔ ∃ c, action s.cursor = .ok a c ∧ t = { s with cursor := c } := by
  rw [reading]
  cases action s.cursor with
  | ok b c =>
    constructor
    · intro h
      cases h
      exact ⟨c, rfl, rfl⟩
    · rintro ⟨_, h, rfl⟩
      cases h
      rfl
  | error => simp

theorem following_eq_ok_iff {action : EStateM SourceError (Tracker × Outline) α} {a : α} :
    following action s = .ok a t ↔ ∃ tracker outline,
      action (s.tracker, s.outline) = .ok a (tracker, outline) ∧
        t = { s with tracker, outline } := by
  rw [following]
  cases action (s.tracker, s.outline) with
  | ok b state =>
    constructor
    · intro h
      cases h
      exact ⟨state.1, state.2, rfl, rfl⟩
    · rintro ⟨_, _, h, rfl⟩
      cases h
      rfl
  | error => simp

/-- What a line adds when it is neither blank nor verbatim, if it is no filter line. -/
theorem add_of_node? {width number : Nat} {content : Content} {action : Reading Node}
    (h : Reading.node? number content = some action) :
    add width number content s = (reading action >>= push) s := by
  cases content with
  | filter text => cases h
  | element text =>
    cases h
    simp only [add, Bind.bind, EStateM.bind, reading, Pure.pure, EStateM.pure]
    cases Reading.element text s.cursor <;> rfl
  | script afterMark | silentScript afterMark =>
    cases h
    simp only [add, Bind.bind, EStateM.bind, reading, Pure.pure, EStateM.pure]
    cases Reading.script afterMark s.cursor <;> rfl
  | brokenDoctype | doctype text | comment text | hamlComment | plain text =>
    cases h
    rfl

/-- What a line leads to that no filter block takes. -/
inductive Taken (line : Line) (s : ParseState) : ParseState → Prop
  /-- A blank line changes nothing. -/
  | blank (blank : line.isBlank = true) : Taken line s s
  /-- A line of a verbatim body is a plain text. -/
  | verbatim {tracker : Tracker} {outline : Outline}
      (placed : Tracker.Placement line s.tracker s.outline .verbatim tracker outline) :
      Taken line s
        { s with tracker, outline := outline.push (.leaf line.number (.text line.text)) }
  /-- A line of content begins a node. -/
  | node {tracker : Tracker} {outline : Outline} {action : Reading Node} {node : Node}
      {cursor : Cursor}
      (placed : Tracker.Placement line s.tracker s.outline .structural tracker outline)
      (content : Reading.node? line.number (Content.ofText line.text) = some action)
      (read : action s.cursor = .ok node cursor) :
      Taken line s { s with cursor, tracker, outline := outline.push node }
  /-- A filter line begins a filter block. -/
  | filter {tracker : Tracker} {outline : Outline} {text : Text} {block : FilterBlock}
      (placed : Tracker.Placement line s.tracker s.outline .structural tracker outline)
      (content : Content.ofText line.text = .filter text)
      (started : FilterBlock.start text line.width line.number = .ok block) :
      Taken line s { s with tracker, outline, collector := some block }

theorem add_eq_ok_iff {width number : Nat} {content : Content} :
    add width number content s = .ok () t ↔
      (∃ action node c, Reading.node? number content = some action ∧
        action s.cursor = .ok node c ∧
        t = { s with cursor := c, outline := s.outline.push node }) ∨
      (∃ text block, content = .filter text ∧ FilterBlock.start text width number = .ok block ∧
        t = { s with collector := some block }) := by
  cases made : Reading.node? number content with
  | some action =>
    rw [add_of_node? made, bind_eq_ok_iff]
    constructor
    · rintro ⟨node, m, made, pushed⟩
      obtain ⟨c, read, rfl⟩ := reading_eq_ok_iff.mp made
      cases pushed
      exact .inl ⟨action, node, c, rfl, read, rfl⟩
    · rintro (⟨_, node, c, same, read, rfl⟩ | ⟨text, block, rfl, _⟩)
      · cases same
        exact ⟨node, _, reading_eq_ok_iff.mpr ⟨c, read, rfl⟩, rfl⟩
      · cases made
  | none =>
    cases content with
    | filter text =>
      simp only [add, collecting, Collector.start]
      cases started : FilterBlock.start text width number with
      | ok block =>
        constructor
        · intro h
          cases h
          exact .inr ⟨text, block, rfl, started, rfl⟩
        · rintro (⟨_, _, _, h, _⟩ | ⟨_, _, same, started', rfl⟩)
          · cases h
          · cases same
            cases started.symm.trans started'
            rfl
      | error e =>
        constructor
        · intro h
          cases h
        · rintro (⟨_, _, _, h, _⟩ | ⟨_, _, same, started', _⟩)
          · cases h
          · cases same
            cases started.symm.trans started'
    | _ => cases made

theorem placeLine_eq_ok_iff : placeLine line s = .ok () t ↔ Taken line s t := by
  rw [placeLine]
  rw [bind_eq_ok_iff]
  constructor
  · rintro ⟨role, m, followed, added⟩
    obtain ⟨tracker, outline, processed, rfl⟩ := following_eq_ok_iff.mp followed
    have placed := Tracker.process_eq_ok_iff.mp processed
    cases role with
    | blank =>
      cases added
      generalize role : LineRole.blank = role at placed
      cases placed with
      | blank blank => exact .blank blank
      | deeper => split at role <;> cases role
      | body | level | shallower => cases role
    | verbatim =>
      cases added
      exact .verbatim placed
    | structural =>
      obtain ⟨action, node, c, content, read, rfl⟩ | ⟨text, block, content, started, rfl⟩ :=
        add_eq_ok_iff.mp added
      · exact .node placed content read
      · exact .filter placed content started
  · intro taken
    cases taken with
    | blank blank =>
      exact ⟨.blank, s,
        following_eq_ok_iff.mpr ⟨_, _, Tracker.process_of_blank blank _ _, rfl⟩, rfl⟩
    | verbatim placed =>
      exact ⟨.verbatim, _, following_eq_ok_iff.mpr
        ⟨_, _, Tracker.process_eq_ok_iff.mpr placed, rfl⟩, rfl⟩
    | node placed content read =>
      exact ⟨.structural, _, following_eq_ok_iff.mpr
        ⟨_, _, Tracker.process_eq_ok_iff.mpr placed, rfl⟩,
        add_eq_ok_iff.mpr (.inl ⟨_, _, _, content, read, rfl⟩)⟩
    | filter placed content started =>
      exact ⟨.structural, _, following_eq_ok_iff.mpr
        ⟨_, _, Tracker.process_eq_ok_iff.mpr placed, rfl⟩,
        add_eq_ok_iff.mpr (.inr ⟨_, _, content, started, rfl⟩)⟩

/-- What a round does with the line that it has read. -/
inductive Round (registry : Registry) (line : Line) (s : ParseState) : ParseState → Prop
  /-- The filter block takes the line in. -/
  | collected {block : FilterBlock} (collecting : s.collector = some block)
      (outside : s.outline.inHamlComment = false) (within : block.endsAt line = false) :
      Round registry line s { s with collector := some (block.push line) }
  /-- A filter block inside a Haml comment would let the line pass. -/
  | passed {block : FilterBlock} (collecting : s.collector = some block)
      (inside : s.outline.inHamlComment = true) : Round registry line s s
  /-- The line ends the filter block, whose node is added, and is then taken itself. -/
  | closed {block : FilterBlock} {node : Node} {after : ParseState}
      (collecting : s.collector = some block) (outside : s.outline.inHamlComment = false)
      (ends : block.endsAt line = true) (finished : block.finish registry = .ok node)
      (taken : Taken line { s with collector := none, outline := s.outline.push node } after) :
      Round registry line s after
  /-- There is no filter block. -/
  | taken {after : ParseState} (idle : s.collector = none) (taken : Taken line s after) :
      Round registry line s after

/-- What an action on the collector hands out is added to the outline. -/
theorem pushOutput_eq (action : EStateM SourceError Collector (Option Node)) (s : ParseState) :
    pushOutput action s =
      match action s.collector with
      | .ok (some node) collector =>
        .ok () { s with collector, outline := s.outline.push node }
      | .ok none collector => .ok () { s with collector }
      | .error e collector => .error e { s with collector } := by
  simp only [pushOutput, Bind.bind, EStateM.bind, collecting]
  cases action s.collector with
  | ok node? collector => cases node? <;> rfl
  | error => rfl

theorem offerLine_eq (registry : Registry) (line : Line) (s : ParseState) :
    offerLine registry line s =
      if s.collector.isSome && !s.outline.inHamlComment then
        pushOutput (Collector.offer registry line) s
      else .ok () s := by
  have opened : offerLine registry line s =
      (if s.collector.isSome && !s.outline.inHamlComment then
        pushOutput (Collector.offer registry line)
      else pure ()) s := rfl
  rw [opened]
  split <;> rfl

theorem offerLine_of_idle (idle : s.collector = none) : offerLine registry line s = .ok () s := by
  simp [offerLine_eq, idle]

theorem offerLine_of_inHamlComment (inside : s.outline.inHamlComment = true) :
    offerLine registry line s = .ok () s := by
  simp [offerLine_eq, inside]

theorem offerLine_of_within {block : FilterBlock} (collecting : s.collector = some block)
    (outside : s.outline.inHamlComment = false) (within : block.endsAt line = false) :
    offerLine registry line s = .ok () { s with collector := some (block.push line) } := by
  simp [offerLine_eq, collecting, outside, pushOutput_eq, Collector.offer, within]

theorem offerLine_of_ends {block : FilterBlock} (collecting : s.collector = some block)
    (outside : s.outline.inHamlComment = false) (ends : block.endsAt line = true) :
    offerLine registry line s =
      match block.finish registry with
      | .ok node => .ok () { s with collector := none, outline := s.outline.push node }
      | .error e => .error e { s with collector := none } := by
  simp only [offerLine_eq, collecting, outside, Option.isSome_some, Bool.not_false, Bool.and_self,
    if_true, pushOutput_eq, Collector.offer, ends, Collector.finish]
  cases block.finish registry <;> rfl

/-- What comes of offering a line to the filter block. -/
inductive Offered (registry : Registry) (line : Line) (s : ParseState) :
    EStateM.Result SourceError ParseState Unit → Prop
  | idle (idle : s.collector = none) : Offered registry line s (.ok () s)
  | inside {block : FilterBlock} (collecting : s.collector = some block)
      (inside : s.outline.inHamlComment = true) : Offered registry line s (.ok () s)
  | within {block : FilterBlock} (collecting : s.collector = some block)
      (outside : s.outline.inHamlComment = false) (within : block.endsAt line = false) :
      Offered registry line s (.ok () { s with collector := some (block.push line) })
  | output {block : FilterBlock} {node : Node} (collecting : s.collector = some block)
      (outside : s.outline.inHamlComment = false) (ends : block.endsAt line = true)
      (finished : block.finish registry = .ok node) :
      Offered registry line s (.ok () { s with collector := none, outline := s.outline.push node })
  | unknown {block : FilterBlock} {e : SourceError} (collecting : s.collector = some block)
      (ends : block.endsAt line = true) (finished : block.finish registry = .error e) :
      Offered registry line s (.error e { s with collector := none })

theorem offered (registry : Registry) (line : Line) (s : ParseState) :
    Offered registry line s (offerLine registry line s) := by
  cases collecting : s.collector with
  | none =>
    rw [offerLine_of_idle collecting]
    exact .idle collecting
  | some block =>
    cases inside : s.outline.inHamlComment with
    | true =>
      rw [offerLine_of_inHamlComment inside]
      exact .inside collecting inside
    | false =>
      cases ends : block.endsAt line with
      | false =>
        rw [offerLine_of_within collecting inside ends]
        exact .within collecting inside ends
      | true =>
        rw [offerLine_of_ends collecting inside ends]
        cases finished : block.finish registry with
        | ok node => exact .output collecting inside ends finished
        | error e => exact .unknown collecting ends finished

/-- A line that the filter block has not kept to itself is placed. -/
theorem acceptLine_eq (registry : Registry) (line : Line) (s : ParseState) :
    acceptLine registry line s =
      match offerLine registry line s with
      | .ok () m => if m.collector.isNone then placeLine line m else .ok () m
      | .error e m => .error e m := by
  simp only [acceptLine, Bind.bind, EStateM.bind]
  cases offerLine registry line s with
  | ok a m =>
    show (if m.collector.isNone then placeLine line else pure ()) m = _
    simp only
    split <;> rfl
  | error => rfl

theorem acceptLine_of_round (round : Round registry line s t) :
    acceptLine registry line s = .ok () t := by
  rw [acceptLine_eq]
  cases round with
  | collected collecting outside within => rw [offerLine_of_within collecting outside within]; rfl
  | passed collecting inside => simp [offerLine_of_inHamlComment inside, collecting]
  | closed collecting outside ends finished taken =>
    rw [offerLine_of_ends collecting outside ends, finished]
    exact placeLine_eq_ok_iff.mpr taken
  | taken idle taken => simp [offerLine_of_idle idle, idle, placeLine_eq_ok_iff, taken]

theorem round_of_acceptLine (h : acceptLine registry line s = .ok () t) :
    Round registry line s t := by
  rw [acceptLine_eq] at h
  have offered := offered registry line s
  generalize offerLine registry line s = result at h offered
  cases offered with
  | idle idle =>
    simp only [idle, Option.isNone_none, if_true, placeLine_eq_ok_iff] at h
    exact .taken idle h
  | inside collecting inside =>
    simp only [collecting, Option.isNone_some, Bool.false_eq_true, if_false] at h
    cases h
    exact .passed collecting inside
  | within collecting outside within =>
    cases h
    exact .collected collecting outside within
  | output collecting outside ends finished =>
    exact .closed collecting outside ends finished (placeLine_eq_ok_iff.mp h)
  | unknown => cases h

/-- Taking in a line succeeds exactly with a round. -/
theorem acceptLine_eq_ok_iff : acceptLine registry line s = .ok () t ↔ Round registry line s t :=
  ⟨round_of_acceptLine, acceptLine_of_round⟩

end Parsing

namespace Cursor

/-- A line is read by itself, or it is piped and read with the piped lines behind it. -/
theorem takeLine?_cons {c : Cursor} {raw : Text} {rest : List Text}
    (pending : c.pending = raw :: rest) :
    c.takeLine? = some (
      if raw.lineContent.isPiped then
        (⟨raw.indentation, joinPiped (raw :: pipedRun rest), c.consumed + 1,
          (pipedRun rest).length + 1⟩, c.skip ((pipedRun rest).length + 1))
      else (⟨raw.indentation, raw.lineContent, c.consumed + 1, 1⟩, c.skip 1)) := by
  by_cases piped : raw.lineContent.isPiped = true
  · simp [takeLine?, pending, pipedRun, piped]
  · simp [takeLine?, pending, pipedRun, piped]

theorem takeLine?_eq_none_iff {c : Cursor} : c.takeLine? = none ↔ c.pending = [] := by
  cases pending : c.pending with
  | nil => simp [takeLine?, pending]
  | cons raw rest => simp [takeLine?_cons pending]

/-- No line can be read exactly at the end of the source. -/
theorem takeWithin?_eq_none_iff {c : Cursor} {base? : Option Nat} :
    c.takeWithin? base? = none ↔ c.pending = [] := by
  cases base? with
  | none => exact takeLine?_eq_none_iff
  | some base =>
    simp only [takeWithin?, takeBodyLine?]
    split
    · rename_i pending
      simp [pending]
    · rename_i raw rest pending
      split
      · simp [pending]
      · rw [takeLine?_eq_none_iff]

end Cursor

namespace ParseState

variable {registry : Registry} {source : Text} {s t : ParseState} {d : Document}

/-- A parse goes on exactly if it reads a line and a round takes that line in. -/
theorem advance?_eq_ok_iff :
    s.advance? registry = some (.ok () t) ↔
      ∃ line behind, s.takeLine? = some (line, behind) ∧ Parsing.Round registry line behind t := by
  simp only [advance?, Option.map_eq_some_iff, Prod.exists, Parsing.acceptLine_eq_ok_iff]

theorem advance?_eq_none_iff : s.advance? registry = none ↔ s.cursor.pending = [] := by
  rw [advance?, Option.map_eq_none_iff, takeLine?, Option.map_eq_none_iff,
    Cursor.takeWithin?_eq_none_iff]

/-- At the end of the source all levels are closed. -/
theorem conclude_of_idle {last : ParseState} (idle : last.collector = none) :
    last.conclude registry =
      .ok ⟨last.cursor.lineCount,
        (last.outline.closedTimes last.tracker.levels.length).finished⟩ := by
  simp only [conclude, Parsing.finish, Bind.bind, EStateM.bind, Parsing.pushOutput_eq,
    Collector.finish, idle, Parsing.following, Tracker.finish_eq]

/-- At the end of the source the filter block is finished and all levels are closed. -/
theorem conclude_of_collecting {last : ParseState} {block : FilterBlock}
    (collecting : last.collector = some block) :
    last.conclude registry =
      match block.finish registry with
      | .ok node =>
        .ok ⟨last.cursor.lineCount,
          ((last.outline.push node).closedTimes last.tracker.levels.length).finished⟩
      | .error e => .error e := by
  simp only [conclude, Parsing.finish, Bind.bind, EStateM.bind, Parsing.pushOutput_eq,
    Collector.finish, collecting]
  cases block.finish registry with
  | ok node => simp only [Parsing.following, Tracker.finish_eq]
  | error e => rfl

inductive Finished (registry : Registry) (s : ParseState) : Outline → Prop
  | idle (idle : s.collector = none) : Finished registry s s.outline
  | output {block : FilterBlock} {node : Node} (collecting : s.collector = some block)
      (finished : block.finish registry = .ok node) : Finished registry s (s.outline.push node)

theorem conclude_eq_ok {last : ParseState} (h : last.conclude registry = .ok d) :
    ∃ o, last.Finished registry o ∧
      d = ⟨last.cursor.lineCount, (o.closedTimes last.tracker.levels.length).finished⟩ := by
  cases collecting : last.collector with
  | none =>
    rw [conclude_of_idle collecting] at h
    cases h
    exact ⟨last.outline, .idle collecting, rfl⟩
  | some block =>
    rw [conclude_of_collecting collecting] at h
    cases finished : block.finish registry with
    | ok node =>
      rw [finished] at h
      cases h
      exact ⟨last.outline.push node, .output collecting finished, rfl⟩
    | error e => simp [finished] at h

/-- The states that a parse of a source goes through, each just before a line is read. -/
inductive Reached (registry : Registry) (source : Text) : ParseState → Prop
  | start : Reached registry source (.start source)
  | next {s t : ParseState} (reached : Reached registry source s)
      (advanced : s.advance? registry = some (.ok () t)) : Reached registry source t

/-- A parse goes on from every state that it reaches. -/
theorem Reached.parse_eq (reached : Reached registry source s) :
    Document.parse registry source = s.readAll registry := by
  induction reached with
  | start => rfl
  | next _ advanced ih => rw [ih, readAll_of_advance_ok advanced]

/-- The last state of a parse that gives a document is at the end of the source. -/
theorem exists_last_of_readAll (reached : Reached registry source s)
    (h : s.readAll registry = .ok d) :
    ∃ last, Reached registry source last ∧ last.cursor.pending = [] ∧
      last.conclude registry = .ok d := by
  fun_induction readAll registry s with
  | case1 s none => exact ⟨s, reached, advance?_eq_none_iff.mp none, h⟩
  | case2 s after advanced ih => exact ih (reached.next advanced) h
  | case3 => cases h

end ParseState

/-- Decides whether two results are equal. -/
instance decEqResult {ε α : Type} [DecidableEq ε] [DecidableEq α] : DecidableEq (Except ε α)
  | .ok a, .ok b => decidable_of_iff (a = b) (by simp)
  | .error e, .error f => decidable_of_iff (e = f) (by simp)
  | .ok _, .error _ | .error _, .ok _ => .isFalse nofun

theorem Document.exists_last_of_parse {registry : Registry} {source : Text} {d : Document}
    (h : Document.parse registry source = .ok d) :
    ∃ last, ParseState.Reached registry source last ∧ last.cursor.pending = [] ∧
      last.conclude registry = .ok d :=
  ParseState.exists_last_of_readAll .start h

end HamlTemplate
