import HamlTemplate.Proofs.EveryNode

/-!
# Where nodes come from

Every node of a document was begun by a line of its own: a line of a Haml comment's body, a line of
content, or the line of a filter, whose node is made when the block is over. What is nested in a
node and the flag of its script come later, so a node is compared with its beginning `bare` of both.
What a line can begin is then all that has to be looked at for a property of every node.
-/

namespace HamlTemplate

def Node.code? : Node → Option Text
  | block _ (.script code _) _ | block _ (.silentScript code _) _ => some code
  | _ => none

/-- The node as its line has begun it, with nothing nested in it and with its flag not set. -/
def Node.bare : Node → Node
  | leaf line l => leaf line l
  | block line head _ => block line (head.withMidBlock false) []

/-- All nodes of a document, each before those that belong to it, and the content of an element's
own line among them. -/
def Document.nodes (d : Document) : List Node :=
  (Node.preorderAll d.roots).flatMap fun node => node :: node.inline?.toList

/-- The node has been begun in a parse of the source. -/
inductive Node.Begun (registry : Registry) (source : Text) : Node → Prop
  /-- A line of a verbatim body is a plain text. -/
  | verbatim {s behind : ParseState} {line : Line} (reached : ParseState.Reached registry source s)
      (taken : s.takeLine? = some (line, behind)) :
      Begun registry source (.leaf line.number (.text line.text))
  /-- A line of content begins the node that is read from it. -/
  | content {s behind : ParseState} {line : Line} {node : Node} {cursor : Cursor}
      (reached : ParseState.Reached registry source s) (taken : s.takeLine? = some (line, behind))
      (begins :
        Reading.Begins line.number behind.cursor (Content.ofText line.text) node cursor) :
      Begun registry source node
  /-- A filter block is over when no line is left or the next line ends it. -/
  | filter {s : ParseState} {block : FilterBlock} {node : Node}
      (reached : ParseState.Reached registry source s) (collecting : s.collector = some block)
      (ended : ∀ line behind, s.takeLine? = some (line, behind) → block.endsAt line = true)
      (finished : block.finish registry = .ok node) : Begun registry source node

namespace Node

variable {P : Node → Prop} {node : Node} {d : Document}

theorem shallow_bare (P : Node → Prop) : Shallow fun node => P node.bare := by
  intro line head midBlock nested
  simp only [bare, Head.withMidBlock_withMidBlock]

/-- The content of a node's own line is bare. -/
theorem bare_of_inline? {child : Node} (h : node.inline? = some child) : child.bare = child := by
  obtain ⟨code, rfl⟩ | ⟨content, rfl⟩ := eq_of_inline? h
  · rfl
  · rfl

theorem all_of_nested_eq_nil (h : node.nested = []) : All P [node] ↔ P node := by
  cases node with
  | leaf line l => exact all_leaf
  | block line head nested =>
    have none : nested = [] := h
    rw [none, all_block]
    simp [All]

theorem mem_nodes_iff :
    node ∈ d.nodes ↔ node ∈ preorderAll d.roots ∨
      ∃ outer ∈ preorderAll d.roots, outer.inline? = some node := by
  simp only [Document.nodes, List.mem_flatMap, List.mem_cons, Option.mem_toList]
  constructor
  · rintro ⟨outer, member, rfl | inline⟩
    · exact .inl member
    · exact .inr ⟨outer, member, inline⟩
  · rintro (member | ⟨outer, member, inline⟩)
    · exact ⟨node, member, .inl rfl⟩
    · exact ⟨outer, member, .inr inline⟩

end Node

/-- A node that a line has just begun is bare. -/
theorem Reading.Begins.bare_eq {number : Nat} {content : Content} {node : Node} {c c' : Cursor}
    (begins : Begins number c content node c') : node.bare = node := by
  cases begins <;> rfl

namespace ParseState

open Node

variable {registry : Registry} {source : Text} {line : Line} {s behind m t : ParseState}
variable {block : FilterBlock}

def AllBegun (registry : Registry) (source : Text) (o : Outline) : Prop :=
  o.All fun node => Begun registry source node.bare

theorem allBegun_taken (reached : Reached registry source s)
    (read : s.takeLine? = some (line, behind)) (position : m.cursor = behind.cursor)
    (matched : Matched m.tracker.levels m.outline.heads) (taken : Parsing.Taken line m t)
    (h : AllBegun registry source m.outline) :
    AllBegun registry source t.outline := by
  have shallow := shallow_bare (Begun registry source)
  cases taken with
  | blank => exact h
  | verbatim placed =>
    apply Outline.all_push.mpr
    have moved := ((placed.moves matched).all_iff shallow).mpr h
    exact ⟨moved, all_leaf.mpr (.verbatim reached read)⟩
  | node placed content made =>
    rw [position] at made
    obtain ⟨_, empty, _⟩ := Reading.node?_spec content made
    have begins := Reading.begins_of_node? content made
    have begun : Begun registry source _ := .content reached read begins
    rw [← begins.bare_eq] at begun
    apply Outline.all_push.mpr
    have moved := ((placed.moves matched).all_iff shallow).mpr h
    exact ⟨moved, (all_of_nested_eq_nil empty).mpr begun⟩
  | filter placed => exact ((placed.moves matched).all_iff shallow).mpr h

theorem allBegun_output {node : Node} (reached : Reached registry source s)
    (collecting : s.collector = some block)
    (ended : ∀ line behind, s.takeLine? = some (line, behind) → block.endsAt line = true)
    (finished : block.finish registry = .ok node) (h : AllBegun registry source s.outline) :
    AllBegun registry source (s.outline.push node) := by
  have begun : Begun registry source node := .filter reached collecting ended finished
  obtain ⟨output, _, rfl⟩ := FilterBlock.finish_eq_ok finished
  exact Outline.all_push.mpr ⟨h, all_leaf.mpr begun⟩

theorem allBegun_of_reached (reached : Reached registry source s) :
    AllBegun registry source s.outline := by
  induction reached with
  | start =>
    constructor
    · intro node member
      cases member
    · intro block member
      cases member
  | @next s t reached advanced ih =>
    obtain ⟨line, behind, read, round⟩ := advance?_eq_ok_iff.mp advanced
    obtain ⟨_, moved⟩ := takeLine?_eq_some read
    have outline : behind.outline = s.outline := by rw [moved]
    rw [← outline] at ih
    have lockstep := (Lockstep.of_reached reached).takeLine? read
    cases round with
    | collected | passed => exact ih
    | closed collecting _ ends finished taken =>
      rw [moved] at collecting
      have pushed := allBegun_output reached collecting (by
        intro line' behind' read'
        cases read.symm.trans read'
        exact ends) finished (outline ▸ ih)
      rw [← outline] at pushed
      refine allBegun_taken reached read ?_ (lockstep.matched_push _) taken pushed
      rfl
    | taken _ taken => exact allBegun_taken reached read rfl lockstep.matched taken ih

end ParseState

/-- Every node of a document has been begun in the parse of its source. -/
theorem Document.begun_of_parse {registry : Registry} {source : Text} {d : Document}
    (h : Document.parse registry source = .ok d) :
    ∀ node ∈ Node.preorderAll d.roots, Node.Begun registry source node.bare := by
  obtain ⟨last, reached, ended, concluded⟩ := Document.exists_last_of_parse h
  obtain ⟨o, finished, rfl⟩ := ParseState.conclude_eq_ok concluded
  have begun : ParseState.AllBegun registry source o := by
    have before := ParseState.allBegun_of_reached reached
    cases finished with
    | idle => exact before
    | output collecting finished =>
      have none : last.takeLine? = none := by
        rw [ParseState.takeLine?, Option.map_eq_none_iff, Cursor.takeWithin?_eq_none_iff, ended]
      exact ParseState.allBegun_output reached collecting (by simp [none]) finished before
  have shallow := Node.shallow_bare (Node.Begun registry source)
  exact Node.all_reverse.mpr (((Outline.moves_closedTimes _ o).all_iff shallow).mpr begun).1

/-! ### The beginning of a filter block -/

/-- The text is a word. -/
def Text.IsWord (text : Text) : Prop := text ≠ [] ∧ ∀ c ∈ text, Unicode.isWord c = true

/-- A filter block has the name that its line gives behind the colon, which is a word. -/
theorem FilterBlock.start_eq_ok_name {text : Text} {width line : Nat} {block : FilterBlock}
    (h : start text width line = .ok block) : text = ':' :: block.name ∧ block.name.IsWord := by
  rw [start] at h
  split at h
  · rename_i name named
    cases h
    unfold name? at named
    split at named
    · split at named
      · rename_i word
        cases named
        refine ⟨rfl, ?_⟩
        simpa [Text.IsWord] using word
      · cases named
    · cases named
  · cases h

theorem Content.eq_of_ofText_eq_filter {text filter : Text} (h : ofText text = .filter filter) :
    filter = text := by
  unfold ofText at h
  split at h <;> cases h
  rfl

/-- A filter block that is collected behind a line, and was not before, begins with that line, and
nothing more has been read. -/
theorem Parsing.Taken.started {line : Line} {s t : ParseState} {block : FilterBlock}
    (taken : Taken line s t) (idle : s.collector = none) (begun : t.collector = some block) :
    FilterBlock.start line.text line.width line.number = .ok block ∧ t.cursor = s.cursor := by
  cases taken with
  | blank | verbatim | node => cases idle.symm.trans begun
  | filter _ content started =>
    cases begun
    rw [Content.eq_of_ofText_eq_filter content] at started
    exact ⟨started, rfl⟩

/-- A filter block that is being collected was begun by a line that names its filter. -/
theorem ParseState.exists_started {registry : Registry} {source : Text} {s : ParseState}
    {block : FilterBlock} (reached : Reached registry source s)
    (collecting : s.collector = some block) :
    ∃ earlier line behind, Reached registry source earlier ∧
      earlier.takeLine? = some (line, behind) ∧
      FilterBlock.start line.text line.width line.number = .ok { block with body := [] } := by
  induction reached generalizing block with
  | start => cases collecting
  | @next s t earlier advanced ih =>
    obtain ⟨line, behind, read, round⟩ := advance?_eq_ok_iff.mp advanced
    have same : behind.collector = s.collector := by rw [(takeLine?_eq_some read).2]
    have fresh : ∀ m, Parsing.Taken line m t → m.collector = none →
        FilterBlock.start line.text line.width line.number = .ok { block with body := [] } := by
      intro m taken idle
      have started := (taken.started idle collecting).1
      have empty := (FilterBlock.start_eq_ok started).2.2
      rw [started, ← empty]
    cases round with
    | collected kept =>
      cases collecting
      have begun := ih (same.symm.trans kept)
      exact begun
    | passed => exact ih (same.symm.trans collecting)
    | closed _ _ _ _ taken => exact ⟨s, line, behind, earlier, read, fresh _ taken rfl⟩
    | taken idle taken => exact ⟨s, line, behind, earlier, read, fresh _ taken idle⟩

end HamlTemplate
