import HamlTemplate.Proofs.Concatenation
import HamlTemplate.Proofs.ErrorLines
import HamlTemplate.Proofs.EveryNode

/-!
# Blank lines

A blank line that is put where no filter block is collected moves what is behind it one line on, and
changes nothing else. The parse comes to the blank line as it came to that position before, because
nothing depends on lines that have not been read. It passes over the line, whatever it reads the
line as. From there on it runs in parallel with the parse that had no blank line there.
-/

namespace HamlTemplate

/-! ### What has been read before -/

namespace Reading

variable {α β : Type}

/-- An action that succeeds takes some lines, and does the same with whatever lines behind those. -/
def Stable (action : Reading α) : Prop :=
  ∀ c a after, action c = .ok a after →
    ∃ k ≤ c.pending.length, after = c.skip k ∧
      ∀ c' : Cursor, c'.consumed = c.consumed → c'.pending.take k = c.pending.take k →
        action c' = .ok a (c'.skip k)

theorem Stable.bind {action : Reading α} {next : α → Reading β} (first : Stable action)
    (rest : ∀ a, Stable (next a)) : Stable (action >>= next) := by
  intro c b after read
  obtain ⟨a, m, begun, ended⟩ := bind_eq_ok_iff.mp read
  obtain ⟨k, bound, rfl, again⟩ := first c a m begun
  obtain ⟨j, bound', rfl, again'⟩ := rest a (c.skip k) b after ended
  rw [Cursor.pending_skip, List.length_drop] at bound'
  refine ⟨k + j, by omega, Cursor.skip_skip c k j, ?_⟩
  intro c' consumed same
  have front : c'.pending.take k = c.pending.take k := by
    have shorter := congrArg (List.take k) same
    rwa [List.take_take, List.take_take, Nat.min_eq_left (Nat.le_add_right k j)] at shorter
  have back : (c'.skip k).pending.take j = (c.skip k).pending.take j := by
    have later := congrArg (List.drop k) same
    rwa [List.drop_take, List.drop_take, Nat.add_sub_cancel_left] at later
  refine bind_eq_ok_iff.mpr ⟨a, c'.skip k, again c' consumed front, ?_⟩
  rw [← Cursor.skip_skip]
  exact again' (c'.skip k) (by simp [consumed]) back

theorem closed_stable : Closed fun _ action => Stable action where
  pure a c a' after read := by
    cases read
    exact ⟨0, Nat.zero_le _, rfl, fun _ _ _ => rfl⟩
  bind first rest := first.bind rest
  fail fault _ c a after read := by cases read
  gather wanted tidy _ _ text c gathered after read := by
    obtain ⟨k, bound, rfl, rfl, now, before⟩ := gather_eq_ok read
    refine ⟨k, bound, rfl, ?_⟩
    intro c' consumed same
    have bound' : k ≤ c'.pending.length := by
      have count := congrArg List.length same
      simp only [List.length_take] at count
      omega
    have before' : ∀ j < k, wanted (text.continued tidy (c'.pending.take j)) = false := by
      intro j less
      have shorter := congrArg (List.take j) same
      rw [List.take_take, List.take_take, Nat.min_eq_left (Nat.le_of_lt less)] at shorter
      rw [shorter]
      exact before j less
    rw [gather_of_wanted bound' (same ▸ now) before', same]

end Reading

namespace Cursor

variable {c c' after : Cursor} {line : Line} {base? : Option Nat} {ahead rest rest' : List Text}

theorem pipedRun_eq_nil_iff :
    pipedRun rest = [] ↔ ∀ raw ∈ rest.head?, raw.lineContent.isPiped = false := by
  cases rest with
  | nil => simp [pipedRun]
  | cons raw rest => cases piped : raw.lineContent.isPiped <;> simp [pipedRun, piped]

/-- A run of piped lines that ends before some lines ends before others as well, if these do not
begin with a piped line where the first ones do not. -/
private theorem pipedRun_congr (within : (pipedRun (ahead ++ rest)).length ≤ ahead.length)
    (unpiped : pipedRun rest = [] → pipedRun rest' = []) :
    pipedRun (ahead ++ rest') = pipedRun (ahead ++ rest) := by
  unfold pipedRun at within unpiped ⊢
  rw [List.takeWhile_append] at within ⊢
  rw [List.takeWhile_append]
  split at within
  · rename_i whole
    have ended : (rest.takeWhile fun raw => raw.lineContent.isPiped) = [] := by
      rw [List.length_append] at within
      exact List.length_eq_zero_iff.mp (by omega)
    rw [if_pos whole, if_pos whole, unpiped ended, ended]
  · rename_i part
    rw [if_neg part, if_neg part]

/-- A line is read again where the same lines are before another rest that does not go on with
it. -/
private theorem takeWithin?_congr (pending : c.pending = ahead ++ rest)
    (pending' : c'.pending = ahead ++ rest') (consumed : c'.consumed = c.consumed)
    (unpiped : pipedRun rest = [] → pipedRun rest' = [])
    (taken : c.takeWithin? base? = some (line, after)) (within : line.span ≤ ahead.length) :
    c'.takeWithin? base? = some (line, c'.skip line.span) := by
  obtain ⟨_, positive, _, _⟩ := takeWithin?_eq_some taken
  obtain ⟨raw, more, rfl⟩ : ∃ raw more, ahead = raw :: more :=
    List.exists_cons_of_length_pos (by omega)
  rw [List.cons_append] at pending pending'
  have logical : c.takeLine? = some (line, after) →
      c'.takeLine? = some (line, c'.skip line.span) := by
    intro taken
    rw [takeLine?_cons pending] at taken
    rw [takeLine?_cons pending', consumed]
    split at taken
    · rename_i piped
      cases taken
      have same : pipedRun (more ++ rest') = pipedRun (more ++ rest) :=
        pipedRun_congr (Nat.le_of_succ_le_succ within) unpiped
      rw [if_pos piped, same]
    · rename_i single
      cases taken
      rw [if_neg single]
  cases base? with
  | none => exact logical taken
  | some base =>
    simp only [takeWithin?, takeBodyLine?, pending, pending'] at taken ⊢
    split at taken
    · rename_i body
      cases taken
      rw [if_pos body, consumed]
    · rename_i ended
      rw [if_neg ended]
      exact logical taken

end Cursor

namespace Parsing

variable {registry : Registry} {line : Line} {s t : ParseState}

/-- What is done with a line depends on the lines that are read on from it only. -/
theorem Taken.congr (taken : Taken line s t) :
    ∃ k ≤ s.cursor.pending.length, t.cursor = s.cursor.skip k ∧
      ∀ c' : Cursor, c'.consumed = s.cursor.consumed →
        c'.pending.take k = s.cursor.pending.take k →
        Taken line { s with cursor := c' } { t with cursor := c'.skip k } := by
  cases taken with
  | blank blank => exact ⟨0, Nat.zero_le _, rfl, fun c' _ _ => .blank blank⟩
  | verbatim placed => exact ⟨0, Nat.zero_le _, rfl, fun c' _ _ => .verbatim placed⟩
  | node placed content read =>
    obtain ⟨k, bound, moved, again⟩ := Reading.closed_stable.node? content _ _ _ read
    exact ⟨k, bound, moved, fun c' consumed same => .node placed content (again c' consumed same)⟩
  | filter placed content started =>
    exact ⟨0, Nat.zero_le _, rfl, fun c' _ _ => .filter placed content started⟩

theorem Round.congr (round : Round registry line s t) :
    ∃ k ≤ s.cursor.pending.length, t.cursor = s.cursor.skip k ∧
      ∀ c' : Cursor, c'.consumed = s.cursor.consumed →
        c'.pending.take k = s.cursor.pending.take k →
        Round registry line { s with cursor := c' } { t with cursor := c'.skip k } := by
  cases round with
  | collected collecting outside within =>
    exact ⟨0, Nat.zero_le _, rfl, fun c' _ _ => .collected collecting outside within⟩
  | passed collecting inside =>
    exact ⟨0, Nat.zero_le _, rfl, fun c' _ _ => .passed collecting inside⟩
  | closed collecting outside ends finished taken =>
    obtain ⟨k, bound, moved, again⟩ := taken.congr
    exact ⟨k, bound, moved, fun c' consumed same =>
      .closed collecting outside ends finished (again c' consumed same)⟩
  | taken idle taken =>
    obtain ⟨k, bound, moved, again⟩ := taken.congr
    exact ⟨k, bound, moved, fun c' consumed same => .taken idle (again c' consumed same)⟩

end Parsing

namespace ParseState

variable {registry : Registry} {source other : Text} {s t : ParseState}
  {ahead rest rest' : List Text}

/-- A round is taken again where the same lines are before another rest that does not go on with
the line. -/
theorem advance?_congr {c' : Cursor} (advanced : s.advance? registry = some (.ok () t))
    (pending : s.cursor.pending = ahead ++ rest) (pending' : c'.pending = ahead ++ rest')
    (consumed : c'.consumed = s.cursor.consumed)
    (unpiped : Cursor.pipedRun rest = [] → Cursor.pipedRun rest' = [])
    (within : rest.length ≤ t.cursor.pending.length) :
    ∃ k, t.cursor = s.cursor.skip k ∧
      ({ s with cursor := c' } : ParseState).advance? registry =
        some (.ok () { t with cursor := c'.skip k }) := by
  obtain ⟨line, behind, taken, round⟩ := advance?_eq_ok_iff.mp advanced
  obtain ⟨read, moved⟩ := takeLine?_eq_some taken
  obtain ⟨position, _, bound, _⟩ := Cursor.takeWithin?_eq_some read
  obtain ⟨k, bound', further, again⟩ := round.congr
  rw [position, Cursor.pending_skip, List.length_drop] at bound'
  rw [position, Cursor.skip_skip] at further
  have inside : line.span + k ≤ ahead.length := by
    have count := congrArg List.length pending
    rw [List.length_append] at count
    rw [further, Cursor.pending_skip, List.length_drop] at within
    omega
  have read' := Cursor.takeWithin?_congr pending pending' consumed unpiped read (by omega)
  have taken' : ({ s with cursor := c' } : ParseState).takeLine? =
      some (line, { s with cursor := c'.skip line.span }) := by
    have same : ({ s with cursor := c' } : ParseState).bodyBase? = s.bodyBase? := rfl
    rw [takeLine?, same, read']
    rfl
  refine ⟨line.span + k, further, advance?_eq_ok_iff.mpr ⟨line, _, taken', ?_⟩⟩
  have onward := again (c'.skip line.span) (by simp [position, consumed]) (by
    rw [position, Cursor.pending_skip, Cursor.pending_skip, pending, pending',
      List.drop_append_of_le_length (by omega), List.drop_append_of_le_length (by omega),
      List.take_append_of_le_length (by rw [List.length_drop]; omega),
      List.take_append_of_le_length (by rw [List.length_drop]; omega)])
  rw [moved, Cursor.skip_skip] at onward
  exact onward

/-- A parse comes to a position as it does in every source that has the same lines before it, if the
line behind it is not joined with them where it was not before. -/
theorem Reached.congr_of_pipedRun {n : Nat} (reached : Reached registry source s)
    (lines : other.physicalLines = source.physicalLines.take n ++ rest')
    (unpiped : Cursor.pipedRun (source.physicalLines.drop n) = [] → Cursor.pipedRun rest' = [])
    (within : s.cursor.consumed ≤ n) (bound : n ≤ source.physicalLines.length) :
    Reached registry other
      { s with cursor := (Cursor.start other).skip s.cursor.consumed } := by
  induction reached with
  | start => exact .start
  | @next s t earlier advanced ih =>
    obtain ⟨line, behind, taken, _⟩ := advance?_eq_ok_iff.mp advanced
    have forward := ((advance?_cursor advanced taken).trans (takeLine?_number taken).2.2.2)
    have onward := forward.consumed_le
    have position := earlier.follows.pending_eq
    have count := lineCount_of_reached (earlier.next advanced)
    rw [Cursor.lineCount] at count
    have pending : s.cursor.pending =
        (source.physicalLines.take n).drop s.cursor.consumed ++ source.physicalLines.drop n := by
      conv_lhs => rw [position, ← List.take_append_drop n source.physicalLines]
      exact List.drop_append_of_le_length (by rw [List.length_take]; omega)
    have pending' : ((Cursor.start other).skip s.cursor.consumed).pending =
        (source.physicalLines.take n).drop s.cursor.consumed ++ rest' := by
      rw [Cursor.pending_skip, Cursor.start, lines]
      exact List.drop_append_of_le_length (by rw [List.length_take]; omega)
    obtain ⟨k, moved, advanced'⟩ := advance?_congr advanced pending pending'
      (by simp [Cursor.start]) unpiped (by rw [List.length_drop]; omega)
    rw [Cursor.skip_skip] at advanced'
    have consumed : t.cursor.consumed = s.cursor.consumed + k := by rw [moved, Cursor.consumed_skip]
    rw [consumed]
    exact (ih (by omega)).next advanced'

/-- A parse comes to a position as it does in every source that has the same lines before it, if the
line behind it is not joined with them. -/
theorem Reached.congr {n : Nat} (reached : Reached registry source s)
    (lines : other.physicalLines = source.physicalLines.take n ++ rest')
    (unpiped : ∀ raw ∈ rest'.head?, raw.lineContent.isPiped = false)
    (within : s.cursor.consumed ≤ n) (bound : n ≤ source.physicalLines.length) :
    Reached registry other
      { s with cursor := (Cursor.start other).skip s.cursor.consumed } :=
  reached.congr_of_pipedRun lines (fun _ => Cursor.pipedRun_eq_nil_iff.mpr unpiped) within bound

end ParseState

/-! ### The blank line -/

theorem Text.lineContent_of_blank {raw : Text} (blank : ∀ c ∈ raw, isIndentChar c = true) :
    raw.lineContent = [] := by
  have empty : raw.afterIndentation = [] := List.dropWhile_eq_nil_iff.mpr blank
  rw [lineContent, empty, trimEnd_nil]

namespace ParseState

variable {registry : Registry} {source : Text} {s t : ParseState} {rest : List Text}

/-- A blank line is passed over, whatever it is read as. -/
theorem advance?_of_blank {raw : Text} (blank : ∀ c ∈ raw, Text.isIndentChar c = true)
    (idle : s.collector = none) (pending : s.cursor.pending = raw :: rest) :
    s.advance? registry = some (.ok () { s with cursor := s.cursor.skip 1 }) := by
  have empty : raw.afterIndentation = [] := List.dropWhile_eq_nil_iff.mpr blank
  have content := Text.lineContent_of_blank blank
  have read : s.cursor.takeWithin? s.bodyBase? =
      some (⟨raw.indentation, [], s.cursor.consumed + 1, 1⟩, s.cursor.skip 1) := by
    cases s.bodyBase? with
    | none =>
      show s.cursor.takeLine? = _
      rw [Cursor.takeLine?_cons pending, content, if_neg (by decide)]
    | some base =>
      simp only [Cursor.takeWithin?, Cursor.takeBodyLine?, pending, empty, true_or, if_true]
  have taken : s.takeLine? = some (⟨raw.indentation, [], s.cursor.consumed + 1, 1⟩,
      { s with cursor := s.cursor.skip 1 }) := by
    rw [takeLine?, read]
    rfl
  exact advance?_eq_ok_iff.mpr ⟨_, _, taken, .taken idle (.blank rfl)⟩

/-! ### What is behind it -/

/-- No line of the nodes read so far is behind the position. -/
theorem Reached.lines_le (reached : Reached registry source s) :
    ∀ line ∈ s.lines, line ≤ s.cursor.consumed := by
  induction reached with
  | start => nofun
  | @next s t reached advanced ih =>
    intro number member
    obtain ⟨line, behind, taken, _⟩ := advance?_eq_ok_iff.mp advanced
    obtain ⟨low, high, _, _⟩ := takeLine?_number taken
    have onward := (advance?_cursor advanced taken).consumed_le
    rw [lines_advance (.of_reached reached) advanced, List.mem_append] at member
    obtain before | now := member
    · have earlier := ih number before
      omega
    · obtain ⟨placed, member, rfl⟩ := List.mem_map.mp now
      obtain ⟨behind', taken'⟩ := mem_placed? (Option.mem_toList.mp (List.mem_filter.mp member).1)
      cases taken.symm.trans taken'
      omega

end ParseState

private theorem Node.forall_mem_lines_reverse {p : Nat → Prop} {nodes : List Node} :
    (∀ line ∈ lines nodes.reverse, p line) ↔ ∀ line ∈ lines nodes, p line := by
  rw [lines, lines, List.forall_mem_map, List.forall_mem_map]
  exact all_reverse (P := fun node => p node.line)

theorem Outline.forall_mem_lines {p : Nat → Prop} {o : Outline} :
    (∀ line ∈ o.lines, p line) ↔
      (∀ line ∈ Node.lines o.roots, p line) ∧
        ∀ block ∈ o.openBlocks, p block.line ∧ ∀ line ∈ Node.lines block.nested, p line := by
  have blocks : ∀ blocks : List OpenBlock, (∀ line ∈ linesOfBlocks blocks, p line) ↔
      ∀ block ∈ blocks, p block.line ∧ ∀ line ∈ Node.lines block.nested, p line := by
    intro blocks
    induction blocks with
    | nil => simp [linesOfBlocks]
    | cons block outer ih =>
      rw [linesOfBlocks, List.forall_mem_append, List.forall_mem_cons, List.forall_mem_cons, ih,
        Node.forall_mem_lines_reverse, and_comm]
  rw [lines, List.forall_mem_append, Node.forall_mem_lines_reverse, blocks]

/-- Where a line is once another one has been put behind the first `count` lines. -/
def displaced (count line : Nat) : Nat := if count < line then line + 1 else line

private theorem displaced_of_lt {count line : Nat} (behind : count < line) :
    displaced count line = line + 1 :=
  if_pos behind

private theorem displaced_of_le {count line : Nat} (before : line ≤ count) :
    displaced count line = line :=
  if_neg (Nat.not_lt.mpr before)

/-- Positions that are no nearer than where the line has been put run in parallel with those one
line further on. -/
theorem Cursor.parallelRuns_displaced (count : Nat) :
    ParallelRuns (fun c c' => c' = c.later 1 ∧ count ≤ c.consumed) Eq
      (fun e => some (e.shift 1)) 1 :=
  parallelRuns_of_kept 1 (fun _ _ near => Nat.le_add_right_of_le near)
    fun _ _ line _ _ _ => line.alike_shift 1

/-- What has been read keeps its lines. -/
theorem ParseState.Reached.outline_displaced {registry : Registry} {source : Text} {s : ParseState}
    (reached : Reached registry source s) :
    s.outline.renumber (displaced s.cursor.consumed) [] = s.outline := by
  have fixed : ∀ line ∈ s.outline.lines, displaced s.cursor.consumed line = line :=
    fun line member => displaced_of_le (reached.lines_le line (List.mem_append_left _ member))
  obtain ⟨roots, blocks⟩ := Outline.forall_mem_lines.mp fixed
  exact Outline.renumber_of_fixed roots blocks

/-- A parse in which no filter block is collected goes on alike one line further on. -/
theorem ParseState.readAll_displaced {registry : Registry} {source : Text} {s : ParseState}
    (reached : Reached registry source s) (idle : s.collector = none) :
    ({ s with cursor := s.cursor.later 1 } : ParseState).readAll registry =
      match s.readAll registry with
      | .ok d => .ok ⟨d.lineCount + 1, d.roots.map (Node.renumber (displaced s.cursor.consumed))⟩
      | .error e => .error ⟨e.fault, displaced s.cursor.consumed e.line⟩ := by
  have parallel := Cursor.parallelRuns_displaced s.cursor.consumed
  have further : Cursor.Renumbers (fun c c' => c' = c.later 1 ∧ s.cursor.consumed ≤ c.consumed)
      (displaced s.cursor.consumed) 1 :=
    fun _ _ related _ behind => displaced_of_lt (Nat.lt_of_le_of_lt related.2 behind)
  have renumbered : s.Renumbered (fun c c' => c' = c.later 1 ∧ s.cursor.consumed ≤ c.consumed) Eq
      (displaced s.cursor.consumed) 1 [] { s with cursor := s.cursor.later 1 } := by
    refine ⟨⟨rfl, Nat.le_refl _⟩, ⟨by simp, rfl⟩, reached.outline_displaced.symm, ?_, ?_⟩
    · rw [idle]
      rfl
    · rw [idle]
      nofun
  have behind : ∀ e, s.readAll registry = .error e →
      e.shift 1 = ⟨e.fault, displaced s.cursor.consumed e.line⟩ := by
    intro e failed
    obtain ⟨block, collecting, _⟩ | later := line_of_readAll_eq_error failed
    · cases idle.symm.trans collecting
    · rw [displaced_of_lt later]
      rfl
  obtain ⟨e, failed, waived | same⟩ | ⟨last, last', _, _, atEnd, renumbered, ended, onward⟩ :=
    readAll_renumbered parallel further reached (fun _ _ => rfl) renumbered
  · cases waived
  · rw [failed, same, behind e failed]
  · have position := renumbered.cursor.1
    have atEnd' : last'.cursor.pending = [] := by
      rw [position]
      exact atEnd
    rw [ended] at behind
    rw [onward, ended, readAll_of_advance_none (advance?_eq_none_iff.mpr atEnd'),
      renumbered.conclude_eq]
    cases concluded : last.conclude registry with
    | error e => exact congrArg Except.error (behind e concluded)
    | ok d =>
      obtain ⟨_, _, rfl⟩ := conclude_eq_ok concluded
      simp [position, Cursor.later, Cursor.lineCount, atEnd]

/-- A blank line only moves lines. Wherever a parse is about to read a line and collects no filter
block, be it inside a Haml comment or between a block and what goes on with it, a line of spaces and
tabs may be put in: the parse gives the same document, or meets the same error, but for the numbers
of the lines from there on, which are one larger, and so is the number of lines. -/
theorem parse_insert_blank {registry : Registry} {source inserted raw : Text} {s : ParseState}
    (reached : ParseState.Reached registry source s) (idle : s.collector = none)
    (blank : ∀ c ∈ raw, Text.isIndentChar c = true)
    (lines : inserted.physicalLines =
      source.physicalLines.take s.cursor.consumed ++
        raw :: source.physicalLines.drop s.cursor.consumed) :
    Document.parse registry inserted =
      match Document.parse registry source with
      | .ok d =>
        .ok ⟨d.lineCount + 1, d.roots.map (Node.renumber (displaced s.cursor.consumed))⟩
      | .error e => .error ⟨e.fault, displaced s.cursor.consumed e.line⟩ := by
  have bound : s.cursor.consumed ≤ source.physicalLines.length := by
    have count := ParseState.lineCount_of_reached reached
    rw [Cursor.lineCount] at count
    omega
  have unpiped : ∀ next ∈ (raw :: source.physicalLines.drop s.cursor.consumed).head?,
      next.lineContent.isPiped = false := by
    rintro _ ⟨⟩
    rw [Text.lineContent_of_blank blank]
    rfl
  have arrived := reached.congr lines unpiped (Nat.le_refl _) bound
  have ahead : ((Cursor.start inserted).skip s.cursor.consumed).pending =
      raw :: s.cursor.pending := by
    rw [Cursor.pending_skip, Cursor.start, lines, reached.follows.pending_eq]
    exact List.drop_left' (List.length_take_of_le bound)
  have passed : ({ s with cursor := (Cursor.start inserted).skip s.cursor.consumed } :
      ParseState).advance? registry =
        some (.ok ()
          { s with cursor := ((Cursor.start inserted).skip s.cursor.consumed).skip 1 }) :=
    ParseState.advance?_of_blank blank idle ahead
  have position : ((Cursor.start inserted).skip s.cursor.consumed).skip 1 = s.cursor.later 1 := by
    have count : (Cursor.start inserted).consumed = 0 := rfl
    rw [Cursor.later, Cursor.skip, ahead, Cursor.consumed_skip, count, Nat.zero_add,
      List.drop_one, List.tail_cons]
  rw [arrived.parse_eq, reached.parse_eq, ParseState.readAll_of_advance_ok passed, position]
  exact ParseState.readAll_displaced reached idle

/-- The blank line is the first of the body of a Haml comment. The text in the body is one line
further on, and so is the error of the line behind it. -/
theorem parse_insert_blank_comment :
    Document.parse .builtins "-#\n \t\n  a\n/\n".toList = .ok ⟨4, [
      .block 1 .hamlComment [.leaf 3 (.text ['a'])], .block 4 (.comment []) []]⟩ ∧
    Document.parse .builtins "-#\n \t\n  a\n=\n".toList =
      .error ⟨.noCode, 4⟩ := by
  have blank : ∀ c ∈ " \t".toList, Text.isIndentChar c = true := by simp [Text.isIndentChar]
  constructor
  · have reached : ParseState.Reached .builtins "-#\n  a\n/\n".toList
        ⟨⟨["  a".toList, ['/']], 1⟩, {}, ⟨[.block 1 .hamlComment []], []⟩, none⟩ :=
      .next .start rfl
    have parsed : Document.parse .builtins "-#\n  a\n/\n".toList = .ok ⟨3, [
        .block 1 .hamlComment [.leaf 2 (.text ['a'])], .block 3 (.comment []) []]⟩ := by
      decide +kernel
    rw [parse_insert_blank reached rfl blank (by decide +kernel), parsed]
    rfl
  · have reached : ParseState.Reached .builtins "-#\n  a\n=\n".toList
        ⟨⟨["  a".toList, ['=']], 1⟩, {}, ⟨[.block 1 .hamlComment []], []⟩, none⟩ :=
      .next .start rfl
    have failed : Document.parse .builtins "-#\n  a\n=\n".toList = .error ⟨.noCode, 3⟩ := by
      decide +kernel
    rw [parse_insert_blank reached rfl blank (by decide +kernel), failed]
    rfl

end HamlTemplate
