import HamlTemplate.Parse.Document
import HamlTemplate.Proofs.PhysicalLines

/-!
# Line terminators

A line of a source ends in one of three ways. With a line feed in place of each pair of terminators,
and of each carriage return that is then left, the lines of the source are the pieces between line
feeds. A parse sees the lines only, so it cannot tell the two sources apart.
-/

namespace HamlTemplate

namespace Text

def joinPairs : Text → Text
  | [] => []
  | '\r' :: '\n' :: rest => '\n' :: joinPairs rest
  | c :: rest => c :: joinPairs rest

/-- The text with line feeds for all its terminators: one for each pair, and one for each carriage
return that is left. -/
def withLineFeeds (source : Text) : Text :=
  source.joinPairs.map fun c => if c = '\r' then '\n' else c

/-- The pieces of a text between line feeds, without the last one if it is empty. -/
def pieces (text : Text) : List Text :=
  if (text.splitOn '\n').getLast? = some [] then (text.splitOn '\n').dropLast
  else text.splitOn '\n'

variable {text source : Text} {c : Char}

private theorem exists_splitOn (text : Text) : ∃ piece more, text.splitOn '\n' = piece :: more :=
  List.exists_cons_of_ne_nil (List.splitOn_ne_nil '\n' text)

@[simp] theorem pieces_nil : pieces [] = [] := rfl

@[simp] theorem pieces_lineFeed (text : Text) : pieces ('\n' :: text) = [] :: pieces text := by
  obtain ⟨piece, more, split⟩ := exists_splitOn text
  have first : List.splitOn '\n' ('\n' :: text) = [] :: piece :: more := by
    rw [← split, List.splitOn_eq_splitOnP, List.splitOn_eq_splitOnP]
    exact List.splitOnP_cons_eq_if_modifyHead '\n' text
  rw [pieces, pieces, first, split, List.getLast?_cons_cons, List.dropLast_cons_cons]
  split <;> rfl

theorem pieces_cons (inside : c ≠ '\n') (text : Text) :
    pieces (c :: text) =
      match pieces text with
      | [] => [[c]]
      | piece :: more => (c :: piece) :: more := by
  obtain ⟨piece, more, split⟩ := exists_splitOn text
  have first : List.splitOn '\n' (c :: text) = (c :: piece) :: more := by
    rw [List.splitOn_eq_splitOnP] at split ⊢
    rw [List.splitOnP_cons_eq_if_modifyHead, split]
    simp [inside]
  rw [pieces, pieces, first, split]
  cases more with
  | nil => cases piece <;> rfl
  | cons next more =>
    simp only [List.getLast?_cons_cons, List.dropLast_cons_cons]
    split <;> rfl

/-! ### One kind of terminator -/

private theorem joinPairs_cons (single : c = '\r' → text.head? ≠ some '\n') :
    joinPairs (c :: text) = c :: joinPairs text := by
  rw [joinPairs]
  rintro rest rfl rfl
  exact single rfl rfl

@[simp] theorem withLineFeeds_nil : withLineFeeds [] = [] := rfl

@[simp] theorem withLineFeeds_pair (rest : Text) :
    withLineFeeds ('\r' :: '\n' :: rest) = '\n' :: withLineFeeds rest := rfl

private theorem withLineFeeds_return (single : text.head? ≠ some '\n') :
    withLineFeeds ('\r' :: text) = '\n' :: withLineFeeds text := by
  rw [withLineFeeds, joinPairs_cons fun _ => single]
  rfl

theorem withLineFeeds_cons (other : c ≠ '\r') (text : Text) :
    withLineFeeds (c :: text) = c :: withLineFeeds text := by
  rw [withLineFeeds, joinPairs_cons fun same => absurd same other, List.map_cons, if_neg other]
  rfl

theorem return_notMem_withLineFeeds (source : Text) : '\r' ∉ source.withLineFeeds := by
  intro member
  obtain ⟨c, _, same⟩ := List.mem_map.mp member
  split at same
  · cases same
  · rename_i other
    exact other same

theorem withLineFeeds_of_notMem (h : '\r' ∉ text) : withLineFeeds text = text := by
  induction text with
  | nil => rfl
  | cons c text ih =>
    obtain ⟨other, more⟩ := not_or.mp (mt List.mem_cons.mpr h)
    rw [withLineFeeds_cons (Ne.symm other), ih more]

/-- The lines of a source are the pieces between line feeds, once all its terminators are such. -/
theorem physicalLines_eq_pieces (source : Text) :
    source.physicalLines = source.withLineFeeds.pieces := by
  fun_induction physicalLines source with
  | case1 => rfl
  | case2 rest ih => rw [withLineFeeds_pair, pieces_lineFeed, ih]
  | case3 rest single ih =>
    have single : rest.head? ≠ some '\n' := by
      intro first
      obtain ⟨more, rfl⟩ := List.head?_eq_some_iff.mp first
      exact single more rfl
    rw [withLineFeeds_return single, pieces_lineFeed, ih]
  | case4 rest ih => rw [withLineFeeds_cons (by decide), pieces_lineFeed, ih]
  | case5 c rest _ ret feed empty ih =>
    rw [withLineFeeds_cons ret, pieces_cons feed, ← ih, empty]
  | case6 c rest _ ret feed line lines split ih =>
    rw [withLineFeeds_cons ret, pieces_cons feed, ← ih, split]

theorem physicalLines_withLineFeeds (source : Text) :
    source.withLineFeeds.physicalLines = source.physicalLines := by
  rw [physicalLines_eq_pieces, withLineFeeds_of_notMem (return_notMem_withLineFeeds source),
    ← physicalLines_eq_pieces]

/-- Characters other than terminators may be exchanged for others without changing where lines
end. -/
theorem physicalLines_map {f : Char → Char} (feed : ∀ c, f c = '\n' ↔ c = '\n')
    (ret : ∀ c, f c = '\r' ↔ c = '\r') (source : Text) :
    physicalLines (source.map f) = source.physicalLines.map (List.map f) := by
  have feed' : f '\n' = '\n' := (feed _).mpr rfl
  have ret' : f '\r' = '\r' := (ret _).mpr rfl
  fun_induction physicalLines source with
  | case1 => rfl
  | case2 rest ih => simp [feed', ret', ih]
  | case3 rest single ih =>
    have single : (rest.map f).head? ≠ some '\n' := by
      rw [List.head?_map]
      intro first
      obtain ⟨c, head, same⟩ := Option.map_eq_some_iff.mp first
      obtain ⟨more, rfl⟩ := List.head?_eq_some_iff.mp head
      exact single more (by rw [(feed c).mp same])
    rw [List.map_cons, ret', physicalLines_return single, ih]
    rfl
  | case4 rest ih => simp [feed', ih]
  | case5 c rest _ other inside empty ih =>
    rw [List.map_cons, physicalLines_cons (mt (feed c).mp inside) (mt (ret c).mp other), ih, empty]
    rfl
  | case6 c rest _ other inside line lines split ih =>
    rw [List.map_cons, physicalLines_cons (mt (feed c).mp inside) (mt (ret c).mp other), ih, split]
    rfl

end Text

/-! ### Reading line by line -/

namespace Cursor

variable {c after : Cursor} {raw : Text}

theorem takePhysical?_eq_none_iff : c.takePhysical? = none ↔ c.pending = [] := by
  rw [takePhysical?]
  split <;> simp_all

theorem takePhysical?_eq_some (read : c.takePhysical? = some (raw, after)) :
    c.pending = raw :: after.pending := by
  rw [takePhysical?] at read
  split at read
  · cases read
  · rename_i pending
    cases read
    rw [pending_skip, pending]
    rfl

/-- The lines that are read one by one as they are, until none is left. -/
def rawLines (c : Cursor) : List Text :=
  match _read : c.takePhysical? with
  | none => []
  | some (raw, after) => raw :: after.rawLines
termination_by c.pending.length
decreasing_by
  rw [takePhysical?_eq_some _read]
  exact Nat.lt_succ_self _

theorem rawLines_eq (c : Cursor) : c.rawLines = c.pending := by
  fun_induction rawLines c with
  | case1 c ended => rw [takePhysical?_eq_none_iff.mp ended]
  | case2 c raw after read ih => rw [takePhysical?_eq_some read, ih]

end Cursor

/-- Whatever terminators a source has, the lines that are read are the pieces between its line
feeds, once each pair and each carriage return that is left is one; the last piece is left out if it
is empty. At every position they are counted as many. A parse gives the same for either source, an
error and its line included. No line holds a terminator, and exchanging other characters does not
change where lines end. -/
theorem rawLines_of_terminators (source : Text) :
    (Cursor.start source).rawLines = source.withLineFeeds.pieces ∧
      (∀ c : Cursor, c.Follows (.start source) →
        c.lineCount = source.withLineFeeds.pieces.length) ∧
      (∀ registry, Document.parse registry source = Document.parse registry source.withLineFeeds) ∧
      (∀ raw ∈ (Cursor.start source).rawLines, raw.IsUnbroken) ∧
      ∀ f : Char → Char, (∀ c, f c = '\n' ↔ c = '\n') → (∀ c, f c = '\r' ↔ c = '\r') →
        (Cursor.start (source.map f)).rawLines =
          (Cursor.start source).rawLines.map (List.map f) := by
  have read : ∀ text : Text, (Cursor.start text).rawLines = text.physicalLines :=
    fun text => Cursor.rawLines_eq _
  have same : Cursor.start source = Cursor.start source.withLineFeeds := by
    rw [Cursor.start, Cursor.start, Text.physicalLines_withLineFeeds]
  refine ⟨?_, fun c follows => ?_, fun registry => ?_, ?_, fun f feed ret => ?_⟩
  · rw [read, Text.physicalLines_eq_pieces]
  · obtain ⟨n, bound, rfl⟩ := follows
    rw [Cursor.lineCount_skip _ bound, ← Text.physicalLines_eq_pieces]
    exact Nat.zero_add _
  · rw [Document.parse, Document.parse, ParseState.start, ParseState.start, same]
  · rw [read]
    exact fun raw member => Text.isUnbroken_of_mem_physicalLines member
  · rw [read, read, Text.physicalLines_map feed ret]

/-- A vertical tab, a form feed, a next-line character and a line separator are within a line, and
may as well be bars. A line feed before a carriage return ends a line of its own, and nothing comes
behind the last terminator. -/
theorem rawLines_of_terminators_mixed :
    (Cursor.start "a\u000bb\u000cc\u0085d\u2028e\r\r\n\n\rf\r".toList).rawLines =
        ["a\u000bb\u000cc\u0085d\u2028e".toList, [], [], [], ['f']] ∧
      (Cursor.start "a|b|c|d|e\r\r\n\n\rf\r".toList).rawLines =
        ["a|b|c|d|e".toList, [], [], [], ['f']] := by
  have h := rawLines_of_terminators "a\u000bb\u000cc\u0085d\u2028e\r\r\n\n\rf\r".toList
  have first := h.1.trans (by decide +kernel : _ =
    ["a\u000bb\u000cc\u0085d\u2028e".toList, [], [], [], ['f']])
  have exchanged := h.2.2.2.2
    (fun c => if c ∈ "\u000b\u000c\u0085\u2028".toList then '|' else c)
    (fun c => by split <;> aesop) (fun c => by split <;> aesop)
  rw [first] at exchanged
  exact ⟨first, exchanged⟩

end HamlTemplate
