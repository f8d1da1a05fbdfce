import HamlTemplate.Proofs.Reindented

/-!
# Sources with some lines rewritten

A source is rewritten line by line when each physical line is replaced by a text that depends on
the line and on its number. All terminators are kept. If no new line holds a terminator, and none
is empty that was not, the lines of the new source are the new lines. A line that has become empty
could be lost: nothing would be left between a carriage return and a line feed, which then are one
terminator, or behind the last terminator.
-/

namespace HamlTemplate.Text

/-- Rewrites the lines of a text. The first line has the given number, and the given part of it has
been passed already. -/
def mapLinesFrom (f : Nat → Text → Text) (n : Nat) (front : Text) : Text → Text
  | [] => if front = [] then [] else f n front
  | '\r' :: '\n' :: rest => f n front ++ '\r' :: '\n' :: mapLinesFrom f (n + 1) [] rest
  | '\r' :: rest => f n front ++ '\r' :: mapLinesFrom f (n + 1) [] rest
  | '\n' :: rest => f n front ++ '\n' :: mapLinesFrom f (n + 1) [] rest
  | c :: rest => mapLinesFrom f n (front ++ [c]) rest

/-- The source with each line rewritten in view of its number, which is counted from one. -/
def mapLines (f : Nat → Text → Text) (source : Text) : Text := mapLinesFrom f 1 [] source

def mapLine (n : Nat) (g : Text → Text) (source : Text) : Text :=
  source.mapLines fun number raw => if number = n then g raw else raw

/-- Each line becomes a line, and is empty only if it was. -/
structure KeepsLines (f : Nat → Text → Text) : Prop where
  unbroken : ∀ n raw, IsUnbroken raw → (f n raw).IsUnbroken
  visible : ∀ n raw, f n raw = [] → raw = []

variable {f : Nat → Text → Text} {n : Nat} {front raw text : Text}

private theorem IsUnbroken.head?_ne (unbroken : raw.IsUnbroken) : raw.head? ≠ some '\n' := by
  intro first
  exact (unbroken '\n' (List.mem_of_mem_head? first)).1 rfl

/-- A text that is rewritten begins with a line feed only if it did before. -/
private theorem head?_mapLinesFrom (keeps : KeepsLines f) (unbroken : front.IsUnbroken)
    (h : (mapLinesFrom f n front text).head? = some '\n') :
    front = [] ∧ text.head? = some '\n' := by
  have line : ∀ n front rest, IsUnbroken front → (f n front ++ rest).head? = some '\n' →
      front = [] ∧ rest.head? = some '\n' := by
    intro n front rest unbroken first
    have other := (keeps.unbroken n front unbroken).head?_ne
    cases new : f n front with
    | nil =>
      rw [new] at first
      exact ⟨keeps.visible n front new, first⟩
    | cons d line =>
      rw [new] at first other
      exact absurd first other
  fun_induction mapLinesFrom f n front text with
  | case1 => cases h
  | case2 n front visible => exact absurd h (keeps.unbroken n front unbroken).head?_ne
  | case3 n front rest | case4 n front rest => cases (line n front _ unbroken h).2
  | case5 n front rest => exact ⟨(line n front _ unbroken h).1, rfl⟩
  | case6 n front c rest _ ret feed ih =>
    have longer : IsUnbroken (front ++ [c]) :=
      List.forall_mem_append.mpr ⟨unbroken, List.forall_mem_singleton.mpr ⟨feed, ret⟩⟩
    have empty := (ih longer h).1
    simp at empty

/-- A line that ends is the first one. -/
theorem physicalLines_append_of_ended {rest : Text} {lines : List Text} (unbroken : raw.IsUnbroken)
    (ended : rest.physicalLines = [] :: lines) : (raw ++ rest).physicalLines = raw :: lines := by
  rw [physicalLines_unbroken_append unbroken, ended, prepend, List.append_nil]

/-- The lines of a text that is rewritten from within its first line on. -/
theorem physicalLines_mapLinesFrom (keeps : KeepsLines f) (unbroken : front.IsUnbroken) :
    (mapLinesFrom f n front text).physicalLines =
      ((front ++ text).physicalLines.zipIdx n).map fun (raw, number) => f number raw := by
  have none : IsUnbroken [] := nofun
  fun_induction mapLinesFrom f n front text with
  | case1 => rfl
  | case2 n front visible =>
    have kept : f n front ≠ [] := mt (keeps.visible n front) visible
    have old := physicalLines_unbroken_append unbroken []
    have new := physicalLines_unbroken_append (keeps.unbroken n front unbroken) []
    rw [List.append_nil] at new
    rw [old, new, physicalLines_nil, prepend, prepend, if_neg kept, if_neg visible]
    rfl
  | case3 n front rest ih =>
    rw [physicalLines_append_of_ended unbroken (physicalLines_pair _),
      physicalLines_append_of_ended (keeps.unbroken n front unbroken) (physicalLines_pair _),
      ih none]
    rfl
  | case4 n front rest single ih =>
    have old : rest.head? ≠ some '\n' := by
      intro first
      obtain ⟨more, rfl⟩ := List.head?_eq_some_iff.mp first
      exact single more rfl
    have new : (mapLinesFrom f (n + 1) [] rest).head? ≠ some '\n' :=
      fun first => old (head?_mapLinesFrom keeps none first).2
    rw [physicalLines_append_of_ended unbroken (physicalLines_return old),
      physicalLines_append_of_ended (keeps.unbroken n front unbroken) (physicalLines_return new),
      ih none]
    rfl
  | case5 n front rest ih =>
    rw [physicalLines_append_of_ended unbroken (physicalLines_lineFeed _),
      physicalLines_append_of_ended (keeps.unbroken n front unbroken) (physicalLines_lineFeed _),
      ih none]
    rfl
  | case6 n front c rest _ ret feed ih =>
    have longer : IsUnbroken (front ++ [c]) :=
      List.forall_mem_append.mpr ⟨unbroken, List.forall_mem_singleton.mpr ⟨feed, ret⟩⟩
    rw [ih longer, List.append_assoc, List.singleton_append]

/-- The lines of a source that is rewritten line by line. -/
theorem physicalLines_mapLines (keeps : KeepsLines f) (source : Text) :
    (source.mapLines f).physicalLines =
      (source.physicalLines.zipIdx 1).map fun (raw, number) => f number raw :=
  physicalLines_mapLinesFrom keeps nofun

/-- The lines of a source that has one line rewritten. -/
theorem physicalLines_mapLine {g : Text → Text}
    (unbroken : ∀ raw, IsUnbroken raw → (g raw).IsUnbroken)
    (visible : ∀ raw, g raw = [] → raw = []) (n : Nat) (source : Text) :
    (source.mapLine (n + 1) g).physicalLines = source.physicalLines.modify n g := by
  have keeps : KeepsLines fun number raw => if number = n + 1 then g raw else raw := by
    constructor <;> intro number raw h
    · split
      · exact unbroken raw h
      · exact h
    · split at h
      · exact visible raw h
      · exact h
  rw [mapLine, physicalLines_mapLines keeps]
  apply List.ext_getElem?
  intro i
  rw [List.getElem?_map, List.getElem?_zipIdx, List.getElem?_modify, Option.map_map]
  have place : 1 + i = n + 1 ↔ n = i := by omega
  cases source.physicalLines[i]? with
  | none => rfl
  | some raw => exact congrArg some (ite_congr (propext place) (fun _ => rfl) fun _ => rfl)

end HamlTemplate.Text
