import HamlTemplate.Proofs.Printer
import HamlTemplate.Proofs.Trimming
import HamlTemplate.Source.Cursor

/-!
# Physical lines of sources put together

A source that ends with a line feed, or is empty, leaves the lines of what is put behind it alone.
A carriage return would not do: a line feed behind it belongs to the same terminator.
-/

namespace HamlTemplate.Text

variable {source first second raw : Text}

def EndsLine (source : Text) : Prop := source = [] ∨ source.getLast? = some '\n'

instance (source : Text) : Decidable source.EndsLine := inferInstanceAs (Decidable (_ ∨ _))

theorem EndsLine.tail {c : Char} (h : EndsLine (c :: source)) (other : c ≠ '\n') :
    source ≠ [] ∧ source.EndsLine := by
  obtain empty | last := h
  · cases empty
  · cases source with
    | nil => exact absurd (Option.some.inj last) other
    | cons d source =>
      rw [List.getLast?_cons_cons] at last
      exact ⟨List.cons_ne_nil d source, .inr last⟩

private theorem EndsLine.tail_of_lineFeed (h : EndsLine ('\n' :: source)) : source.EndsLine := by
  cases source with
  | nil => exact .inl rfl
  | cons d source =>
    obtain empty | last := h
    · cases empty
    · rw [List.getLast?_cons_cons] at last
      exact .inr last

/-- The lines of two sources are those of the one put behind the other, if the first ends where a
line ends. -/
theorem physicalLines_append (h : first.EndsLine) (second : Text) :
    physicalLines (first ++ second) = physicalLines first ++ physicalLines second := by
  fun_induction physicalLines first with
  | case1 => rfl
  | case2 rest ih =>
    have behind := (h.tail (by decide)).2.tail_of_lineFeed
    simp only [List.cons_append, physicalLines_pair, ih behind]
  | case3 rest single ih =>
    obtain ⟨more, behind⟩ := h.tail (by decide)
    have apart : (rest ++ second).head? ≠ some '\n' := by
      cases rest with
      | nil => exact absurd rfl more
      | cons d rest =>
        rintro ⟨⟩
        exact single rest rfl
    rw [List.cons_append, physicalLines_return apart, ih behind, List.cons_append]
  | case4 rest ih =>
    simp only [List.cons_append, physicalLines_lineFeed, ih h.tail_of_lineFeed]
  | case5 c rest _ _ feed empty ih =>
    exact absurd (physicalLines_eq_nil_iff.mp empty) (h.tail feed).1
  | case6 c rest _ ret feed line lines split ih =>
    rw [List.cons_append, physicalLines_cons feed ret, ih (h.tail feed).2, split]
    rfl

/-- The lines of a source have no other characters than the source. -/
theorem mem_of_mem_physicalLines {c : Char} (h : raw ∈ source.physicalLines) (member : c ∈ raw) :
    c ∈ source := by
  fun_induction physicalLines source generalizing raw with
  | case1 => cases h
  | case2 rest ih | case3 rest _ ih | case4 rest ih =>
    obtain rfl | later := List.mem_cons.mp h
    · cases member
    · have behind := ih later member
      simp [behind]
  | case5 d rest _ _ _ empty ih =>
    obtain rfl := List.mem_singleton.mp h
    obtain rfl := List.mem_singleton.mp member
    exact List.mem_cons_self
  | case6 d rest _ _ _ line lines split ih =>
    rw [split] at ih
    obtain rfl | later := List.mem_cons.mp h
    · obtain rfl | inside := List.mem_cons.mp member
      · exact List.mem_cons_self
      · exact List.mem_cons_of_mem _ (ih List.mem_cons_self inside)
    · exact List.mem_cons_of_mem _ (ih (List.mem_cons_of_mem _ later) member)

/-- No line of a source holds a terminator. -/
theorem isUnbroken_of_mem_physicalLines (h : raw ∈ source.physicalLines) : raw.IsUnbroken := by
  fun_induction physicalLines source generalizing raw with
  | case1 => cases h
  | case2 rest ih | case3 rest _ ih | case4 rest ih =>
    obtain rfl | later := List.mem_cons.mp h
    · nofun
    · exact ih later
  | case5 c rest _ ret feed empty ih =>
    obtain rfl := List.mem_singleton.mp h
    rintro d member
    obtain rfl := List.mem_singleton.mp member
    exact ⟨feed, ret⟩
  | case6 c rest _ ret feed line lines split ih =>
    rw [split] at ih
    obtain rfl | later := List.mem_cons.mp h
    · exact List.forall_mem_cons.mpr ⟨⟨feed, ret⟩, ih List.mem_cons_self⟩
    · exact ih (List.mem_cons_of_mem _ later)

private theorem mem_of_mem_lineContent {c : Char} (h : c ∈ raw.lineContent) : c ∈ raw :=
  (List.dropWhile_sublist isIndentChar).subset ((trimEnd_isPrefix_self _).subset h)

end HamlTemplate.Text

namespace HamlTemplate.Cursor

variable {source : Text} {c after : Cursor} {line : Line} {base? : Option Nat} {d : Char}

/-- What is still to be read of a source are lines of it. -/
theorem Follows.mem_physicalLines (h : c.Follows (start source)) {raw : Text}
    (member : raw ∈ c.pending) : raw ∈ source.physicalLines := by
  obtain ⟨n, _, rfl⟩ := h
  exact List.mem_of_mem_drop member

theorem Follows.isUnbroken (h : c.Follows (start source)) : ∀ raw ∈ c.pending, raw.IsUnbroken :=
  fun _ member => Text.isUnbroken_of_mem_physicalLines (h.mem_physicalLines member)

theorem mem_pending_of_takeLine? (taken : c.takeLine? = some (line, after)) (h : d ∈ line.text) :
    ∃ raw ∈ c.pending, d ∈ raw := by
  rw [takeLine?] at taken
  split at taken
  · cases taken
  · rename_i raw rest pending
    rw [pending] at taken ⊢
    split at taken
    · cases taken
      exact ⟨raw, List.mem_cons_self, Text.mem_of_mem_lineContent h⟩
    · cases taken
      obtain ⟨part, member, inside⟩ :=
        List.mem_flatMap.mp ((Text.trimEnd_isPrefix_self _).subset h)
      exact ⟨part, (List.takeWhile_sublist _).subset member,
        Text.mem_of_mem_lineContent (List.dropLast_subset _ inside)⟩

/-- The text of a line has no other characters than the lines that it is read from. -/
theorem mem_pending_of_takeWithin? (taken : c.takeWithin? base? = some (line, after))
    (h : d ∈ line.text) : ∃ raw ∈ c.pending, d ∈ raw := by
  cases base? with
  | none => exact mem_pending_of_takeLine? taken h
  | some base =>
    simp only [takeWithin?, takeBodyLine?] at taken
    split at taken
    · cases taken
    · rename_i raw rest pending
      split at taken
      · cases taken
        rw [pending]
        exact ⟨raw, List.mem_cons_self, (List.dropWhile_sublist _).subset h⟩
      · exact mem_pending_of_takeLine? taken h

end HamlTemplate.Cursor
