import HamlTemplate.Proofs.Agreement
import HamlTemplate.Proofs.AttributeBlock
import HamlTemplate.Proofs.Printer
import HamlTemplate.Proofs.Trimming

/-!
# What is read from the line of an element

Each part of an element's line is read off the front of the text and leaves a suffix of it. Names
have at least one character, and all of them are name characters; the text at the end of the line is
trimmed and not empty. An attribute block may go on over several lines, but what is left behind it
is the rest of a single one.
-/

namespace HamlTemplate

open Unicode

theorem Text.isName_takeWhile {text : Text} (some : text.takeWhile isNameChar ≠ []) :
    Text.IsName (text.takeWhile isNameChar) :=
  ⟨some, fun _ member => List.mem_takeWhile_imp member⟩

theorem Shorthand.name_of_ofMark? {mark : Char} {shorthand : Text → Shorthand}
    (h : ofMark? mark = some shorthand) (name : Text) : (shorthand name).name = name := by
  unfold ofMark? at h
  split at h <;> cases h <;> rfl

/-- Each class and id has a name, and what follows them is the end of the text. -/
theorem Shorthand.takeAll?_eq_some {text rest : Text} {shorthands : List Shorthand}
    (h : takeAll? text = some (shorthands, rest)) :
    (∀ shorthand ∈ shorthands, shorthand.name.IsName) ∧ rest <:+ text := by
  fun_induction takeAll? text generalizing shorthands with
  | case1 =>
    cases h
    exact ⟨nofun, List.suffix_rfl⟩
  | case2 c text other =>
    cases h
    exact ⟨nofun, List.suffix_rfl⟩
  | case3 => cases h
  | case4 c text shorthand mark named ih =>
    obtain ⟨⟨more, after⟩, taken, same⟩ := Option.map_eq_some_iff.mp h
    cases same
    obtain ⟨names, behind⟩ := ih taken
    constructor
    · refine List.forall_mem_cons.mpr ⟨?_, names⟩
      rw [name_of_ofMark? mark]
      exact Text.isName_takeWhile (by simpa using named)
    · exact behind.trans ((List.dropWhile_suffix _).trans (List.suffix_cons c text))

theorem Text.afterElementMark_suffix (text : Text) : text.afterElementMark <:+ text := by
  unfold afterElementMark
  split
  · exact List.suffix_cons _ _
  · exact List.suffix_rfl

namespace Element

structure HasNames (e : Element) : Prop where
  tag : e.tag.IsName
  classes : ∀ name ∈ e.classes, name.IsName
  ids : ∀ name ∈ e.ids, name.IsName

theorem declaration_eq_ok {text rest : Text} {e : Element}
    (h : declaration text = .ok (e, rest)) : e.HasNames ∧ rest <:+ text := by
  unfold declaration at h
  split at h
  · cases h
  · rename_i shorthands after taken
    simp only at h
    split at h
    · cases h
    · cases h
      obtain ⟨names, behind⟩ := Shorthand.takeAll?_eq_some taken
      have named : ∀ {select : Shorthand → Option Text},
          (∀ shorthand name, select shorthand = some name → shorthand.name = name) →
            ∀ name ∈ shorthands.filterMap select, name.IsName := by
        intro select name_eq name member
        obtain ⟨shorthand, given, selected⟩ := List.mem_filterMap.mp member
        rw [← name_eq shorthand name selected]
        exact names shorthand given
      refine ⟨⟨?_, named ?_, named ?_⟩, ?_⟩
      · show Text.IsName (if _ then _ else _)
        split
        · decide
        · rename_i tag
          exact Text.isName_takeWhile (by simpa using tag)
      · rintro (name | name) _ ⟨⟩
        rfl
      · rintro (name | name) _ ⟨⟩
        rfl
      · exact behind.trans ((List.dropWhile_suffix _).trans text.afterElementMark_suffix)

end Element

theorem TrimMarks.take_suffix (marks : TrimMarks) (text : Text) : (marks.take text).2 <:+ text := by
  fun_induction TrimMarks.take marks text with
  | case1 => exact List.suffix_rfl
  | case2 marks c rest _ ih | case3 marks c rest _ _ ih => exact ih.trans (List.suffix_cons _ _)
  | case4 => exact List.suffix_rfl

theorem Text.isTight_trim {text : Text} (visible : text.isBlank = false) : (trim text).IsTight := by
  refine ⟨?_, trim_trim text⟩
  rw [ne_eq, trim_eq_nil_iff, visible]
  exact Bool.false_ne_true

namespace Reading

variable {text after code : Text} {code? : Option Text} {c c' : Cursor}

/-- What is left behind an attribute block is on one line if the line of the element is. -/
theorem lineFeed_notMem_of_attributes? (single : '\n' ∉ text)
    (unbroken : ∀ raw ∈ c.pending, raw.IsUnbroken)
    (h : attributes? text c = .ok (code?, after) c') : '\n' ∉ after := by
  rw [attributes?] at h
  split at h
  · obtain ⟨⟨code, behind⟩, m, read, made⟩ := bind_eq_ok_iff.mp h
    cases made
    obtain ⟨block, m', gathered, made⟩ := bind_eq_ok_iff.mp read
    cases made
    obtain ⟨k, bound, _, rfl, closed, before⟩ := gather_eq_ok gathered
    obtain ⟨n, length⟩ := Option.isSome_iff_exists.mp closed
    rw [length, Option.getD_some]
    apply Text.lineFeed_notMem_drop unbroken bound _ single
    intro j less
    -- The lines before have not been enough, so they do not reach the bracket.
    have unwanted := before j less
    have more : (c.pending.take k).drop j ≠ [] := by
      rw [ne_eq, List.drop_eq_nil_iff, List.length_take]
      omega
    obtain ⟨rest, behind⟩ :=
      Text.exists_continued_append Text.trim text (c.pending.take j) more
    have split := List.take_append_drop j (c.pending.take k)
    rw [List.take_take, Nat.min_eq_left (Nat.le_of_lt less)] at split
    rw [split] at behind
    rw [behind] at length
    have reached := Text.bracketedLength?_of_append_lineFeed length
    by_cases far : n ≤ (Text.continued Text.trim text (c.pending.take j)).length
    · rw [if_pos far] at reached
      rw [reached] at unwanted
      cases unwanted
    · exact Nat.lt_of_not_le far
  · cases h
    exact single

/-- The parts that an element is read from. -/
theorem element_eq_ok {e : Element} (h : element text c = .ok e c') :
    ∃ declared rest code? after m tail, Element.declaration text = .ok (declared, rest) ∧
      attributes? rest c = .ok (code?, after) m ∧
      elementTail (TrimMarks.take {} after).2 m = .ok tail c' ∧
      e.tag = declared.tag ∧ e.classes = declared.classes ∧ e.ids = declared.ids ∧
      e.tail = tail := by
  rw [element] at h
  cases declaration : Element.declaration text with
  | error fault =>
    rw [declaration] at h
    cases h
  | ok parts =>
    rw [declaration] at h
    obtain ⟨⟨code?, after⟩, m, attributes, h⟩ := bind_eq_ok_iff.mp h
    obtain ⟨tail, m', tailed, made⟩ := bind_eq_ok_iff.mp h
    cases made
    exact ⟨parts.1, parts.2, code?, after, m, tail, rfl, attributes, tailed, rfl, rfl, rfl, rfl⟩

/-- A tail is code that a script mark stands before, or a text that is trimmed and not empty. -/
theorem elementTail_eq_ok {tail : ElementTail} (h : elementTail text c = .ok tail c') :
    (∀ code, tail = .script code → ∃ rest, text = '=' :: rest ∧ script rest c = .ok code c') ∧
      ∀ content, tail = .text content → content.IsTight := by
  unfold elementTail at h
  split at h
  · split at h
    · cases h
      exact ⟨nofun, nofun⟩
    · cases h
  · rename_i rest
    obtain ⟨code, m, read, made⟩ := bind_eq_ok_iff.mp h
    cases made
    refine ⟨?_, nofun⟩
    rintro _ ⟨⟩
    exact ⟨rest, rfl, read⟩
  · cases h
    by_cases blank : text.isBlank = true
    · rw [if_pos blank]
      exact ⟨nofun, nofun⟩
    · rw [if_neg blank]
      refine ⟨nofun, ?_⟩
      rintro _ ⟨⟩
      exact Text.isTight_trim (Bool.eq_false_iff.mpr blank)

end Reading

end HamlTemplate
