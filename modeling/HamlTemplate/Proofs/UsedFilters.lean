import HamlTemplate.Proofs.Beginnings
import HamlTemplate.Proofs.FilterBody
import HamlTemplate.Proofs.PipedRuns

/-!
# The filters that a parse uses

A registry that is built by calls knows, for each name, the filter of the last call with that name,
so neither the order of calls with other names nor a call that is overridden can be told from it. A
parse looks up a name only when the filter block of that name is over. The block was begun by a line
that spells a colon and the name. That text is in the source as it stands, even if the line was
joined with others: what is joined has a space or a tab between, and a name has none.
-/

namespace HamlTemplate

/-! ### The last call counts -/

namespace Registry

variable {r : Registry} {name other : Text} {filter overridden : Filter}
  {calls before between after : List (Text × Filter)}

/-- The filter of the last call with the given name. -/
def lastFilter? (calls : List (Text × Filter)) (name : Text) : Option Filter :=
  (calls.filter fun call => call.1 = name).getLast?.map Prod.snd

/-- The registry is built by the calls, first one first. -/
inductive Built : Registry → List (Text × Filter) → Prop
  | empty : Built {} []
  | register {r : Registry} {calls : List (Text × Filter)} (built : Built r calls) (name : Text)
      (filter : Filter) : Built (r.register name filter) (calls ++ [(name, filter)])

theorem Built.registerAll (built : r.Built calls) (more : List (Text × Filter)) :
    Built (more.foldl (fun r call => r.register call.1 call.2) r) (calls ++ more) := by
  induction more generalizing r calls with
  | nil => simpa using built
  | cons call more ih => simpa using ih (built.register call.1 call.2)

/-- The filters that are always known have been registered by calls as well, so what is registered
on top of them is built by these and further calls. -/
theorem Built.builtins : Registry.builtins.Built builtinFilters := Built.empty.registerAll _

private theorem lookup_cons (name other : Text) (filter : Filter) (entries : List (Text × Filter)) :
    ((name, filter) :: entries).lookup other =
      if other = name then some filter else entries.lookup other := by
  rw [List.lookup_cons]
  by_cases same : other = name
  · simp [same]
  · simp [same, beq_eq_false_iff_ne.mpr same]

/-- An entry is found by its name, wherever it has been put. -/
private theorem lookup_insertEntry (name other : Text) (filter : Filter)
    (entries : List (Text × Filter)) :
    (insertEntry name filter entries).lookup other =
      if other = name then some filter else entries.lookup other := by
  induction entries with
  | nil => exact lookup_cons name other filter []
  | cons entry rest ih =>
    obtain ⟨first, f⟩ := entry
    rw [insertEntry]
    split
    · rename_i replaced
      subst replaced
      rw [lookup_cons, lookup_cons]
      split <;> rfl
    · rename_i kept
      split
      · exact lookup_cons name other filter _
      · rw [lookup_cons, lookup_cons, ih]
        split
        · rename_i found
          rw [if_neg fun same => kept (same.symm.trans found)]
        · rfl

theorem lookup?_register (r : Registry) (name other : Text) (filter : Filter) :
    (r.register name filter).lookup? other =
      if other = name then some filter else r.lookup? other :=
  lookup_insertEntry name other filter r.entries

theorem lastFilter?_concat (calls : List (Text × Filter)) (name other : Text) (filter : Filter) :
    lastFilter? (calls ++ [(name, filter)]) other =
      if other = name then some filter else lastFilter? calls other := by
  by_cases same : name = other
  · simp [lastFilter?, same]
  · simp [lastFilter?, same, Ne.symm same]

/-- A registry knows the filter of the last call for each name, and no other name. -/
theorem Built.lookup?_eq (built : r.Built calls) (name : Text) :
    r.lookup? name = lastFilter? calls name := by
  induction built with
  | empty => rfl
  | register _ other filter ih => rw [lookup?_register, lastFilter?_concat, ih]

theorem lastFilter?_append (calls more : List (Text × Filter)) (name : Text) :
    lastFilter? (calls ++ more) name = (lastFilter? more name).or (lastFilter? calls name) := by
  rw [lastFilter?, List.filter_append, List.getLast?_append, Option.map_or]
  rfl

/-- A call makes no difference to other names. -/
theorem lastFilter?_of_ne (differs : name ≠ other) :
    lastFilter? (before ++ (name, filter) :: after) other =
      lastFilter? (before ++ after) other := by
  simp [lastFilter?, differs]

/-- A call that a later one overrides makes no difference. -/
theorem lastFilter?_of_overridden :
    lastFilter? (before ++ (name, overridden) :: between ++ (name, filter) :: after) =
      lastFilter? (before ++ between ++ (name, filter) :: after) := by
  funext other
  rw [lastFilter?_append _ ((name, filter) :: after),
    lastFilter?_append _ ((name, filter) :: after)]
  by_cases same : name = other
  · -- The later call is the last one with its name, or one that is even later is.
    have later : (lastFilter? ((name, filter) :: after) other).isSome = true := by
      simp [lastFilter?, same]
    rw [Option.or_of_isSome later, Option.or_of_isSome later]
  · rw [lastFilter?_of_ne same]

end Registry

/-! ### The text that begins a filter block -/

namespace Text

variable {source raw text front more : Text} {c : Char}

/-- The lines of a source stand in it, the first one at its front. -/
theorem isInfix_physicalLines (source : Text) :
    (∀ raw ∈ source.physicalLines, raw <:+: source) ∧
      ∀ raw ∈ source.physicalLines.head?, raw <+: source := by
  fun_induction physicalLines source with
  | case1 =>
    refine ⟨?_, ?_⟩
    · intro raw member
      cases member
    · intro raw member
      cases member
  | case2 rest ih | case3 rest _ ih | case4 rest ih =>
    refine ⟨?_, ?_⟩
    · intro raw member
      obtain rfl | later := List.mem_cons.mp member
      · exact List.nil_infix
      · exact (ih.1 raw later).trans (List.IsSuffix.isInfix (by simp [List.suffix_cons_iff]))
    · rintro _ ⟨⟩
      exact List.nil_prefix
  | case5 d rest _ _ _ empty ih =>
    obtain rfl := physicalLines_eq_nil_iff.mp empty
    refine ⟨?_, ?_⟩
    · intro raw member
      obtain rfl := List.mem_singleton.mp member
      exact List.infix_rfl
    · rintro _ ⟨⟩
      exact List.prefix_rfl
  | case6 d rest _ _ _ line lines split ih =>
    rw [split] at ih
    have first : d :: line <+: d :: rest := (List.prefix_cons_inj d).mpr (ih.2 line rfl)
    refine ⟨?_, ?_⟩
    · intro raw member
      obtain rfl | later := List.mem_cons.mp member
      · exact first.isInfix
      · exact (ih.1 raw (List.mem_cons_of_mem _ later)).trans (List.suffix_cons d rest).isInfix
    · rintro _ ⟨⟩
      exact first

theorem lineContent_isInfix (raw : Text) : raw.lineContent <:+: raw :=
  (trimEnd_isPrefix_self _).isInfix.trans (List.dropWhile_suffix isIndentChar).isInfix

/-- A text without a character ends before it. -/
private theorem isPrefix_of_notMem (h : text <+: front ++ c :: more) (absent : c ∉ text) :
    text <+: front := by
  by_cases short : text.length ≤ front.length
  · exact List.prefix_of_prefix_length_le h (List.prefix_append _ _) short
  · have longer : front ++ [c] <+: text := by
      apply List.prefix_of_prefix_length_le _ h
      · simp
        omega
      · exact ⟨more, by simp⟩
    exact absurd (longer.subset (by simp)) absent

end Text

namespace Cursor

open Text

variable {c after : Cursor} {line : Line} {base? : Option Nat}

/-- A logical line without a space or a tab stands in a physical one as it is. -/
theorem exists_infix_of_takeLine? (taken : c.takeLine? = some (line, after))
    (word : ∀ d ∈ line.text, isIndentChar d = false) :
    ∃ raw ∈ c.pending, line.text <:+: raw := by
  cases pending : c.pending with
  | nil => simp [takeLine?, pending] at taken
  | cons raw rest =>
    refine ⟨raw, List.mem_cons_self, ?_⟩
    rw [takeLine?_cons pending] at taken
    split at taken
    · rename_i piped
      cases taken
      obtain ⟨front, d, content, bare, indents⟩ := exists_dropLast_of_isPiped piped
      have joined : joinPiped (raw :: pipedRun rest) <+:
          front ++ d :: (pipedRun rest).flatMap fun raw => raw.lineContent.dropLast := by
        rw [joinPiped, List.flatMap_cons, bare, List.append_assoc]
        exact trimEnd_isPrefix_self _
      have absent : d ∉ joinPiped (raw :: pipedRun rest) := by
        intro member
        rw [word d member] at indents
        cases indents
      have within : front <:+: raw.lineContent := by
        rw [content]
        exact (List.prefix_append _ _).isInfix
      have within' := within.trans (lineContent_isInfix raw)
      exact (isPrefix_of_notMem joined absent).isInfix.trans within'
    · cases taken
      exact lineContent_isInfix raw

theorem exists_infix_of_takeWithin? (taken : c.takeWithin? base? = some (line, after))
    (word : ∀ d ∈ line.text, isIndentChar d = false) :
    ∃ raw ∈ c.pending, line.text <:+: raw := by
  cases base? with
  | none => exact exists_infix_of_takeLine? taken word
  | some base =>
    simp only [takeWithin?, takeBodyLine?] at taken
    split at taken
    · cases taken
    · rename_i raw rest pending
      split at taken
      · cases taken
        refine ⟨raw, by simp [pending], ?_⟩
        exact (List.dropWhile_suffix isIndentChar).isInfix
      · exact exists_infix_of_takeLine? taken word

end Cursor

/-- The name of a filter block stands in the source, behind a colon. -/
theorem ParseState.infix_of_collecting {registry : Registry} {source : Text} {s : ParseState}
    {block : FilterBlock} (reached : Reached registry source s)
    (collecting : s.collector = some block) : (':' :: block.name) <:+: source := by
  obtain ⟨earlier, line, behind, before, read, started⟩ := exists_started reached collecting
  obtain ⟨spelled, _⟩ := FilterBlock.start_eq_ok_name started
  obtain ⟨raw, pending, inside⟩ := Cursor.exists_infix_of_takeWithin? (takeLine?_eq_some read).1
    fun d member => FilterBlock.isIndentChar_of_start started member
  have member := before.follows.mem_physicalLines pending
  rw [spelled] at inside
  exact inside.trans ((Text.isInfix_physicalLines source).1 raw member)

/-! ### Registries that agree on what is used -/

section Agreement

variable {r r' : Registry} {line : Line} {s : ParseState} {source : Text}

theorem FilterBlock.finish_congr {block : FilterBlock}
    (same : r.lookup? block.name = r'.lookup? block.name) : block.finish r = block.finish r' := by
  rw [finish, finish, Registry.compile?, Registry.compile?, same]

theorem Parsing.acceptLine_congr
    (same : ∀ block ∈ s.collector, r.lookup? block.name = r'.lookup? block.name) :
    acceptLine r line s = acceptLine r' line s := by
  have offered : offerLine r line s = offerLine r' line s := by
    cases collecting : s.collector with
    | none => rw [offerLine_of_idle collecting, offerLine_of_idle collecting]
    | some block =>
      cases inside : s.outline.inHamlComment with
      | true => rw [offerLine_of_inHamlComment inside, offerLine_of_inHamlComment inside]
      | false =>
        cases ends : block.endsAt line with
        | false =>
          rw [offerLine_of_within collecting inside ends,
            offerLine_of_within collecting inside ends]
        | true =>
          rw [offerLine_of_ends collecting inside ends, offerLine_of_ends collecting inside ends,
            FilterBlock.finish_congr (same block collecting)]
  rw [acceptLine_eq, acceptLine_eq, offered]

namespace ParseState

theorem advance?_congr_registry
    (same : ∀ block ∈ s.collector, r.lookup? block.name = r'.lookup? block.name) :
    s.advance? r = s.advance? r' := by
  rw [advance?, advance?]
  cases read : s.takeLine? with
  | none => rfl
  | some taken =>
    obtain ⟨line, behind⟩ := taken
    have kept : behind.collector = s.collector := by rw [(takeLine?_eq_some read).2]
    rw [← kept] at same
    exact congrArg some (Parsing.acceptLine_congr same)

theorem conclude_congr
    (same : ∀ block ∈ s.collector, r.lookup? block.name = r'.lookup? block.name) :
    s.conclude r = s.conclude r' := by
  cases collecting : s.collector with
  | none => rw [conclude_of_idle collecting, conclude_of_idle collecting]
  | some block =>
    rw [conclude_of_collecting collecting, conclude_of_collecting collecting,
      FilterBlock.finish_congr (same block collecting)]

/-- A parse goes on alike with registries that know the same filters by the names in the source. -/
theorem readAll_congr
    (same : ∀ name : Text, (':' :: name) <:+: source → r.lookup? name = r'.lookup? name)
    (reached : Reached r source s) : s.readAll r = s.readAll r' := by
  have known : ∀ {t : ParseState}, Reached r source t →
      ∀ block ∈ t.collector, r.lookup? block.name = r'.lookup? block.name :=
    fun reached block collecting => same _ (infix_of_collecting reached collecting)
  fun_induction readAll r s with
  | case1 s advanced =>
    have alike := advance?_congr_registry (known reached)
    rw [readAll_of_advance_none (alike.symm.trans advanced), conclude_congr (known reached)]
  | case2 s after advanced ih =>
    have alike := advance?_congr_registry (known reached)
    rw [readAll_of_advance_ok (alike.symm.trans advanced)]
    exact ih (reached.next advanced)
  | case3 s e after advanced =>
    have alike := advance?_congr_registry (known reached)
    rw [readAll_of_advance_error (alike.symm.trans advanced)]

end ParseState

end Agreement

namespace Registry

/-- Filters that make the same fragment of every text, or none at all. -/
def SameFilter : Option Filter → Option Filter → Prop :=
  Option.Rel fun f g => ∀ body, f body = g body

theorem SameFilter.eq {f? g? : Option Filter} (same : SameFilter f? g?) : f? = g? := by
  cases same with
  | some alike => exact congrArg some (funext alike)
  | none => rfl

end Registry

/-- A parse has the same result with two registries if the names that are in the source behind a
colon have been registered last for filters that make the same of every text, or not at all. So it
does not matter in which order calls with different names were made, nor does a call that a later
one overrides or one with a name that is not used. -/
theorem parse_usedFilters {r r' : Registry} {calls calls' : List (Text × Filter)}
    (built : r.Built calls) (built' : r'.Built calls') (source : Text) :
    ((∀ name : Text, (':' :: name) <:+: source →
        Registry.SameFilter (Registry.lastFilter? calls name) (Registry.lastFilter? calls' name)) →
      Document.parse r source = Document.parse r' source) ∧
    ((∀ name : Text, (calls.filter fun call => call.1 = name) =
        calls'.filter fun call => call.1 = name) →
      Document.parse r source = Document.parse r' source) ∧
    (∀ before between after name overridden filter,
      calls = before ++ (name, overridden) :: between ++ (name, filter) :: after →
      calls' = before ++ between ++ (name, filter) :: after →
      Document.parse r source = Document.parse r' source) ∧
    (∀ before after name filter, ¬(':' :: name) <:+: source →
      calls = before ++ (name, filter) :: after → calls' = before ++ after →
      Document.parse r source = Document.parse r' source) := by
  have agree : (∀ name : Text, (':' :: name) <:+: source →
      Registry.lastFilter? calls name = Registry.lastFilter? calls' name) →
      Document.parse r source = Document.parse r' source := by
    intro same
    apply ParseState.readAll_congr _ .start
    intro name occurs
    rw [built.lookup?_eq, built'.lookup?_eq, same name occurs]
  refine ⟨?_, ?_, ?_, ?_⟩
  · exact fun same => agree fun name occurs => (same name occurs).eq
  · intro same
    apply agree
    intro name _
    rw [Registry.lastFilter?, Registry.lastFilter?, same name]
  · rintro before between after name overridden filter rfl rfl
    exact agree fun _ _ => congrFun Registry.lastFilter?_of_overridden _
  · rintro before after name filter unused rfl rfl
    apply agree
    intro other occurs
    apply Registry.lastFilter?_of_ne
    rintro rfl
    exact unused occurs

/-- One registry is built on top of the filters that are always known and has a filter that is not
used. In the other one a filter has been replaced by one that makes the same of every text. Both
filters that are used are known by other calls, and the line of the first one is piped. -/
theorem parse_usedFilters_piped :
    Document.parse
        (((Registry.register {} "up".toList Filter.ruby).register "up".toList fun body =>
          .static body.reverse.reverse).register "plain".toList Filter.plain)
        ":up |\n  a\n:plain\n  b\n".toList =
      .ok ⟨4, [
        .leaf 1 (.filter "up".toList (.static ['a'])),
        .leaf 3 (.filter "plain".toList (.static "b\n".toList))]⟩ := by
  have built := (Registry.Built.builtins.register "no".toList Filter.css).register "up".toList
    fun body => .static body
  have built' := ((Registry.Built.empty.register "up".toList Filter.ruby).register "up".toList
    fun body => .static body.reverse.reverse).register "plain".toList Filter.plain
  have used : ∀ name : Text, (':' :: name) <:+: ":up |\n  a\n:plain\n  b\n".toList →
      Registry.SameFilter
        (Registry.lastFilter? (Registry.builtinFilters ++ [("no".toList, Filter.css)] ++
          [("up".toList, fun body => .static body)]) name)
        (Registry.lastFilter? ([] ++ [("up".toList, Filter.ruby)] ++ [("up".toList, fun body =>
          .static body.reverse.reverse)] ++ [("plain".toList, Filter.plain)]) name) := by
    intro name occurs
    -- The other names have a letter that is not in the source.
    have foreign : ∀ unused ∈ ["ruby", "javascript", "css", "no"],
        unused.toList.any (fun c => !":up |\n  a\n:plain\n  b\n".toList.contains c) = true := by
      decide
    have absent : ∀ unused ∈ ["ruby", "javascript", "css", "no"], unused.toList ≠ name := by
      rintro unused member rfl
      obtain ⟨c, inside, outside⟩ := List.any_eq_true.mp (foreign unused member)
      have present := occurs.subset (List.mem_cons_of_mem _ inside)
      rw [List.contains_eq_mem, decide_eq_true present] at outside
      cases outside
    simp only [List.forall_mem_cons] at absent
    obtain ⟨ruby, javascript, css, no, _⟩ := absent
    by_cases up : "up".toList = name
    · subst up
      exact .some fun body => congrArg Fragment.static (List.reverse_reverse body).symm
    · by_cases plain : "plain".toList = name
      · subst plain
        exact .some fun _ => rfl
      · simp only [Registry.lastFilter?, Registry.builtinFilters, ruby, javascript, css, no, up,
          plain, List.cons_append, List.nil_append, decide_false, Bool.false_eq_true,
          not_false_eq_true, List.filter_cons_of_neg, List.filter_nil]
        exact .none
  have same := (parse_usedFilters built built' ":up |\n  a\n:plain\n  b\n".toList).1 used
  rw [← same]
  decide +kernel

end HamlTemplate
