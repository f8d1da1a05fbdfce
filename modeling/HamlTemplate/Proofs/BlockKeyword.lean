import HamlTemplate.Proofs.Siblings
import HamlTemplate.Proofs.Trimming

/-!
# The keyword at the beginning of a line

The pattern that finds the keyword of a line knows more words than those that go on with a block: it
also finds the words that begin one, if need be on the right of an assignment. A pattern can match
in several ways, of which the preferred one counts: earlier alternatives and longer runs come first.
Here is the pattern in full, and what is left of it when only the words are looked for that go on
with a block: the plain test for a word behind a hyphen and white space.
-/

namespace HamlTemplate

open Unicode

structure Place where
  /-- The characters before it, last one first. -/
  before : Text := []
  /-- The characters behind it. -/
  rest : Text
  deriving DecidableEq, Repr

namespace Place

def advance (p : Place) (n : Nat) : Place := ⟨(p.rest.take n).reverse ++ p.before, p.rest.drop n⟩

/-- A word begins or ends here. -/
def atBoundary (p : Place) : Bool := p.before.head?.any isWord != p.rest.head?.any isWord

end Place

/-- A pattern gives its matches from a place on, preferred ones first: what has been found, and the
place behind it. -/
abbrev Pattern (α : Type) := Place → List (α × Place)

namespace Pattern

variable {α β : Type}

def skip : Pattern Unit := fun p => [((), p)]

def oneOf (words : List Text) : Pattern Text := fun p =>
  (words.filter fun word => word.isPrefixOf p.rest).map fun word => (word, p.advance word.length)

def mark (c : Char) : Pattern Unit := fun p =>
  if p.rest.head? = some c then [((), p.advance 1)] else []

/-- Matches at least that many characters of one kind, and rather more of them than fewer. -/
def run (least : Nat) (kind : Char → Bool) : Pattern Unit := fun p =>
  ((List.range ((p.rest.takeWhile kind).length + 1)).reverse.filter fun n => least ≤ n).map
    fun n => ((), p.advance n)

def andThen (first : Pattern α) (next : Pattern β) : Pattern β := fun p =>
  (first p).flatMap fun found => next found.2

/-- Matches one of two patterns, rather the first. -/
def orElse (first second : Pattern α) : Pattern α := fun p => first p ++ second p

def optional (q : Pattern Unit) : Pattern Unit := q.orElse skip

/-- Matches a pattern up to that many times, and rather more often. -/
def upTo (q : Pattern Unit) : Nat → Pattern Unit
  | 0 => skip
  | n + 1 => optional (q.andThen (upTo q n))

/-- Matches a pattern any number of times. Each match takes a character at least, so there are no
more of them than characters. -/
def many (q : Pattern Unit) : Pattern Unit := fun p => q.upTo p.rest.length p

def found (f : α → β) (q : Pattern α) : Pattern β := fun p => (q p).map fun m => (f m.1, m.2)

/-- Only the matches count that end where a word ends. -/
def wholeWord (q : Pattern α) : Pattern α := fun p => (q p).filter fun m => m.2.atBoundary

end Pattern

def openingWords : List Text := ["if", "begin", "case", "unless"].map String.toList

inductive BlockKeyword where
  /-- The line goes on with the block before it. -/
  | midBlock (word : Text)
  /-- The line begins a block. -/
  | opening (word : Text)
  deriving DecidableEq, Repr

namespace BlockKeyword

open Pattern

def space : Pattern Unit := run 0 isWhiteSpace

/-- The left of an assignment: names between commas, and an equals sign. -/
def assignment : Pattern Unit :=
  (run 1 isWord).andThen <|
    (many ((mark ',').andThen <| space.andThen <| run 1 isWord)).andThen <|
      space.andThen <| (mark '=').andThen space

/-- A word that goes on with a block, or one that begins a block and may stand on the right of an
assignment. -/
def words : Pattern BlockKeyword :=
  ((oneOf midBlockWords).found midBlock).orElse <|
    (optional assignment).andThen ((oneOf openingWords).found opening)

/-- The keyword at the beginning of a line, behind an optional hyphen and white space. -/
def pattern : Pattern BlockKeyword :=
  (optional (mark '-')).andThen <| space.andThen <| wholeWord words

end BlockKeyword

/-- The keyword of a text: the one in the preferred match of the pattern. -/
def Text.blockKeyword? (text : Text) : Option BlockKeyword :=
  (BlockKeyword.pattern { rest := text }).head?.map Prod.fst

/-- The text is an optional hyphen, white space, the word, and then the end of the text or a
character that is no word character. -/
def Text.LeadsWith (text word : Text) : Prop :=
  ∃ hyphen space rest, text = hyphen ++ (space ++ (word ++ rest)) ∧
    (hyphen = [] ∨ hyphen = ['-']) ∧ (∀ c ∈ space, isWhiteSpace c = true) ∧
    ∀ c ∈ rest.head?, isWord c = false

/-- The text begins with a word that goes on with a block. -/
def Text.BeginsMidBlock (text : Text) : Prop := ∃ word ∈ midBlockWords, text.LeadsWith word

namespace Pattern

variable {α β : Type} {p q : Place} {first : Pattern α} {next : Pattern β} {kind : Char → Bool}

theorem mem_oneOf {words : List Text} {word : Text} :
    (word, q) ∈ oneOf words p ↔ word ∈ words ∧ word <+: p.rest ∧ q = p.advance word.length := by
  simp only [oneOf, List.mem_map, List.mem_filter, List.isPrefixOf_iff_prefix, Prod.mk.injEq]
  constructor
  · rintro ⟨_, ⟨member, begins⟩, rfl, rfl⟩
    exact ⟨member, begins, rfl⟩
  · rintro ⟨member, begins, rfl⟩
    exact ⟨word, ⟨member, begins⟩, rfl, rfl⟩

theorem mem_andThen {b : β} :
    (b, q) ∈ (first.andThen next) p ↔ ∃ a m, (a, m) ∈ first p ∧ (b, q) ∈ next m := by
  simp only [andThen, List.mem_flatMap, Prod.exists]

/-- The preferred match of two patterns in a row begins with the preferred match of the first, if
the second matches behind that. -/
theorem head?_andThen {a : α} {m : Place} {found : β × Place} (one : (first p).head? = some (a, m))
    (two : (next m).head? = some found) : ((first.andThen next) p).head? = some found := by
  cases matched : first p with
  | nil => simp [matched] at one
  | cons match_ others =>
    rw [matched] at one
    cases one
    simp [andThen, matched, two]

theorem mem_run {least : Nat} (h : ((), q) ∈ run least kind p) :
    ∃ taken, p.rest = taken ++ q.rest ∧ ∀ c ∈ taken, kind c = true := by
  simp only [run, List.mem_map, List.mem_filter, List.mem_reverse, List.mem_range] at h
  obtain ⟨n, ⟨bound, _⟩, same⟩ := h
  cases same
  refine ⟨p.rest.take n, (List.take_append_drop n p.rest).symm, ?_⟩
  intro c member
  have within : p.rest.take n <+: p.rest.takeWhile kind := by
    apply List.prefix_of_prefix_length_le (List.take_prefix _ _) (List.takeWhile_prefix _)
    rw [List.length_take]
    omega
  exact List.mem_takeWhile_imp (within.subset member)

/-- A run goes on as long as it can. -/
theorem head?_run (kind : Char → Bool) (p : Place) :
    (run 0 kind p).head? = some ((), p.advance (p.rest.takeWhile kind).length) := by
  simp [run, List.range_succ]

private theorem head?_optional_mark (c : Char) (p : Place) :
    (optional (mark c) p).head? =
      some ((), if p.rest.head? = some c then p.advance 1 else p) := by
  simp only [optional, orElse, mark, skip]
  split <;> rfl

private theorem mem_optional_mark {c : Char} (h : ((), q) ∈ optional (mark c) p) :
    p.rest = q.rest ∨ p.rest = c :: q.rest := by
  simp only [optional, orElse, mark, skip, List.mem_append, List.mem_singleton] at h
  obtain marked | same := h
  · split at marked
    · rename_i begins
      cases List.mem_singleton.mp marked
      obtain ⟨rest, same⟩ := List.head?_eq_some_iff.mp begins
      exact .inr (by simp [Place.advance, same])
    · cases marked
  · cases same
    exact .inl rfl

end Pattern

/-! ### Words that go on with a block -/

namespace Text

variable {text word other : Text}

private theorem any_head?_eq_false_iff :
    text.head?.any isWord = false ↔ ∀ c ∈ text.head?, isWord c = false := by
  cases text with
  | nil => simp
  | cons c rest => simp

/-- The words that go on with a block are made of word characters, and do not begin like what may
stand before them. -/
theorem of_mem_midBlockWords (h : word ∈ midBlockWords) :
    (∃ c rest, word = c :: rest ∧ isWhiteSpace c = false ∧ c ≠ '-') ∧
      ∀ c ∈ word, isWord c = true := by
  have all : midBlockWords.all (fun word => (word.head?.any fun c => !isWhiteSpace c && c != '-') &&
      word.all isWord) = true := by decide
  have known := List.all_eq_true.mp all word h
  cases word with
  | nil => cases known
  | cons c rest =>
    simp only [List.head?_cons, Option.any_some, Bool.and_eq_true, Bool.not_eq_true', bne_iff_ne,
      List.all_eq_true] at known
    exact ⟨⟨c, rest, rfl, known.1⟩, known.2⟩

/-- What stands before a word that goes on with a block, a hyphen and white space, is told apart. -/
theorem leading_midBlock {space : Text} (h : word ∈ midBlockWords)
    (white : ∀ c ∈ space, isWhiteSpace c = true) (rest : Text) :
    (space ++ (word ++ rest)).head? ≠ some '-' ∧
      (space ++ (word ++ rest)).takeWhile isWhiteSpace = space ∧
      (space ++ (word ++ rest)).dropWhile isWhiteSpace = word ++ rest := by
  obtain ⟨⟨c, tail, rfl, visible, other⟩, _⟩ := of_mem_midBlockWords h
  constructor
  · cases space with
    | nil => simpa using other
    | cons d space =>
      rintro ⟨⟩
      exact absurd (white '-' List.mem_cons_self) (by decide)
  · apply takeWhile_append white
    rintro _ ⟨⟩
    exact visible

/-- A word that ends at a boundary is the longest run of word characters. -/
private theorem takeWhile_isWord {rest : Text} (h : ∀ c ∈ word, isWord c = true)
    (stops : ∀ c ∈ rest.head?, isWord c = false) : (word ++ rest).takeWhile isWord = word :=
  (takeWhile_append h stops).1

end Text

namespace BlockKeyword

open Pattern

variable {word : Text} {p q : Place}

/-- Behind word characters there is a boundary exactly where no word character follows. -/
theorem atBoundary_advance {rest : Text} (some : word ≠ []) (h : ∀ c ∈ word, isWord c = true)
    (split : p.rest = word ++ rest) :
    (p.advance word.length).atBoundary = true ↔ ∀ c ∈ rest.head?, isWord c = false := by
  have last : (word.reverse ++ p.before).head?.any isWord = true := by
    cases back : word.reverse with
    | nil => exact absurd (List.reverse_eq_nil_iff.mp back) some
    | cons c front => exact h c (List.mem_reverse.mp (by simp [back]))
  rw [Place.atBoundary, Place.advance, split, List.take_left, List.drop_left, last,
    ← Text.any_head?_eq_false_iff]
  simp

theorem mem_found {q : Pattern Text} {f : Text → BlockKeyword} {keyword : BlockKeyword}
    {p m : Place} : (keyword, m) ∈ q.found f p ↔ ∃ word, (word, m) ∈ q p ∧ f word = keyword := by
  simp [found]

theorem mem_midBlock : (.midBlock word, q) ∈ wholeWord words p ↔
    word ∈ midBlockWords ∧ ∃ rest, p.rest = word ++ rest ∧ (∀ c ∈ rest.head?, isWord c = false) ∧
      q = p.advance word.length := by
  have other : (.midBlock word, q) ∉
      (optional assignment).andThen ((oneOf openingWords).found opening) p := by
    rw [mem_andThen]
    rintro ⟨_, m, _, found⟩
    obtain ⟨_, _, same⟩ := mem_found.mp found
    cases same
  have own : (.midBlock word, q) ∈ (oneOf midBlockWords).found midBlock p ↔
      (word, q) ∈ oneOf midBlockWords p := by
    simp [mem_found]
  rw [wholeWord, List.mem_filter, words, orElse, List.mem_append, or_iff_left other, own,
    mem_oneOf]
  constructor
  · rintro ⟨⟨member, ⟨rest, split⟩, rfl⟩, boundary⟩
    obtain ⟨⟨c, _, rfl, _⟩, known⟩ := Text.of_mem_midBlockWords member
    rw [atBoundary_advance (List.cons_ne_nil _ _) known split.symm] at boundary
    exact ⟨member, rest, split.symm, boundary, rfl⟩
  · rintro ⟨member, rest, split, stops, rfl⟩
    obtain ⟨⟨c, _, rfl, _⟩, known⟩ := Text.of_mem_midBlockWords member
    refine ⟨⟨member, ⟨rest, split.symm⟩, rfl⟩, ?_⟩
    exact (atBoundary_advance (List.cons_ne_nil _ _) known split).mpr stops

/-- A word that goes on with a block is preferred to all other words, because no two of them can
end at a boundary of the same text. -/
theorem head?_midBlock {rest : Text} (h : word ∈ midBlockWords) (split : p.rest = word ++ rest)
    (stops : ∀ c ∈ rest.head?, isWord c = false) :
    (wholeWord words p).head? = some (.midBlock word, p.advance word.length) := by
  have known := (Text.of_mem_midBlockWords h).2
  -- Words that end at a boundary of the same text are the same run of word characters.
  have single : ∀ m ∈ wholeWord ((oneOf midBlockWords).found midBlock) p,
      m = (.midBlock word, p.advance word.length) := by
    rintro ⟨keyword, m⟩ member
    obtain ⟨inside, boundary⟩ := List.mem_filter.mp member
    obtain ⟨other, _, rfl⟩ := mem_found.mp inside
    have found : (.midBlock other, m) ∈ wholeWord words p :=
      List.mem_filter.mpr ⟨List.mem_append_left _ inside, boundary⟩
    obtain ⟨member', rest', split', stops', rfl⟩ := mem_midBlock.mp found
    have same : other = word := by
      have known' := (Text.of_mem_midBlockWords member').2
      rw [← Text.takeWhile_isWord known' stops', ← split', split,
        Text.takeWhile_isWord known stops]
    rw [same]
  rw [wholeWord, words, orElse, List.filter_append]
  cases matched : ((oneOf midBlockWords).found midBlock p).filter fun m => m.2.atBoundary with
  | nil =>
    have own : (word, p.advance word.length) ∈ oneOf midBlockWords p :=
      mem_oneOf.mpr ⟨h, ⟨rest, split.symm⟩, rfl⟩
    obtain ⟨c, _, rfl, _⟩ := (Text.of_mem_midBlockWords h).1
    have boundary := (atBoundary_advance (List.cons_ne_nil _ _) known split).mpr stops
    have found : (.midBlock _, p.advance _) ∈ (oneOf midBlockWords).found midBlock p :=
      mem_found.mpr ⟨_, own, rfl⟩
    exact absurd boundary (List.filter_eq_nil_iff.mp matched _ found)
  | cons first others =>
    rw [single first (by simp [wholeWord, matched])]
    rfl

end BlockKeyword

namespace Text

variable {text word : Text}

/-- The preferred match finds a word that goes on with a block exactly if the text leads with that
word. -/
theorem blockKeyword?_eq_midBlock_iff :
    text.blockKeyword? = some (.midBlock word) ↔ word ∈ midBlockWords ∧ text.LeadsWith word := by
  constructor
  · intro h
    obtain ⟨⟨_, e⟩, first, rfl⟩ := Option.map_eq_some_iff.mp h
    have matched := List.mem_of_mem_head? first
    obtain ⟨_, m, hyphen, spaced⟩ := Pattern.mem_andThen.mp matched
    obtain ⟨_, m', space, found⟩ := Pattern.mem_andThen.mp spaced
    obtain ⟨space, split, white⟩ := Pattern.mem_run space
    obtain ⟨member, rest, split', stops, _⟩ := BlockKeyword.mem_midBlock.mp found
    refine ⟨member, ?_⟩
    rw [split'] at split
    obtain same | same := Pattern.mem_optional_mark hyphen
    · exact ⟨[], space, rest, same.trans split, .inl rfl, white, stops⟩
    · exact ⟨['-'], space, rest, same.trans (by rw [split]; rfl), .inr rfl, white, stops⟩
  · rintro ⟨member, hyphen, space, rest, split, marked, white, stops⟩
    obtain ⟨unmarked, run, behind⟩ := leading_midBlock member white rest
    -- The preferred match takes the hyphen if there is one, and all of the white space.
    obtain ⟨m, one, after⟩ : ∃ m : Place,
        (Pattern.optional (Pattern.mark '-') { rest := text }).head? = some ((), m) ∧
          m.rest = space ++ (word ++ rest) := by
      refine ⟨_, Pattern.head?_optional_mark '-' _, ?_⟩
      obtain rfl | rfl := marked
      · rw [split, List.nil_append, if_neg unmarked]
      · simp [split, Place.advance]
    have two : (BlockKeyword.space m).head? =
        some ((), m.advance (m.rest.takeWhile isWhiteSpace).length) :=
      Pattern.head?_run isWhiteSpace m
    have place : (m.advance (m.rest.takeWhile isWhiteSpace).length).rest = word ++ rest := by
      rw [after, run, Place.advance, after, List.drop_left]
    have three := BlockKeyword.head?_midBlock member place stops
    have first := Pattern.head?_andThen one (Pattern.head?_andThen two three)
    rw [blockKeyword?, BlockKeyword.pattern, first]
    rfl

theorem startsWithWord_iff : text.startsWithWord word = true ↔
    ∃ rest, text = word ++ rest ∧ ∀ c ∈ rest.head?, isWord c = false := by
  simp only [startsWithWord, Bool.and_eq_true, List.isPrefixOf_iff_prefix, Bool.not_eq_true']
  constructor
  · rintro ⟨⟨rest, rfl⟩, stops⟩
    rw [List.drop_left, any_head?_eq_false_iff] at stops
    exact ⟨rest, rfl, stops⟩
  · rintro ⟨rest, rfl, stops⟩
    rw [List.drop_left, any_head?_eq_false_iff]
    exact ⟨List.prefix_append _ _, stops⟩

/-- The test for words that go on with a block is what is left of the pattern. -/
theorem continuesBlock_iff : text.continuesBlock = true ↔ text.BeginsMidBlock := by
  simp only [continuesBlock, List.any_eq_true, startsWithWord_iff, BeginsMidBlock, LeadsWith]
  refine exists_congr fun word => and_congr_right fun member => ?_
  constructor
  · rintro ⟨rest, code, stops⟩
    have leading : ∀ behind, trimStart behind = word ++ rest →
        behind = behind.takeWhile isWhiteSpace ++ (word ++ rest) := by
      intro behind code
      rw [← code]
      exact List.takeWhile_append_dropWhile.symm
    have white : ∀ behind : Text, ∀ c ∈ behind.takeWhile isWhiteSpace, isWhiteSpace c = true :=
      fun behind c => List.mem_takeWhile_imp
    split at code
    · rename_i behind
      exact ⟨['-'], _, rest, congrArg _ (leading behind code), .inr rfl, white _, stops⟩
    · exact ⟨[], _, rest, leading text code, .inl rfl, white _, stops⟩
  · rintro ⟨hyphen, space, rest, rfl, marked, white, stops⟩
    obtain ⟨unmarked, _, behind⟩ := leading_midBlock member white rest
    refine ⟨rest, ?_, stops⟩
    obtain rfl | rfl := marked
    · split
      · rename_i marked
        rw [List.nil_append] at marked
        rw [marked] at unmarked
        exact absurd rfl unmarked
      · exact behind
    · exact behind

theorem continuesAt_iff {source : Text} {n : Nat} : source.continuesAt n = true ↔
    ∃ line behind, ((Cursor.start source).skip (n - 1)).takeLine? = some (line, behind) ∧
      line.text.BeginsMidBlock := by
  simp only [continuesAt, Option.any_eq_true, Prod.exists, continuesBlock_iff]

end Text

/-- The flag of a script says exactly that the script has children and a next sibling, and that the
line of that sibling, read as a logical line, leads with a word that goes on with a block: an
optional hyphen, white space, the word, and nothing that the word could go on with. A keyword that
begins a block, on the right of an assignment or not, never sets it. -/
theorem midBlock_iff_of_parse {registry : Registry} {source : Text} {d : Document}
    (h : Document.parse registry source = .ok d) :
    (∀ node ∈ d.nodes, ∃ siblings ∈ d.siblingLists, node ∈ siblings) ∧
    ∀ siblings ∈ d.siblingLists, ∀ elder node younger, siblings = elder ++ node :: younger →
      ∀ flag, node.midBlock? = some flag →
        (flag = true ↔ (∃ child children, node.children? = some (child :: children)) ∧
          ∃ next, younger.head? = some next ∧ ∃ line behind,
            ((Cursor.start source).skip (next.line - 1)).takeLine? = some (line, behind) ∧
              line.text.BeginsMidBlock) ∧
        ∀ next, younger.head? = some next → ∀ line behind,
          ((Cursor.start source).skip (next.line - 1)).takeLine? = some (line, behind) →
            ∀ word, line.text.blockKeyword? = some (.opening word) → flag = false := by
  refine ⟨fun node member => Document.exists_siblings member, ?_⟩
  intro siblings member elder node younger split flag script
  have row := Document.row_of_mem_siblingLists h member
  have set_iff := (row.flagged split).eq_true_iff script
  simp only [Option.any_map, Option.any_eq_true, Text.continuesAt_iff] at set_iff
  refine ⟨set_iff, ?_⟩
  intro next following line behind read word opening
  rw [Bool.eq_false_iff]
  intro set
  obtain ⟨_, next', following', line', behind', read', word', leads⟩ := set_iff.mp set
  cases following.symm.trans following'
  cases read.symm.trans read'
  have found := Text.blockKeyword?_eq_midBlock_iff.mpr leads
  rw [opening] at found
  cases found

/-- The line with `else` goes on with a block. The one with the assignment begins a block, and its
own block does not go on with `when`, because nothing is nested in it. -/
theorem midBlock_iff_of_parse_case :
    ∃ d, Document.parse .builtins
        "- if a\n  b\n-  else\n  c\n- x, y = case z\n- when 1\n  d\n".toList = .ok d ∧
      d.roots.map Node.midBlock? = [some true, some false, some false, some false] ∧
      ∃ siblings ∈ d.siblingLists, ∃ node younger, siblings = node :: younger ∧
        ∃ next, younger.head? = some next ∧ ∃ line behind,
          ((Cursor.start "- if a\n  b\n-  else\n  c\n- x, y = case z\n- when 1\n  d\n".toList).skip
            (next.line - 1)).takeLine? = some (line, behind) ∧ line.text.BeginsMidBlock := by
  have parsed : Document.parse .builtins
      "- if a\n  b\n-  else\n  c\n- x, y = case z\n- when 1\n  d\n".toList = .ok ⟨7, [
        .block 1 (.silentScript "if a".toList true) [.leaf 2 (.text ['b'])],
        .block 3 (.silentScript "else".toList false) [.leaf 4 (.text ['c'])],
        .block 5 (.silentScript "x, y = case z".toList false) [],
        .block 6 (.silentScript "when 1".toList false) [.leaf 7 (.text ['d'])]]⟩ := by
    decide +kernel
  have flagged := (midBlock_iff_of_parse parsed).2 _ List.mem_cons_self [] _ [_, _, _] rfl true rfl
  exact ⟨_, parsed, rfl, _, List.mem_cons_self, _, _, rfl, (flagged.1.mp rfl).2⟩

example : Text.blockKeyword? "- x, y = case z".toList = some (.opening "case".toList) := by decide

end HamlTemplate
